import PeerProtocol.Proofs.Encoding
import PeerProtocol.Message

/-!
# Writing into a buffer

What a program does that appends to a buffer step by step: an error ends it, and what was appended
before stays in the buffer (`Writing`). A writing is `Whole` if it appends an encoding or fails
without a trace. That of an address is, in every layout (`Address.whole_write`), because the host is
looked at before the first byte is appended. That of a list is not: where an entry fails, the count
and the entries before it are in the buffer already (`AddressList.on_writeFields`). So a message is
written into a buffer of its own first, of which nothing is left when that fails
(`Message.fresh_writeFields`).
-/

namespace PeerProtocol

open Bytes

/-- Steps that append to a buffer and may end in an error. -/
abbrev Writing (α : Type) : Type := ExceptT CodecError (StateM Bytes) α

namespace Writing

variable {α β : Type}

/-- What comes of a writing on a buffer, and the buffer afterwards. -/
def on (writing : Writing α) (out : Bytes) : Except CodecError α × Bytes :=
  StateT.run (ExceptT.run writing) out

/-- Appends bytes. -/
def append (bytes : Bytes) : Writing Unit :=
  modify (· ++ bytes)

/-- Goes on with a result that was computed without the buffer, if it is not an error. -/
def ofResult (result : Except CodecError α) : Writing α :=
  ExceptT.mk (pure result)

/-- What a writing makes of a buffer of its own. -/
def fresh (writing : Writing Unit) : Except CodecError Bytes :=
  match writing.on [] with
  | (.ok (), scratch) => .ok scratch
  | (.error error, _) => .error error

/-- Nothing more is appended. -/
@[simp] theorem on_pure (value : α) (out : Bytes) :
    (pure value : Writing α).on out = (.ok value, out) := rfl

/-- Bytes are appended at the end. -/
@[simp] theorem on_append (bytes out : Bytes) :
    (append bytes).on out = (.ok (), out ++ bytes) := rfl

/-- An error of a result leaves the buffer. -/
@[simp] theorem on_ofResult (result : Except CodecError α) (out : Bytes) :
    (ofResult result).on out = (result, out) := rfl

/-- An error leaves the buffer. -/
@[simp] theorem on_throw (error : CodecError) (out : Bytes) :
    (throw error : Writing α).on out = (.error error, out) := rfl

/-- What follows is done on the buffer that the first steps leave, unless they failed. -/
theorem on_bind (first : Writing α) (next : α → Writing β) (out : Bytes) :
    (first >>= next).on out =
      match first.on out with
      | (.ok value, out) => (next value).on out
      | (.error error, out) => (.error error, out) := by
  unfold on ExceptT.run StateT.run
  simp only [bind, ExceptT.bind, ExceptT.mk, StateT.bind]
  cases first out with
  | mk result out => cases result <;> rfl

/-- After bytes were appended the others follow. -/
@[simp] theorem on_append_bind (bytes : Bytes) (next : Writing α) (out : Bytes) :
    (append bytes >>= fun _ => next).on out = next.on (out ++ bytes) := by
  rw [on_bind, on_append]

/-- The whole of an encoding is appended; or it is an error, which comes of the writing and leaves
the buffer as it was. -/
def Whole (writing : Writing Unit) (encoded : Except CodecError Bytes) : Prop :=
  ∀ out, writing.on out =
    match encoded with
    | .ok bytes => (.ok (), out ++ bytes)
    | .error error => (.error error, out)

/-- What is computed before anything is appended decides between the two. -/
theorem whole_bind {result : Except CodecError α} {next : α → Writing Unit}
    {encoded : α → Except CodecError Bytes} (h : ∀ value, Whole (next value) (encoded value)) :
    Whole (ofResult result >>= next) (result.bind encoded) := by
  intro out
  rw [on_bind, on_ofResult]
  cases result with
  | error error => rfl
  | ok value => exact h value out

/-- Bytes that are kept are appended in place of the fields. -/
theorem whole_contribution {encoding : Encoding} {writing : Writing Unit}
    {fields : Except CodecError Bytes} (h : Whole writing fields) :
    Whole (match encoding.current? with | some bytes => append bytes | none => writing)
      (encoding.contribution fields) := by
  unfold Encoding.contribution
  cases encoding.current? with
  | none => exact h
  | some bytes => exact fun out => on_append bytes out

end Writing

open Writing (append ofResult)

/-! ## Addresses -/

namespace Endpoint

/-- Appends the fields of an endpoint in a layout. What the layout needs of the host comes first. -/
def write (layout : Layout) (endpoint : Endpoint) : Writing Unit := do
  match layout with
  | .embedded =>
    let address ← ofResult (endpoint.hostPart Host.toOctets16)
    append (littleEndian 8 endpoint.services.bits.toNat)
    append address
  | .timed =>
    let address ← ofResult (endpoint.hostPart Host.toOctets16)
    append endpoint.timeBytes
    append (littleEndian 8 endpoint.services.bits.toNat)
    append address
  | .tagged =>
    let (networkId, address) ← ofResult (endpoint.hostPart Host.toEntry)
    append endpoint.timeBytes
    append (CompactSize.encode endpoint.services.bits)
    append [networkId]
    append (CompactSize.encode (UInt64.ofNat address.length))
    append address
  append (bigEndian 2 endpoint.port.toNat)

/-- An endpoint is written as a whole or not at all. -/
theorem whole_write (layout : Layout) (endpoint : Endpoint) :
    Writing.Whole (endpoint.write layout) (endpoint.encode layout) := by
  intro out
  cases layout with
  | embedded =>
    simp only [write, encode, Writing.on_bind, Writing.on_ofResult]
    cases endpoint.hostPart Host.toOctets16 with
    | error error => rfl
    | ok address => simp [plainFields, bind, Except.bind, pure, Except.pure]
  | timed =>
    simp only [write, encode, Writing.on_bind, Writing.on_ofResult]
    cases endpoint.hostPart Host.toOctets16 with
    | error error => rfl
    | ok address => simp [plainFields, bind, Except.bind, pure, Except.pure]
  | tagged =>
    simp only [write, encode, Writing.on_bind, Writing.on_ofResult]
    cases endpoint.hostPart Host.toEntry with
    | error error => rfl
    | ok entry => simp [bind, Except.bind, pure, Except.pure]

end Endpoint

namespace Address

/-- Appends the fields of an address in the layout that its version names. -/
def writeFields (address : Address) : Writing Unit := do
  let layout ← ofResult (layoutOf address.version)
  address.endpoint.write layout

/-- Appends the bytes that are kept, else the fields. -/
def write (address : Address) : Writing Unit :=
  match address.encoding.current? with
  | some bytes => append bytes
  | none => address.writeFields

/-- The fields of an address are written as a whole or not at all. -/
theorem whole_writeFields (address : Address) :
    Writing.Whole address.writeFields address.fields :=
  Writing.whole_bind fun layout => address.endpoint.whole_write layout

/-- An address is written as a whole or not at all. -/
theorem whole_write (address : Address) : Writing.Whole address.write address.contribution :=
  Writing.whole_contribution address.whole_writeFields

/-- An address that is not encoded is what it was. -/
theorem serialize_eq_error {address after : Address} {error : CodecError}
    (h : address.serialize = (.error error, after)) : after = address := by
  obtain ⟨hresult, rfl⟩ := Prod.mk.inj h
  have hkept : (address.encoding.serialize address.fields).2 = address.encoding :=
    Encoding.serialize_eq_error (Prod.ext hresult rfl)
  exact congrArg (fun encoding => { address with encoding := encoding }) hkept

end Address

/-! ## Lists -/

/-- A number takes at least one byte. -/
theorem CompactSize.encode_ne_nil (value : UInt64) : encode value ≠ [] := by
  unfold encode
  split
  · exact List.cons_ne_nil _ _
  · split
    · exact List.cons_ne_nil _ _
    · split <;> exact List.cons_ne_nil _ _

namespace AddressList

/-- Appends entries in order, up to the first that fails. -/
def writeEntries : List Address → Writing Unit
  | [] => pure ()
  | entry :: rest => do
      entry.write
      writeEntries rest

/-- Appends the count and the entries. -/
def writeFields (list : AddressList) : Writing Unit := do
  append (CompactSize.encode (UInt64.ofNat list.entries.length))
  writeEntries list.entries

/-- What is contributed by the entries before the first that fails. -/
def contributed : List Address → Bytes
  | [] => []
  | entry :: rest =>
    match entry.contribution with
    | .error _ => []
    | .ok bytes => bytes ++ contributed rest

/-- Where no entry fails all of them contribute. -/
theorem contributed_of_entriesFields {entries : List Address} {bytes : Bytes}
    (h : entriesFields entries = .ok bytes) : contributed entries = bytes := by
  induction entries generalizing bytes with
  | nil => exact Except.ok.inj h
  | cons entry rest ih =>
    unfold entriesFields at h
    unfold contributed
    cases hentry : entry.contribution with
    | error error => rw [hentry] at h; cases h
    | ok front =>
      rw [hentry] at h
      cases hrest : entriesFields rest with
      | error error => rw [hrest] at h; cases h
      | ok back =>
        rw [hrest] at h
        simp only [ih hrest]
        exact Except.ok.inj h

/-- Writing entries leaves those before the first that fails in the buffer, with its error. -/
theorem on_writeEntries (entries : List Address) (out : Bytes) :
    (writeEntries entries).on out =
      ((entriesFields entries).map fun _ => (), out ++ contributed entries) := by
  induction entries generalizing out with
  | nil => simp [writeEntries, entriesFields, contributed, Except.map]
  | cons entry rest ih =>
    rw [writeEntries, Writing.on_bind, entry.whole_write, entriesFields, contributed]
    cases entry.contribution with
    | error error => simp [Except.map, bind, Except.bind]
    | ok front =>
      simp only [ih, List.append_assoc]
      cases entriesFields rest with
      | error error => rfl
      | ok back => rfl

/-- Writing a list leaves the count and the entries before the first that fails in the buffer. -/
theorem on_writeFields (list : AddressList) (out : Bytes) :
    list.writeFields.on out =
      (list.fields.map fun _ => (),
        out ++ (CompactSize.encode (UInt64.ofNat list.entries.length) ++
          contributed list.entries)) := by
  rw [writeFields, Writing.on_append_bind, on_writeEntries, List.append_assoc, fields]
  cases entriesFields list.entries with
  | error error => rfl
  | ok bytes => rfl

/-- A list that fails does not leave the buffer as it was. -/
theorem on_writeFields_ne {list : AddressList} {error : CodecError} {out left : Bytes}
    (h : list.writeFields.on out = (.error error, left)) : left ≠ out := by
  rw [on_writeFields] at h
  obtain rfl := (Prod.mk.inj h).2
  intro hsame
  have hnothing := List.append_right_eq_self.1 hsame
  exact CompactSize.encode_ne_nil _ (List.append_eq_nil_iff.1 hnothing).1

/-- An entry without a host fails when the count and the entry before it have been written. -/
example :
    let dialect : Dialect := ⟨.main, Layout.tagged.version, false⟩
    let entry (host : Option Host) : Address :=
      ⟨.fresh dialect none, .free, ⟨host, 8333, .empty, none⟩⟩
    let known := entry (some (.ip (.v4 ⟨[10, 0, 0, 1], rfl⟩)))
    let list : AddressList := ⟨.fresh dialect none, ⟨0⟩, .addrv2, [known, entry none]⟩
    list.writeFields.on [] =
      (.error (.unencodable .unknownNetwork),
        [2, 0, 0, 0, 0, 0, 1, 4, 10, 0, 0, 1, 0x20, 0x8D]) := rfl

/-- What a list makes of a buffer of its own are its fields. -/
theorem fresh_writeFields (list : AddressList) : list.writeFields.fresh = list.fields := by
  rw [Writing.fresh, on_writeFields, fields]
  cases hentries : entriesFields list.entries with
  | error error => rfl
  | ok bytes =>
    rw [contributed_of_entriesFields hentries]
    rfl

/-- A list that is not encoded is what it was, and so are its entries. -/
theorem serialize_eq_error {list after : AddressList} {error : CodecError}
    (h : list.serialize = (.error error, after)) : after = list := by
  obtain ⟨hresult, rfl⟩ := Prod.mk.inj h
  have hkept : (list.encoding.serialize list.fields).2 = list.encoding :=
    Encoding.serialize_eq_error (Prod.ext hresult rfl)
  exact congrArg (fun encoding => { list with encoding := encoding }) hkept

end AddressList

/-! ## Messages -/

namespace Message

/-- Appends the fields of a message. -/
def writeFields : Message → Writing Unit
  | .ping _ (some nonce) => append (littleEndian 8 nonce.toNat)
  | .ping _ none => pure ()
  | .pong _ nonce => append (littleEndian 8 nonce.toNat)
  | .sendAddrV2 _ => pure ()
  | .addresses list => list.writeFields
  | .unknown _ _ payload => append payload

/-- What a message makes of a buffer of its own are its fields. -/
theorem fresh_writeFields (message : Message) : message.writeFields.fresh = message.fields := by
  cases message with
  | ping encoding nonce =>
    cases nonce with
    | none => rfl
    | some nonce => rfl
  | addresses list => exact list.fresh_writeFields
  | pong | sendAddrV2 | unknown => rfl

/-- A message that is not encoded is what it was: its fields, the length and the bytes that are
known of it, and the entries of a list with what is known of theirs. -/
theorem serialize_eq_error {message after : Message} {error : CodecError}
    (h : message.serialize = (.error error, after)) : after = message := by
  obtain ⟨hresult, rfl⟩ := Prod.mk.inj h
  have hkept : (message.encoding.serialize message.fields).2 = message.encoding :=
    Encoding.serialize_eq_error (Prod.ext hresult rfl)
  have hsame : message.withEncoding message.encoding = message := by cases message <;> rfl
  exact (congrArg message.withEncoding hkept).trans hsame

end Message

end PeerProtocol
