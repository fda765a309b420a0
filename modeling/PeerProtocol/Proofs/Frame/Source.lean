import PeerProtocol.Proofs.Frame.RoundTrip

/-!
# Frames from a source

A frame that is pulled out of a source byte by byte is the one that a buffer of the same bytes is
decoded as: the two stop at the same place, say the same of broken frames, and where the buffer
holds no whole frame the source is at its end. What is wrong with bytes is never confused with the
end of their source (`Inherent`), so the outcome of reading tells the outcomes of decoding apart.
The main statement is `agrees_read`, which also follows a source frame after frame.
-/

namespace PeerProtocol

open Bytes

/-! ## What is wrong with the bytes -/

/-- If anything is wrong, it is so with the bytes and not with the source that they come from. -/
def Inherent {α : Type} (result : Except CodecError α) : Prop :=
  result ≠ .error .endOfSource

variable {α β : Type}

/-- A result is not wrong. -/
theorem inherent_ok (value : α) : Inherent (.ok value) := fun h => by cases h

/-- Every error but one is inherent. -/
theorem inherent_error {error : CodecError} (h : error ≠ .endOfSource) :
    Inherent (.error error : Except CodecError α) := fun herror => h (Except.error.inj herror)

/-- Of two steps neither may confuse them. -/
theorem Inherent.bind {first : Except CodecError α} {next : α → Except CodecError β}
    (hfirst : Inherent first) (hnext : ∀ value, Inherent (next value)) :
    Inherent (first >>= next) := by
  cases first with
  | error error => exact inherent_error fun h => hfirst (by rw [h])
  | ok value => exact hnext value

/-- What is made of a result does not matter. -/
theorem Inherent.map {result : Except CodecError α} (h : Inherent result) (f : α → β) :
    Inherent (result.map f) := by
  cases result with
  | error error => exact inherent_error fun herror => h (by rw [herror])
  | ok value => exact inherent_ok (f value)

/-- A number that ends too early is inherently wrong. -/
theorem inherent_littleEndian (field : Field) (width : Nat) (bytes : Bytes) :
    Inherent (readLittleEndian field width bytes) := by
  unfold readLittleEndian
  split
  next => exact inherent_error (by simp)
  next => exact inherent_ok _

/-- A number that ends too early is inherently wrong. -/
theorem inherent_bigEndian (field : Field) (width : Nat) (bytes : Bytes) :
    Inherent (readBigEndian field width bytes) := by
  unfold readBigEndian
  split
  next => exact inherent_error (by simp)
  next => exact inherent_ok _

/-- A CompactSize number is inherently wrong where it ends too early. -/
theorem CompactSize.inherent_decode (bytes : Bytes) : Inherent (decode bytes) := by
  have hfixed (field : Field) (width : Nat) (bytes : Bytes) :
      Inherent (decodeFixed field width bytes) :=
    (inherent_littleEndian field width bytes).bind fun _ => inherent_ok _
  cases bytes with
  | nil => exact inherent_error (by simp)
  | cons marker rest =>
    rw [decode]
    split
    next => exact hfixed .compactSize16 2 rest
    next =>
      split
      next => exact hfixed .compactSize32 4 rest
      next =>
        split
        next => exact hfixed .compactSize64 8 rest
        next => exact inherent_ok _

/-- Address bytes of another number than their network has are inherently wrong. -/
theorem Host.inherent_ofEntry (networkId : UInt8) (address : Bytes) :
    Inherent (ofEntry networkId address) := by
  have hoctets (count : Nat) : Inherent (entryOctets networkId count address) := by
    unfold entryOctets
    split
    next => exact inherent_ok _
    next => exact inherent_error (by simp)
  unfold ofEntry
  split
  next => exact (hoctets 4).map _
  next =>
    split
    next => exact (hoctets 16).map _
    next =>
      split
      next => exact (hoctets 10).map _
      next =>
        split
        next => exact (hoctets 32).map _
        next => exact inherent_ok none

namespace Endpoint

/-- A port is inherently wrong where it ends too early. -/
theorem inherent_decodePort (bytes : Bytes) : Inherent (decodePort bytes) :=
  (inherent_bigEndian .port 2 bytes).bind fun _ => inherent_ok _

/-- A time is inherently wrong where it ends too early. -/
theorem inherent_decodeTime (bytes : Bytes) : Inherent (decodeTime bytes) :=
  (inherent_littleEndian .word32 4 bytes).bind fun _ => inherent_ok _

/-- What is wrong with the plain fields is inherent. -/
theorem inherent_decodePlainFields (time : Option UInt32) (bytes : Bytes) :
    Inherent (decodePlainFields time bytes) := by
  refine (inherent_littleEndian .word64 8 bytes).bind fun services => ?_
  dsimp only
  split
  next => exact inherent_error (by simp)
  next octets rest _ => exact (inherent_decodePort rest).bind fun _ => inherent_ok _

/-- What is wrong with a tagged entry is inherent. -/
theorem inherent_decodeTagged (bytes : Bytes) : Inherent (decodeTagged bytes) := by
  refine (inherent_decodeTime bytes).bind fun time => ?_
  refine (CompactSize.inherent_decode time.2).bind fun services => ?_
  refine (inherent_littleEndian .networkId 1 services.2).bind fun networkId => ?_
  refine (CompactSize.inherent_decode networkId.2).bind fun length => ?_
  dsimp only
  split
  next => exact inherent_error (by simp)
  next =>
    split
    next => exact inherent_error (by simp)
    next address rest _ =>
      refine (Host.inherent_ofEntry (UInt8.ofNat networkId.1) address).bind fun host => ?_
      exact (inherent_decodePort rest).bind fun _ => inherent_ok _

/-- What is wrong with an endpoint is inherent, in every layout. -/
theorem inherent_decode (layout : Layout) (bytes : Bytes) : Inherent (decode layout bytes) := by
  cases layout with
  | embedded => exact inherent_decodePlainFields none bytes
  | timed =>
    exact (inherent_decodeTime bytes).bind fun time =>
      inherent_decodePlainFields (some time.1) time.2
  | tagged => exact inherent_decodeTagged bytes

end Endpoint

/-- What is wrong with an address is inherent. -/
theorem Address.inherent_parse (dialect : Dialect) (payload : Bytes) (offset : Nat)
    (owner : Option ListId) : Inherent (parse dialect payload offset owner) := by
  have hlayout : Inherent (layoutOf dialect.version) := by
    unfold layoutOf
    split
    next => exact inherent_ok _
    next => exact inherent_error (by simp)
  refine hlayout.bind fun layout => ?_
  exact (Endpoint.inherent_decode layout (payload.drop offset)).bind fun _ => inherent_ok _

/-- What is wrong with entries is inherent. -/
theorem AddressList.inherent_parseEntries (dialect : Dialect) (owner : ListId) (payload : Bytes)
    (count offset : Nat) : Inherent (parseEntries dialect owner payload count offset) := by
  induction count generalizing offset with
  | zero => exact inherent_ok _
  | succ count ih =>
    refine (Address.inherent_parse dialect payload offset (some owner)).bind fun entry => ?_
    exact (ih (offset + entry.2)).bind fun _ => inherent_ok _

/-- What is wrong with a list is inherent. -/
theorem AddressList.inherent_parse (dialect : Dialect) (format : ListFormat) (id : ListId)
    (payload : Bytes) : Inherent (parse dialect format id payload) := by
  refine (CompactSize.inherent_decode payload).bind fun count => ?_
  dsimp only
  split
  next => exact inherent_error (by simp)
  next => exact (inherent_parseEntries _ id payload _ _).bind fun _ => inherent_ok _

/-- What is wrong with a payload is inherent, under every name. -/
theorem Message.inherent_parse (dialect : Dialect) (id : ListId) (name : String)
    (payload : Bytes) : Inherent (parse dialect id name payload) := by
  have hnonce : Inherent (parseNonce payload) :=
    (inherent_littleEndian .word64 8 payload).bind fun _ => inherent_ok _
  unfold parse
  split
  next => split <;> exact inherent_ok _
  next => exact hnonce.bind fun _ => inherent_ok _
  next => exact inherent_ok _
  next => exact (AddressList.inherent_parse dialect .addr id payload).map _
  next => exact (AddressList.inherent_parse dialect .addrv2 id payload).map _
  next => exact inherent_ok _

namespace Header

/-- What is wrong with a header is inherent. -/
theorem inherent_decode (bytes : Bytes) : Inherent (decode bytes) := by
  unfold decode
  split
  next => exact inherent_error (by simp)
  next =>
    dsimp only
    split
    next => exact inherent_error (by simp)
    next =>
      split
      next => exact inherent_error (by simp)
      next => exact inherent_ok _

/-- What is wrong with the payload behind a header is inherent. -/
theorem inherent_message (header : Header) (dialect : Dialect) (id : ListId) (payload : Bytes) :
    Inherent (header.message dialect id payload) := by
  unfold message
  dsimp only
  split
  next => exact Message.inherent_parse dialect id header.command payload
  next => exact inherent_error (by simp)

end Header

/-! ## Pulling a frame -/

/-- The bytes after a magic that a search finds are what is left of a source once the magic is
pulled out of it. -/
theorem MagicSearch.skipMagic_of_found {magic bytes : Bytes} {matched count start : Nat}
    (h : scan magic matched count bytes = .found start) :
    count < start ∧ Frame.skipMagic magic matched bytes = some (bytes.drop (start - count)) := by
  induction bytes generalizing matched count with
  | nil => cases h
  | cons byte rest ih =>
    simp only [scan] at h
    simp only [Frame.skipMagic]
    split at h
    next hcomplete =>
      obtain rfl := found.inj h
      rw [if_pos hcomplete, Nat.add_sub_cancel_left]
      exact ⟨Nat.lt_succ_self count, rfl⟩
    next hne =>
      obtain ⟨hlt, hskip⟩ := ih h
      have hsteps : start - count = (start - (count + 1)) + 1 := by omega
      rw [if_neg hne, hskip, hsteps, List.drop_succ_cons]
      exact ⟨by omega, rfl⟩

/-- A source in which a search finds no magic ends before one is pulled out of it. -/
theorem MagicSearch.skipMagic_of_absent {magic bytes : Bytes} {matched count discard : Nat}
    (h : scan magic matched count bytes = .absent discard) :
    Frame.skipMagic magic matched bytes = none := by
  induction bytes generalizing matched count with
  | nil => rfl
  | cons byte rest ih =>
    simp only [scan] at h
    simp only [Frame.skipMagic]
    split at h
    next => cases h
    next hne =>
      rw [if_neg hne]
      exact ih h

namespace Frame

variable {dialect : Dialect} {id : ListId} {buffer : Bytes}

/-- What is wrong with a frame is inherent. -/
theorem inherent_decode (dialect : Dialect) (id : ListId) (buffer : Bytes) :
    Inherent (decode dialect id buffer) := by
  unfold decode
  split
  next => exact inherent_ok none
  next =>
    split
    next => exact inherent_ok none
    next raw rest _ =>
      refine (Header.inherent_decode raw).bind fun header => ?_
      split
      next => exact inherent_ok none
      next payload _ _ =>
        exact (header.inherent_message dialect id payload).bind fun _ => inherent_ok _

/-- Reading a source is decoding it as a buffer: behind a frame the source holds what the frame did
not use, and without a whole frame it is at its end. -/
theorem read_eq (dialect : Dialect) (id : ListId) (source : Bytes) :
    read dialect id source =
      match decode dialect id source with
      | .error error => .error error
      | .ok none => .error .endOfSource
      | .ok (some (message, used)) => .ok (message, source.drop used) := by
  cases hseek : dialect.network.seekMagic source with
  | absent discard =>
    rw [decode_of_absent hseek, read, MagicSearch.skipMagic_of_absent hseek]
  | found start =>
    obtain ⟨-, hskip⟩ := MagicSearch.skipMagic_of_found hseek
    rw [Nat.sub_zero] at hskip
    unfold read decode
    simp only [hskip, hseek]
    cases hraw : split? Header.length (source.drop start) with
    | none => rfl
    | some parts =>
      obtain ⟨raw, body⟩ := parts
      dsimp only
      cases Header.decode raw with
      | error error => rfl
      | ok header =>
        simp only [bind, Except.bind]
        cases hpayload : split? header.size body with
        | none => rfl
        | some parts =>
          obtain ⟨payload, rest⟩ := parts
          dsimp only
          cases header.message dialect id payload with
          | error error => rfl
          | ok message =>
            have hrest : source.drop (start + Header.length + header.size) = rest := by
              rw [← List.drop_drop, ← List.drop_drop, drop_of_split? hraw,
                drop_of_split? hpayload]
            simp only [pure, Except.pure, hrest]

/-- The frames of a buffer with the positions at which they end, when the first one is looked for
from an offset on. -/
def ends (offset : Nat) : List (Message × Nat) → List (Message × Nat)
  | [] => []
  | (message, used) :: frames => (message, offset + used) :: ends (offset + used) frames

/-- What a source and a buffer of the same bytes have in common. -/
structure Agrees (dialect : Dialect) (id : ListId) (buffer : Bytes) : Prop where
  /-- A message is read off the source up to a position exactly if it is decoded off the buffer up
  to there. -/
  message_iff : ∀ message position,
    (∃ front rest, buffer = front ++ rest ∧ front.length = position ∧
      read dialect id buffer = .ok (message, rest)) ↔
    decode dialect id buffer = .ok (some (message, position))
  /-- Whatever else is wrong with the source than its end is wrong with the buffer. -/
  error_iff : ∀ error, (read dialect id buffer = .error error ∧ error ≠ .endOfSource) ↔
    decode dialect id buffer = .error error
  /-- The source is at its end exactly if the buffer holds no whole frame. -/
  end_iff : read dialect id buffer = .error .endOfSource ↔ decode dialect id buffer = .ok none
  /-- All frames that are decoded end within the buffer. -/
  within : ∀ frame ∈ ends 0 (decodeAll dialect id buffer).1, frame.2 ≤ buffer.length
  /-- Reading again and again gives the same messages, and stops after each at the same position, as
  decoding the rest of the buffer again and again. -/
  messages : ∀ count, (readMany dialect id count buffer).1 =
    ((ends 0 (decodeAll dialect id buffer).1).take count).map fun frame =>
      (frame.1, buffer.drop frame.2)
  /-- Reading fails only behind all of these messages, and then as decoding does, or because the
  source is at its end. -/
  error : ∀ count, (readMany dialect id count buffer).2 =
    if count ≤ (decodeAll dialect id buffer).1.length then none
    else some ((decodeAll dialect id buffer).2.getD .endOfSource)

/-- Every frame ends within the buffer. -/
theorem ends_le {offset : Nat} (hoffset : offset ≤ buffer.length) :
    ∀ frame ∈ ends offset (decodeAll dialect id (buffer.drop offset)).1,
      frame.2 ≤ buffer.length := by
  induction hlength : buffer.length - offset using Nat.strongRecOn generalizing id offset with
  | _ length ih =>
  cases hdecode : decode dialect id (buffer.drop offset) with
  | error error => simp [decodeAll_of_error hdecode, ends]
  | ok frame =>
    cases frame with
    | none => simp [decodeAll_of_none hdecode, ends]
    | some frame =>
      obtain ⟨message, used⟩ := frame
      obtain ⟨hpos, hused⟩ := used_le_length hdecode
      rw [List.length_drop] at hused
      have hnext : offset + used ≤ buffer.length := by omega
      rw [decodeAll_of_some hdecode, List.drop_drop]
      exact List.forall_mem_cons.2 ⟨hnext, ih _ (by omega) hnext rfl⟩

/-- Reading on from an offset is decoding on from there, frame after frame. -/
theorem readMany_eq (dialect : Dialect) (id : ListId) (count : Nat) (buffer : Bytes)
    (offset : Nat) :
    readMany dialect id count (buffer.drop offset) =
      (((ends offset (decodeAll dialect id (buffer.drop offset)).1).take count).map
          fun frame => (frame.1, buffer.drop frame.2),
        if count ≤ (decodeAll dialect id (buffer.drop offset)).1.length then none
        else some ((decodeAll dialect id (buffer.drop offset)).2.getD .endOfSource)) := by
  induction count generalizing id offset with
  | zero => rfl
  | succ count ih =>
    have hread := read_eq dialect id (buffer.drop offset)
    cases hdecode : decode dialect id (buffer.drop offset) with
    | error error =>
      rw [hdecode] at hread
      rw [decodeAll_of_error hdecode, readMany, hread]
      rfl
    | ok frame =>
      rw [hdecode] at hread
      cases frame with
      | none =>
        rw [decodeAll_of_none hdecode, readMany, hread]
        rfl
      | some frame =>
        obtain ⟨message, used⟩ := frame
        rw [decodeAll_of_some hdecode, readMany, hread]
        dsimp only
        rw [List.drop_drop, ih id.next (offset + used)]
        simp only [ends, List.take_succ_cons, List.map_cons, List.length_cons,
          Nat.add_le_add_iff_right]

/-- A source and a buffer of the same bytes agree, on the first frame and frame after frame. -/
theorem agrees_read (dialect : Dialect) (id : ListId) (buffer : Bytes) :
    Agrees dialect id buffer where
  message_iff message position := by
    rw [read_eq]
    cases hdecode : decode dialect id buffer with
    | error error => simp
    | ok frame =>
      cases frame with
      | none => simp
      | some frame =>
        obtain ⟨first, used⟩ := frame
        obtain ⟨-, hused⟩ := used_le_length hdecode
        simp only [Except.ok.injEq, Option.some.injEq, Prod.mk.injEq]
        constructor
        · rintro ⟨front, rest, hbuffer, rfl, rfl, hrest⟩
          have hlength := congrArg List.length hrest
          rw [List.length_drop, hbuffer, List.length_append] at hlength
          rw [hbuffer, List.length_append] at hused
          exact ⟨rfl, by omega⟩
        · rintro ⟨rfl, rfl⟩
          exact ⟨buffer.take used, buffer.drop used, (List.take_append_drop _ _).symm,
            List.length_take_of_le hused, rfl, rfl⟩
  error_iff error := by
    have hinherent := inherent_decode dialect id buffer
    rw [read_eq]
    cases hdecode : decode dialect id buffer with
    | error other =>
      rw [hdecode] at hinherent
      simp only [Except.error.injEq]
      refine ⟨And.left, ?_⟩
      rintro rfl
      exact ⟨rfl, fun h => hinherent (by rw [h])⟩
    | ok frame =>
      cases frame with
      | none =>
        refine iff_of_false ?_ (by simp)
        rintro ⟨herror, hother⟩
        exact hother (Except.error.inj herror).symm
      | some frame => simp
  end_iff := by
    have hinherent := inherent_decode dialect id buffer
    rw [read_eq]
    cases hdecode : decode dialect id buffer with
    | error other =>
      rw [hdecode] at hinherent
      refine iff_of_false (fun h => hinherent ?_) (by simp)
      rw [Except.error.inj h]
    | ok frame => cases frame <;> simp
  within := ends_le (Nat.zero_le buffer.length)
  messages count := congrArg Prod.fst (readMany_eq dialect id count buffer 0)
  error count := congrArg Prod.snd (readMany_eq dialect id count buffer 0)

/-- The signal for tagged lists in a frame on the main network, between the first byte of a magic
that does not come and the first two of another. -/
def noisySignal : Bytes :=
  [0xF9] ++ (Network.main.magic ++ Header.encode (Text.utf8 "sendaddrv2") []) ++ [0xF9, 0xBE]

/-- The signal is read off the source and decoded off the buffer up to the same position; what comes
behind it is not a frame for either. -/
theorem agrees_read_noisySignal :
    let dialect : Dialect := ⟨.main, Dialect.currentVersion, true⟩
    let signal := Message.sendAddrV2 (.parsed dialect [] 0 0)
    decode dialect ⟨0⟩ noisySignal = .ok (some (signal, 25)) ∧
      read dialect ⟨0⟩ noisySignal = .ok (signal, [0xF9, 0xBE]) ∧
      readMany dialect ⟨0⟩ 2 noisySignal = ([(signal, [0xF9, 0xBE])], some .endOfSource) := by
  intro dialect signal
  have hagrees := agrees_read dialect ⟨0⟩ noisySignal
  have hnoise : ¬ dialect.network.magic <:+: [0xF9] := fun hinfix =>
    absurd hinfix.length_le (by decide)
  have hlength : (Network.main.magic ++ Header.encode (Text.utf8 "sendaddrv2") []).length = 24 := by
    have hname : (Text.utf8 "sendaddrv2").length ≤ Header.nameLength := by decide
    rw [List.length_append, Header.length_encode hname]
    rfl
  have hframe : ofPayload dialect "sendaddrv2" [] =
      .ok (Network.main.magic ++ Header.encode (Text.utf8 "sendaddrv2") []) := by
    rw [ofPayload_of_fits (by decide) (by decide) (by decide), List.append_nil]
  have hdecode : decode dialect ⟨0⟩ noisySignal = .ok (some (signal, 25)) := by
    rw [noisySignal, decode_ofPayload rfl hframe hnoise, hlength]
    rfl
  have hdrop : noisySignal.drop 25 = [0xF9, 0xBE] :=
    List.drop_left' (by rw [List.length_append, hlength]; rfl)
  obtain ⟨front, rest, hbuffer, hfront, hread⟩ := (hagrees.message_iff signal 25).2 hdecode
  obtain rfl : rest = [0xF9, 0xBE] := by
    rw [← hdrop, hbuffer, List.drop_left' hfront]
  have hall : decodeAll dialect ⟨0⟩ noisySignal = ([(signal, 25)], none) := by
    rw [decodeAll_of_some hdecode, hdrop, decodeAll_of_none rfl]
  refine ⟨hdecode, hread, Prod.ext ?_ ?_⟩
  · rw [hagrees.messages, hall]
    simp [ends, hdrop]
  · rw [hagrees.error, hall]
    rfl

end Frame

end PeerProtocol
