import PeerProtocol.Message
import PeerProtocol.Proofs.AddressBook

/-!
# What messages say

The content of a message is what it says, whatever is known of its encoding; two messages are the
same if their contents are (`same_iff_content`). A message that was made in one of the ways in
which a program makes messages keeps only right bytes (`Made.coherent`), and whatever payload such
a message has is read, under the message's name, as the normal form of its content
(`Coherent.parse_of_contribution`).
-/

namespace PeerProtocol

/-- A known kind is what its name stands for. -/
theorem Command.ofName_name (command : Command) (h : command ≠ .unknown) :
    ofName command.name = command := by
  cases command with
  | unknown => exact absurd rfl h
  | _ => rfl

namespace Message

open Bytes

/-- What a message says. -/
inductive Content where
  | ping (nonce : Option UInt64)
  | pong (nonce : UInt64)
  | sendAddrV2
  | addresses (format : ListFormat) (endpoints : List Endpoint)
  | unknown (name : String) (payload : Bytes)
deriving DecidableEq

/-- The content with every address in the normal form of its layout. -/
def Content.normal : Content → Content
  | addresses format endpoints => addresses format (endpoints.map (Endpoint.normal format.layout))
  | content => content

/-- The content of a message. -/
def content : Message → Content
  | .ping _ nonce => .ping nonce
  | .pong _ nonce => .pong nonce
  | .sendAddrV2 _ => .sendAddrV2
  | .addresses list => .addresses list.format (list.entries.map (·.endpoint))
  | .unknown _ name payload => .unknown name payload

/-- Two messages are the same if they have the same content. -/
theorem same_iff_content (left right : Message) :
    left.same right = true ↔ left.content = right.content := by
  cases left <;> cases right <;> simp [same, content, AddressList.same]

/-- Remembering bytes does not change what a message says. -/
theorem content_withEncoding (message : Message) (encoding : Encoding) :
    (message.withEncoding encoding).content = message.content := by
  cases message <;> rfl

/-- A copy says the same. -/
theorem content_copy (message : Message) (id : ListId) :
    (message.copy id).content = message.content := by
  cases message with
  | addresses list =>
    have hentries : (list.copy id).entries.map (·.endpoint) = list.entries.map (·.endpoint) := by
      unfold AddressList.copy
      rw [List.map_map]
      rfl
    exact congrArg (Content.addresses list.format) hentries
  | _ => rfl

/-- The bytes that the message keeps are those of its fields. -/
def KeepsFields (message : Message) : Prop :=
  message.encoding.Keeps fun bytes => message.fields = .ok bytes

/-- The bytes that the message keeps are right, and its name is that of its kind. -/
def Coherent : Message → Prop
  | .addresses list => list.Coherent
  | .unknown encoding name payload =>
      Command.ofName name = .unknown ∧ (Message.unknown encoding name payload).KeepsFields
  | message => message.KeepsFields

/-- The messages that a program can hold: what it makes, what it reads and what it copies, with
address lists that it may have worked on before. A message of no known kind has the name of none. -/
inductive Made : Message → Prop where
  | ping (dialect nonce) : Made (newPing dialect nonce)
  | barePing (dialect) : Made (newBarePing dialect)
  | pong (dialect nonce) : Made (newPong dialect nonce)
  | sendAddrV2 (dialect) : Made (newSendAddrV2 dialect)
  | unknown (dialect name payload) :
      Command.ofName name = .unknown → Made (newUnknown dialect name payload)
  | addresses (acts list) : list ∈ (AddressBook.run acts).lists → Made (.addresses list)
  | parsed (dialect id name payload message) :
      parse dialect id name payload = .ok message → Made message
  | serialized (message) : Made message → Made message.serialize.2
  | copied (message id) : Made message → Made (message.copy id)

/-! ## Reading -/

/-- A nonce is read off the first eight bytes, which it is written as. -/
theorem parseNonce_eq_ok {payload : Bytes} {nonce : UInt64} (h : parseNonce payload = .ok nonce) :
    payload.take 8 = littleEndian 8 nonce.toNat ∧ (payload.take 8).length = 8 := by
  unfold parseNonce readLittleEndian at h
  cases hsplit : payload.split? 8 with
  | none =>
    rw [hsplit] at h
    cases h
  | some parts =>
    obtain ⟨front, rest⟩ := parts
    rw [hsplit] at h
    obtain rfl := Except.ok.inj h
    obtain ⟨rfl, hlength⟩ := split?_eq_some_iff.1 hsplit
    have hbound := ofLittleEndian_lt front
    rw [hlength] at hbound
    have hvalue : (UInt64.ofNat (ofLittleEndian front)).toNat = ofLittleEndian front :=
      UInt64.toNat_ofNat_of_lt' hbound
    have hwritten := littleEndian_ofLittleEndian front
    rw [hlength] at hwritten
    rw [hvalue, hwritten, ← hlength, List.take_left]
    exact ⟨rfl, rfl⟩

/-- A nonce is read as it was written. -/
theorem parseNonce_littleEndian (nonce : UInt64) :
    parseNonce (littleEndian 8 nonce.toNat) = .ok nonce := by
  have hfits : nonce.toNat < span 8 := nonce.toNat_lt
  have hread := reads_littleEndian_of_lt .word64 hfits []
  rw [List.append_nil] at hread
  unfold parseNonce
  rw [hread]
  exact congrArg Except.ok (UInt64.ofNat_toNat)

/-- A parsed message is coherent. -/
theorem coherent_parse {dialect : Dialect} {id : ListId} {name : String} {payload : Bytes}
    {message : Message} (h : parse dialect id name payload = .ok message) : message.Coherent := by
  have hlist : ∀ format,
      (AddressList.parse dialect format id payload).map .addresses = .ok message →
        message.Coherent := by
    intro format hparse
    cases hread : AddressList.parse dialect format id payload with
    | error error =>
      rw [hread] at hparse
      cases hparse
    | ok list =>
      rw [hread] at hparse
      obtain rfl := Except.ok.inj hparse
      exact AddressList.coherent_parse hread
  unfold parse at h
  cases hcommand : Command.ofName name with
  | ping =>
    rw [hcommand] at h
    simp only at h
    cases hnonce : parseNonce payload with
    | error error =>
      rw [hnonce] at h
      obtain rfl := Except.ok.inj h
      exact Encoding.keeps_parsed rfl rfl
    | ok nonce =>
      rw [hnonce] at h
      obtain rfl := Except.ok.inj h
      -- What follows the nonce is not kept.
      obtain ⟨hbytes, hlength⟩ := parseNonce_eq_ok hnonce
      exact Encoding.keeps_parsed hlength (congrArg Except.ok hbytes.symm)
  | pong =>
    rw [hcommand] at h
    simp only at h
    cases hnonce : parseNonce payload with
    | error error =>
      rw [hnonce] at h
      cases h
    | ok nonce =>
      rw [hnonce] at h
      obtain rfl := Except.ok.inj h
      obtain ⟨hbytes, hlength⟩ := parseNonce_eq_ok hnonce
      exact Encoding.keeps_parsed hlength (congrArg Except.ok hbytes.symm)
  | sendAddrV2 =>
    rw [hcommand] at h
    obtain rfl := Except.ok.inj h
    exact Encoding.keeps_parsed rfl rfl
  | addr =>
    rw [hcommand] at h
    exact hlist .addr h
  | addrV2 =>
    rw [hcommand] at h
    exact hlist .addrv2 h
  | unknown =>
    rw [hcommand] at h
    obtain rfl := Except.ok.inj h
    have hall : (payload.drop 0).take payload.length = payload := List.take_length
    exact ⟨hcommand,
      Encoding.keeps_parsed (congrArg List.length hall) (congrArg Except.ok hall.symm)⟩

/-! ## Writing -/

/-- What a message contributes if it keeps the bytes of its fields is the bytes of its fields. -/
theorem KeepsFields.fields_of_contribution {message : Message} (h : message.KeepsFields)
    {payload : Bytes} (hpayload : message.contribution = .ok payload) :
    message.fields = .ok payload :=
  Encoding.Keeps.of_contribution h (fun _ hfields => hfields) hpayload

/-- The payload of a coherent message is read, under its name, as the normal form of its content. -/
theorem Coherent.parse_of_contribution {message : Message} (h : message.Coherent) {payload : Bytes}
    (hpayload : message.contribution = .ok payload) (dialect : Dialect) (id : ListId) :
    ∃ read, parse dialect id message.name payload = .ok read ∧
      read.content = message.content.normal := by
  cases message with
  | ping encoding nonce =>
    have hfields := KeepsFields.fields_of_contribution h hpayload
    cases nonce with
    | none =>
      obtain rfl := Except.ok.inj hfields
      exact ⟨_, rfl, rfl⟩
    | some nonce =>
      obtain rfl := Except.ok.inj hfields
      have hname : Command.ofName (Message.ping encoding (some nonce)).name = .ping :=
        Command.ofName_name .ping (by decide)
      refine ⟨.ping (.parsed dialect (littleEndian 8 nonce.toNat) 0 8) (some nonce), ?_, rfl⟩
      unfold parse
      rw [hname]
      simp only [parseNonce_littleEndian]
  | pong encoding nonce =>
    have hfields := KeepsFields.fields_of_contribution h hpayload
    obtain rfl := Except.ok.inj hfields
    have hname : Command.ofName (Message.pong encoding nonce).name = .pong :=
      Command.ofName_name .pong (by decide)
    refine ⟨.pong (.parsed dialect (littleEndian 8 nonce.toNat) 0 8) nonce, ?_, rfl⟩
    unfold parse
    rw [hname]
    simp only [parseNonce_littleEndian, bind, Except.bind, pure, Except.pure]
  | sendAddrV2 encoding => exact ⟨_, rfl, rfl⟩
  | addresses list =>
    have hspelled := AddressList.Coherent.spelledBy_of_contribution h hpayload
    obtain ⟨entries, hparse, hendpoints⟩ := AddressList.parse_of_reads hspelled dialect id []
    rw [List.append_nil] at hparse
    refine ⟨.addresses ⟨.parsed dialect payload 0 payload.length, id, list.format, entries⟩, ?_, ?_⟩
    · obtain ⟨encoding, owner, format, held⟩ := list
      cases format with
      | addr => exact congrArg (Except.map Message.addresses) hparse
      | addrv2 => exact congrArg (Except.map Message.addresses) hparse
    · show Content.addresses list.format (entries.map (·.endpoint)) =
        .addresses list.format ((list.entries.map (·.endpoint)).map _)
      rw [hendpoints, List.map_map]
      rfl
  | unknown encoding name body =>
    obtain ⟨hname, hkeeps⟩ := h
    have hfields := KeepsFields.fields_of_contribution hkeeps hpayload
    obtain rfl := Except.ok.inj hfields
    refine ⟨.unknown (.parsed dialect body 0 body.length) name body, ?_, rfl⟩
    show parse dialect id name body = _
    unfold parse
    rw [hname]

/-- After it was encoded a coherent message is coherent. -/
theorem Coherent.serialize {message : Message} (h : message.Coherent) :
    message.serialize.2.Coherent := by
  have hkeeps : ∀ other : Message, other.KeepsFields →
      (other.encoding.serialize other.fields).2.Keeps fun bytes => other.fields = .ok bytes :=
    fun other hother => Encoding.Keeps.serialize hother fun _ hfields => hfields
  cases message with
  | ping encoding nonce =>
    cases nonce with
    | none => exact hkeeps (.ping encoding none) h
    | some nonce => exact hkeeps (.ping encoding (some nonce)) h
  | pong encoding nonce => exact hkeeps (.pong encoding nonce) h
  | sendAddrV2 encoding => exact hkeeps (.sendAddrV2 encoding) h
  | addresses list => exact AddressList.Coherent.serialize h
  | unknown encoding name payload => exact ⟨h.1, hkeeps (.unknown encoding name payload) h.2⟩

/-- A copy of a coherent message is coherent. -/
theorem Coherent.copy {message : Message} (h : message.Coherent) (id : ListId) :
    (message.copy id).Coherent := by
  cases message with
  | addresses list => exact AddressList.Coherent.copy h id
  | _ => exact h

/-- Every message that a program can hold is coherent. -/
theorem Made.coherent {message : Message} (h : message.Made) : message.Coherent := by
  induction h with
  | ping dialect nonce => exact Encoding.keeps_of_uncached rfl _
  | barePing dialect => exact Encoding.keeps_of_uncached rfl _
  | pong dialect nonce => exact Encoding.keeps_of_uncached rfl _
  | sendAddrV2 dialect => exact Encoding.keeps_of_uncached rfl _
  | unknown dialect name payload hname => exact ⟨hname, Encoding.keeps_of_uncached rfl _⟩
  | addresses acts list hlist => exact (AddressBook.coherent_run acts).lists list hlist
  | parsed dialect id name payload message hparse => exact coherent_parse hparse
  | serialized message hmade ih => exact ih.serialize
  | copied message id hmade ih => exact ih.copy id

end Message

end PeerProtocol
