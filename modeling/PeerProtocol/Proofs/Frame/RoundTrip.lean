import PeerProtocol.Proofs.Frame.Header
import PeerProtocol.Proofs.Frame.Transcript
import PeerProtocol.Proofs.Message

/-!
# Frames through noise

What a writer frames a reader of the same network finds again, whatever stands before the frame
and whatever follows it: the noise and the front of the frame never make up another magic, and
header, size and checksum are read as they were written (`decode_ofPayload`). So the frame of every
message that a program can hold is decoded, behind any noise, as a message that says the same in
the normal form of its layout (`decode_noise_ofMessage`).
-/

namespace PeerProtocol

open Bytes

namespace Frame

/-- A frame is the magic, the header and the payload, which are within their bounds. -/
theorem ofPayload_eq_ok {dialect : Dialect} {command : String} {payload frame : Bytes}
    (h : ofPayload dialect command payload = .ok frame) :
    payload.length ≤ maxMessageSize ∧ (Text.utf8 command).length ≤ Header.nameLength ∧
      0 ∉ Text.utf8 command ∧
      frame = dialect.network.magic ++ (Header.encode (Text.utf8 command) payload ++ payload) := by
  unfold ofPayload at h
  simp only at h
  split at h
  next => cases h
  next hsize =>
    split at h
    next => cases h
    next hname =>
      obtain rfl := Except.ok.inj h
      obtain ⟨hlength, hzero⟩ := not_or.1 hname
      exact ⟨Nat.le_of_not_lt hsize, Nat.le_of_not_lt hlength, hzero, List.append_assoc ..⟩

/-- A frame behind noise is found, and its payload is read under its name, whatever follows. -/
theorem decode_ofPayload {writer reader : Dialect} (hnetwork : reader.network = writer.network)
    {command : String} {payload frame : Bytes}
    (hframe : ofPayload writer command payload = .ok frame) {noise : Bytes}
    (hnoise : ¬ reader.network.magic <:+: noise) (tail : Bytes) (id : ListId) :
    decode reader id (noise ++ frame ++ tail) =
      (Message.parse reader id command payload).map fun message =>
        some (message, noise.length + frame.length) := by
  obtain ⟨hsize, hname, hzero, rfl⟩ := ofPayload_eq_ok hframe
  have hheader := Header.length_encode hname payload
  have hdecode := Header.decode_encode hname hzero hsize
  -- From here on only the length of the header and what it is read as matter.
  generalize Header.encode (Text.utf8 command) payload = raw at hheader hdecode ⊢
  have hbuffer : noise ++ (writer.network.magic ++ (raw ++ payload)) ++ tail =
      noise ++ (reader.network.magic ++ raw) ++ (payload ++ tail) := by
    simp only [hnetwork, List.append_assoc]
  have hseek : reader.network.seekMagic (noise ++ (reader.network.magic ++ raw)) =
      .found (noise.length + 4) :=
    Network.seekMagic_noise hnoise raw
  have hsplit : Bytes.split? Header.length
      ((noise ++ (reader.network.magic ++ raw)).drop (noise.length + 4)) = some (raw, []) := by
    rw [← List.drop_drop, List.drop_left, List.drop_left' reader.network.length_magic]
    exact split?_eq_some_iff.2 ⟨(List.append_nil raw).symm, hheader⟩
  have hused : noise.length + 4 + Header.length + payload.length =
      noise.length + (writer.network.magic ++ (raw ++ payload)).length := by
    rw [List.length_append, List.length_append, writer.network.length_magic, hheader]
    omega
  rw [hbuffer, decode_of_header id hseek hsplit hdecode, List.nil_append,
    split?_eq_some_iff.2 ⟨rfl, rfl⟩, ← hused]
  exact congrArg (Except.map _) (Header.message_of_checksum rfl reader id)

/-- Framing a message is encoding it and framing its payload. -/
theorem ofMessage_eq_ok {dialect : Dialect} {message after : Message} {frame : Bytes}
    (h : ofMessage dialect message = (.ok frame, after)) :
    ∃ payload, message.serialize = (.ok payload, after) ∧
      message.contribution = .ok payload ∧
      ofPayload dialect message.name payload = .ok frame := by
  have hframe : (message.encoding.serialize message.fields).1.bind (ofPayload dialect
      (message.withEncoding (message.encoding.serialize message.fields).2).name) = .ok frame :=
    (Prod.mk.inj h).1
  have hafter : message.withEncoding (message.encoding.serialize message.fields).2 = after :=
    (Prod.mk.inj h).2
  cases hresult : (message.encoding.serialize message.fields).1 with
  | error error =>
    rw [hresult] at hframe
    cases hframe
  | ok payload =>
    have hname : (message.withEncoding (message.encoding.serialize message.fields).2).name =
        message.name := by
      cases message <;> rfl
    rw [hresult, hname] at hframe
    refine ⟨payload, Prod.ext hresult hafter, ?_, hframe⟩
    exact Encoding.contribution_of_serialize (Prod.ext hresult rfl)

/-- The frame of a coherent message is read, behind noise, as a message that says the same. -/
theorem decode_ofMessage {writer reader : Dialect} (hnetwork : reader.network = writer.network)
    {message after : Message} (hcoherent : message.Coherent) {frame : Bytes}
    (hframe : ofMessage writer message = (.ok frame, after)) {noise : Bytes}
    (hnoise : ¬ reader.network.magic <:+: noise) (tail : Bytes) (id : ListId) :
    ∃ read, decode reader id (noise ++ frame ++ tail) =
        .ok (some (read, noise.length + frame.length)) ∧
      read.content = message.content.normal := by
  obtain ⟨payload, -, hpayload, hframe⟩ := ofMessage_eq_ok hframe
  obtain ⟨read, hread, hcontent⟩ := hcoherent.parse_of_contribution hpayload reader id
  refine ⟨read, ?_, hcontent⟩
  rw [decode_ofPayload hnetwork hframe hnoise, hread]
  rfl

/-- The frame of every message that a program can hold is decoded, behind any noise without the
magic and whatever follows, up to its end and as a message that says the same in the normal form of
its layout; it is the same message if that was in normal form. -/
theorem decode_noise_ofMessage {dialect : Dialect} {message after : Message} (hmade : message.Made)
    {frame : Bytes} (hframe : ofMessage dialect message = (.ok frame, after)) {noise : Bytes}
    (hnoise : ¬ dialect.network.magic <:+: noise) (tail : Bytes) (id : ListId) :
    ∃ read, decode dialect id (noise ++ frame ++ tail) =
        .ok (some (read, noise.length + frame.length)) ∧
      read.content = message.content.normal ∧
      (message.content.normal = message.content → message.same read = true) := by
  obtain ⟨read, hread, hcontent⟩ := decode_ofMessage rfl hmade.coherent hframe hnoise tail id
  refine ⟨read, hread, hcontent, fun hnormal => ?_⟩
  rw [Message.same_iff_content, hcontent, hnormal]

/-- A list of one entry that was read, with its bytes kept, under an old version. -/
def keptList : Message :=
  let dialect : Dialect := ⟨.main, 60001, true⟩
  .addresses ⟨.parsed dialect (AddressBook.oneEntry 8333) 0 31, ⟨0⟩, .addr,
    [⟨.parsed (dialect.withVersion 1) (AddressBook.oneEntry 8333) 1 30, .ownedBy ⟨0⟩,
      ⟨some (.ip (.v4 ⟨[1, 2, 3, 4], rfl⟩)), 8333, ⟨1⟩, some 0⟩⟩]⟩

/-- The list is framed from its kept bytes by a writer of the current version, and it is found
behind three bytes of a magic that does not come. -/
theorem decode_noise_ofMessage_keptList :
    ∃ frame read, ofMessage ⟨.main, Dialect.currentVersion, false⟩ keptList =
        (.ok frame, keptList) ∧
      decode ⟨.main, Dialect.currentVersion, false⟩ ⟨7⟩ ([0xF9, 0xBE, 0xB4] ++ frame ++ [0xF9]) =
        .ok (some (read, 3 + frame.length)) ∧
      keptList.same read = true := by
  have hmade : keptList.Made :=
    .parsed ⟨.main, 60001, true⟩ ⟨0⟩ "addr" (AddressBook.oneEntry 8333) keptList rfl
  have hframe : ofMessage ⟨.main, Dialect.currentVersion, false⟩ keptList =
      (.ok (Network.main.magic ++
        Header.encode (Text.utf8 "addr") (AddressBook.oneEntry 8333) ++
        AddressBook.oneEntry 8333), keptList) := rfl
  have hnoise : ¬ Network.main.magic <:+: [0xF9, 0xBE, 0xB4] := fun hinfix =>
    absurd hinfix.length_le (by decide)
  obtain ⟨read, hread, -, hsame⟩ := decode_noise_ofMessage hmade hframe hnoise [0xF9] ⟨7⟩
  exact ⟨_, read, hframe, hread, hsame (by decide)⟩

end Frame

end PeerProtocol
