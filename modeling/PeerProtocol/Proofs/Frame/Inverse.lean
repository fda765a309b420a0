import PeerProtocol.Proofs.Frame.RoundTrip

/-!
# Framing and header decoding are inverse

A payload is framed under a name exactly if both are within their bounds, and the header of the
frame is then decoded as the name, the payload's size and its checksum. Conversely a header that is
accepted is what is written for its name and a payload of its size and checksum, exactly if its name
is filled up with zeros (`Header.Spelled.eq_encode_iff`): bytes behind the first zero of a name are
accepted but never written. The main statement is `invertible`.
-/

namespace PeerProtocol

open Bytes

namespace Header

/-- The name of a header is filled up with zeros behind its first one. -/
def Filled (raw : Bytes) : Prop :=
  ∀ byte ∈ (raw.take nameLength).dropWhile (· ≠ 0), byte = 0

/-- A header is decoded whatever follows it. -/
theorem decode_append {raw : Bytes} (hlength : raw.length = length) (more : Bytes) :
    decode (raw ++ more) = decode raw := by
  have hsplit (tail : Bytes) : (raw ++ tail).split? length = some (raw, tail) :=
    split?_eq_some_iff.2 ⟨rfl, hlength⟩
  have hraw := hsplit []
  rw [List.append_nil] at hraw
  unfold decode
  rw [hsplit more, hraw]

/-- Behind a name without a zero comes what fills it up, which is nothing or begins with a zero. -/
theorem dropWhile_name {name filling : Bytes} (hzero : 0 ∉ name)
    (hfilling : ∀ byte ∈ filling.head?, byte = 0) :
    (name ++ filling).dropWhile (· ≠ 0) = filling := by
  have hname : ∀ byte ∈ name, decide (byte ≠ 0) = true := fun byte hbyte =>
    decide_eq_true fun h => hzero (h ▸ hbyte)
  rw [List.dropWhile_append_of_pos hname]
  cases filling with
  | nil => rfl
  | cons byte rest =>
    obtain rfl : byte = 0 := hfilling byte rfl
    exact List.dropWhile_cons_of_neg (by decide)

/-- A name that is filled up with zeros is filled up to twelve bytes. -/
theorem filling_eq_replicate {raw name filling : Bytes} (hlength : nameLength ≤ raw.length)
    (hraw : raw.take nameLength = name ++ filling) (hzero : 0 ∉ name)
    (hfilling : ∀ byte ∈ filling.head?, byte = 0) :
    filling = List.replicate (nameLength - name.length) 0 ↔ Filled raw := by
  have htotal := congrArg List.length hraw
  rw [List.length_take_of_le hlength, List.length_append] at htotal
  unfold Filled
  rw [hraw, dropWhile_name hzero hfilling, List.eq_replicate_iff]
  exact and_iff_right (by omega)

/-- A size that is accepted is the number that its four bytes write. -/
theorem littleEndian_of_signed32 {bytes : Bytes} (hlength : bytes.length = 4) {size : Nat}
    (hsize : signed32 (ofLittleEndian bytes) = size) : littleEndian 4 size = bytes := by
  have hvalue : ofLittleEndian bytes = size := by
    have hbound := ofLittleEndian_lt bytes
    rw [hlength, show span 4 = 0x100000000 from rfl] at hbound
    unfold signed32 at hsize
    split at hsize
    next => exact Int.ofNat_inj.1 hsize
    next => omega
  rw [← hvalue, ← hlength]
  exact littleEndian_ofLittleEndian bytes

/-- An accepted header is what is written for its name and a payload of its size and checksum,
exactly if its name is filled up with zeros. -/
theorem Spelled.eq_encode_iff {header : Header} {raw payload : Bytes} (h : header.Spelled raw)
    (hsize : payload.length = header.size)
    (hchecksum : PeerProtocol.checksum payload = header.checksum) :
    raw = encode (Text.utf8 header.command) payload ↔ Filled raw := by
  obtain ⟨hlength, ⟨filling, hname, hzero, hfilling⟩, hsigned, -, hrest⟩ := h
  have hlong : nameLength ≤ raw.length := by
    rw [hlength]
    decide
  have hsizeBytes : littleEndian 4 payload.length = (raw.drop nameLength).take 4 := by
    rw [hsize]
    refine littleEndian_of_signed32 ?_ hsigned
    rw [List.length_take, List.length_drop, hlength]
    rfl
  -- The parts behind the name are written as they stand there, so only the filling decides.
  have hparts : raw =
      Text.utf8 header.command ++ filling ++ littleEndian 4 payload.length ++
        PeerProtocol.checksum payload := by
    rw [hsizeBytes, hchecksum, ← hrest, ← List.drop_drop, List.append_assoc,
      List.take_append_drop, ← hname, List.take_append_drop]
  rw [← filling_eq_replicate hlong hname hzero hfilling, encode]
  conv_lhs => lhs; rw [hparts]
  rw [List.append_left_inj, List.append_left_inj, List.append_right_inj]

end Header

namespace Frame

/-- A payload is framed under a name exactly if it is within the cap and the name fits a header. -/
theorem exists_ofPayload_iff {dialect : Dialect} {command : String} {payload : Bytes} :
    (∃ frame, ofPayload dialect command payload = .ok frame) ↔
      payload.length ≤ maxMessageSize ∧ (Text.utf8 command).length ≤ Header.nameLength ∧
        0 ∉ Text.utf8 command := by
  constructor
  · rintro ⟨frame, hframe⟩
    obtain ⟨hsize, hname, hzero, -⟩ := ofPayload_eq_ok hframe
    exact ⟨hsize, hname, hzero⟩
  · rintro ⟨hsize, hname, hzero⟩
    exact ⟨_, ofPayload_of_fits hsize hname hzero dialect⟩

/-- How framing under a name and decoding a header stand to each other. -/
structure Invertible (dialect : Dialect) : Prop where
  /-- Framing succeeds exactly if the payload is within the cap and the name takes up at most twelve
  bytes, of which none is zero. -/
  framed_iff : ∀ command payload, (∃ frame, ofPayload dialect command payload = .ok frame) ↔
    payload.length ≤ maxMessageSize ∧ (Text.utf8 command).length ≤ Header.nameLength ∧
      0 ∉ Text.utf8 command
  /-- No byte of the name is zero exactly if the name does not hold the null character. -/
  null_iff : ∀ command, 0 ∈ Text.utf8 command ↔ '\x00' ∈ command.toList
  /-- A frame begins with the magic, and what follows is decoded as the name, the payload's size and
  its checksum. -/
  decoded : ∀ command payload frame, ofPayload dialect command payload = .ok frame →
    frame.take 4 = dialect.network.magic ∧
      Header.decode (frame.drop 4) =
        .ok ⟨command, payload.length, PeerProtocol.checksum payload⟩ ∧
      frame.length = overhead + payload.length
  /-- A header that is accepted, and a payload of its size and checksum, are framed as they stand
  exactly if the name is filled up with zeros. -/
  reframed_iff : ∀ raw header payload, raw.length = Header.length →
    Header.decode raw = .ok header → payload.length = header.size →
    PeerProtocol.checksum payload = header.checksum →
    (ofPayload dialect header.command payload = .ok (dialect.network.magic ++ raw ++ payload) ↔
      Header.Filled raw)

/-- Framing and header decoding are inverse to each other, up to what fills the name of a header. -/
theorem invertible (dialect : Dialect) : Invertible dialect where
  framed_iff _ _ := exists_ofPayload_iff
  null_iff _ := Text.zero_mem_utf8_iff
  decoded command payload frame hframe := by
    obtain ⟨hsize, hname, hzero, rfl⟩ := ofPayload_eq_ok hframe
    have hheader := Header.length_encode hname payload
    refine ⟨List.take_left' dialect.network.length_magic, ?_, ?_⟩
    · rw [List.drop_left' dialect.network.length_magic, Header.decode_append hheader]
      exact Header.decode_encode hname hzero hsize
    · rw [List.length_append, List.length_append, dialect.network.length_magic, hheader,
        ← Nat.add_assoc]
      rfl
  reframed_iff raw header payload hlength hdecode hsize hchecksum := by
    have hspelled := (Header.decode_eq_ok_iff hlength).1 hdecode
    have hfits : payload.length ≤ maxMessageSize := hsize ▸ hspelled.size_le
    obtain ⟨filling, hname, hzero, -⟩ := hspelled.name
    have hnameLength : (Text.utf8 header.command).length ≤ Header.nameLength := by
      have htotal := congrArg List.length hname
      rw [List.length_take, List.length_append] at htotal
      omega
    rw [ofPayload_of_fits hfits hnameLength hzero, Except.ok.injEq, List.append_left_inj,
      List.append_right_inj, eq_comm]
    exact hspelled.eq_encode_iff hsize hchecksum

end Frame

end PeerProtocol
