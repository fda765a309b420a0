import Mathlib.Data.List.TakeWhile
import PeerProtocol.Frame

/-!
# What twenty bytes spell

A header is the name, the size and the checksum that its bytes spell (`Spelled`), and decoding
accepts exactly the bytes that spell one (`Header.decode_eq_ok_iff`). What is written as a header
spells it (`Header.decode_encode`), and a payload is read under a header if it has its checksum.
-/

namespace PeerProtocol

open Bytes

/-- The bytes before the first zero are those that hold none and are followed by one, or by
nothing. -/
theorem takeWhile_ne_zero_eq_iff {bytes name : Bytes} :
    bytes.takeWhile (· ≠ 0) = name ↔
      ∃ filling, bytes = name ++ filling ∧ 0 ∉ name ∧ ∀ byte ∈ filling.head?, byte = 0 := by
  constructor
  · rintro rfl
    refine ⟨bytes.dropWhile (· ≠ 0), List.takeWhile_append_dropWhile.symm, fun hzero => ?_,
      fun byte hbyte => ?_⟩
    · have hkept := List.mem_takeWhile_imp hzero
      simp at hkept
    · have hstop := List.head?_dropWhile_not (· ≠ 0) bytes
      rw [hbyte] at hstop
      simpa using hstop
  · rintro ⟨filling, rfl, hzero, hfilling⟩
    have hkept : ∀ byte ∈ name, decide (byte ≠ 0) = true := fun byte hbyte =>
      decide_eq_true fun h => hzero (h ▸ hbyte)
    rw [List.takeWhile_append_of_pos hkept]
    cases filling with
    | nil => rw [List.takeWhile_nil, List.append_nil]
    | cons byte rest =>
      obtain rfl : byte = 0 := hfilling byte rfl
      rw [List.takeWhile_cons_of_neg (by decide), List.append_nil]

namespace Header

/-- Twenty bytes that spell a header: the name up to its first zero, or all twelve bytes of it, then
the size as a signed number between zero and the cap, then the checksum. -/
structure Spelled (header : Header) (raw : Bytes) : Prop where
  length_eq : raw.length = length
  name : ∃ filling, raw.take nameLength = Text.utf8 header.command ++ filling ∧
    0 ∉ Text.utf8 header.command ∧ ∀ byte ∈ filling.head?, byte = 0
  size_eq : signed32 (ofLittleEndian ((raw.drop nameLength).take 4)) = header.size
  size_le : header.size ≤ maxMessageSize
  checksum_eq : raw.drop (nameLength + 4) = header.checksum

/-- Twenty bytes are decoded as the header that they spell. -/
theorem decode_eq_ok_iff {raw : Bytes} (hlength : raw.length = length) {header : Header} :
    decode raw = .ok header ↔ header.Spelled raw := by
  have hsplit : raw.split? length = some (raw, []) :=
    split?_eq_some_iff.2 ⟨(List.append_nil raw).symm, hlength⟩
  unfold decode
  rw [hsplit]
  constructor
  · intro h
    simp only at h
    split at h
    next => cases h
    next command hcommand =>
      split at h
      next => cases h
      next hbounds =>
        obtain rfl := Except.ok.inj h
        obtain ⟨hlower, hupper⟩ := not_or.1 hbounds
        have hsize := Int.toNat_of_nonneg (Int.not_lt.1 hlower)
        refine ⟨hlength, takeWhile_ne_zero_eq_iff.1 (Text.ofUtf8?_eq_some_iff.1 hcommand), ?_, ?_,
          rfl⟩
        · exact hsize.symm
        · show Int.toNat _ ≤ maxMessageSize
          omega
  · rintro ⟨-, hname, hsize, hle, hchecksum⟩
    have hcommand : Text.ofUtf8? ((raw.take nameLength).takeWhile (· ≠ 0)) =
        some header.command :=
      Text.ofUtf8?_eq_some_iff.2 (takeWhile_ne_zero_eq_iff.2 hname)
    have hbounds : ¬ ((header.size : Int) < 0 ∨ (maxMessageSize : Int) < header.size) := by
      omega
    simp only [hcommand, hsize, if_neg hbounds, hchecksum, Int.toNat_natCast]

/-- A header is read as it was written. -/
theorem decode_encode {command : String} {payload : Bytes}
    (hname : (Text.utf8 command).length ≤ nameLength) (hzero : 0 ∉ Text.utf8 command)
    (hsize : payload.length ≤ maxMessageSize) :
    decode (encode (Text.utf8 command) payload) =
      .ok ⟨command, payload.length, PeerProtocol.checksum payload⟩ := by
  have hlength := length_encode hname payload
  have hfront : (Text.utf8 command ++
      List.replicate (nameLength - (Text.utf8 command).length) 0).length = nameLength := by
    rw [List.length_append, List.length_replicate]
    omega
  have hencode : encode (Text.utf8 command) payload =
      (Text.utf8 command ++ List.replicate (nameLength - (Text.utf8 command).length) 0) ++
        (littleEndian 4 payload.length ++ PeerProtocol.checksum payload) := by
    simp only [encode, List.append_assoc]
  have hdrop : (encode (Text.utf8 command) payload).drop nameLength =
      littleEndian 4 payload.length ++ PeerProtocol.checksum payload := by
    rw [hencode, List.drop_left' hfront]
  have hsmall : payload.length < 0x80000000 := by
    unfold maxMessageSize at hsize
    omega
  have hfits : payload.length < span 4 := Nat.lt_trans hsmall (by decide)
  -- No byte of the name is zero, so it ends where its padding begins.
  have hspelled : ∃ filling, (encode (Text.utf8 command) payload).take nameLength =
      Text.utf8 command ++ filling ∧ 0 ∉ Text.utf8 command ∧
        ∀ byte ∈ filling.head?, byte = 0 := by
    refine ⟨List.replicate (nameLength - (Text.utf8 command).length) 0, ?_, hzero,
      fun byte hbyte => List.eq_of_mem_replicate (List.mem_of_mem_head? hbyte)⟩
    rw [hencode, List.take_left' hfront]
  refine (decode_eq_ok_iff hlength).2 ⟨hlength, hspelled, ?_, hsize, ?_⟩
  · rw [hdrop, List.take_left' (length_littleEndian 4 payload.length),
      ofLittleEndian_littleEndian, Nat.mod_eq_of_lt hfits, signed32, if_pos hsmall]
  · rw [← List.drop_drop, hdrop, List.drop_left' (length_littleEndian 4 payload.length)]

/-- A payload that has the header's checksum is read under the header's name. -/
theorem message_of_checksum {header : Header} {payload : Bytes}
    (h : PeerProtocol.checksum payload = header.checksum) (dialect : Dialect) (id : ListId) :
    header.message dialect id payload = Message.parse dialect id header.command payload := by
  unfold message
  rw [if_pos h]

/-- A payload is read under a header exactly if it has the header's checksum and is parsed under
the header's name. -/
theorem message_eq_ok_iff {header : Header} {dialect : Dialect} {id : ListId} {payload : Bytes}
    {message : Message} :
    header.message dialect id payload = .ok message ↔
      PeerProtocol.checksum payload = header.checksum ∧
        Message.parse dialect id header.command payload = .ok message := by
  constructor
  · intro h
    by_cases hchecksum : PeerProtocol.checksum payload = header.checksum
    · rw [message_of_checksum hchecksum] at h
      exact ⟨hchecksum, h⟩
    · unfold Header.message at h
      rw [if_neg hchecksum] at h
      cases h
  · rintro ⟨hchecksum, hparse⟩
    rw [message_of_checksum hchecksum, hparse]

end Header

end PeerProtocol
