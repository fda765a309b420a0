/-!
# Byte strings

Byte strings are lists of bytes. This module holds the fixed-width integers that every message is
made of, in both byte orders, and the one way in which fixed-size fields are taken off the front
of a byte string. Writing a number and reading it back gives the number modulo the width
(`ofLittleEndian_littleEndian`), and every byte string is the writing of its number
(`littleEndian_ofLittleEndian`).
-/

namespace PeerProtocol

/-- A byte string. -/
abbrev Bytes := List UInt8

namespace Bytes

/-- How many numbers fit a width. -/
def span : (width : Nat) → Nat
  | 0 => 1
  | width + 1 => 256 * span width

/-- The low `width` bytes of a number, least significant byte first. -/
def littleEndian : (width value : Nat) → Bytes
  | 0, _ => []
  | width + 1, value => UInt8.ofNat value :: littleEndian width (value / 256)

/-- The number whose bytes these are, least significant byte first. -/
def ofLittleEndian : Bytes → Nat
  | [] => 0
  | byte :: rest => byte.toNat + 256 * ofLittleEndian rest

/-- The low `width` bytes of a number, most significant byte first. -/
def bigEndian (width value : Nat) : Bytes :=
  (littleEndian width value).reverse

/-- The number whose bytes these are, most significant byte first. -/
def ofBigEndian (bytes : Bytes) : Nat :=
  ofLittleEndian bytes.reverse

/-- Splits off exactly `count` leading bytes, if there are that many. -/
def split? (count : Nat) (bytes : Bytes) : Option (Bytes × Bytes) :=
  let front := bytes.take count
  if front.length = count then some (front, bytes.drop count) else none

/-- A written number has the width asked for. -/
@[simp] theorem length_littleEndian (width value : Nat) :
    (littleEndian width value).length = width := by
  induction width generalizing value with
  | zero => rfl
  | succ width ih => simp [littleEndian, ih]

/-- A written number has the width asked for. -/
@[simp] theorem length_bigEndian (width value : Nat) :
    (bigEndian width value).length = width := by
  simp [bigEndian]

/-- Reading back a written number gives the part of it that fits. -/
theorem ofLittleEndian_littleEndian (width value : Nat) :
    ofLittleEndian (littleEndian width value) = value % span width := by
  induction width generalizing value with
  | zero => simp [littleEndian, ofLittleEndian, span, Nat.mod_one]
  | succ width ih =>
      have hbyte : (UInt8.ofNat value).toNat = value % 256 := by simp
      rw [littleEndian, ofLittleEndian, ih, hbyte, span, Nat.mod_mul]

/-- Reading back a written number gives the part of it that fits. -/
theorem ofBigEndian_bigEndian (width value : Nat) :
    ofBigEndian (bigEndian width value) = value % span width := by
  rw [ofBigEndian, bigEndian, List.reverse_reverse, ofLittleEndian_littleEndian]

/-- A byte string is the writing of its number. -/
theorem littleEndian_ofLittleEndian (bytes : Bytes) :
    littleEndian bytes.length (ofLittleEndian bytes) = bytes := by
  induction bytes with
  | nil => rfl
  | cons byte rest ih =>
      have hbyte := byte.toNat_lt
      have hhead : UInt8.ofNat (byte.toNat + 256 * ofLittleEndian rest) = byte := by
        apply UInt8.toNat_inj.mp
        simp only [UInt8.toNat_ofNat']
        omega
      have htail : (byte.toNat + 256 * ofLittleEndian rest) / 256 = ofLittleEndian rest := by
        omega
      simp only [List.length_cons, ofLittleEndian, littleEndian, hhead, htail, ih]

/-- The number of a byte string is below the bound of its width. -/
theorem ofLittleEndian_lt (bytes : Bytes) : ofLittleEndian bytes < span bytes.length := by
  induction bytes with
  | nil => exact Nat.one_pos
  | cons byte rest ih =>
      have hbyte := byte.toNat_lt
      simp only [ofLittleEndian, List.length_cons, span]
      omega

/-- A split succeeds exactly on a front of the wanted length followed by the rest. -/
theorem split?_eq_some_iff {count : Nat} {bytes front rest : Bytes} :
    split? count bytes = some (front, rest) ↔ bytes = front ++ rest ∧ front.length = count := by
  constructor
  · intro h
    simp only [split?] at h
    split at h
    next hlength =>
      simp only [Option.some.injEq, Prod.mk.injEq] at h
      obtain ⟨rfl, rfl⟩ := h
      exact ⟨(List.take_append_drop count bytes).symm, hlength⟩
    next => simp at h
  · rintro ⟨rfl, rfl⟩
    simp [split?]

/-- What is left of a split is what dropping as many bytes leaves. -/
theorem drop_of_split? {count : Nat} {bytes front rest : Bytes}
    (h : split? count bytes = some (front, rest)) : bytes.drop count = rest := by
  obtain ⟨rfl, hlength⟩ := split?_eq_some_iff.1 h
  exact List.drop_left' hlength

/-- What is split off does not depend on what follows. -/
theorem split?_append {count : Nat} {bytes front rest : Bytes}
    (h : split? count bytes = some (front, rest)) (more : Bytes) :
    split? count (bytes ++ more) = some (front, rest ++ more) := by
  obtain ⟨rfl, hlength⟩ := split?_eq_some_iff.1 h
  exact split?_eq_some_iff.2 ⟨by rw [List.append_assoc], hlength⟩

/-- A split fails exactly on a byte string that is too short. -/
theorem split?_eq_none_iff {count : Nat} {bytes : Bytes} :
    split? count bytes = none ↔ bytes.length < count := by
  simp only [split?, List.length_take]
  split <;> simp <;> omega

end Bytes

/-- Byte strings of one fixed length. -/
structure Octets (count : Nat) where
  bytes : Bytes
  length_eq : bytes.length = count
deriving DecidableEq

namespace Octets

/-- A byte string as octets, if it has the right length. -/
def ofBytes? (count : Nat) (bytes : Bytes) : Option (Octets count) :=
  if h : bytes.length = count then some ⟨bytes, h⟩ else none

/-- The octets of a byte string's front and what follows them. -/
def split? (count : Nat) (bytes : Bytes) : Option (Octets count × Bytes) :=
  let front := bytes.take count
  if h : front.length = count then some (⟨front, h⟩, bytes.drop count) else none

end Octets

end PeerProtocol
