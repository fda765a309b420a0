import PeerProtocol.Bytes

/-!
# UTF-8

The bytes of a text and the text of bytes. Reading accepts exactly what writing produces
(`ofUtf8?_eq_some_iff`), so overlong forms, surrogates and cut-off sequences are no text. A zero
byte stands for the null character and for nothing else (`zero_mem_utf8_iff`).
-/

namespace PeerProtocol.Text

/-- The UTF-8 bytes of a text. -/
def utf8 (text : String) : Bytes :=
  text.toUTF8.data.toList

/-- The text of UTF-8 bytes, if they are well formed. -/
def ofUtf8? (bytes : Bytes) : Option String :=
  String.fromUTF8? (ByteArray.mk bytes.toArray)

/-- Bytes are read as a text exactly if they are the text's bytes. -/
theorem ofUtf8?_eq_some_iff {bytes : Bytes} {text : String} :
    ofUtf8? bytes = some text ↔ bytes = utf8 text := by
  simp only [ofUtf8?, utf8, String.fromUTF8?, Option.dite_none_right_eq_some, Option.some.injEq]
  constructor
  · rintro ⟨_, rfl⟩
    simp [String.fromUTF8]
  · rintro rfl
    exact ⟨text.isValidUTF8, rfl⟩

/-- The bytes of a text are those of its characters, one after the other. -/
theorem utf8_eq_flatMap (text : String) :
    utf8 text = text.toList.flatMap String.utf8EncodeChar := by
  rw [utf8, String.toUTF8, ← String.utf8Encode_toList, List.utf8Encode, List.data_toByteArray]

/-- A byte is zero if the number that it was made of is a multiple of 256. -/
theorem zero_eq_ofNat_iff {value : Nat} : 0 = UInt8.ofNat value ↔ value % 256 = 0 := by
  rw [← UInt8.toNat_inj, UInt8.toNat_ofNat', eq_comm]
  rfl

/-- Only the null character has a zero among its bytes: every other one is written in a single byte
that is its code, or in bytes that are marked by their highest bit. -/
theorem zero_mem_utf8EncodeChar_iff {char : Char} :
    0 ∈ String.utf8EncodeChar char ↔ char = '\x00' := by
  have hnull : char = '\x00' ↔ char.val.toNat = 0 := by
    rw [← Char.val_inj, ← UInt32.toNat_inj]
    rfl
  rw [hnull]
  unfold String.utf8EncodeChar
  dsimp only
  repeat' split
  all_goals
    simp only [List.mem_cons, List.not_mem_nil, or_false, zero_eq_ofNat_iff]
    omega

/-- The bytes of a text hold a zero exactly where the text holds the null character. -/
theorem zero_mem_utf8_iff {text : String} : 0 ∈ utf8 text ↔ '\x00' ∈ text.toList := by
  rw [utf8_eq_flatMap, List.mem_flatMap]
  constructor
  · rintro ⟨char, hchar, hzero⟩
    exact zero_mem_utf8EncodeChar_iff.1 hzero ▸ hchar
  · intro hnull
    exact ⟨_, hnull, zero_mem_utf8EncodeChar_iff.2 rfl⟩

end PeerProtocol.Text
