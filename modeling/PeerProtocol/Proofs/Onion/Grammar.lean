import PeerProtocol.Address
import PeerProtocol.Text.Utf8
import PeerProtocol.Proofs.Onion

/-!
# The grammar of onion names

A name is accepted exactly if it is a label before the suffix, and the label is one of two: sixteen
symbols of base32 in either case, or fifty-six that spell a key, its checksum and the version byte
(`exists_ofName_iff`). Base32 has one length of text for each number of bytes, so no other label
spells ten bytes or thirty-five. The main statement, `normalised`, adds that reading and writing a
name are inverse but for the case of the label, so that each key has one name in lower case.
-/

namespace PeerProtocol

open Text.Base32 (IsSymbol decode? decode?_toUpper exists_decode?_iff length_of_decode?)

namespace OnionKey

/-- Sixteen symbols in either case. -/
structure ShortLabel (label : List Char) : Prop where
  length_eq : label.length = 16
  symbols : ∀ c ∈ label.map Char.toUpper, IsSymbol c

/-- Fifty-six symbols in either case that spell a key of thirty-two bytes, the two bytes of its
checksum, and the version byte. -/
structure LongLabel (label : List Char) : Prop where
  length_eq : label.length = 56
  symbols : ∀ c ∈ label.map Char.toUpper, IsSymbol c
  spelled : ∃ key : Bytes, key.length = 32 ∧ decode? (label.map Char.toUpper) =
    some (key ++ (Sha3.hash (Text.utf8 ".onion checksum" ++ key ++ [3])).take 2 ++ [3])

/-- Two names are the same but for the case of their labels. -/
def SameButCase (first second : String) : Prop :=
  ∃ label other : List Char, first.toList = label ++ ".onion".toList ∧
    second.toList = other ++ ".onion".toList ∧ label.map Char.toLower = other.map Char.toLower

/-! ## Names that are accepted -/

/-- What ends a name. -/
theorem suffix_eq : suffix = ".onion".toList := by decide

/-- What a version 3 label spells. -/
theorem spelled_eq (key : Bytes) : key ++ checksum key ++ [versionByte] =
    key ++ (Sha3.hash (Text.utf8 ".onion checksum" ++ key ++ [3])).take 2 ++ [3] := by
  have hdomain : checksumDomain = Text.utf8 ".onion checksum" := by decide
  rw [checksum, hdomain]
  rfl

/-- Bytes are a key if they are ten, or else thirty-two, the checksum of these and the version
byte. -/
theorem exists_ofLabelBytes_iff {bytes : Bytes} :
    (∃ key, ofLabelBytes bytes = .ok key) ↔ bytes.length = 10 ∨
      ∃ key : Bytes, key.length = 32 ∧ bytes = key ++ checksum key ++ [versionByte] := by
  constructor
  · rintro ⟨key, hkey⟩
    rw [← labelBytes_of_ofLabelBytes hkey]
    cases key with
    | v2 key => exact .inl key.length_eq
    | v3 key => exact .inr ⟨key.bytes, key.length_eq, rfl⟩
  · rintro (hten | ⟨key, hlength, rfl⟩)
    · exact ⟨_, ofLabelBytes_labelBytes (v2 ⟨bytes, hten⟩)⟩
    · exact ⟨_, ofLabelBytes_labelBytes (v3 ⟨key, hlength⟩)⟩

/-- A label spells a key exactly if it is a short or a long one. -/
theorem exists_spelled_iff {label : List Char} :
    (∃ bytes, decode? label = some bytes ∧ ∃ key, ofLabelBytes bytes = .ok key) ↔
      ShortLabel label ∨ LongLabel label := by
  simp only [exists_ofLabelBytes_iff]
  constructor
  · rintro ⟨bytes, hbytes, hten | ⟨key, hlength, rfl⟩⟩
    · have hlabel : label.length = 16 := by rw [length_of_decode? hbytes, hten]; rfl
      have hfill : 5 * label.length = 8 * 10 := by rw [hlabel]
      exact .inl ⟨hlabel, (exists_decode?_iff hfill).1 ⟨bytes, hbytes⟩⟩
    · have hlabel : label.length = 56 := by
        rw [length_of_decode? hbytes, List.length_append, List.length_append, hlength,
          length_checksum]
        rfl
      have hfill : 5 * label.length = 8 * 35 := by rw [hlabel]
      refine .inr ⟨hlabel, (exists_decode?_iff hfill).1 ⟨_, hbytes⟩, key, hlength, ?_⟩
      rw [decode?_toUpper, hbytes, spelled_eq]
  · rintro (hshort | hlong)
    · have hfill : 5 * label.length = 8 * 10 := by rw [hshort.length_eq]
      obtain ⟨bytes, hbytes⟩ := (exists_decode?_iff hfill).2 hshort.symbols
      have hcount := length_of_decode? hbytes
      rw [hshort.length_eq, Text.Base32.symbolCount] at hcount
      exact ⟨bytes, hbytes, .inl (by omega)⟩
    · obtain ⟨key, hlength, hspelled⟩ := hlong.spelled
      rw [decode?_toUpper, ← spelled_eq] at hspelled
      exact ⟨_, hspelled, .inr ⟨key, hlength, rfl⟩⟩

/-- A name stands for a key if it is a label before the suffix, and the label spells the key. -/
theorem ofName_eq_ok_iff {name : String} {key : OnionKey} :
    ofName name = .ok key ↔ ∃ label bytes, name.toList = label ++ suffix ∧
      decode? label = some bytes ∧ ofLabelBytes bytes = .ok key := by
  constructor
  · intro h
    unfold ofName at h
    split at h
    next => cases h
    next label hlabel =>
      split at h
      next => cases h
      next bytes hbytes => exact ⟨label, bytes, label?_eq_some hlabel, hbytes, h⟩
  · rintro ⟨label, bytes, hname, hbytes, hkey⟩
    simp only [ofName, hname, label?_append_suffix, hbytes, hkey]

/-- A name is accepted exactly if it is a short or a long label before the suffix. -/
theorem exists_ofName_iff {name : String} :
    (∃ key, ofName name = .ok key) ↔
      ∃ label, name.toList = label ++ ".onion".toList ∧ (ShortLabel label ∨ LongLabel label) := by
  simp only [ofName_eq_ok_iff, ← exists_spelled_iff, ← suffix_eq]
  constructor
  · rintro ⟨key, label, bytes, hname, hbytes, hkey⟩
    exact ⟨label, hname, bytes, hbytes, key, hkey⟩
  · rintro ⟨label, hname, bytes, hbytes, key, hkey⟩
    exact ⟨key, label, bytes, hname, hbytes, hkey⟩

/-! ## Names of keys -/

/-- The name of the key that a name stands for has the label of that name in lower case. -/
theorem toList_name_of_ofName {name : String} {key : OnionKey} {label : List Char}
    (h : ofName name = .ok key) (hname : name.toList = label ++ suffix) :
    key.name.toList = label.map Char.toLower ++ suffix := by
  have hlower : suffix.map Char.toLower = suffix := by decide
  rw [name_of_ofName h, Text.lower, String.toList_ofList, hname, List.map_append, hlower]

/-- Keys with one name are one key. -/
theorem name_injective {key other : OnionKey} (h : key.name = other.name) : key = other := by
  have hread := ofName_name key
  rw [h, ofName_name] at hread
  exact (Except.ok.inj hread).symm

/-- Names stand for one key exactly if they are the same but for the case of their labels. -/
theorem eq_iff_sameButCase {first second : String} {key other : OnionKey}
    (hfirst : ofName first = .ok key) (hsecond : ofName second = .ok other) :
    key = other ↔ SameButCase first second := by
  unfold SameButCase
  rw [← suffix_eq]
  constructor
  · rintro rfl
    obtain ⟨label, -, hname, -⟩ := ofName_eq_ok_iff.1 hfirst
    obtain ⟨otherLabel, -, hotherName, -⟩ := ofName_eq_ok_iff.1 hsecond
    have hsame : label.map Char.toLower ++ suffix = otherLabel.map Char.toLower ++ suffix := by
      rw [← toList_name_of_ofName hfirst hname, toList_name_of_ofName hsecond hotherName]
    exact ⟨label, otherLabel, hname, hotherName, List.append_cancel_right hsame⟩
  · rintro ⟨label, otherLabel, hname, hotherName, hsame⟩
    refine name_injective (String.toList_injective ?_)
    rw [toList_name_of_ofName hfirst hname, toList_name_of_ofName hsecond hotherName, hsame]

/-- How names and keys of hidden services stand to each other. -/
structure Normalised : Prop where
  /-- A name is accepted exactly if it is a short or a long label before the suffix. -/
  accepted_iff : ∀ name, (∃ key, ofName name = .ok key) ↔
    ∃ label, name.toList = label ++ ".onion".toList ∧ (ShortLabel label ∨ LongLabel label)
  /-- The name of a key stands for this key. -/
  readBack : ∀ key : OnionKey, ofName key.name = .ok key
  /-- The name of the key that a name stands for is that name with its label in lower case. -/
  lowered : ∀ name key, ofName name = .ok key → ∃ label, name.toList = label ++ ".onion".toList ∧
    key.name.toList = label.map Char.toLower ++ ".onion".toList
  /-- Two names stand for one key exactly if they are the same but for the case of their labels. -/
  same_iff : ∀ first second key other, ofName first = .ok key → ofName second = .ok other →
    (key = other ↔ SameButCase first second)
  /-- An address that is made of a name has a name of its own, and it is the same address that is
  made of that one. -/
  remade : ∀ dialect name port services now address,
    Address.ofOnionName dialect name port services now = .ok address →
    ∃ own, address.endpoint.onionName? = some own ∧
      Address.ofOnionName dialect own port services now = .ok address

/-- Names of hidden services are accepted by their grammar, and normalised in the case of their
labels alone. -/
theorem normalised : Normalised where
  accepted_iff _ := exists_ofName_iff
  readBack := ofName_name
  lowered name key h := by
    obtain ⟨label, -, hname, -⟩ := ofName_eq_ok_iff.1 h
    rw [← suffix_eq]
    exact ⟨label, hname, toList_name_of_ofName h hname⟩
  same_iff _ _ _ _ := eq_iff_sameButCase
  remade dialect name port services now address h := by
    unfold Address.ofOnionName at h ⊢
    split at h
    next => cases h
    next key hkey =>
      obtain rfl := Except.ok.inj h
      refine ⟨key.name, rfl, ?_⟩
      rw [ofName_name]

end OnionKey

end PeerProtocol
