import PeerProtocol.Onion
import PeerProtocol.Proofs.Text.Base32

/-!
# Onion names in lower case

The name of the key that a name stands for is that name in lower case (`name_of_ofName`), the names
of keys are in lower case already (`lower_name`), and the name of a key stands for this key
(`ofName_name`).
-/

namespace PeerProtocol

/-- A name in lower case. -/
def Text.lower (name : String) : String :=
  String.ofList (name.toList.map Char.toLower)

namespace OnionKey

/-- A label is what stands before the suffix. -/
theorem label?_eq_some {name label : List Char} (h : label? name = some label) :
    name = label ++ suffix := by
  unfold label? at h
  split at h
  next hsuffix =>
    obtain ⟨front, rfl⟩ := hsuffix
    obtain rfl := Option.some.inj h
    simp
  next => cases h

/-- The key of a label's bytes spells these bytes. -/
theorem labelBytes_of_ofLabelBytes {bytes : Bytes} {key : OnionKey}
    (h : ofLabelBytes bytes = .ok key) : key.labelBytes = bytes := by
  unfold ofLabelBytes at h
  split at h
  next =>
    obtain rfl := Except.ok.inj h
    rfl
  next =>
    split at h
    next =>
      simp only at h
      split at h
      next hend =>
        obtain rfl := Except.ok.inj h
        show bytes.take 32 ++ checksum (bytes.take 32) ++ [versionByte] = bytes
        rw [List.append_assoc, ← hend, List.take_append_drop]
      next => cases h
    next => cases h

/-- The name of the key that a name stands for is that name in lower case. -/
theorem name_of_ofName {name : String} {key : OnionKey} (h : ofName name = .ok key) :
    key.name = Text.lower name := by
  unfold ofName at h
  split at h
  next => cases h
  next label hlabel =>
    split at h
    next => cases h
    next bytes hbytes =>
      have hlower : suffix.map Char.toLower = suffix := by decide
      unfold OnionKey.name Text.lower
      rw [labelBytes_of_ofLabelBytes h, Text.Base32.encode_of_decode? hbytes,
        label?_eq_some hlabel, List.map_append, hlower]

/-- The names of keys are in lower case. -/
theorem lower_name (key : OnionKey) : Text.lower key.name = key.name := by
  have hlower : suffix.map Char.toLower = suffix := by decide
  unfold OnionKey.name Text.lower
  rw [String.toList_ofList, List.map_append, Text.Base32.map_toLower_encode, hlower]

/-! ## Names of keys -/

/-- The label of a name is what stands before the suffix. -/
theorem label?_append_suffix (label : List Char) : label? (label ++ suffix) = some label := by
  unfold label?
  rw [if_pos (List.suffix_append label suffix), List.length_append, Nat.add_sub_cancel,
    List.take_left]

/-- A key is guarded by two bytes. -/
theorem length_checksum (key : Bytes) : (checksum key).length = 2 := by
  simp [checksum, Sha3.hash]

/-- The bytes of a label stand for the key that they spell. -/
theorem ofLabelBytes_labelBytes (key : OnionKey) : ofLabelBytes key.labelBytes = .ok key := by
  cases key with
  | v2 key =>
    unfold ofLabelBytes labelBytes
    rw [dif_pos key.length_eq]
  | v3 key =>
    have hlength : (v3 key).labelBytes.length = 35 := by
      simp [labelBytes, key.length_eq, length_checksum]
    have hsplit : (v3 key).labelBytes = key.bytes ++ (checksum key.bytes ++ [versionByte]) :=
      List.append_assoc _ _ _
    have hkey : (v3 key).labelBytes.take 32 = key.bytes := by
      rw [hsplit, List.take_left' key.length_eq]
    have hend : (v3 key).labelBytes.drop 32 = checksum key.bytes ++ [versionByte] := by
      rw [hsplit, List.drop_left' key.length_eq]
    have hten : ¬ (v3 key).labelBytes.length = 10 := by omega
    unfold ofLabelBytes
    simp only [dif_neg hten, dif_pos hlength, hkey, hend, if_true]

/-- The name of a key stands for this key. -/
theorem ofName_name (key : OnionKey) : ofName key.name = .ok key := by
  unfold ofName name
  rw [String.toList_ofList, label?_append_suffix]
  simp only [Text.Base32.decode?_encode, ofLabelBytes_labelBytes]

end OnionKey

end PeerProtocol
