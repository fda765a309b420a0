import PeerProtocol.Proofs.Endpoint.Layout

/-!
# Sizes of endpoints

What an endpoint is encoded as has the size that was foretold (`encodedSize?_of_encode`). What it
was read from has this size too, if the numbers of variable length stand there in their shortest
form (`length_of_decode`): a reader accepts longer forms, which a writer never takes.
-/

namespace PeerProtocol

open Bytes

/-! ## Readers of a fixed size -/

/-- The reader takes so many bytes, whatever it reads. -/
def Takes {α : Type} (reader : Reader α) (count : Nat) : Prop :=
  ∀ input value rest, reader input = .ok (value, rest) → input.length = count + rest.length

/-- One reader after the other takes the bytes of both. -/
theorem Takes.andThen {α β : Type} {reader : Reader α} {next : α → Reader β} {first second : Nat}
    (h : Takes reader first) (hnext : ∀ value, Takes (next value) second) :
    Takes (reader.andThen next) (first + second) := by
  intro input value rest hread
  obtain ⟨front, middle, hfirst, hsecond⟩ := Reader.andThen_eq_ok hread
  rw [h input front middle hfirst, hnext front middle value rest hsecond, Nat.add_assoc]

/-- A value that is not read takes nothing. -/
theorem takes_ofValue {α : Type} (value : α) : Takes (Reader.ofValue value) 0 := by
  intro input read rest hread
  obtain ⟨-, rfl⟩ := Prod.mk.inj (Except.ok.inj hread)
  exact (Nat.zero_add _).symm

/-- A little-endian number takes its width. -/
theorem takes_littleEndian (field : Field) (width : Nat) :
    Takes (readLittleEndian field width) width := by
  intro input value rest hread
  unfold readLittleEndian at hread
  split at hread
  next => cases hread
  next front back hsplit =>
    obtain ⟨rfl, hwidth⟩ := split?_eq_some_iff.1 hsplit
    obtain ⟨-, rfl⟩ := Prod.mk.inj (Except.ok.inj hread)
    rw [List.length_append, hwidth]

/-- A big-endian number takes its width. -/
theorem takes_bigEndian (field : Field) (width : Nat) :
    Takes (readBigEndian field width) width := by
  intro input value rest hread
  unfold readBigEndian at hread
  split at hread
  next => cases hread
  next front back hsplit =>
    obtain ⟨rfl, hwidth⟩ := split?_eq_some_iff.1 hsplit
    obtain ⟨-, rfl⟩ := Prod.mk.inj (Except.ok.inj hread)
    rw [List.length_append, hwidth]

namespace CompactSize

/-- Whether the number at the front of a byte string stands there in its shortest form. -/
def isShortest (bytes : Bytes) : Bool :=
  match decode bytes with
  | .ok (value, rest) => bytes.length == size value + rest.length
  | .error _ => false

/-- In its shortest form a number takes its size. -/
theorem length_of_isShortest {bytes rest : Bytes} {value : UInt64} (h : isShortest bytes = true)
    (hread : decode bytes = .ok (value, rest)) : bytes.length = size value + rest.length := by
  unfold isShortest at h
  rw [hread] at h
  exact beq_iff_eq.1 h

/-- No number has more than nine bytes. -/
theorem size_le (value : UInt64) : size value ≤ 9 := by
  unfold size
  split
  · decide
  · split
    · decide
    · split <;> decide

/-- In any form a number takes nine bytes at most. -/
theorem length_of_decode_le {bytes rest : Bytes} {value : UInt64}
    (hread : decode bytes = .ok (value, rest)) : bytes.length ≤ 9 + rest.length := by
  have hfixed (field : Field) (width : Nat) {input : Bytes} (hwidth : width ≤ 8)
      (hfixed : decodeFixed field width input = .ok (value, rest)) :
      input.length ≤ 8 + rest.length := by
    have htakes : Takes (decodeFixed field width) (width + 0) :=
      (takes_littleEndian field width).andThen fun read => takes_ofValue (UInt64.ofNat read)
    rw [htakes _ _ _ hfixed]
    omega
  cases bytes with
  | nil => cases hread
  | cons marker bytes =>
    have hrest : bytes.length ≤ 8 + rest.length := by
      rw [decode] at hread
      split at hread
      next => exact hfixed .compactSize16 2 (by decide) hread
      next =>
        split at hread
        next => exact hfixed .compactSize32 4 (by decide) hread
        next =>
          split at hread
          next => exact hfixed .compactSize64 8 (by decide) hread
          next =>
            obtain ⟨-, rfl⟩ := Prod.mk.inj (Except.ok.inj hread)
            omega
    rw [List.length_cons]
    omega

end CompactSize

namespace Host

/-- The host of a tagged entry is written as as many address bytes as it was read from. -/
theorem length_toEntry_of_ofEntry {networkId other : UInt8} {address bytes : Bytes} {host : Host}
    (hread : ofEntry networkId address = .ok (some host))
    (hwrite : host.toEntry = .ok (other, bytes)) : bytes.length = address.length := by
  by_cases hknown : networkId ∈ knownNetworks
  · obtain ⟨known, hhost, hentry⟩ := toEntry_of_ofEntry hread hknown
    obtain rfl := Option.some.inj hhost
    obtain ⟨-, rfl⟩ := Prod.mk.inj (Except.ok.inj (hwrite.symm.trans hentry))
    rfl
  · rw [ofEntry_unknown hknown] at hread
    cases hread

end Host

namespace Endpoint

/-! ## Writing -/

/-- No layout has more bytes for an endpoint. -/
def maxSize : Nat := 4 + 9 + 1 + 9 + maxEntryAddress + 2

/-- The plain fields have 26 bytes. -/
theorem length_plainFields {endpoint : Endpoint} {address : Bytes}
    (h : endpoint.hostPart Host.toOctets16 = .ok address) :
    (endpoint.plainFields address).length = 26 := by
  obtain ⟨host, -, hhost⟩ := hostPart_eq_ok h
  obtain ⟨octets, rfl, -⟩ :=
    Host.ofOctets16_toOctets16 (by decide : Layout.embedded ≠ .tagged) hhost
  simp [plainFields, octets.length_eq]

/-- An endpoint is encoded in the size that was foretold. -/
theorem encodedSize?_of_encode {layout : Layout} {endpoint : Endpoint} {bytes : Bytes}
    (h : endpoint.encode layout = .ok bytes) :
    endpoint.encodedSize? layout = some bytes.length := by
  cases layout with
  | embedded =>
    cases haddress : endpoint.hostPart Host.toOctets16 with
    | error error =>
      rw [encode, haddress] at h
      cases h
    | ok address =>
      rw [encode, haddress] at h
      obtain rfl := Except.ok.inj h
      rw [encodedSize?, length_plainFields haddress]
  | timed =>
    cases haddress : endpoint.hostPart Host.toOctets16 with
    | error error =>
      rw [encode, haddress] at h
      cases h
    | ok address =>
      rw [encode, haddress] at h
      obtain rfl := Except.ok.inj h
      rw [encodedSize?, List.length_append, length_plainFields haddress, timeBytes,
        length_littleEndian]
  | tagged =>
    cases hentry : endpoint.hostPart Host.toEntry with
    | error error =>
      rw [encode, hentry] at h
      cases h
    | ok entry =>
      obtain ⟨networkId, address⟩ := entry
      obtain ⟨host, hhost, hpart⟩ := hostPart_eq_ok hentry
      rw [encode, hentry] at h
      obtain rfl := Except.ok.inj h
      simp only [encodedSize?, hhost, Option.map_some, hpart, List.length_append, timeBytes,
        length_littleEndian, length_bigEndian, CompactSize.length_encode, List.length_singleton]

/-- A tagged entry has a size if its host can be written. -/
theorem encodedSize?_tagged_eq_some {endpoint : Endpoint} {size : Nat}
    (h : endpoint.encodedSize? .tagged = some size) :
    ∃ host networkId address, endpoint.host = some host ∧ host.toEntry = .ok (networkId, address) ∧
      size = 4 + CompactSize.size endpoint.services.bits + 1 +
        CompactSize.size (UInt64.ofNat address.length) + address.length + 2 := by
  rw [encodedSize?] at h
  split at h
  next networkId address hentry =>
    obtain ⟨host, hhost, hwritten⟩ := Option.map_eq_some_iff.1 hentry
    exact ⟨host, networkId, address, hhost, hwritten, (Option.some.inj h).symm⟩
  next => cases h

/-- What is foretold is not above the largest size. -/
theorem encodedSize?_le {layout : Layout} {endpoint : Endpoint} {size : Nat}
    (h : endpoint.encodedSize? layout = some size) : size ≤ maxSize := by
  cases layout with
  | embedded =>
    obtain rfl := Option.some.inj h
    decide
  | timed =>
    obtain rfl := Option.some.inj h
    decide
  | tagged =>
    obtain ⟨host, networkId, address, -, hhost, rfl⟩ := encodedSize?_tagged_eq_some h
    have haddress := (Host.ofEntry_toEntry hhost).2
    have hservices := CompactSize.size_le endpoint.services.bits
    have hlength := CompactSize.size_le (UInt64.ofNat address.length)
    unfold maxSize maxEntryAddress
    omega

/-! ## Reading -/

/-- Whether the numbers of variable length in the endpoint at the front of a byte string stand
there in their shortest form: those of a tagged entry's services and of its address bytes. -/
def isShortest : Layout → Bytes → Bool
  | .embedded, _ | .timed, _ => true
  | .tagged, bytes =>
    CompactSize.isShortest (bytes.drop 4) &&
      match CompactSize.decode (bytes.drop 4) with
      | .ok (_, bytes) => CompactSize.isShortest (bytes.drop 1)
      | .error _ => false

/-- Sixteen address bytes are sixteen. -/
theorem takes_octets16 : Takes readOctets16 16 := by
  intro input octets rest hread
  rw [readOctets16_eq_ok hread, List.length_append, octets.length_eq]

/-- A port has two bytes. -/
theorem takes_port : Takes decodePort 2 :=
  (takes_bigEndian .port 2).andThen fun port => takes_ofValue (UInt16.ofNat port)

/-- A time has four bytes. -/
theorem takes_time : Takes decodeTime 4 :=
  (takes_littleEndian .word32 4).andThen fun time => takes_ofValue (UInt32.ofNat time)

/-- The plain fields have 26 bytes. -/
theorem takes_plainFields (time : Option UInt32) : Takes (decodePlainFields time) 26 := by
  rw [decodePlainFields_eq]
  exact (takes_littleEndian .word64 8).andThen fun services =>
    takes_octets16.andThen fun octets =>
      takes_port.andThen fun port => takes_ofValue _

/-- The address bytes of a tagged entry are as many as declared, and not too many. -/
theorem readEntryHost_eq_ok {networkId length : Nat} {bytes rest : Bytes} {host : Option Host}
    (h : readEntryHost networkId length bytes = .ok (host, rest)) :
    ∃ address, bytes = address ++ rest ∧ address.length = length ∧ length ≤ maxEntryAddress ∧
      Host.ofEntry (UInt8.ofNat networkId) address = .ok host := by
  unfold readEntryHost at h
  split at h
  next => cases h
  next hshort =>
    split at h
    next => cases h
    next address back hsplit =>
      obtain ⟨rfl, hlength⟩ := split?_eq_some_iff.1 hsplit
      cases hhost : Host.ofEntry (UInt8.ofNat networkId) address with
      | error error =>
        rw [hhost] at h
        cases h
      | ok made =>
        rw [hhost] at h
        obtain ⟨rfl, rfl⟩ := Prod.mk.inj (Except.ok.inj h)
        exact ⟨address, rfl, hlength, Nat.le_of_not_lt hshort, hhost⟩

/-- A tagged entry was read field by field: the services and the length of the address, each in some
form, between fields of a fixed size. -/
theorem decodeTagged_eq_ok {bytes rest : Bytes} {endpoint : Endpoint}
    (h : decodeTagged bytes = .ok (endpoint, rest)) :
    ∃ services networkId length behindServices behindLength address,
      CompactSize.decode (bytes.drop 4) = .ok (services, behindServices) ∧
      CompactSize.decode (behindServices.drop 1) = .ok (length, behindLength) ∧
      Host.ofEntry networkId address = .ok endpoint.host ∧ endpoint.services.bits = services ∧
      address.length = length.toNat ∧ length.toNat ≤ maxEntryAddress ∧
      bytes.length = 4 + (bytes.drop 4).length ∧
      behindServices.length = 1 + (behindServices.drop 1).length ∧
      behindLength.length = address.length + 2 + rest.length := by
  rw [decodeTagged_eq] at h
  obtain ⟨time, behindTime, htime, h⟩ := Reader.andThen_eq_ok h
  obtain ⟨services, behindServices, hservices, h⟩ := Reader.andThen_eq_ok h
  obtain ⟨networkId, behindNetwork, hnetwork, h⟩ := Reader.andThen_eq_ok h
  obtain ⟨length, behindLength, hlength, h⟩ := Reader.andThen_eq_ok h
  obtain ⟨host, behindHost, hhost, h⟩ := Reader.andThen_eq_ok h
  obtain ⟨port, behindPort, hport, h⟩ := Reader.andThen_eq_ok h
  obtain ⟨rfl, rfl⟩ := Prod.mk.inj (Except.ok.inj h)
  obtain ⟨address, rfl, haddress, hshort, hmade⟩ := readEntryHost_eq_ok hhost
  -- A field of a fixed size is what is dropped to get behind it.
  have hdrop {α : Type} {reader : Reader α} {count : Nat} {input after : Bytes} {value : α}
      (hlocal : Local reader) (htakes : Takes reader count)
      (hread : reader input = .ok (value, after)) : input.drop count = after := by
    obtain ⟨front, rfl, -⟩ := hlocal input value after hread
    have hcount := htakes _ _ _ hread
    rw [List.length_append] at hcount
    exact List.drop_left' (by omega)
  have hbehindTime := hdrop local_decodeTime takes_time htime
  have hbehindNetwork :=
    hdrop (local_littleEndian .networkId 1) (takes_littleEndian .networkId 1) hnetwork
  refine ⟨services, UInt8.ofNat networkId, length, behindServices, address ++ behindHost, address,
    ?_, ?_, hmade, rfl, haddress, hshort, ?_, ?_, ?_⟩
  · rwa [hbehindTime]
  · rwa [hbehindNetwork]
  · rw [hbehindTime]
    exact takes_time _ _ _ htime
  · rw [hbehindNetwork]
    exact takes_littleEndian .networkId 1 _ _ _ hnetwork
  · rw [List.length_append, takes_port _ _ _ hport, Nat.add_assoc]

/-- An endpoint whose numbers stand in their shortest form was read from as many bytes as it will be
encoded in. -/
theorem length_of_decode {layout : Layout} {bytes rest : Bytes} {endpoint : Endpoint} {size : Nat}
    (hread : decode layout bytes = .ok (endpoint, rest))
    (hshortest : isShortest layout bytes = true)
    (hsize : endpoint.encodedSize? layout = some size) : bytes.length = size + rest.length := by
  cases layout with
  | embedded =>
    obtain rfl := Option.some.inj hsize
    exact takes_plainFields none _ _ _ hread
  | timed =>
    obtain rfl := Option.some.inj hsize
    have htakes : Takes (decode .timed) (4 + 26) :=
      takes_time.andThen fun time => takes_plainFields (some time)
    exact htakes _ _ _ hread
  | tagged =>
    obtain ⟨services, networkId, length, behindServices, behindLength, address, hservices, hlength,
      hhost, rfl, haddress, -, hbytes, hnetwork, hrest⟩ := decodeTagged_eq_ok hread
    simp only [isShortest, hservices, Bool.and_eq_true] at hshortest
    have hfirst := CompactSize.length_of_isShortest hshortest.1 hservices
    have hsecond := CompactSize.length_of_isShortest hshortest.2 hlength
    obtain ⟨host, written, entry, hsome, hwritten, rfl⟩ := encodedSize?_tagged_eq_some hsize
    rw [hsome] at hhost
    rw [Host.length_toEntry_of_ofEntry hhost hwritten, haddress, UInt64.ofNat_toNat]
    omega

/-- An endpoint is read from no more bytes than the largest size. -/
theorem length_of_decode_le {layout : Layout} {bytes rest : Bytes} {endpoint : Endpoint}
    (hread : decode layout bytes = .ok (endpoint, rest)) :
    bytes.length ≤ maxSize + rest.length := by
  have hlarge : 30 ≤ maxSize := by decide
  cases layout with
  | embedded =>
    rw [takes_plainFields none _ _ _ hread]
    omega
  | timed =>
    have htakes : Takes (decode .timed) (4 + 26) :=
      takes_time.andThen fun time => takes_plainFields (some time)
    rw [htakes _ _ _ hread]
    omega
  | tagged =>
    obtain ⟨services, networkId, length, behindServices, behindLength, address, hservices, hlength,
      -, -, haddress, hshort, hbytes, hnetwork, hrest⟩ := decodeTagged_eq_ok hread
    have hfirst := CompactSize.length_of_decode_le hservices
    have hsecond := CompactSize.length_of_decode_le hlength
    unfold maxSize
    omega

end Endpoint

end PeerProtocol
