import PeerProtocol.Endpoint.Layout
import PeerProtocol.Proofs.Onion
import PeerProtocol.Proofs.Reader

/-!
# Endpoints through their layouts

A layout does not give every endpoint back as it was: the plain layouts read what sixteen address
bytes embed, names of hidden services come back in lower case, and a time may be added or dropped.
`Endpoint.normal` is what a layout makes of an endpoint. Whatever is encoded is read as its normal
form (`Endpoint.reads_encode`), reading is local (`Endpoint.local_decode`), and what was read is in
normal form already (`Endpoint.normal_of_decode`). A host that was read is written as what it was
read from (`Host.toOctets16_ofOctets16`, `Host.toEntry_of_ofEntry`).
-/

namespace PeerProtocol

open Bytes

/-! ## Hosts -/

namespace IpAddress

/-- The sixteen octets that an address is made of are its own. -/
theorem octets16_ofOctets16 (octets : Octets 16) : (ofOctets16 octets).octets16 = octets := by
  unfold ofOctets16
  split
  next inner hmapped =>
    unfold mapped? at hmapped
    split at hmapped
    next hfront =>
      obtain rfl := Option.some.inj hmapped
      have hbytes := List.take_append_drop 12 octets.bytes
      rw [hfront] at hbytes
      simp only [octets16, hbytes]
    next => cases hmapped
  next => rfl

end IpAddress

namespace Host

/-- The host that a layout makes of a host: the plain layouts read what the sixteen address bytes
embed, and names are in lower case. -/
def normal (layout : Layout) : Host → Host
  | .onion name => .onion (Text.lower name)
  | .ip address =>
    match layout with
    | .embedded | .timed => ofOctets16 address.octets16
    | .tagged => .ip address

/-- The name of a key is normal in every layout. -/
theorem normal_onion (layout : Layout) (key : OnionKey) :
    (onion key.name).normal layout = onion key.name := by
  show onion (Text.lower key.name) = onion key.name
  rw [OnionKey.lower_name]

/-- The host of sixteen address bytes is normal in the plain layouts. -/
theorem normal_ofOctets16 {layout : Layout} (h : layout ≠ .tagged) (octets : Octets 16) :
    (ofOctets16 octets).normal layout = ofOctets16 octets := by
  cases hkey : embeddedKey? octets with
  | some key =>
    have hhost : ofOctets16 octets = onion (OnionKey.v2 key).name := by
      unfold ofOctets16
      rw [hkey]
    rw [hhost, normal_onion]
  | none =>
    have hhost : ofOctets16 octets = ip (IpAddress.ofOctets16 octets) := by
      unfold ofOctets16
      rw [hkey]
    have hplain : (ip (IpAddress.ofOctets16 octets)).normal layout =
        ofOctets16 (IpAddress.ofOctets16 octets).octets16 := by
      cases layout with
      | embedded => rfl
      | timed => rfl
      | tagged => exact absurd rfl h
    rw [IpAddress.octets16_ofOctets16] at hplain
    calc (ofOctets16 octets).normal layout
        = (ip (IpAddress.ofOctets16 octets)).normal layout := by rw [hhost]
      _ = ofOctets16 octets := hplain

/-- The sixteen address bytes that a host is written as are read as its normal form. -/
theorem ofOctets16_toOctets16 {layout : Layout} (h : layout ≠ .tagged) {host : Host}
    {address : Bytes} (haddress : host.toOctets16 = .ok address) :
    ∃ octets : Octets 16, octets.bytes = address ∧ ofOctets16 octets = host.normal layout := by
  cases host with
  | ip inner =>
    refine ⟨inner.octets16, Except.ok.inj haddress, ?_⟩
    cases layout with
    | embedded => rfl
    | timed => rfl
    | tagged => exact absurd rfl h
  | onion name =>
    cases hkey : OnionKey.ofName name with
    | error cause =>
      rw [toOctets16, hkey] at haddress
      cases haddress
    | ok key =>
      rw [toOctets16, hkey] at haddress
      cases key with
      | v3 key => cases haddress
      | v2 key =>
        obtain rfl := Except.ok.inj haddress
        -- A key of ten bytes is embedded behind a front of six.
        have hfront : (onionFront ++ key.bytes).take 6 = onionFront := rfl
        refine ⟨⟨onionFront ++ key.bytes, by simp [onionFront, key.length_eq]⟩, rfl, ?_⟩
        show ofOctets16 _ = onion (Text.lower name)
        unfold ofOctets16 embeddedKey?
        rw [← OnionKey.name_of_ofName hkey, if_pos hfront]
        rfl

/-- A host that is made of address bytes is made of octets with these bytes. -/
theorem map_entryOctets_eq_ok {networkId : UInt8} {count : Nat} {address : Bytes}
    {make : Octets count → Host} {host : Option Host}
    (h : (entryOctets networkId count address).map (fun octets => some (make octets)) = .ok host) :
    ∃ octets, octets.bytes = address ∧ host = some (make octets) := by
  unfold entryOctets at h
  split at h
  next hlength =>
    obtain rfl := Except.ok.inj h
    exact ⟨⟨address, hlength⟩, rfl, rfl⟩
  next => cases h

/-- The host of a tagged entry is normal in the tagged layout. -/
theorem normal_ofEntry {networkId : UInt8} {address : Bytes} {host : Option Host}
    (h : ofEntry networkId address = .ok host) : host.map (normal .tagged) = host := by
  unfold ofEntry at h
  split at h
  next =>
    obtain ⟨octets, -, rfl⟩ := map_entryOctets_eq_ok h
    rfl
  next =>
    split at h
    next =>
      obtain ⟨octets, -, rfl⟩ := map_entryOctets_eq_ok h
      rfl
    next =>
      split at h
      next =>
        obtain ⟨key, -, rfl⟩ := map_entryOctets_eq_ok h
        exact congrArg some (normal_onion .tagged (.v2 key))
      next =>
        split at h
        next =>
          obtain ⟨key, -, rfl⟩ := map_entryOctets_eq_ok h
          exact congrArg some (normal_onion .tagged (.v3 key))
        next =>
          obtain rfl := Except.ok.inj h
          rfl

/-- Address bytes of the right length are octets. -/
theorem entryOctets_bytes (networkId : UInt8) {count : Nat} (octets : Octets count) :
    entryOctets networkId count octets.bytes = .ok octets := by
  unfold entryOctets
  rw [dif_pos octets.length_eq]

/-- The tagged entry that a host is written as is read as its normal form, and its address bytes
are few. -/
theorem ofEntry_toEntry {host : Host} {networkId : UInt8} {address : Bytes}
    (h : host.toEntry = .ok (networkId, address)) :
    ofEntry networkId address = .ok (some (host.normal .tagged)) ∧ address.length ≤ 32 := by
  cases host with
  | ip inner =>
    cases inner with
    | v4 octets =>
      obtain ⟨rfl, rfl⟩ := Prod.mk.inj (Except.ok.inj h)
      refine ⟨?_, Nat.le_trans (Nat.le_of_eq octets.length_eq) (by decide)⟩
      show (entryOctets 1 4 octets.bytes).map _ = _
      rw [entryOctets_bytes]
      rfl
    | v6 octets =>
      obtain ⟨rfl, rfl⟩ := Prod.mk.inj (Except.ok.inj h)
      refine ⟨?_, Nat.le_trans (Nat.le_of_eq octets.length_eq) (by decide)⟩
      show (entryOctets 2 16 octets.bytes).map _ = _
      rw [entryOctets_bytes]
      rfl
  | onion name =>
    cases hkey : OnionKey.ofName name with
    | error cause =>
      rw [toEntry, hkey] at h
      cases h
    | ok key =>
      rw [toEntry, hkey] at h
      have hname := OnionKey.name_of_ofName hkey
      cases key with
      | v2 octets =>
        obtain ⟨rfl, rfl⟩ := Prod.mk.inj (Except.ok.inj h)
        refine ⟨?_, Nat.le_trans (Nat.le_of_eq octets.length_eq) (by decide)⟩
        show (entryOctets 3 10 octets.bytes).map _ = .ok (some (onion (Text.lower name)))
        rw [entryOctets_bytes, ← hname]
        rfl
      | v3 octets =>
        obtain ⟨rfl, rfl⟩ := Prod.mk.inj (Except.ok.inj h)
        refine ⟨?_, Nat.le_of_eq octets.length_eq⟩
        show (entryOctets 4 32 octets.bytes).map _ = .ok (some (onion (Text.lower name)))
        rw [entryOctets_bytes, ← hname]
        rfl

/-- The host of sixteen address bytes is written in the plain layouts as these bytes. -/
theorem toOctets16_ofOctets16 (octets : Octets 16) :
    (ofOctets16 octets).toOctets16 = .ok octets.bytes := by
  unfold ofOctets16
  split
  next key hkey =>
    unfold embeddedKey? at hkey
    split at hkey
    next hfront =>
      obtain rfl := Option.some.inj hkey
      rw [toOctets16, OnionKey.ofName_name]
      show Except.ok (onionFront ++ octets.bytes.drop 6) = Except.ok octets.bytes
      rw [← hfront, List.take_append_drop]
    next => cases hkey
  next => rw [toOctets16, IpAddress.octets16_ofOctets16]

/-- The networks whose addresses are known. -/
def knownNetworks : List UInt8 := [1, 2, 3, 4]

/-- A tagged entry of a known network has a host, which is written as this entry. -/
theorem toEntry_of_ofEntry {networkId : UInt8} {address : Bytes} {host : Option Host}
    (h : ofEntry networkId address = .ok host) (hknown : networkId ∈ knownNetworks) :
    ∃ known, host = some known ∧ known.toEntry = .ok (networkId, address) := by
  unfold ofEntry at h
  split at h
  next hid =>
    obtain ⟨octets, rfl, rfl⟩ := map_entryOctets_eq_ok h
    exact ⟨_, rfl, hid ▸ rfl⟩
  next hnot1 =>
    split at h
    next hid =>
      obtain ⟨octets, rfl, rfl⟩ := map_entryOctets_eq_ok h
      exact ⟨_, rfl, hid ▸ rfl⟩
    next hnot2 =>
      split at h
      next hid =>
        obtain ⟨key, rfl, rfl⟩ := map_entryOctets_eq_ok h
        refine ⟨_, rfl, ?_⟩
        rw [toEntry, OnionKey.ofName_name, hid]
        rfl
      next hnot3 =>
        split at h
        next hid =>
          obtain ⟨key, rfl, rfl⟩ := map_entryOctets_eq_ok h
          refine ⟨_, rfl, ?_⟩
          rw [toEntry, OnionKey.ofName_name, hid]
          rfl
        next hnot4 => simp [knownNetworks, hnot1, hnot2, hnot3, hnot4] at hknown

/-- A tagged entry of an unknown network has no host. -/
theorem ofEntry_unknown {networkId : UInt8} (hunknown : networkId ∉ knownNetworks)
    (address : Bytes) : ofEntry networkId address = .ok none := by
  have hother {known : UInt8} (h : known ∈ knownNetworks) : networkId ≠ known := by
    rintro rfl
    exact hunknown h
  unfold ofEntry
  rw [if_neg (hother (by decide)), if_neg (hother (by decide)), if_neg (hother (by decide)),
    if_neg (hother (by decide))]

end Host

/-! ## Endpoints -/

namespace Endpoint

/-- What a layout makes of a time: it has none, or a missing one is zero. -/
def normalTime (layout : Layout) (time : Option UInt32) : Option UInt32 :=
  match layout with
  | .embedded => none
  | .timed | .tagged => some (time.getD 0)

/-- The endpoint that a layout makes of an endpoint. -/
def normal (layout : Layout) (endpoint : Endpoint) : Endpoint :=
  { endpoint with
    host := endpoint.host.map (Host.normal layout)
    time := normalTime layout endpoint.time }

/-- A part of the encoding is a part of the host's. -/
theorem hostPart_eq_ok {γ : Type} {endpoint : Endpoint} {part : Host → Except Unencodable γ}
    {value : γ} (h : endpoint.hostPart part = .ok value) :
    ∃ host, endpoint.host = some host ∧ part host = .ok value := by
  unfold hostPart at h
  split at h
  next => cases h
  next host hhost =>
    split at h
    next => cases h
    next made hmade =>
      obtain rfl := Except.ok.inj h
      exact ⟨host, hhost, hmade⟩

/-! ### Fields -/

/-- A port is read as it was written. -/
theorem reads_port (port : UInt16) : Reads decodePort (bigEndian 2 port.toNat) port := by
  have hfits : port.toNat < span 2 := port.toNat_lt
  have hreads := (reads_bigEndian_of_lt .port hfits).map UInt16.ofNat
  rwa [UInt16.ofNat_toNat] at hreads

/-- A port is read locally. -/
theorem local_decodePort : Local decodePort :=
  (local_bigEndian .port 2).andThen fun port => local_ofValue (UInt16.ofNat port)

/-- The time that is written is read; a missing one is zero. -/
theorem reads_time (endpoint : Endpoint) :
    Reads decodeTime endpoint.timeBytes (endpoint.time.getD 0) := by
  have hfits : (endpoint.time.getD 0).toNat < span 4 := (endpoint.time.getD 0).toNat_lt
  have hreads := (reads_littleEndian_of_lt .word32 hfits).map UInt32.ofNat
  rwa [UInt32.ofNat_toNat] at hreads

/-- A time is read locally. -/
theorem local_decodeTime : Local decodeTime :=
  (local_littleEndian .word32 4).andThen fun time => local_ofValue (UInt32.ofNat time)

/-- The sixteen address bytes of the plain layouts. -/
def readOctets16 : Reader (Octets 16) := fun bytes =>
  match Octets.split? 16 bytes with
  | none => .error (.truncated .hostAddress)
  | some parsed => .ok parsed

/-- The host of a tagged entry with a declared address length, which is checked first. -/
def readEntryHost (networkId length : Nat) : Reader (Option Host) := fun bytes =>
  if maxEntryAddress < length then .error (.addressTooLong length)
  else
    match bytes.split? length with
    | none => .error (.truncated .entryAddress)
    | some (address, rest) =>
        (Host.ofEntry (UInt8.ofNat networkId) address).map fun host => (host, rest)

/-- Sixteen address bytes are read as they are. -/
theorem reads_octets16 (octets : Octets 16) : Reads readOctets16 octets.bytes octets := by
  intro tail
  have hfront : (octets.bytes ++ tail).take 16 = octets.bytes :=
    List.take_left' octets.length_eq
  have hback : (octets.bytes ++ tail).drop 16 = tail := List.drop_left' octets.length_eq
  unfold readOctets16 Octets.split?
  simp only [hfront, hback, octets.length_eq, dif_pos]

/-- Sixteen address bytes are the bytes that they were read from. -/
theorem readOctets16_eq_ok {input rest : Bytes} {octets : Octets 16}
    (h : readOctets16 input = .ok (octets, rest)) : input = octets.bytes ++ rest := by
  unfold readOctets16 Octets.split? at h
  simp only at h
  split at h
  next => cases h
  next parsed hparsed =>
    obtain rfl := Except.ok.inj h
    split at hparsed
    next =>
      obtain ⟨rfl, rfl⟩ := Prod.mk.inj (Option.some.inj hparsed)
      exact (List.take_append_drop 16 input).symm
    next => cases hparsed

/-- Sixteen address bytes are read locally. -/
theorem local_readOctets16 : Local readOctets16 := fun _ octets _ hread =>
  ⟨octets.bytes, readOctets16_eq_ok hread, reads_octets16 octets⟩

/-- A tagged entry's host is read as it was written. -/
theorem reads_entryHost {networkId : UInt8} {address : Bytes} {host : Option Host}
    (hhost : Host.ofEntry networkId address = .ok host) (hlength : address.length ≤ 32) :
    Reads (readEntryHost networkId.toNat address.length) address host := by
  intro tail
  have hshort : ¬ maxEntryAddress < address.length := by
    unfold maxEntryAddress
    omega
  unfold readEntryHost
  rw [if_neg hshort, split?_eq_some_iff.2 ⟨rfl, rfl⟩]
  simp only [UInt8.ofNat_toNat, hhost, Except.map]

/-- A tagged entry's host is read locally. -/
theorem local_readEntryHost (networkId length : Nat) : Local (readEntryHost networkId length) := by
  by_cases hlong : maxEntryAddress < length
  · have herror : readEntryHost networkId length = fun _ => .error (.addressTooLong length) := by
      funext bytes
      exact if_pos hlong
    rw [herror]
    exact local_error (.addressTooLong length)
  · exact local_split (Host.ofEntry (UInt8.ofNat networkId)) fun input => if_neg hlong

/-! ### Layouts -/

/-- The plain fields one after the other. -/
theorem decodePlainFields_eq (time : Option UInt32) :
    decodePlainFields time =
      Reader.andThen (readLittleEndian .word64 8) fun services =>
        Reader.andThen readOctets16 fun octets =>
          Reader.andThen decodePort fun port =>
            Reader.ofValue
              ⟨some (Host.ofOctets16 octets), port, ⟨UInt64.ofNat services⟩, time⟩ := by
  funext bytes
  unfold decodePlainFields Reader.andThen readOctets16
  cases readLittleEndian .word64 8 bytes with
  | error error => rfl
  | ok parsed =>
    simp only [bind, Except.bind]
    cases Octets.split? 16 parsed.2 <;> rfl

/-- The fields of a tagged entry one after the other. -/
theorem decodeTagged_eq :
    decodeTagged =
      Reader.andThen decodeTime fun time =>
        Reader.andThen CompactSize.decode fun services =>
          Reader.andThen (readLittleEndian .networkId 1) fun networkId =>
            Reader.andThen CompactSize.decode fun length =>
              Reader.andThen (readEntryHost networkId length.toNat) fun host =>
                Reader.andThen decodePort fun port =>
                  Reader.ofValue ⟨host, port, ⟨services⟩, some time⟩ := by
  funext bytes
  unfold decodeTagged Reader.andThen readEntryHost
  simp only [bind, Except.bind]
  cases decodeTime bytes with
  | error error => rfl
  | ok time =>
    dsimp only
    cases CompactSize.decode time.2 with
    | error error => rfl
    | ok services =>
      dsimp only
      cases readLittleEndian .networkId 1 services.2 with
      | error error => rfl
      | ok networkId =>
        dsimp only
        cases CompactSize.decode networkId.2 with
        | error error => rfl
        | ok length =>
          dsimp only
          by_cases hlong : maxEntryAddress < length.1.toNat
          · rw [if_pos hlong, if_pos hlong]
            rfl
          · rw [if_neg hlong, if_neg hlong]
            cases length.2.split? length.1.toNat with
            | none => rfl
            | some address =>
              dsimp only
              cases Host.ofEntry (UInt8.ofNat networkId.1) address.1 <;> rfl

/-- The plain fields are read as they were written, under the time that was read before. -/
theorem reads_plainFields {layout : Layout} (h : layout ≠ .tagged) {endpoint : Endpoint}
    {address : Bytes} (haddress : endpoint.hostPart Host.toOctets16 = .ok address)
    (time : Option UInt32) :
    Reads (decodePlainFields time) (endpoint.plainFields address)
      { endpoint with host := endpoint.host.map (Host.normal layout), time := time } := by
  obtain ⟨host, hhost, hbytes⟩ := hostPart_eq_ok haddress
  obtain ⟨octets, rfl, hoctets⟩ := Host.ofOctets16_toOctets16 h hbytes
  have hfits : endpoint.services.bits.toNat < span 8 := endpoint.services.bits.toNat_lt
  have hservices := reads_littleEndian_of_lt .word64 hfits
  rw [decodePlainFields_eq, plainFields, List.append_assoc]
  refine hservices.andThen ((reads_octets16 octets).andThen ?_)
  rw [hhost, Option.map_some, ← hoctets, UInt64.ofNat_toNat]
  exact (reads_port endpoint.port).map fun port =>
    Endpoint.mk (some (Host.ofOctets16 octets)) port endpoint.services time

/-- The fields of a tagged entry are read as they were written. -/
theorem reads_tagged {endpoint : Endpoint} {networkId : UInt8} {address : Bytes}
    (h : endpoint.hostPart Host.toEntry = .ok (networkId, address)) :
    Reads decodeTagged
      (endpoint.timeBytes ++ (CompactSize.encode endpoint.services.bits ++ ([networkId] ++
        (CompactSize.encode (UInt64.ofNat address.length) ++
          (address ++ bigEndian 2 endpoint.port.toNat)))))
      (endpoint.normal .tagged) := by
  obtain ⟨host, hhost, hbytes⟩ := hostPart_eq_ok h
  obtain ⟨hread, hshort⟩ := Host.ofEntry_toEntry hbytes
  have hnetwork : Reads (readLittleEndian .networkId 1) [networkId] networkId.toNat := by
    have hreads := reads_littleEndian .networkId [networkId]
    rwa [ofLittleEndian, ofLittleEndian, Nat.mul_zero, Nat.add_zero] at hreads
  -- Address bytes are few, so their number is written as it is.
  have hlength : (UInt64.ofNat address.length).toNat = address.length := by
    rw [UInt64.toNat_ofNat']
    omega
  rw [decodeTagged_eq]
  refine (reads_time endpoint).andThen ?_
  refine (CompactSize.reads_encode endpoint.services.bits).andThen ?_
  refine hnetwork.andThen ?_
  refine (CompactSize.reads_encode (UInt64.ofNat address.length)).andThen ?_
  rw [hlength]
  refine (reads_entryHost hread hshort).andThen ?_
  rw [normal, hhost, Option.map_some]
  exact (reads_port endpoint.port).map fun port =>
    Endpoint.mk (some (host.normal .tagged)) port endpoint.services (some (endpoint.time.getD 0))

/-- What an endpoint is encoded as is read as its normal form, whatever follows. -/
theorem reads_encode {layout : Layout} {endpoint : Endpoint} {bytes : Bytes}
    (h : endpoint.encode layout = .ok bytes) :
    Reads (decode layout) bytes (endpoint.normal layout) := by
  cases layout with
  | embedded =>
    cases haddress : endpoint.hostPart Host.toOctets16 with
    | error error =>
      rw [encode, haddress] at h
      cases h
    | ok address =>
      rw [encode, haddress] at h
      obtain rfl := Except.ok.inj h
      exact reads_plainFields (by decide : Layout.embedded ≠ .tagged) haddress none
  | timed =>
    cases haddress : endpoint.hostPart Host.toOctets16 with
    | error error =>
      rw [encode, haddress] at h
      cases h
    | ok address =>
      rw [encode, haddress] at h
      obtain rfl := Except.ok.inj h
      show Reads (Reader.andThen decodeTime fun time => decodePlainFields (some time)) _ _
      exact (reads_time endpoint).andThen
        (reads_plainFields (by decide : Layout.timed ≠ .tagged) haddress _)
  | tagged =>
    cases hentry : endpoint.hostPart Host.toEntry with
    | error error =>
      rw [encode, hentry] at h
      cases h
    | ok entry =>
      obtain ⟨networkId, address⟩ := entry
      rw [encode, hentry] at h
      obtain rfl := Except.ok.inj h
      simp only [List.append_assoc]
      exact reads_tagged hentry

/-- Reading an endpoint never looks beyond its bytes. -/
theorem local_decode (layout : Layout) : Local (decode layout) := by
  have hplain : ∀ time, Local (decodePlainFields time) := by
    intro time
    rw [decodePlainFields_eq]
    exact (local_littleEndian .word64 8).andThen fun services =>
      local_readOctets16.andThen fun octets =>
        local_decodePort.andThen fun port => local_ofValue _
  cases layout with
  | embedded => exact hplain none
  | timed => exact local_decodeTime.andThen fun time => hplain (some time)
  | tagged =>
    show Local decodeTagged
    rw [decodeTagged_eq]
    exact local_decodeTime.andThen fun time =>
      CompactSize.local_decode.andThen fun services =>
        (local_littleEndian .networkId 1).andThen fun networkId =>
          CompactSize.local_decode.andThen fun length =>
            (local_readEntryHost networkId length.toNat).andThen fun host =>
              local_decodePort.andThen fun port => local_ofValue _

/-- The plain fields are read as a normal host under the given time. -/
theorem normal_of_decodePlainFields {layout : Layout} (h : layout ≠ .tagged)
    {time : Option UInt32} (htime : normalTime layout time = time) {bytes rest : Bytes}
    {endpoint : Endpoint} (hread : decodePlainFields time bytes = .ok (endpoint, rest)) :
    endpoint.normal layout = endpoint := by
  rw [decodePlainFields_eq] at hread
  obtain ⟨services, _, _, hread⟩ := Reader.andThen_eq_ok hread
  obtain ⟨octets, _, _, hread⟩ := Reader.andThen_eq_ok hread
  obtain ⟨port, _, _, hread⟩ := Reader.andThen_eq_ok hread
  obtain ⟨rfl, -⟩ := Prod.mk.inj (Except.ok.inj hread)
  unfold normal
  rw [Option.map_some, Host.normal_ofOctets16 h, htime]

/-- What was read is in the layout's normal form. -/
theorem normal_of_decode {layout : Layout} {bytes rest : Bytes} {endpoint : Endpoint}
    (h : decode layout bytes = .ok (endpoint, rest)) : endpoint.normal layout = endpoint := by
  cases layout with
  | embedded => exact normal_of_decodePlainFields (by decide) rfl h
  | timed =>
    have htimed : Reader.andThen decodeTime (fun time => decodePlainFields (some time)) bytes =
        .ok (endpoint, rest) := h
    obtain ⟨time, _, _, hread⟩ := Reader.andThen_eq_ok htimed
    exact normal_of_decodePlainFields (by decide) (rfl : normalTime .timed (some time) = some time)
      hread
  | tagged =>
    rw [decode, decodeTagged_eq] at h
    obtain ⟨time, _, _, h⟩ := Reader.andThen_eq_ok h
    obtain ⟨services, _, _, h⟩ := Reader.andThen_eq_ok h
    obtain ⟨networkId, _, _, h⟩ := Reader.andThen_eq_ok h
    obtain ⟨length, _, _, h⟩ := Reader.andThen_eq_ok h
    obtain ⟨host, _, hhost, h⟩ := Reader.andThen_eq_ok h
    obtain ⟨port, _, _, h⟩ := Reader.andThen_eq_ok h
    obtain ⟨rfl, -⟩ := Prod.mk.inj (Except.ok.inj h)
    unfold readEntryHost at hhost
    split at hhost
    next => cases hhost
    next =>
      split at hhost
      next => cases hhost
      next address rest hsplit =>
        cases hmade : Host.ofEntry (UInt8.ofNat networkId) address with
        | error error =>
          rw [hmade] at hhost
          cases hhost
        | ok made =>
          rw [hmade] at hhost
          obtain ⟨rfl, -⟩ := Prod.mk.inj (Except.ok.inj hhost)
          unfold normal
          rw [Host.normal_ofEntry hmade]
          rfl

end Endpoint

end PeerProtocol
