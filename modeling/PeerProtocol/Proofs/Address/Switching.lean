import PeerProtocol.Proofs.Address.Rewriting

/-!
# Addresses that are switched to another layout

An address that was parsed in one layout is encoded in another one from what it tells. The tagged
layout has room for all that the plain layouts tell, so a parsed address survives the way there and
back. A plain layout has no room for the key of a version 3 hidden service or for a host of an
unknown network, and takes a version 6 address for what it embeds. The main statement,
`switched_parsed`, says so of every parsed address.
-/

namespace PeerProtocol

open Bytes

namespace Host

/-- The plain layouts read an address or the name of a version 2 key. -/
theorem ofOctets16_cases (octets : Octets 16) :
    (∃ address, ofOctets16 octets = .ip address) ∨
      ∃ key, ofOctets16 octets = .onion (OnionKey.v2 key).name := by
  unfold ofOctets16
  split
  next key _ => exact Or.inr ⟨key, rfl⟩
  next => exact Or.inl ⟨_, rfl⟩

/-- The tagged layout reads no host, an address, or the name of a key. -/
theorem ofEntry_cases {networkId : UInt8} {address : Bytes} {host : Option Host}
    (h : ofEntry networkId address = .ok host) :
    host = none ∨ (∃ inner, host = some (.ip inner)) ∨
      ∃ key : OnionKey, host = some (.onion key.name) := by
  unfold ofEntry at h
  split at h
  next =>
    obtain ⟨octets, -, rfl⟩ := map_entryOctets_eq_ok h
    exact Or.inr (Or.inl ⟨_, rfl⟩)
  next =>
    split at h
    next =>
      obtain ⟨octets, -, rfl⟩ := map_entryOctets_eq_ok h
      exact Or.inr (Or.inl ⟨_, rfl⟩)
    next =>
      split at h
      next =>
        obtain ⟨key, -, rfl⟩ := map_entryOctets_eq_ok h
        exact Or.inr (Or.inr ⟨_, rfl⟩)
      next =>
        split at h
        next =>
          obtain ⟨key, -, rfl⟩ := map_entryOctets_eq_ok h
          exact Or.inr (Or.inr ⟨_, rfl⟩)
        next => exact Or.inl (Except.ok.inj h).symm

/-- The host of sixteen address bytes is normal in the tagged layout too. -/
theorem normal_tagged_ofOctets16 (octets : Octets 16) :
    (ofOctets16 octets).normal .tagged = ofOctets16 octets := by
  rcases ofOctets16_cases octets with ⟨address, hhost⟩ | ⟨key, hhost⟩
  · rw [hhost]
    rfl
  · rw [hhost, normal_onion]

/-- The host of sixteen address bytes can be written in the tagged layout. -/
theorem not_unwritable_ofOctets16 (octets : Octets 16) (cause : Unencodable) :
    ¬ Unwritable .tagged (some (ofOctets16 octets)) cause := by
  rcases ofOctets16_cases octets with ⟨address, hhost⟩ | ⟨key, hhost⟩
  · rw [hhost]
    exact not_unwritable_ip
  · rw [hhost, unwritable_onion_iff, OnionKey.ofName_name]
    exact id

/-- Of what a tagged entry tells, the plain layouts cannot write a missing host and the name of a
version 3 key. -/
theorem unwritable_of_ofEntry_iff {layout : Layout} (hlayout : layout ≠ .tagged)
    {networkId : UInt8} {address : Bytes} {host : Option Host}
    (h : ofEntry networkId address = .ok host) :
    (∃ cause, Unwritable layout host cause) ↔
      host = none ∨ ∃ key, host = some (.onion (OnionKey.v3 key).name) := by
  constructor
  · rintro ⟨cause, hcause⟩
    rcases ofEntry_cases h with rfl | ⟨inner, rfl⟩ | ⟨key, rfl⟩
    · exact Or.inl rfl
    · exact absurd hcause not_unwritable_ip
    · rw [unwritable_onion_iff, OnionKey.ofName_name] at hcause
      cases key with
      | v2 key => exact hcause.elim
      | v3 key => exact Or.inr ⟨key, rfl⟩
  · rintro (rfl | ⟨key, rfl⟩)
    · exact ⟨_, .missing⟩
    · exact ⟨_, .tooLong hlayout (OnionKey.ofName_name (.v3 key))⟩

end Host

namespace Endpoint

/-- What was read in a plain layout has a host of sixteen address bytes. -/
theorem host_of_decode {layout : Layout} (hplain : layout ≠ .tagged) {bytes rest : Bytes}
    {endpoint : Endpoint} (h : decode layout bytes = .ok (endpoint, rest)) :
    ∃ octets, endpoint.host = some (Host.ofOctets16 octets) := by
  have hfields {time : Option UInt32} {input : Bytes}
      (hread : decodePlainFields time input = .ok (endpoint, rest)) :
      ∃ octets, endpoint.host = some (Host.ofOctets16 octets) := by
    rw [decodePlainFields_eq] at hread
    obtain ⟨services, _, _, hread⟩ := Reader.andThen_eq_ok hread
    obtain ⟨octets, _, _, hread⟩ := Reader.andThen_eq_ok hread
    obtain ⟨port, _, _, hread⟩ := Reader.andThen_eq_ok hread
    obtain ⟨rfl, -⟩ := Prod.mk.inj (Except.ok.inj hread)
    exact ⟨octets, rfl⟩
  cases layout with
  | embedded => exact hfields h
  | timed =>
    have htimed : Reader.andThen decodeTime (fun time => decodePlainFields (some time)) bytes =
        .ok (endpoint, rest) := h
    obtain ⟨time, _, _, hread⟩ := Reader.andThen_eq_ok htimed
    exact hfields hread
  | tagged => exact absurd rfl hplain

/-- What was read in a plain layout is encoded in the tagged one. -/
theorem encode_tagged_of_decode {layout : Layout} (hplain : layout ≠ .tagged) {bytes rest : Bytes}
    {endpoint : Endpoint} (h : decode layout bytes = .ok (endpoint, rest)) :
    ∃ written, endpoint.encode .tagged = .ok written := by
  obtain ⟨octets, hhost⟩ := host_of_decode hplain h
  cases hencode : endpoint.encode .tagged with
  | ok written => exact ⟨written, rfl⟩
  | error error =>
    obtain ⟨cause, -, hcause⟩ := encode_eq_error_iff.1 hencode
    rw [hhost] at hcause
    exact absurd hcause (Host.not_unwritable_ofOctets16 octets cause)

/-- The tagged layout makes of what was read in a plain one the same with a time. -/
theorem normal_tagged_of_decode {layout : Layout} (hplain : layout ≠ .tagged) {bytes rest : Bytes}
    {endpoint : Endpoint} (h : decode layout bytes = .ok (endpoint, rest)) :
    endpoint.normal .tagged = { endpoint with time := some (endpoint.time.getD 0) } := by
  obtain ⟨octets, hhost⟩ := host_of_decode hplain h
  unfold normal
  rw [hhost, Option.map_some, Host.normal_tagged_ofOctets16]
  rfl

/-- The host of a tagged entry was made of address bytes. -/
theorem host_of_decodeTagged {bytes rest : Bytes} {endpoint : Endpoint}
    (h : decode .tagged bytes = .ok (endpoint, rest)) :
    ∃ networkId address, Host.ofEntry networkId address = .ok endpoint.host := by
  obtain ⟨_, networkId, _, _, _, address, -, -, hhost, -⟩ := decodeTagged_eq_ok h
  exact ⟨networkId, address, hhost⟩

end Endpoint

namespace Address

/-- Wherever the bytes stand in a payload, they are parsed in a layout, up to their last one, as an
address that tells this. -/
def ParsedAs (layout : Layout) (bytes : Bytes) (endpoint : Endpoint) : Prop :=
  ∀ dialect front tail owner, dialect.version = layout.version → ∃ read,
    parse dialect (front ++ bytes ++ tail) front.length owner = .ok (read, bytes.length) ∧
      read.endpoint = endpoint

/-- What becomes of an address that was parsed in a plain layout from the first `used` bytes of some
input: it is encoded in the tagged layout as what is parsed as the same endpoint, seen at time zero
if it had no time; and back in its own layout, whether or not it was encoded in between, it is
encoded as the bytes that it was parsed from. -/
structure SurvivesTagged (address : Address) (input : Bytes) (used : Nat) : Prop where
  size : used = if address.version = Layout.embedded.version then 26 else 30
  tagged : ∀ dialect, dialect.version = Layout.tagged.version → ∃ bytes,
    (address.setDialect dialect).serialize.1 = .ok bytes ∧
      ParsedAs .tagged bytes { address.endpoint with time := some (address.endpoint.time.getD 0) }
  back : ∀ dialect original, dialect.version = Layout.tagged.version →
    original.version = address.version →
    ((address.setDialect dialect).setDialect original).serialize.1 = .ok (input.take used) ∧
      ((address.setDialect dialect).serialize.2.setDialect original).serialize.1 =
        .ok (input.take used)

/-- What becomes of an address that was parsed in the tagged layout when it is switched to the timed
one: it is refused exactly if it has no host or the name of a version 3 key, and otherwise encoded
as what is parsed as the same endpoint, but for a version 6 address, which is taken for what it
embeds. -/
structure SurvivesTimed (address : Address) : Prop where
  refused_iff : ∀ dialect, dialect.version = Layout.timed.version →
    ((∃ error, (address.setDialect dialect).serialize.1 = .error error) ↔
      address.endpoint.host = none ∨
        ∃ key, address.endpoint.host = some (.onion (OnionKey.v3 key).name))
  parsed : ∀ dialect bytes, dialect.version = Layout.timed.version →
    (address.setDialect dialect).serialize.1 = .ok bytes → ∃ host back,
      address.endpoint.host = some host ∧ host.ComesBack .timed back ∧
        (∀ name, host = .onion name → back = host) ∧
        ParsedAs .timed bytes { address.endpoint with host := some back }

/-- An address that is switched to another layout is encoded there from what it tells. -/
theorem serialize_setDialect {address : Address} {dialect : Dialect} {layout : Layout}
    (hother : address.version ≠ dialect.version) (hversion : dialect.version = layout.version) :
    (address.setDialect dialect).serialize.1 = address.endpoint.encode layout := by
  have hswitched : address.encoding.dialect ≠ dialect := fun hsame =>
    hother (congrArg Dialect.version hsame)
  have huncached : (address.setDialect dialect).encoding.retained = none := by
    unfold setDialect
    rw [if_neg hswitched]
    rfl
  have hlayout : (address.setDialect dialect).version = layout.version := by
    rw [version_setDialect, hversion]
  rw [serialize_of_uncached huncached, fields_of_version hlayout, endpoint_setDialect]

/-- What an endpoint is encoded as in a layout is parsed there as its normal form. -/
theorem parsedAs_encode {layout : Layout} {endpoint : Endpoint} {bytes : Bytes}
    (h : endpoint.encode layout = .ok bytes) : ParsedAs layout bytes (endpoint.normal layout) := by
  intro dialect front tail owner hversion
  have hlayout : Layout.ofVersion? dialect.version = some layout := by
    rw [hversion, Layout.ofVersion?_version]
  have hinput : (front ++ bytes ++ tail).drop front.length = bytes ++ tail := by
    rw [List.append_assoc, List.drop_left]
  have hread := Endpoint.reads_encode h tail
  rw [← hinput] at hread
  exact ⟨_, parse_of_decode hlayout hinput hread owner, rfl⟩

/-- What was parsed in a plain layout survives the tagged one. -/
theorem survivesTagged_of_parse {dialect : Dialect} {payload : Bytes} {offset used : Nat}
    {owner : Option ListId} {address : Address}
    (h : parse dialect payload offset owner = .ok (address, used))
    (hplain : address.version ≠ Layout.tagged.version) :
    address.SurvivesTagged (payload.drop offset) used := by
  obtain ⟨layout, front, rest, hlayout, hinput, rfl, hfront, -, hencoding, -⟩ := parse_eq_ok h
  have hversion : address.version = layout.version := by
    rw [version, hencoding]
    exact version_of_ofVersion? hlayout
  have hnotTagged : layout ≠ .tagged := by
    rintro rfl
    exact hplain hversion
  have hread : Endpoint.decode layout (payload.drop offset) = .ok (address.endpoint, rest) := by
    rw [hinput]
    exact hfront rest
  have htake : (payload.drop offset).take front.length = front := by rw [hinput, List.take_left]
  obtain ⟨other, hother, hencode⟩ := Endpoint.encode_of_decode hnotTagged hread
  obtain rfl : front = other := List.append_cancel_right (hinput.symm.trans hother)
  refine ⟨?_, fun tagged htagged => ?_, fun tagged original htagged horiginal => ⟨?_, ?_⟩⟩
  · have hsize := Endpoint.encodedSize?_of_encode hencode
    rw [hversion]
    cases layout with
    | embedded => exact (Option.some.inj hsize).symm
    | timed => exact (Option.some.inj hsize).symm
    | tagged => exact absurd rfl hnotTagged
  · obtain ⟨bytes, hbytes⟩ := Endpoint.encode_tagged_of_decode hnotTagged hread
    refine ⟨bytes, ?_, ?_⟩
    · rw [serialize_setDialect (by rwa [htagged]) htagged, hbytes]
    · rw [← Endpoint.normal_tagged_of_decode hnotTagged hread]
      exact parsedAs_encode hbytes
  · -- The way back is a switch as well, so the kept bytes do not matter.
    have hback : (address.setDialect tagged).version ≠ original.version := by
      rw [version_setDialect, htagged, horiginal]
      exact hplain.symm
    rw [serialize_setDialect hback (horiginal.trans hversion), endpoint_setDialect, hencode, htake]
  · have hsame : (address.setDialect tagged).serialize.2.version = tagged.version :=
      (congrArg Dialect.version (Encoding.serialize_dialect _ _)).trans
        (version_setDialect address tagged)
    have hback : (address.setDialect tagged).serialize.2.version ≠ original.version := by
      rw [hsame, htagged, horiginal]
      exact hplain.symm
    have hendpoint : (address.setDialect tagged).serialize.2.endpoint = address.endpoint :=
      endpoint_setDialect address tagged
    rw [serialize_setDialect hback (horiginal.trans hversion), hendpoint, hencode, htake]

/-- What was parsed in the tagged layout survives the timed one, as far as that has room for it. -/
theorem survivesTimed_of_parse {dialect : Dialect} {payload : Bytes} {offset used : Nat}
    {owner : Option ListId} {address : Address}
    (h : parse dialect payload offset owner = .ok (address, used))
    (htagged : address.version = Layout.tagged.version) : address.SurvivesTimed := by
  obtain ⟨layout, front, rest, hlayout, hinput, -, hfront, -, hencoding, -⟩ := parse_eq_ok h
  obtain rfl : layout = .tagged := by
    have hversion : address.version = dialect.version := by
      rw [version, hencoding]
      rfl
    rw [← hversion, htagged, Layout.ofVersion?_version] at hlayout
    exact (Option.some.inj hlayout).symm
  have hread : Endpoint.decode .tagged (payload.drop offset) = .ok (address.endpoint, rest) := by
    rw [hinput]
    exact hfront rest
  obtain ⟨networkId, entry, hentry⟩ := Endpoint.host_of_decodeTagged hread
  have hserialize {timed : Dialect} (htimed : timed.version = Layout.timed.version) :
      (address.setDialect timed).serialize.1 = address.endpoint.encode .timed := by
    refine serialize_setDialect ?_ htimed
    rw [htagged, htimed]
    decide
  refine ⟨fun timed htimed => ?_, fun timed bytes htimed hbytes => ?_⟩
  · rw [hserialize htimed, ← Host.unwritable_of_ofEntry_iff (by decide : Layout.timed ≠ .tagged)
      hentry]
    constructor
    · rintro ⟨error, herror⟩
      obtain ⟨cause, -, hcause⟩ := Endpoint.encode_eq_error_iff.1 herror
      exact ⟨cause, hcause⟩
    · rintro ⟨cause, hcause⟩
      exact ⟨_, Endpoint.encode_eq_error_iff.2 ⟨cause, rfl, hcause⟩⟩
  · rw [hserialize htimed] at hbytes
    cases hhost : address.endpoint.host with
    | none =>
      have herror : address.endpoint.encode .timed = .error (.unencodable .unknownNetwork) :=
        Endpoint.encode_eq_error_iff.2 ⟨_, rfl, hhost ▸ .missing⟩
      rw [herror] at hbytes
      cases hbytes
    | some host =>
      refine ⟨host, host.normal .timed, rfl, Host.comesBack_normal .timed host, ?_, ?_⟩
      · rintro name rfl
        rw [hhost] at hentry
        exact Option.some.inj (Host.normal_ofEntry hentry)
      · -- Both layouts have a time, and the one that was read is kept.
        have htime : Endpoint.normalTime .timed address.endpoint.time = address.endpoint.time :=
          congrArg Endpoint.time (Endpoint.normal_of_decode hread)
        have hnormal : address.endpoint.normal .timed =
            { address.endpoint with host := some (host.normal .timed) } := by
          unfold Endpoint.normal
          rw [hhost, htime]
          rfl
        rw [← hnormal]
        exact parsedAs_encode hbytes

/-- Every parsed address that is switched to another layout tells there what it told before, as far
as the layout has room for it, and back in its own layout it is what it was. -/
theorem switched_parsed {dialect : Dialect} {payload : Bytes} {offset used : Nat}
    {owner : Option ListId} {address : Address}
    (h : parse dialect payload offset owner = .ok (address, used)) :
    (address.version ≠ Layout.tagged.version →
        address.SurvivesTagged (payload.drop offset) used) ∧
      (address.version = Layout.tagged.version → address.SurvivesTimed) :=
  ⟨survivesTagged_of_parse h, survivesTimed_of_parse h⟩

/-- An address without a time: the services, sixteen octets that embed the key of a hidden service,
and the port. -/
def hiddenService : Bytes :=
  [9, 0, 0, 0, 0, 0, 0, 0] ++ Host.onionFront ++ List.replicate 10 0xFF ++ [0x20, 0x8D]

/-- A tagged entry of a version 6 address that embeds 10.0.0.1. -/
def mappedEntry : Bytes :=
  [1, 0, 0, 0, 9, 2, 16] ++ IpAddress.mappedFront ++ [10, 0, 0, 1, 0x20, 0x8D]

/-- Switched to the tagged layout, the hidden service is parsed as seen at time zero, and back it is
encoded in the 26 bytes that it was parsed from. Switched to the timed layout, the entry is parsed
as 10.0.0.1, seen when it was seen before. -/
theorem switched_parsed_hiddenService :
    (∃ address, parse ⟨.main, Layout.embedded.version, true⟩ ([7] ++ hiddenService) 1 none =
        .ok (address, 26) ∧
      (∃ bytes read, (address.setDialect ⟨.test, Layout.tagged.version, false⟩).serialize.1 =
          .ok bytes ∧
        parse ⟨.main, Layout.tagged.version, true⟩ bytes 0 none = .ok (read, bytes.length) ∧
        read.endpoint.time = some 0) ∧
      ((address.setDialect ⟨.test, Layout.tagged.version, false⟩).serialize.2.setDialect
        ⟨.main, Layout.embedded.version, true⟩).serialize.1 = .ok hiddenService) ∧
    ∃ address bytes read, parse ⟨.main, Layout.tagged.version, false⟩ mappedEntry 0 none =
        .ok (address, 25) ∧
      (address.setDialect ⟨.main, Layout.timed.version, false⟩).serialize.1 = .ok bytes ∧
      parse ⟨.main, Layout.timed.version, false⟩ bytes 0 none = .ok (read, bytes.length) ∧
      read.endpoint.host = some (.ip (.v4 ⟨[10, 0, 0, 1], rfl⟩)) ∧
      read.endpoint.time = some 1 := by
  constructor
  · obtain ⟨address, hparse, hversion, htime⟩ : ∃ address,
        parse ⟨.main, Layout.embedded.version, true⟩ ([7] ++ hiddenService) 1 none =
            .ok (address, 26) ∧
          address.version = Layout.embedded.version ∧ address.endpoint.time = none :=
      ⟨_, rfl, rfl, rfl⟩
    have hsurvives := (switched_parsed hparse).1 (by rw [hversion]; decide)
    obtain ⟨bytes, hbytes, hparsed⟩ := hsurvives.tagged ⟨.test, Layout.tagged.version, false⟩ rfl
    obtain ⟨read, hread, hendpoint⟩ :=
      hparsed ⟨.main, Layout.tagged.version, true⟩ [] [] none rfl
    rw [List.nil_append, List.append_nil] at hread
    refine ⟨address, hparse, ⟨bytes, read, hbytes, hread, ?_⟩, ?_⟩
    · rw [hendpoint, htime]
      rfl
    · exact (hsurvives.back ⟨.test, Layout.tagged.version, false⟩
        ⟨.main, Layout.embedded.version, true⟩ rfl hversion.symm).2
  · obtain ⟨address, bytes, hparse, hversion, hhost, htime, hbytes⟩ : ∃ address bytes,
        parse ⟨.main, Layout.tagged.version, false⟩ mappedEntry 0 none = .ok (address, 25) ∧
          address.version = Layout.tagged.version ∧
          address.endpoint.host =
            some (.ip (.v6 ⟨IpAddress.mappedFront ++ [10, 0, 0, 1], rfl⟩)) ∧
          address.endpoint.time = some 1 ∧
          (address.setDialect ⟨.main, Layout.timed.version, false⟩).serialize.1 = .ok bytes :=
      ⟨_, _, rfl, rfl, rfl, rfl, rfl⟩
    obtain ⟨host, back, hsame, hback, -, hparsed⟩ :=
      ((switched_parsed hparse).2 hversion).parsed _ bytes rfl hbytes
    obtain ⟨read, hread, hendpoint⟩ :=
      hparsed ⟨.main, Layout.timed.version, false⟩ [] [] none rfl
    rw [List.nil_append, List.append_nil] at hread
    refine ⟨address, bytes, read, hparse, hbytes, hread, ?_, ?_⟩
    · rw [hendpoint]
      obtain rfl := Option.some.inj (hhost.symm.trans hsame)
      cases hback with
      | @mapped _ inner _ hoctets =>
        obtain ⟨bytes, hlength⟩ := inner
        obtain rfl : [10, 0, 0, 1] = bytes := List.append_cancel_left hoctets
        rfl
      | embedded _ hoctets => exact absurd (List.cons.inj hoctets).1 (by decide)
      | v6 hplain => exact absurd (List.prefix_append _ _) (hplain (by decide)).1
    · rw [hendpoint, htime]

end Address

end PeerProtocol
