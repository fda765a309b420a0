import PeerProtocol.Proofs.Address

/-!
# Addresses through their layouts

What a layout refuses to write is told host by host (`Host.Unwritable`), and so is what a host is
read as after it was written (`Host.ComesBack`), which is its normal form (`comesBack_normal`). The
main statement, `refused_or_readBack`, says that the fields of an address are refused for exactly
these reasons, and that otherwise they are encoded as bytes that are parsed, wherever they stand in
a payload and up to their last one, as an address that tells the same.
-/

namespace PeerProtocol

namespace Host

/-- Why a layout cannot write a host: there is none, its name is not the name of a hidden service,
or the service has a key that no plain layout has room for. -/
inductive Unwritable (layout : Layout) : Option Host → Unencodable → Prop where
  | missing : Unwritable layout none .unknownNetwork
  | malformed {name : String} {cause : Unencodable} (hname : OnionKey.ofName name = .error cause) :
      Unwritable layout (some (.onion name)) cause
  | tooLong {name : String} {key : Octets 32} (hlayout : layout ≠ .tagged)
      (hname : OnionKey.ofName name = .ok (.v3 key)) :
      Unwritable layout (some (.onion name)) .onionNeedsTagged

/-- What a host is read as after a layout has written it. Names come back in lower case. Of the
addresses of version 6, the plain layouts take those that embed an address of version 4 or the key
of a hidden service for what they embed. -/
inductive ComesBack (layout : Layout) : Host → Host → Prop where
  | onion (name : String) : ComesBack layout (.onion name) (.onion (Text.lower name))
  | v4 (octets : Octets 4) : ComesBack layout (.ip (.v4 octets)) (.ip (.v4 octets))
  | mapped {octets : Octets 16} {inner : Octets 4} (hlayout : layout ≠ .tagged)
      (hoctets : octets.bytes = IpAddress.mappedFront ++ inner.bytes) :
      ComesBack layout (.ip (.v6 octets)) (.ip (.v4 inner))
  | embedded {octets : Octets 16} {key : Octets 10} (hlayout : layout ≠ .tagged)
      (hoctets : octets.bytes = onionFront ++ key.bytes) :
      ComesBack layout (.ip (.v6 octets)) (.onion (OnionKey.v2 key).name)
  | v6 {octets : Octets 16} (hplain : layout ≠ .tagged →
        ¬ IpAddress.mappedFront <+: octets.bytes ∧ ¬ onionFront <+: octets.bytes) :
      ComesBack layout (.ip (.v6 octets)) (.ip (.v6 octets))

/-! ## What is refused -/

/-- Every layout can write an address. -/
theorem not_unwritable_ip {layout : Layout} {address : IpAddress} {cause : Unencodable} :
    ¬ Unwritable layout (some (.ip address)) cause := by
  intro h
  cases h

/-- A name that stands for no key cannot be written, and a long key only where it is tagged. -/
theorem unwritable_onion_iff {layout : Layout} {name : String} {cause : Unencodable} :
    Unwritable layout (some (.onion name)) cause ↔
      match OnionKey.ofName name with
      | .error found => found = cause
      | .ok (.v2 _) => False
      | .ok (.v3 _) => layout ≠ .tagged ∧ .onionNeedsTagged = cause := by
  constructor
  · intro h
    cases h with
    | malformed hname => rw [hname]
    | tooLong hlayout hname =>
      rw [hname]
      exact ⟨hlayout, rfl⟩
  · intro h
    cases hname : OnionKey.ofName name with
    | error found =>
      rw [hname] at h
      obtain rfl : found = cause := h
      exact .malformed hname
    | ok key =>
      rw [hname] at h
      cases key with
      | v2 key => exact h.elim
      | v3 key =>
        obtain ⟨hlayout, rfl⟩ := h
        exact .tooLong hlayout hname

/-- The plain layouts have no sixteen address bytes for what they cannot write. -/
theorem toOctets16_eq_error_iff {layout : Layout} (h : layout ≠ .tagged) (host : Host)
    (cause : Unencodable) :
    host.toOctets16 = .error cause ↔ Unwritable layout (some host) cause := by
  cases host with
  | ip address => exact iff_of_false (by intro herror; cases herror) not_unwritable_ip
  | onion name =>
    rw [toOctets16, unwritable_onion_iff]
    cases OnionKey.ofName name with
    | error found =>
      constructor
      · intro herror
        exact Except.error.inj herror
      · rintro rfl
        rfl
    | ok key =>
      cases key with
      | v2 key => exact iff_of_false (by intro herror; cases herror) id
      | v3 key =>
        constructor
        · intro herror
          exact ⟨h, Except.error.inj herror⟩
        · rintro ⟨-, rfl⟩
          rfl

/-- The tagged layout has no entry for what it cannot write. -/
theorem toEntry_eq_error_iff (host : Host) (cause : Unencodable) :
    host.toEntry = .error cause ↔ Unwritable .tagged (some host) cause := by
  cases host with
  | ip address =>
    refine iff_of_false ?_ not_unwritable_ip
    intro herror
    cases address <;> cases herror
  | onion name =>
    rw [toEntry, unwritable_onion_iff]
    cases OnionKey.ofName name with
    | error found =>
      constructor
      · intro herror
        exact Except.error.inj herror
      · rintro rfl
        rfl
    | ok key =>
      cases key with
      | v2 key => exact iff_of_false (by intro herror; cases herror) id
      | v3 key => exact iff_of_false (by intro herror; cases herror) fun h => h.1 rfl

/-! ## What comes back -/

/-- Sixteen octets embed the key that follows the front of such keys. -/
theorem embeddedKey?_eq_some_iff {octets : Octets 16} {key : Octets 10} :
    embeddedKey? octets = some key ↔ octets.bytes = onionFront ++ key.bytes := by
  unfold embeddedKey?
  constructor
  · intro h
    split at h
    next hfront =>
      obtain rfl := Option.some.inj h
      rw [← hfront, List.take_append_drop]
    next => cases h
  · intro h
    have hfront : octets.bytes.take 6 = onionFront := h ▸ List.take_left' rfl
    have hback : octets.bytes.drop 6 = key.bytes := h ▸ List.drop_left' rfl
    simp only [if_pos hfront, hback]

/-- Sixteen octets embed the address that follows the front of such addresses. -/
theorem mapped?_eq_some_iff {octets : Octets 16} {inner : Octets 4} :
    IpAddress.mapped? octets = some inner ↔
      octets.bytes = IpAddress.mappedFront ++ inner.bytes := by
  unfold IpAddress.mapped?
  constructor
  · intro h
    split at h
    next hfront =>
      obtain rfl := Option.some.inj h
      rw [← hfront, List.take_append_drop]
    next => cases h
  · intro h
    have hfront : octets.bytes.take 12 = IpAddress.mappedFront := h ▸ List.take_left' rfl
    have hback : octets.bytes.drop 12 = inner.bytes := h ▸ List.drop_left' rfl
    simp only [dif_pos hfront, hback]

/-- The plain layouts take sixteen octets for what they embed. -/
theorem comesBack_ofOctets16 {layout : Layout} (h : layout ≠ .tagged) (octets : Octets 16) :
    (ip (.v6 octets)).ComesBack layout (ofOctets16 octets) := by
  unfold ofOctets16
  cases hkey : embeddedKey? octets with
  | some key => exact .embedded h (embeddedKey?_eq_some_iff.1 hkey)
  | none =>
    show (ip (.v6 octets)).ComesBack layout (.ip (IpAddress.ofOctets16 octets))
    unfold IpAddress.ofOctets16
    cases hmapped : IpAddress.mapped? octets with
    | some inner => exact .mapped h (mapped?_eq_some_iff.1 hmapped)
    | none =>
      refine .v6 fun _ => ⟨?_, ?_⟩
      · rintro ⟨inner, hinner⟩
        have hlength : inner.length = 4 := by
          have htotal := congrArg List.length hinner
          rw [List.length_append, octets.length_eq] at htotal
          exact Nat.add_left_cancel htotal
        have hfound : IpAddress.mapped? octets = some ⟨inner, hlength⟩ :=
          mapped?_eq_some_iff.2 hinner.symm
        rw [hfound] at hmapped
        cases hmapped
      · rintro ⟨key, hbytes⟩
        have hlength : key.length = 10 := by
          have htotal := congrArg List.length hbytes
          rw [List.length_append, octets.length_eq] at htotal
          exact Nat.add_left_cancel htotal
        have hfound : embeddedKey? octets = some ⟨key, hlength⟩ :=
          embeddedKey?_eq_some_iff.2 hbytes.symm
        rw [hfound] at hkey
        cases hkey

/-- A host comes back as its normal form. -/
theorem comesBack_normal (layout : Layout) (host : Host) :
    host.ComesBack layout (host.normal layout) := by
  cases host with
  | onion name => exact .onion name
  | ip address =>
    by_cases hlayout : layout = .tagged
    · subst hlayout
      cases address with
      | v4 octets => exact .v4 octets
      | v6 octets => exact .v6 fun hplain => absurd rfl hplain
    · have hnormal : (ip address).normal layout = ofOctets16 address.octets16 := by
        cases layout with
        | tagged => exact absurd rfl hlayout
        | _ => rfl
      rw [hnormal]
      cases address with
      | v6 octets => exact comesBack_ofOctets16 hlayout octets
      | v4 octets =>
        -- The octets of a version 4 address embed that address and no key.
        have hkey : embeddedKey? (IpAddress.v4 octets).octets16 = none := rfl
        have hmapped : IpAddress.mapped? (IpAddress.v4 octets).octets16 = some octets :=
          mapped?_eq_some_iff.2 rfl
        unfold ofOctets16 IpAddress.ofOctets16
        rw [hkey, hmapped]
        exact .v4 octets

end Host

namespace Endpoint

/-- A part of the encoding is missing if there is no host or the host's part is missing. -/
theorem hostPart_eq_error_iff {γ : Type} {endpoint : Endpoint}
    {part : Host → Except Unencodable γ} {error : CodecError} {layout : Layout}
    (hpart : ∀ host cause, part host = .error cause ↔ Host.Unwritable layout (some host) cause) :
    endpoint.hostPart part = .error error ↔
      ∃ cause, error = .unencodable cause ∧ Host.Unwritable layout endpoint.host cause := by
  unfold hostPart
  split
  next hnone =>
    rw [hnone]
    constructor
    · intro herror
      exact ⟨.unknownNetwork, (Except.error.inj herror).symm, .missing⟩
    · rintro ⟨cause, rfl, hunwritable⟩
      cases hunwritable
      rfl
  next host hhost =>
    rw [hhost]
    split
    next cause hcause =>
      constructor
      · intro herror
        exact ⟨cause, (Except.error.inj herror).symm, (hpart host cause).1 hcause⟩
      · rintro ⟨other, rfl, hunwritable⟩
        obtain rfl : cause = other :=
          Except.error.inj (hcause.symm.trans ((hpart host other).2 hunwritable))
        rfl
    next value hvalue =>
      constructor
      · intro herror
        cases herror
      · rintro ⟨cause, -, hunwritable⟩
        cases hvalue.symm.trans ((hpart host cause).2 hunwritable)

/-- What is made of a part of the encoding is missing where the part is. -/
theorem map_eq_error_iff {γ δ : Type} {part : Except CodecError γ} {make : γ → δ}
    {error : CodecError} :
    (part >>= fun value => pure (make value)) = .error error ↔ part = .error error := by
  cases part with
  | error found =>
    constructor
    · intro h
      exact congrArg Except.error (Except.error.inj h)
    · intro h
      exact congrArg Except.error (Except.error.inj h)
  | ok value => exact iff_of_false (by intro h; cases h) (by intro h; cases h)

/-- A layout refuses an endpoint for its host alone. -/
theorem encode_eq_error_iff {layout : Layout} {endpoint : Endpoint} {error : CodecError} :
    endpoint.encode layout = .error error ↔
      ∃ cause, error = .unencodable cause ∧ Host.Unwritable layout endpoint.host cause := by
  cases layout with
  | embedded =>
    exact map_eq_error_iff.trans
      (hostPart_eq_error_iff (Host.toOctets16_eq_error_iff (by decide : Layout.embedded ≠ .tagged)))
  | timed =>
    exact map_eq_error_iff.trans
      (hostPart_eq_error_iff (Host.toOctets16_eq_error_iff (by decide : Layout.timed ≠ .tagged)))
  | tagged => exact map_eq_error_iff.trans (hostPart_eq_error_iff Host.toEntry_eq_error_iff)

end Endpoint

namespace Address

/-- Why the fields of an address are refused: its version names no layout, or the layout cannot
write its host. -/
inductive Refused (address : Address) : CodecError → Prop where
  | version (hversion : ∀ layout : Layout, address.version ≠ layout.version) :
      Refused address (.unsupportedLayout address.version)
  | host {layout : Layout} {cause : Unencodable} (hversion : address.version = layout.version)
      (hhost : Host.Unwritable layout address.endpoint.host cause) :
      Refused address (.unencodable cause)

/-- Wherever the bytes stand in a payload, they are parsed up to their last one as an address with
the port and the services of this one and its host as the layout gives it back; with its time, zero
where it has none, or without one where the layout has no time. -/
def ReadBackFrom (address : Address) (bytes : Bytes) : Prop :=
  ∃ layout host back, address.version = layout.version ∧ address.endpoint.host = some host ∧
    host.ComesBack layout back ∧
    ∀ dialect front tail owner, dialect.version = address.version → ∃ read,
      parse dialect (front ++ bytes ++ tail) front.length owner = .ok (read, bytes.length) ∧
        read.endpoint.host = some back ∧ read.endpoint.port = address.endpoint.port ∧
        read.endpoint.services = address.endpoint.services ∧
        read.endpoint.time =
          if layout = .embedded then none else some (address.endpoint.time.getD 0)

/-- The layout that a version names has this version. -/
theorem version_of_ofVersion? {version : UInt32} {layout : Layout}
    (h : Layout.ofVersion? version = some layout) : version = layout.version := by
  unfold Layout.ofVersion? at h
  split at h
  next hversion => exact Option.some.inj h ▸ hversion
  next =>
    split at h
    next hversion => exact Option.some.inj h ▸ hversion
    next =>
      split at h
      next hversion => exact Option.some.inj h ▸ hversion
      next => cases h

/-- A version names no layout if it is the version of none. -/
theorem ofVersion?_eq_none_iff {version : UInt32} :
    Layout.ofVersion? version = none ↔ ∀ layout : Layout, version ≠ layout.version := by
  constructor
  · rintro h layout rfl
    rw [Layout.ofVersion?_version] at h
    cases h
  · intro h
    cases hlayout : Layout.ofVersion? version with
    | none => rfl
    | some layout => exact absurd (version_of_ofVersion? hlayout) (h layout)

/-- The fields of an address whose version names a layout are those of its endpoint. -/
theorem fields_of_version {address : Address} {layout : Layout}
    (h : address.version = layout.version) : address.fields = address.endpoint.encode layout := by
  unfold fields layoutOf
  rw [h, Layout.ofVersion?_version]
  rfl

/-- The fields are refused for these reasons alone. -/
theorem fields_eq_error_iff {address : Address} {error : CodecError} :
    address.fields = .error error ↔ address.Refused error := by
  by_cases hnamed : ∃ layout : Layout, address.version = layout.version
  · obtain ⟨layout, hlayout⟩ := hnamed
    rw [fields_of_version hlayout, Endpoint.encode_eq_error_iff]
    constructor
    · rintro ⟨cause, rfl, hhost⟩
      exact .host hlayout hhost
    · intro hrefused
      cases hrefused with
      | version hversion => exact absurd hlayout (hversion layout)
      | @host other cause hversion hhost =>
        have hsame : some layout = some other := by
          rw [← Layout.ofVersion?_version layout, ← hlayout, hversion, Layout.ofVersion?_version]
        obtain rfl := Option.some.inj hsame
        exact ⟨cause, rfl, hhost⟩
  · have hnone : Layout.ofVersion? address.version = none :=
      ofVersion?_eq_none_iff.2 fun layout hlayout => hnamed ⟨layout, hlayout⟩
    have hfields : address.fields = .error (.unsupportedLayout address.version) := by
      unfold fields layoutOf
      rw [hnone]
      rfl
    rw [hfields]
    constructor
    · intro herror
      obtain rfl := Except.error.inj herror
      exact .version (ofVersion?_eq_none_iff.1 hnone)
    · intro hrefused
      cases hrefused with
      | version hversion => rfl
      | host hversion _ => exact absurd ⟨_, hversion⟩ hnamed

/-- What the fields are encoded as is read back. -/
theorem readBackFrom_of_fields {address : Address} {bytes : Bytes}
    (h : address.fields = .ok bytes) : address.ReadBackFrom bytes := by
  obtain ⟨layout, hlayout, hreads⟩ := spelledBy_of_fields h
  have hversion := version_of_ofVersion? hlayout
  rw [fields_of_version hversion] at h
  cases hhost : address.endpoint.host with
  | none =>
    have herror : address.endpoint.encode layout = .error (.unencodable .unknownNetwork) :=
      Endpoint.encode_eq_error_iff.2 ⟨_, rfl, hhost ▸ .missing⟩
    rw [herror] at h
    cases h
  | some host =>
    refine ⟨layout, host, host.normal layout, hversion, hhost,
      Host.comesBack_normal layout host, ?_⟩
    intro dialect front tail owner hdialect
    have hinput : (front ++ bytes ++ tail).drop front.length = bytes ++ tail := by
      rw [List.append_assoc, List.drop_left]
    have hnamed : Layout.ofVersion? dialect.version = some layout := by rw [hdialect, hlayout]
    have hread : Endpoint.decode layout ((front ++ bytes ++ tail).drop front.length) =
        .ok (address.endpoint.normal layout, tail) := by
      rw [hinput]
      exact hreads tail
    refine ⟨_, parse_of_decode hnamed hinput hread owner, ?_, rfl, rfl, ?_⟩
    · show address.endpoint.host.map (Host.normal layout) = some (host.normal layout)
      rw [hhost, Option.map_some]
    · cases layout <;> rfl

/-- The fields of an address are refused for exactly the reasons that are told, and are otherwise
encoded as bytes from which the address is read back. -/
theorem refused_or_readBack (address : Address) :
    (∀ error, address.fields = .error error ↔ address.Refused error) ∧
      ∀ bytes, address.fields = .ok bytes → address.ReadBackFrom bytes :=
  ⟨fun _ => fields_eq_error_iff, fun _ => readBackFrom_of_fields⟩

/-- An address without a time whose sixteen octets embed the key of a hidden service. -/
def embeddingKey : Address :=
  ⟨.fresh ⟨.main, Layout.timed.version, false⟩ none, .free,
    ⟨some (.ip (.v6 ⟨Host.onionFront ++ List.replicate 10 0xFF, rfl⟩)), 8333, ⟨9⟩, none⟩⟩

/-- What the address is encoded as. -/
def embeddingKeyBytes : Bytes :=
  [0, 0, 0, 0, 9, 0, 0, 0, 0, 0, 0, 0, 0xFD, 0x87, 0xD8, 0x7E, 0xEB, 0x43] ++
    List.replicate 10 0xFF ++ [0x20, 0x8D]

/-- From the middle of a payload the address is read as that of the hidden service, seen at time
zero. -/
theorem refused_or_readBack_embeddingKey :
    embeddingKey.fields = .ok embeddingKeyBytes ∧ ∃ read,
      parse ⟨.test, Layout.timed.version, true⟩ ([7] ++ embeddingKeyBytes ++ [7, 7]) 1 none =
          .ok (read, 30) ∧
        read.endpoint.host = some (.onion "7777777777777777.onion") ∧
        read.endpoint.time = some 0 := by
  have hfields : embeddingKey.fields = .ok embeddingKeyBytes := rfl
  obtain ⟨layout, host, back, hversion, hhost, hback, hparse⟩ :=
    (refused_or_readBack embeddingKey).2 _ hfields
  obtain ⟨read, hread, hreadHost, -, -, htime⟩ :=
    hparse ⟨.test, Layout.timed.version, true⟩ [7] [7, 7] none rfl
  have htimed : layout ≠ .embedded := by
    rintro rfl
    cases hversion
  refine ⟨hfields, read, hread, ?_, ?_⟩
  · rw [hreadHost]
    obtain rfl := Option.some.inj hhost
    cases hback with
    | mapped _ hoctets => exact absurd (List.cons.inj hoctets).1 (by decide)
    | @embedded _ key _ hoctets =>
      obtain ⟨bytes, hlength⟩ := key
      obtain rfl : List.replicate 10 0xFF = bytes := List.append_cancel_left hoctets
      have hname : (OnionKey.v2 ⟨List.replicate 10 0xFF, rfl⟩).name = "7777777777777777.onion" := by
        decide
      exact congrArg (fun name => some (Host.onion name)) hname
    | v6 hplain =>
      have hplainLayout : layout ≠ .tagged := by
        rintro rfl
        cases hversion
      exact absurd ⟨List.replicate 10 0xFF, rfl⟩ (hplain hplainLayout).2
  · rw [htime, if_neg htimed]
    rfl

end Address

end PeerProtocol
