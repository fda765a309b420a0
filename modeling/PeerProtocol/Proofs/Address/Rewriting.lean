import PeerProtocol.Proofs.Address.RoundTrip
import PeerProtocol.Proofs.Address.Size
import PeerProtocol.Proofs.Endpoint.Rewriting

/-!
# Addresses encoded again

An address that was parsed is encoded again as the bytes that it was parsed from, where it keeps
them. Where it keeps none it is encoded from its fields (`serialize_of_uncached`): in the plain
layouts as the same bytes, and in the tagged layout so far as its network is known and its numbers
stood there in their shortest form (`rewritten_of_parse`).
-/

namespace PeerProtocol.Address

/-- What an address that was parsed from the first `used` bytes of some input is encoded as.

* Where it keeps its bytes, and in the plain layouts: those bytes.
* Else it is refused exactly if its network is unknown. If its network is known, it is encoded as
those bytes exactly if its numbers stood there in their shortest form, and otherwise as fewer bytes,
which are parsed as an equal address. -/
structure Rewritten (address : Address) (input : Bytes) (used : Nat) : Prop where
  retained : address.encoding.dialect.retain = true →
    address.serialize.1 = .ok (input.take used)
  plain : address.encoding.dialect.retain = false → address.version ≠ Layout.tagged.version →
    address.serialize.1 = .ok (input.take used)
  tagged : address.encoding.dialect.retain = false → address.version = Layout.tagged.version →
    ∃ networkId, Endpoint.networkId? input = some networkId ∧
      ((∃ cause, address.serialize.1 = .error (.unencodable cause)) ↔
        networkId ∉ Host.knownNetworks) ∧
      (networkId ∈ Host.knownNetworks → ∃ bytes, address.serialize.1 = .ok bytes ∧
        (bytes = input.take used ↔ Endpoint.isShortest .tagged input = true) ∧
        (Endpoint.isShortest .tagged input = false → bytes.length < used ∧
          ∀ front tail owner, ∃ read,
            parse address.encoding.dialect (front ++ bytes ++ tail) front.length owner =
              .ok (read, bytes.length) ∧ read.endpoint = address.endpoint))

/-- An address that keeps no bytes is encoded from its fields, which are never too large. -/
theorem serialize_of_uncached {address : Address} (h : address.encoding.retained = none) :
    address.serialize.1 = address.fields := by
  have hcurrent := Encoding.current?_of_uncached h
  show (address.encoding.serialize address.fields).1 = address.fields
  unfold Encoding.serialize
  rw [hcurrent]
  cases hfields : address.fields with
  | error error => rfl
  | ok bytes =>
    have hsmall := fieldsLength?_le (fieldsLength?_of_fields hfields)
    have hlarge : Endpoint.maxSize ≤ maxMessageSize := by decide
    simp only [if_neg (by omega : ¬ maxMessageSize < bytes.length)]

/-- An address that keeps no bytes contributes its fields to a larger message. -/
theorem contribution_of_uncached {address : Address} (h : address.encoding.retained = none) :
    address.contribution = address.fields := by
  unfold contribution Encoding.contribution
  rw [Encoding.current?_of_uncached h]

/-- What an address contributes to a larger message that was parsed with it and kept no bytes has
the form of what it was parsed from, or a shorter one. -/
theorem shortens_of_parse {dialect : Dialect} {payload : Bytes} {offset used : Nat}
    {owner : Option ListId} {address : Address}
    (h : parse dialect payload offset owner = .ok (address, used))
    (hretain : dialect.retain = false) {bytes : Bytes} (hbytes : address.contribution = .ok bytes) :
    Shortens (isShortest dialect payload offset) bytes ((payload.drop offset).take used) := by
  obtain ⟨layout, front, rest, hlayout, hinput, rfl, hfront, -, hencoding, -⟩ := parse_eq_ok h
  have hversion : address.version = layout.version := by
    rw [version, hencoding]
    exact version_of_ofVersion? hlayout
  rw [contribution_of_uncached (hencoding ▸ Encoding.retained_parsed_of_not_retain hretain _ _ _),
    fields_of_version hversion] at hbytes
  have hread : Endpoint.decode layout (payload.drop offset) = .ok (address.endpoint, rest) := by
    rw [hinput]
    exact hfront rest
  obtain ⟨other, hother, hshortens⟩ := Endpoint.shortens_of_decode hread
  obtain rfl : front = other := List.append_cancel_right (hinput.symm.trans hother)
  rw [isShortest, hlayout, Option.all_some]
  rw [show (payload.drop offset).take front.length = front by rw [hinput, List.take_left]]
  exact hshortens bytes hbytes

/-- What becomes of the bytes that an address was parsed from. -/
theorem rewritten_of_parse {dialect : Dialect} {payload : Bytes} {offset used : Nat}
    {owner : Option ListId} {address : Address}
    (h : parse dialect payload offset owner = .ok (address, used)) :
    address.Rewritten (payload.drop offset) used := by
  obtain ⟨layout, front, rest, hlayout, hinput, rfl, hfront, hnormal, hencoding, -⟩ :=
    parse_eq_ok h
  have htake : (payload.drop offset).take front.length = front := by rw [hinput, List.take_left]
  have hdialect : address.encoding.dialect = dialect := by rw [hencoding]; rfl
  have hversion : address.version = layout.version := by
    rw [version, hdialect]
    exact version_of_ofVersion? hlayout
  have hread : Endpoint.decode layout (payload.drop offset) = .ok (address.endpoint, rest) := by
    rw [hinput]
    exact hfront rest
  have hserialize (hretain : address.encoding.dialect.retain = false) :
      address.serialize.1 = address.endpoint.encode layout := by
    rw [hdialect] at hretain
    rw [serialize_of_uncached (hencoding ▸ Encoding.retained_parsed_of_not_retain hretain _ _ _),
      fields_of_version hversion]
  refine ⟨fun hretain => ?_, fun hretain hplain => ?_, fun hretain htagged => ?_⟩
  · rw [hdialect] at hretain
    show (address.encoding.serialize address.fields).1 = _
    rw [hencoding]
    exact Encoding.serialize_parsed_of_retain hretain (by rw [htake]) address.fields
  · have hlayoutPlain : layout ≠ .tagged := by
      rintro rfl
      exact hplain hversion
    obtain ⟨other, hother, hencode⟩ := Endpoint.encode_of_decode hlayoutPlain hread
    obtain rfl : front = other := List.append_cancel_right (hinput.symm.trans hother)
    rw [hserialize hretain, hencode, htake]
  · obtain rfl : layout = .tagged := by
      have hsame : some layout = some Layout.tagged := by
        rw [← Layout.ofVersion?_version layout, ← hversion, htagged, Layout.ofVersion?_version]
      exact Option.some.inj hsame
    obtain ⟨networkId, other, hnetwork, hother, hwritten⟩ := Endpoint.shortens_of_decodeTagged hread
    obtain rfl : front = other := List.append_cancel_right (hinput.symm.trans hother)
    refine ⟨networkId, hnetwork, ?_, fun hknown => ?_⟩
    · rw [hserialize hretain]
      by_cases hknown : networkId ∈ Host.knownNetworks
      · rw [if_pos hknown] at hwritten
        obtain ⟨written, hencode, -⟩ := hwritten
        refine iff_of_false ?_ (not_not_intro hknown)
        rintro ⟨cause, herror⟩
        rw [hencode] at herror
        cases herror
      · rw [if_neg hknown] at hwritten
        exact iff_of_true ⟨.unknownNetwork,
          Endpoint.encode_eq_error_iff.2 ⟨_, rfl, hwritten ▸ .missing⟩⟩ hknown
    · rw [if_pos hknown] at hwritten
      obtain ⟨written, hencode, hshortens⟩ := hwritten
      rw [hserialize hretain, htake]
      refine ⟨written, hencode, hshortens.eq_iff, fun hlonger => ?_⟩
      rw [hlonger] at hshortens
      refine ⟨hshortens, fun before tail owner => ?_⟩
      have hback : (before ++ written ++ tail).drop before.length = written ++ tail := by
        rw [List.append_assoc, List.drop_left]
      have hreadBack : Endpoint.decode .tagged ((before ++ written ++ tail).drop before.length) =
          .ok (address.endpoint, tail) := by
        rw [hback, Endpoint.reads_encode hencode tail, hnormal]
      exact ⟨_, parse_of_decode (hdialect ▸ hlayout) hback hreadBack owner, rfl⟩

end PeerProtocol.Address
