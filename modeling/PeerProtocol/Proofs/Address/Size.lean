import PeerProtocol.Proofs.Address
import PeerProtocol.Proofs.Endpoint.Size

/-!
# Sizes of addresses

An address is sized if the length that is known of its encoding is the one that its fields will
have, should they have one. New addresses are sized, and so are those that were parsed from numbers
in their shortest form; edits in place keep an address sized (`Sized.editAll`). A sized address is
encoded in the size that it tells (`Sized.length_of_serialize`). Edits of an address in a list
either leave a note for the list or leave the size alone (`Sized.size?_editAll`).
-/

namespace PeerProtocol

/-- Current bytes have the known length. -/
theorem Encoding.length_of_current? {encoding : Encoding} {bytes : Bytes}
    (h : encoding.current? = some bytes) : encoding.length = some bytes.length := by
  unfold current? at h
  exact of_decide_eq_true (Option.filter_eq_some_iff.1 h).2

namespace Address

/-- The size that is known is the one that the fields have, if they have one, and is not above the
largest size. -/
structure Sized (address : Address) : Prop where
  exact : ∀ size, address.fieldsLength? = some size → address.size? = some size
  le : ∀ size, address.size? = some size → size ≤ Endpoint.maxSize

/-- The fields are encoded in the length that they were said to have. -/
theorem fieldsLength?_of_fields {address : Address} {bytes : Bytes}
    (h : address.fields = .ok bytes) : address.fieldsLength? = some bytes.length := by
  unfold fields at h
  cases hlayout : layoutOf address.version with
  | error error =>
    rw [hlayout] at h
    cases h
  | ok layout =>
    rw [hlayout] at h
    unfold fieldsLength?
    rw [layoutOf_eq_ok hlayout]
    exact Endpoint.encodedSize?_of_encode h

/-- No fields are above the largest size. -/
theorem fieldsLength?_le {address : Address} {size : Nat} (h : address.fieldsLength? = some size) :
    size ≤ Endpoint.maxSize := by
  obtain ⟨layout, -, hsize⟩ := Option.bind_eq_some_iff.1 h
  exact Endpoint.encodedSize?_le hsize

/-- Addresses with the same host and services in the same layout have fields of the same length. -/
theorem fieldsLength?_congr {left right : Address} (hversion : left.version = right.version)
    (hhost : left.endpoint.host = right.endpoint.host)
    (hservices : left.endpoint.services = right.endpoint.services) :
    left.fieldsLength? = right.fieldsLength? := by
  have hsize (layout : Layout) :
      left.endpoint.encodedSize? layout = right.endpoint.encodedSize? layout := by
    cases layout with
    | tagged => rw [Endpoint.encodedSize?, Endpoint.encodedSize?, hhost, hservices]
    | _ => rfl
  unfold fieldsLength?
  rw [hversion]
  exact congrArg _ (funext hsize)

/-- An address whose length was brought up to date is sized. -/
theorem sized_refreshLength (address : Address) : address.refreshLength.Sized :=
  ⟨fun _ hsize => hsize, fun _ hsize => fieldsLength?_le hsize⟩

/-- An address that tells and is known to be as long as a sized one is sized. -/
theorem Sized.congr {address other : Address} (h : address.Sized)
    (hfields : other.fieldsLength? = address.fieldsLength?) (hsize : other.size? = address.size?) :
    other.Sized := by
  refine ⟨fun size hother => ?_, fun size hother => ?_⟩
  · rw [hsize]
    exact h.exact size (hfields ▸ hother)
  · exact h.le size (hsize ▸ hother)

/-! ## Reading -/

/-- Whether the numbers of variable length in the address at an offset of a payload stand there in
their shortest form. -/
def isShortest (dialect : Dialect) (payload : Bytes) (offset : Nat) : Bool :=
  (Layout.ofVersion? dialect.version).all fun layout =>
    Endpoint.isShortest layout (payload.drop offset)

/-- The size of a parsed address is the number of bytes that it was read from. -/
theorem size?_parse {dialect : Dialect} {payload : Bytes} {offset used : Nat}
    {owner : Option ListId} {address : Address}
    (h : parse dialect payload offset owner = .ok (address, used)) : address.size? = some used := by
  obtain ⟨_, front, _, -, -, rfl, -, -, hencoding, -⟩ := parse_eq_ok h
  rw [size?, hencoding]
  rfl

/-- An address that was parsed from numbers in their shortest form is sized. -/
theorem sized_parse {dialect : Dialect} {payload : Bytes} {offset used : Nat}
    {owner : Option ListId} {address : Address}
    (h : parse dialect payload offset owner = .ok (address, used))
    (hshortest : isShortest dialect payload offset = true) : address.Sized := by
  have hsize := size?_parse h
  obtain ⟨layout, front, rest, hlayout, hinput, rfl, hfront, -, hencoding, -⟩ := parse_eq_ok h
  have hread : Endpoint.decode layout (payload.drop offset) = .ok (address.endpoint, rest) := by
    rw [hinput]
    exact hfront rest
  have hused : (payload.drop offset).length = front.length + rest.length := by
    rw [hinput, List.length_append]
  rw [isShortest, hlayout, Option.all_some] at hshortest
  refine ⟨fun size hfields => ?_, fun size hknown => ?_⟩
  · have hlength : address.fieldsLength? = address.endpoint.encodedSize? layout := by
      rw [fieldsLength?, version, hencoding]
      exact congrArg (· >>= address.endpoint.encodedSize?) hlayout
    rw [hlength] at hfields
    have hexact := Endpoint.length_of_decode hread hshortest hfields
    rw [hsize, show front.length = size by omega]
  · obtain rfl := Option.some.inj (hsize.symm.trans hknown)
    have hle := Endpoint.length_of_decode_le hread
    omega

/-! ## Writing -/

/-- No coherent address contributes more bytes to a larger message than the largest size. -/
theorem Coherent.length_contribution_le {address : Address} (h : address.Coherent) {bytes : Bytes}
    (hbytes : address.contribution = .ok bytes) : bytes.length ≤ Endpoint.maxSize := by
  obtain ⟨layout, -, hreads⟩ := h.spelledBy_of_contribution hbytes
  have hread := hreads []
  rw [List.append_nil] at hread
  exact Endpoint.length_of_decode_le hread

/-- A sized address contributes as many bytes to a larger message as its size tells. -/
theorem Sized.size?_of_contribution {address : Address} (h : address.Sized) {bytes : Bytes}
    (hbytes : address.contribution = .ok bytes) : address.size? = some bytes.length := by
  unfold contribution Encoding.contribution at hbytes
  split at hbytes
  next kept hkept =>
    obtain rfl := Except.ok.inj hbytes
    exact Encoding.length_of_current? hkept
  next => exact h.exact bytes.length (fieldsLength?_of_fields hbytes)

/-- A sized address is encoded in the size that it tells. -/
theorem Sized.length_of_serialize {address after : Address} (h : address.Sized) {bytes : Bytes}
    {size : Nat} (hsize : address.size? = some size)
    (hserialize : address.serialize = (.ok bytes, after)) : bytes.length = size := by
  have hencoding := encoding_of_serialize hserialize
  have hknown := h.size?_of_contribution (Encoding.contribution_of_serialize hencoding)
  exact Option.some.inj (hknown.symm.trans hsize)

/-- Encoding a sized address leaves its size. -/
theorem Sized.size?_serialize {address : Address} (h : address.Sized) :
    address.serialize.2.size? = address.size? := by
  show (address.encoding.serialize address.fields).2.length = address.encoding.length
  unfold Encoding.serialize
  split
  next => rfl
  next =>
    split
    next => rfl
    next bytes hfields =>
      split
      next => rfl
      next => exact (h.exact bytes.length (fieldsLength?_of_fields hfields)).symm

/-! ## Edits -/

/-- After it was encoded a sized address is sized. -/
theorem Sized.serialize {address : Address} (h : address.Sized) : address.serialize.2.Sized :=
  h.congr (fieldsLength?_congr
    (congrArg Dialect.version (Encoding.serialize_dialect address.encoding address.fields)) rfl rfl)
    h.size?_serialize

/-- Under another dialect a sized address is sized. -/
theorem Sized.setDialect {address : Address} (h : address.Sized) (dialect : Dialect) :
    (address.setDialect dialect).Sized := by
  unfold Address.setDialect
  split
  next => exact h
  next => exact sized_refreshLength _

/-- An edit in place keeps an address sized. -/
theorem Sized.edit {address : Address} (h : address.Sized) {change : Edit}
    (hplace : change.inPlace) : (address.edit change).2.Sized := by
  cases change with
  | host host => exact sized_refreshLength _
  -- No layout's length depends on the port or on the time.
  | port port => exact h.congr (fieldsLength?_congr rfl rfl rfl) rfl
  | services services => exact sized_refreshLength _
  | time time => exact h.congr (fieldsLength?_congr rfl rfl rfl) rfl
  | dialect dialect => exact h.setDialect dialect
  | version version => exact h.setDialect (address.encoding.dialect.withVersion version)
  | replace other => cases hplace
  | serialize => exact h.serialize
  | contribution => exact h
  | fields => exact h

/-- Edits in place keep an address sized. -/
theorem Sized.editAll {address : Address} (h : address.Sized) {changes : List Edit}
    (hplace : ∀ change ∈ changes, change.inPlace) : (address.editAll changes).2.Sized :=
  editAll_of_edit (fun _ _ h hplace => h.edit hplace) h hplace

/-! ## Notes for the owner -/

/-- Dropping the kept bytes of an address in a list leaves a note. -/
theorem stale_markChanged {membership : Membership} {owner : ListId}
    (howner : membership.owner = some owner) : membership.markChanged.stale = true := by
  unfold Membership.markChanged
  rw [if_pos (by rw [howner]; rfl)]

/-- A change of the dialect of an address in a list leaves a note, or there was none. -/
theorem size?_setDialect {address : Address} {owner : ListId}
    (howner : address.membership.owner = some owner) (dialect : Dialect) :
    (address.setDialect dialect).membership.stale = true ∨
      (address.setDialect dialect).size? = address.size? := by
  unfold Address.setDialect
  split
  next => exact Or.inr rfl
  next => exact Or.inl (stale_markChanged howner)

/-- An edit in place of an address in a list leaves a note or leaves the size alone. -/
theorem Sized.size?_edit {address : Address} (h : address.Sized) {owner : ListId}
    (howner : address.membership.owner = some owner) {change : Edit} (hplace : change.inPlace) :
    (address.edit change).2.membership.stale = true ∨
      (address.edit change).2.size? = address.size? := by
  have hmarked := stale_markChanged howner
  cases change with
  | host host => exact Or.inl hmarked
  | port port => exact Or.inl hmarked
  | services services => exact Or.inl hmarked
  | time time => exact Or.inl hmarked
  | dialect dialect => exact size?_setDialect howner dialect
  | version version => exact size?_setDialect howner (address.encoding.dialect.withVersion version)
  | replace other => cases hplace
  | serialize => exact Or.inr h.size?_serialize
  | contribution => exact Or.inr rfl
  | fields => exact Or.inr rfl

/-- Edits in place of an address in a list leave a note or leave the size alone. -/
theorem Sized.size?_editAll {address : Address} (h : address.Sized) {owner : ListId}
    (howner : address.membership.owner = some owner) {changes : List Edit}
    (hplace : ∀ change ∈ changes, change.inPlace) :
    (address.editAll changes).2.membership.stale = true ∨
      (address.editAll changes).2.size? = address.size? := by
  induction changes generalizing address with
  | nil => exact Or.inr rfl
  | cons change changes ih =>
    have hfirst := hplace change List.mem_cons_self
    have hothers : ∀ other ∈ changes, other.inPlace := fun other hother =>
      hplace other (List.mem_cons_of_mem change hother)
    have hstill := (watched_edit howner hfirst).1
    rcases ih (h.edit hfirst) hstill hothers with hstale | hsame
    · exact Or.inl hstale
    · rcases h.size?_edit howner hfirst with hstale | hsize
      · exact Or.inl (stale_editAll hstill hstale hothers)
      · exact Or.inr (hsame.trans hsize)

end Address

end PeerProtocol
