import PeerProtocol.Address.Edit
import PeerProtocol.Proofs.Encoding
import PeerProtocol.Proofs.Endpoint.Layout

/-!
# Kept bytes of an address

An address is coherent if the bytes that it keeps spell it: in its layout they are read as the
normal form of its endpoint. New and parsed addresses are coherent, edits in place keep them
coherent (`Coherent.editAll`), and a coherent address is faithful to whoever reads what it is
encoded as (`Coherent.faithful`). An edit of an address in a list either leaves a note for the list
or leaves alone what the address tells (`watched_editAll`).
-/

namespace PeerProtocol

namespace Address

/-- In the layout of the address, the bytes are read as the normal form of its endpoint. -/
def SpelledBy (address : Address) (bytes : Bytes) : Prop :=
  ∃ layout, Layout.ofVersion? address.version = some layout ∧
    Reads (Endpoint.decode layout) bytes (address.endpoint.normal layout)

/-- The bytes that the address keeps spell it. -/
def Coherent (address : Address) : Prop :=
  address.encoding.Keeps address.SpelledBy

/-- What the address is encoded as it also contributes to a larger message, before and after, and
is encoded as again; and wherever these bytes stand, they are read to their end as an address that
tells the same in the normal form of the layout. -/
def Faithful (address : Address) : Prop :=
  ∀ bytes after, address.serialize = (.ok bytes, after) →
    address.contribution = .ok bytes ∧ after.contribution = .ok bytes ∧
      after.serialize = (.ok bytes, after) ∧
      ∃ layout, Layout.ofVersion? address.version = some layout ∧
        ∀ front tail owner, ∃ read,
          parse address.encoding.dialect (front ++ bytes ++ tail) front.length owner =
              .ok (read, bytes.length) ∧
            read.endpoint = address.endpoint.normal layout

/-- The same bytes spell addresses that tell the same in the same layout. -/
theorem spelledBy_congr {left right : Address} (hversion : left.version = right.version)
    (hendpoint : left.endpoint = right.endpoint) : left.SpelledBy = right.SpelledBy := by
  funext bytes
  unfold SpelledBy
  rw [hversion, hendpoint]

/-- An address that keeps nothing is coherent. -/
theorem coherent_of_uncached {address : Address} (h : address.encoding.retained = none) :
    address.Coherent :=
  Encoding.keeps_of_uncached h address.SpelledBy

/-! ## Reading -/

/-- A layout is named by its version. -/
theorem layoutOf_eq_ok {version : UInt32} {layout : Layout} (h : layoutOf version = .ok layout) :
    Layout.ofVersion? version = some layout := by
  unfold layoutOf at h
  split at h
  next named hnamed =>
    obtain rfl := Except.ok.inj h
    exact hnamed
  next => cases h

/-- The membership of an address that was read as part of a list, or of none. -/
def membershipOf : Option ListId → Membership
  | some owner => .ownedBy owner
  | none => .free

/-- An endpoint that is read at an offset is parsed as an address. -/
theorem parse_of_decode {dialect : Dialect} {layout : Layout} {payload front rest : Bytes}
    {offset : Nat} {endpoint : Endpoint}
    (hlayout : Layout.ofVersion? dialect.version = some layout)
    (hinput : payload.drop offset = front ++ rest)
    (hread : Endpoint.decode layout (payload.drop offset) = .ok (endpoint, rest))
    (owner : Option ListId) :
    parse dialect payload offset owner =
      .ok (⟨.parsed dialect payload offset front.length, membershipOf owner, endpoint⟩,
        front.length) := by
  have hnamed : layoutOf dialect.version = .ok layout := by
    unfold layoutOf
    rw [hlayout]
  have hused : (payload.drop offset).length - rest.length = front.length := by
    rw [hinput, List.length_append, Nat.add_sub_cancel]
  unfold parse
  rw [hnamed]
  simp only [bind, Except.bind, pure, Except.pure, hread, hused]
  cases owner <;> rfl

/-- What was parsed is in normal form, and the bytes that were read are read as it. -/
theorem parse_eq_ok {dialect : Dialect} {payload : Bytes} {offset used : Nat}
    {owner : Option ListId} {address : Address}
    (h : parse dialect payload offset owner = .ok (address, used)) :
    ∃ layout front rest, Layout.ofVersion? dialect.version = some layout ∧
      payload.drop offset = front ++ rest ∧ used = front.length ∧
      Reads (Endpoint.decode layout) front address.endpoint ∧
      address.endpoint.normal layout = address.endpoint ∧
      address.encoding = .parsed dialect payload offset front.length ∧
      address.membership = membershipOf owner := by
  unfold parse at h
  cases hlayout : layoutOf dialect.version with
  | error error =>
    rw [hlayout] at h
    cases h
  | ok layout =>
    cases hread : Endpoint.decode layout (payload.drop offset) with
    | error error =>
      simp only [hlayout, bind, Except.bind, hread] at h
      cases h
    | ok parsed =>
      obtain ⟨endpoint, rest⟩ := parsed
      obtain ⟨front, hinput, hfront⟩ := Endpoint.local_decode layout _ _ _ hread
      simp only [hlayout, bind, Except.bind, hread] at h
      obtain ⟨rfl, rfl⟩ := Prod.mk.inj (Except.ok.inj h)
      have hused : (payload.drop offset).length - rest.length = front.length := by
        rw [hinput, List.length_append, Nat.add_sub_cancel]
      refine ⟨layout, front, rest, layoutOf_eq_ok hlayout, hinput, hused, hfront,
        Endpoint.normal_of_decode hread, ?_, ?_⟩
      · rw [hused]
      · cases owner <;> rfl

/-- A parsed address is coherent. -/
theorem coherent_parse {dialect : Dialect} {payload : Bytes} {offset used : Nat}
    {owner : Option ListId} {address : Address}
    (h : parse dialect payload offset owner = .ok (address, used)) : address.Coherent := by
  obtain ⟨layout, front, rest, hlayout, hinput, -, hfront, hnormal, hencoding, -⟩ := parse_eq_ok h
  have htake : (payload.drop offset).take front.length = front := by
    rw [hinput, List.take_left]
  have hspelled : address.SpelledBy front := by
    refine ⟨layout, ?_, ?_⟩
    · rw [version, hencoding]
      exact hlayout
    · rw [hnormal]
      exact hfront
  unfold Coherent
  rw [hencoding]
  exact Encoding.keeps_parsed (by rw [htake]) (by rw [htake]; exact hspelled)

/-! ## Writing -/

/-- The encoding of the fields spells the address. -/
theorem spelledBy_of_fields {address : Address} {bytes : Bytes} (h : address.fields = .ok bytes) :
    address.SpelledBy bytes := by
  unfold fields at h
  cases hlayout : layoutOf address.version with
  | error error =>
    rw [hlayout] at h
    cases h
  | ok layout =>
    rw [hlayout] at h
    exact ⟨layout, layoutOf_eq_ok hlayout, Endpoint.reads_encode h⟩

/-- What a coherent address contributes to a larger message spells it. -/
theorem Coherent.spelledBy_of_contribution {address : Address} (h : address.Coherent)
    {bytes : Bytes} (hbytes : address.contribution = .ok bytes) : address.SpelledBy bytes :=
  Encoding.Keeps.of_contribution h (fun _ => spelledBy_of_fields) hbytes

/-- An address is encoded as its encoding says. -/
theorem encoding_of_serialize {address after : Address} {result : Except CodecError Bytes}
    (h : address.serialize = (result, after)) :
    address.encoding.serialize address.fields = (result, after.encoding) := by
  obtain ⟨hresult, rfl⟩ := Prod.mk.inj h
  exact Prod.ext hresult rfl

/-- A coherent address is faithful. -/
theorem Coherent.faithful {address : Address} (h : address.Coherent) : address.Faithful := by
  intro bytes after hserialize
  have hencoding := encoding_of_serialize hserialize
  have hafter : after = { address with encoding := after.encoding } := by
    obtain ⟨-, rfl⟩ := Prod.mk.inj hserialize
    rfl
  -- Encoding changes neither the layout nor what the address tells, so its fields stay.
  have hversion : after.version = address.version := by
    have hdialect := Encoding.serialize_dialect address.encoding address.fields
    rw [hencoding] at hdialect
    exact congrArg Dialect.version hdialect
  have hfields : after.fields = address.fields := by
    unfold fields
    rw [hversion, hafter]
  have hagain : after.encoding.serialize after.fields = (.ok bytes, after.encoding) := by
    rw [hfields]
    exact Encoding.Keeps.serialize_again h hencoding
  have hcontribution := Encoding.contribution_of_serialize hencoding
  obtain ⟨layout, hlayout, hreads⟩ := h.spelledBy_of_contribution hcontribution
  refine ⟨hcontribution, Encoding.contribution_of_serialize hagain, ?_, layout, hlayout, ?_⟩
  · unfold serialize
    rw [hagain]
  · intro front tail owner
    have hinput : (front ++ bytes ++ tail).drop front.length = bytes ++ tail := by
      rw [List.append_assoc, List.drop_left]
    have hread := hreads tail
    rw [← hinput] at hread
    exact ⟨_, parse_of_decode hlayout hinput hread owner, rfl⟩

/-! ## Edits -/

namespace Edit

/-- Whether the edit acts on the address itself and puts no other in its place. -/
def inPlace : Edit → Bool
  | replace _ => false
  | _ => true

end Edit

/-- After it was encoded a coherent address is coherent. -/
theorem Coherent.serialize {address : Address} (h : address.Coherent) :
    address.serialize.2.Coherent := by
  have hversion : address.serialize.2.version = address.version :=
    congrArg Dialect.version (Encoding.serialize_dialect address.encoding address.fields)
  unfold Coherent
  rw [spelledBy_congr hversion rfl]
  exact Encoding.Keeps.serialize h fun _ => spelledBy_of_fields

/-- Switching does not change what the address tells. -/
theorem endpoint_setDialect (address : Address) (dialect : Dialect) :
    (address.setDialect dialect).endpoint = address.endpoint := by
  unfold setDialect
  split
  next => rfl
  next => rfl

/-- A switched address has the version that it was switched to. -/
theorem version_setDialect (address : Address) (dialect : Dialect) :
    (address.setDialect dialect).version = dialect.version := by
  unfold setDialect
  split
  next hsame => exact congrArg Dialect.version hsame
  next => rfl

/-- Under another dialect a coherent address is coherent. -/
theorem Coherent.setDialect {address : Address} (h : address.Coherent) (dialect : Dialect) :
    (address.setDialect dialect).Coherent := by
  unfold Address.setDialect
  split
  next => exact h
  next => exact coherent_of_uncached rfl

/-- An edit in place keeps an address coherent. -/
theorem Coherent.edit {address : Address} (h : address.Coherent) {change : Edit}
    (hplace : change.inPlace) : (address.edit change).2.Coherent := by
  cases change with
  | host host => exact coherent_of_uncached rfl
  | port port => exact coherent_of_uncached rfl
  | services services => exact coherent_of_uncached rfl
  | time time => exact coherent_of_uncached rfl
  | dialect dialect => exact h.setDialect dialect
  | version version => exact h.setDialect (address.encoding.dialect.withVersion version)
  | replace other => cases hplace
  | serialize => exact h.serialize
  | contribution => exact h
  | fields => exact h

/-- What every edit in place keeps is kept by edits in place. -/
theorem editAll_of_edit {kept : Address → Prop}
    (hedit : ∀ address change, kept address → change.inPlace → kept (address.edit change).2)
    {address : Address} (h : kept address) {changes : List Edit}
    (hplace : ∀ change ∈ changes, change.inPlace) : kept (address.editAll changes).2 := by
  induction changes generalizing address with
  | nil => exact h
  | cons change changes ih =>
    exact ih (hedit address change h (hplace change List.mem_cons_self)) fun other hother =>
      hplace other (List.mem_cons_of_mem change hother)

/-- Edits in place keep an address coherent. -/
theorem Coherent.editAll {address : Address} (h : address.Coherent) {changes : List Edit}
    (hplace : ∀ change ∈ changes, change.inPlace) : (address.editAll changes).2.Coherent :=
  editAll_of_edit (fun _ _ h hplace => h.edit hplace) h hplace

/-! ## Notes for the owner -/

/-- The second address still has the owner, and it either noted a change for the owner or tells the
same in the same layout as the first. -/
def Watched (owner : ListId) (before after : Address) : Prop :=
  after.membership.owner = some owner ∧
    (after.membership.stale = true ∨
      after.membership = before.membership ∧ after.endpoint = before.endpoint ∧
        after.version = before.version)

/-- An address that is left alone is watched. -/
theorem watched_refl {owner : ListId} {address : Address}
    (h : address.membership.owner = some owner) : Watched owner address address :=
  ⟨h, Or.inr ⟨rfl, rfl, rfl⟩⟩

/-- A note is not lost by what happens later. -/
theorem Watched.trans {owner : ListId} {first second third : Address}
    (h : Watched owner first second) (hnext : Watched owner second third) :
    Watched owner first third := by
  refine ⟨hnext.1, ?_⟩
  -- A later note stands; without one, what the earlier edits left is still there.
  rcases hnext.2 with hstale | ⟨hmembership, hendpoint, hversion⟩
  · exact Or.inl hstale
  · rcases h.2 with hstale | ⟨hbefore, hendpoint', hversion'⟩
    · exact Or.inl (by rw [hmembership, hstale])
    · exact Or.inr ⟨hmembership.trans hbefore, hendpoint.trans hendpoint',
        hversion.trans hversion'⟩

/-- Dropping the kept bytes leaves a note. -/
theorem watched_of_invalidated {owner : ListId} {before after : Address}
    (h : before.membership.owner = some owner)
    (hafter : after.membership = before.membership.markChanged) : Watched owner before after := by
  have hmarked : before.membership.markChanged = { before.membership with stale := true } := by
    unfold Membership.markChanged
    rw [if_pos (by rw [h]; rfl)]
  rw [Watched, hafter, hmarked]
  exact ⟨h, Or.inl rfl⟩

/-- A change of the dialect leaves a note. -/
theorem watched_setDialect {owner : ListId} {address : Address}
    (h : address.membership.owner = some owner) (dialect : Dialect) :
    Watched owner address (address.setDialect dialect) := by
  unfold setDialect
  split
  next => exact watched_refl h
  next => exact watched_of_invalidated h rfl

/-- An edit in place leaves a note or changes nothing that the address tells. -/
theorem watched_edit {owner : ListId} {address : Address}
    (h : address.membership.owner = some owner) {change : Edit} (hplace : change.inPlace) :
    Watched owner address (address.edit change).2 := by
  cases change with
  | host host => exact watched_of_invalidated h rfl
  | port port => exact watched_of_invalidated h rfl
  | services services => exact watched_of_invalidated h rfl
  | time time => exact watched_of_invalidated h rfl
  | dialect dialect => exact watched_setDialect h dialect
  | version version => exact watched_setDialect h (address.encoding.dialect.withVersion version)
  | replace other => cases hplace
  | serialize =>
    exact ⟨h, Or.inr ⟨rfl, rfl,
      congrArg Dialect.version (Encoding.serialize_dialect address.encoding address.fields)⟩⟩
  | contribution => exact watched_refl h
  | fields => exact watched_refl h

/-- Edits in place leave a note or change nothing that the address tells. -/
theorem watched_editAll {owner : ListId} {address : Address}
    (h : address.membership.owner = some owner) {changes : List Edit}
    (hplace : ∀ change ∈ changes, change.inPlace) :
    Watched owner address (address.editAll changes).2 := by
  induction changes generalizing address with
  | nil => exact watched_refl h
  | cons change changes ih =>
    have hfirst := watched_edit h (hplace change List.mem_cons_self)
    exact hfirst.trans (ih hfirst.1 fun other hother =>
      hplace other (List.mem_cons_of_mem change hother))

/-- A note is not lost by edits in place. -/
theorem stale_editAll {owner : ListId} {address : Address}
    (h : address.membership.owner = some owner) (hstale : address.membership.stale = true)
    {changes : List Edit} (hplace : ∀ change ∈ changes, change.inPlace) :
    (address.editAll changes).2.membership.stale = true := by
  rcases (watched_editAll h hplace).2 with hnoted | ⟨hmembership, -, -⟩
  · exact hnoted
  · exact (congrArg Membership.stale hmembership).trans hstale

end Address

end PeerProtocol
