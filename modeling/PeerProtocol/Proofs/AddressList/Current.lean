import PeerProtocol.Proofs.AddressList.Size

/-!
# Bytes that are current

What was read may be spelled in other bytes than the writer would take. Where nothing was read the
bytes that are kept of an address or a list are current: they are the very bytes that its fields are
encoded as. So a list of current entries is encoded as the count and, one after the other, the
encodings of its entries (`AddressList.Current.parts_of_serialize`). Whatever is done with current
addresses and lists leaves them current.
-/

namespace PeerProtocol

namespace Address

/-- The bytes that the address keeps are those that its fields are encoded as. -/
def Current (address : Address) : Prop :=
  address.encoding.Keeps fun bytes => address.fields = .ok bytes

/-- Addresses that tell the same in the same layout have the same fields. -/
theorem fields_congr {left right : Address} (hversion : left.version = right.version)
    (hendpoint : left.endpoint = right.endpoint) : left.fields = right.fields := by
  unfold fields
  rw [hversion, hendpoint]

/-- An address that keeps nothing is current. -/
theorem current_of_uncached {address : Address} (h : address.encoding.retained = none) :
    address.Current :=
  Encoding.keeps_of_uncached h _

/-- Current bytes spell the address. -/
theorem Current.coherent {address : Address} (h : address.Current) : address.Coherent :=
  h.mono fun _ => spelledBy_of_fields

/-- A current address contributes its fields to a larger message. -/
theorem Current.contribution_eq {address : Address} (h : address.Current) :
    address.contribution = address.fields := by
  unfold contribution Encoding.contribution
  split
  next kept hkept => exact (h kept (Encoding.retained_of_current? hkept)).2.symm
  next => rfl

/-- After it was encoded a current address is current. -/
theorem Current.serialize {address : Address} (h : address.Current) :
    address.serialize.2.Current := by
  have hfields : address.serialize.2.fields = address.fields :=
    fields_congr
      (congrArg Dialect.version (Encoding.serialize_dialect address.encoding address.fields)) rfl
  unfold Current
  rw [hfields]
  exact Encoding.Keeps.serialize h fun _ hbytes => hbytes

/-- Under another dialect a current address is current. -/
theorem Current.setDialect {address : Address} (h : address.Current) (dialect : Dialect) :
    (address.setDialect dialect).Current := by
  unfold Address.setDialect
  split
  next => exact h
  next => exact current_of_uncached rfl

/-- An edit in place keeps an address current. -/
theorem Current.edit {address : Address} (h : address.Current) {change : Edit}
    (hplace : change.inPlace) : (address.edit change).2.Current := by
  cases change with
  | host host => exact current_of_uncached rfl
  | port port => exact current_of_uncached rfl
  | services services => exact current_of_uncached rfl
  | time time => exact current_of_uncached rfl
  | dialect dialect => exact h.setDialect dialect
  | version version => exact h.setDialect (address.encoding.dialect.withVersion version)
  | replace other => cases hplace
  | serialize => exact h.serialize
  | contribution => exact h
  | fields => exact h

/-- Edits in place keep an address current. -/
theorem Current.editAll {address : Address} (h : address.Current) {changes : List Edit}
    (hplace : ∀ change ∈ changes, change.inPlace) : (address.editAll changes).2.Current :=
  editAll_of_edit (fun _ _ h hplace => h.edit hplace) h hplace

end Address

namespace AddressList

/-- The list is coherent, its entries are current, and the bytes that it keeps are those that it is
encoded as. -/
structure Current (list : AddressList) : Prop where
  coherent : list.Coherent
  entries : ∀ entry ∈ list.entries, entry.Current
  keeps : list.encoding.Keeps fun bytes => list.fields = .ok bytes

/-! ## Contributions -/

/-- An entry that contributes the same leaves what all entries contribute. -/
theorem entriesFields_set {entries : List Address} {index : Nat} {entry other : Address}
    (hentry : entries[index]? = some entry) (hsame : other.contribution = entry.contribution) :
    entriesFields (entries.set index other) = entriesFields entries := by
  induction entries generalizing index with
  | nil => cases hentry
  | cons first rest ih =>
    cases index with
    | zero =>
      obtain rfl := Option.some.inj hentry
      rw [List.set_cons_zero, entriesFields, entriesFields, hsame]
    | succ index => rw [List.set_cons_succ, entriesFields, entriesFields, ih hentry]

/-- Entries that contribute the same contribute the same together. -/
theorem entriesFields_map {change : Address → Address}
    (hchange : ∀ entry, (change entry).contribution = entry.contribution)
    (entries : List Address) : entriesFields (entries.map change) = entriesFields entries := by
  induction entries with
  | nil => rfl
  | cons entry rest ih => rw [List.map_cons, entriesFields, entriesFields, hchange, ih]

/-- Entries contribute together what each of them does, one after the other. -/
theorem parts_of_entriesFields {entries : List Address} {bytes : Bytes}
    (hbytes : entriesFields entries = .ok bytes) :
    ∃ parts : List Bytes, entries.map Address.contribution = parts.map .ok ∧
      bytes = parts.flatten := by
  induction entries generalizing bytes with
  | nil =>
    obtain rfl := Except.ok.inj hbytes
    exact ⟨[], rfl, rfl⟩
  | cons entry rest ih =>
    obtain ⟨front, back, hfront, hback, rfl⟩ := entriesFields_cons_eq_ok hbytes
    obtain ⟨parts, hparts, rfl⟩ := ih hback
    refine ⟨front :: parts, ?_, rfl⟩
    rw [List.map_cons, List.map_cons, hparts, hfront]

/-- Where a list keeps only its fields, it is encoded as the count and what its entries
contribute. -/
theorem parts_of_serialize {list after : AddressList}
    (hkeeps : list.encoding.Keeps fun bytes => list.fields = .ok bytes) {bytes : Bytes}
    (hserialize : list.serialize = (.ok bytes, after)) :
    ∃ parts : List Bytes, list.entries.map Address.contribution = parts.map .ok ∧
      bytes = CompactSize.encode (UInt64.ofNat list.entries.length) ++ parts.flatten := by
  have hencoding := encoding_of_serialize hserialize
  have hbytes : list.fields = .ok bytes :=
    hkeeps.of_contribution (fun _ hfields => hfields)
      (Encoding.contribution_of_serialize hencoding)
  obtain ⟨entries, hentries, rfl⟩ := fields_eq_ok hbytes
  obtain ⟨parts, hparts, rfl⟩ := parts_of_entriesFields hentries
  exact ⟨parts, hparts, rfl⟩

/-- A current list is encoded as the count and the encodings of its entries. -/
theorem Current.parts_of_serialize {list after : AddressList} (h : list.Current) {bytes : Bytes}
    (hserialize : list.serialize = (.ok bytes, after)) :
    ∃ parts : List Bytes, list.entries.map Address.fields = parts.map .ok ∧
      bytes = CompactSize.encode (UInt64.ofNat list.entries.length) ++ parts.flatten := by
  obtain ⟨parts, hparts, hbytes⟩ := AddressList.parts_of_serialize h.keeps hserialize
  refine ⟨parts, ?_, hbytes⟩
  rw [← hparts]
  exact List.map_congr_left fun entry hentry => (h.entries entry hentry).contribution_eq.symm

/-! ## Operations -/

/-- A new list is current. -/
theorem current_new (dialect : Dialect) (format : ListFormat) (id : ListId) :
    (new dialect format id).Current :=
  ⟨coherent_new dialect format id, fun _ hentry => absurd hentry List.not_mem_nil,
    Encoding.keeps_of_uncached rfl _⟩

/-- After it was encoded a current list is current. -/
theorem Current.serialize {list : AddressList} (h : list.Current) : list.serialize.2.Current :=
  ⟨h.coherent.serialize, h.entries, h.keeps.serialize fun _ hbytes => hbytes⟩

/-- With another current address at its end a current list is current. -/
theorem Current.add {list after : AddressList} {address : Address} (h : list.Current)
    (haddress : address.Current) (hadd : list.add address = (.ok (), after)) : after.Current := by
  have hcoherent := h.coherent.add haddress.coherent hadd
  obtain ⟨-, -, rfl⟩ := add_eq_ok hadd
  refine ⟨hcoherent, ?_, Encoding.keeps_uncache_adjustLength _ _ _ _⟩
  exact List.forall_mem_append.2 ⟨h.entries, List.forall_mem_singleton.2 haddress⟩

/-- Without one of its entries a current list is current, and the entry is. -/
theorem Current.remove {list after : AddressList} {index : Nat} {address : Address}
    (h : list.Current) (hremove : list.remove index = some (address, after)) :
    address.Current ∧ after.Current := by
  have hcoherent := (h.coherent.remove hremove).2
  obtain ⟨entry, hentry, rfl, rfl⟩ := remove_eq_some hremove
  refine ⟨h.entries entry hentry, hcoherent, ?_, Encoding.keeps_of_uncached rfl _⟩
  intro other hother
  exact h.entries other (List.mem_of_mem_eraseIdx hother)

/-- A copy of a current list is current. -/
theorem Current.copy {list : AddressList} (h : list.Current) (id : ListId) :
    (list.copy id).Current := by
  refine ⟨h.coherent.copy id, ?_, h.keeps.mono ?_⟩
  · intro copied hcopied
    obtain ⟨entry, hentry, rfl⟩ := List.mem_map.1 hcopied
    exact h.entries entry hentry
  · intro bytes hbytes
    have hentries : entriesFields (list.copy id).entries = entriesFields list.entries :=
      entriesFields_map (fun _ => by rfl) list.entries
    rw [fields, hentries, AddressList.copy, List.length_map]
    exact hbytes

/-- After edits in place of an entry a current list is current. -/
theorem Current.modify {list after : AddressList} {index : Nat} {changes : List Address.Edit}
    {results : List (Option (Except CodecError Bytes))} (h : list.Current)
    (hplace : ∀ change ∈ changes, change.inPlace)
    (hmodify : list.modify index (·.editAll changes) = some (results, after)) :
    after.Current := by
  have hcoherent := h.coherent.modify hplace hmodify
  obtain ⟨entry, restored, hentry, hrestored, hwatched, rfl⟩ :=
    modify_editAll_eq_some h.coherent hplace hmodify
  have hcurrent := h.entries entry (List.mem_of_getElem? hentry)
  have hback : restored.Current := by
    have hedited := hcurrent.editAll hplace
    rw [hrestored]
    exact restoreLayout_of_setDialect hedited hedited.setDialect list
  refine ⟨hcoherent, forall_mem_set h.entries (by exact hback) index, ?_⟩
  refine Encoding.keeps_of_noted fun hunnoted => h.keeps.mono fun bytes hbytes => ?_
  -- Without a note the entry tells the same in the same layout, and so it contributes the same.
  obtain ⟨-, hendpoint, hversion⟩ := hwatched.2.resolve_left (Bool.eq_false_iff.1 hunnoted)
  have hsame : restored.contribution = entry.contribution := by
    rw [hback.contribution_eq, hcurrent.contribution_eq, Address.fields_congr hversion hendpoint]
  have hcontributed : entriesFields (list.entries.set index
      { restored with membership := { restored.membership with stale := false } }) =
        entriesFields list.entries := entriesFields_set hentry hsame
  rw [fields, hcontributed, List.length_set]
  exact hbytes

end AddressList

end PeerProtocol
