import PeerProtocol.Proofs.AddressList.Operations

/-!
# What a list hears of its entries

A list hears of a change by the note that the changed entry bears, and by nothing else. An entry
that the list owns, and that is changed in place, still has its owner and bears the note, so the
list drops its bytes and is encoded from its entries. A copy of an address that takes the place of
an entry has no owner and bears no note, neither then nor after any later change: the list keeps its
bytes, which tell of the entry that is gone, and is encoded as them. The same happens where an
address is moved into the place of an entry, even one that the list owns, as long as no change of it
is noted. `heard_modify` says which of the two happens, whatever a closure leaves in the place of an
entry, in every state that a program brings a list to.
-/

namespace PeerProtocol

namespace Address

/-- A note leaves the owner. -/
theorem owner_markChanged (membership : Membership) :
    membership.markChanged.owner = membership.owner := by
  unfold Membership.markChanged
  split <;> rfl

/-- Another dialect leaves the owner. -/
theorem owner_setDialect (address : Address) (dialect : Dialect) :
    (address.setDialect dialect).membership.owner = address.membership.owner := by
  unfold setDialect
  split
  next => rfl
  next => exact owner_markChanged address.membership

/-- An edit in place leaves the owner; what takes the place of an address has none. -/
theorem owner_edit (address : Address) (change : Edit) :
    (address.edit change).2.membership.owner =
      if change.inPlace then address.membership.owner else none := by
  cases change with
  | host host => exact owner_markChanged address.membership
  | port port => exact owner_markChanged address.membership
  | services services => exact owner_markChanged address.membership
  | time time => exact owner_markChanged address.membership
  | dialect dialect => exact owner_setDialect address dialect
  | version version => exact owner_setDialect address (address.encoding.dialect.withVersion version)
  | replace other => rfl
  | serialize => rfl
  | contribution => rfl
  | fields => rfl

/-- After edits in place an address has the owner that it had, after others none. -/
theorem owner_editAll (address : Address) (changes : List Edit) :
    (address.editAll changes).2.membership.owner =
      if ∀ change ∈ changes, change.inPlace then address.membership.owner else none := by
  induction changes generalizing address with
  | nil => rw [if_pos fun _ hchange => absurd hchange List.not_mem_nil]; rfl
  | cons change changes ih =>
    show ((address.edit change).2.editAll changes).2.membership.owner = _
    rw [ih, owner_edit]
    simp only [List.forall_mem_cons]
    by_cases hothers : ∀ other ∈ changes, other.inPlace
    · by_cases hfirst : change.inPlace
      · rw [if_pos hothers, if_pos hfirst, if_pos ⟨hfirst, hothers⟩]
      · rw [if_pos hothers, if_neg hfirst, if_neg fun h => hfirst h.1]
    · rw [if_neg hothers, if_neg fun h => hothers h.2]

end Address

namespace AddressList

/-- A list hears of what its entry `entry` became: the entry is the list's own, and if it does not
tell the same, the list keeps no bytes, is encoded from its entries, and is read as what they
tell. -/
structure Heard (list : AddressList) (entry changed : Address) (after : AddressList) : Prop where
  owner : changed.membership.owner = some list.id
  uncached : changed.endpoint ≠ entry.endpoint → after.encoding.retained = none
  serialized : changed.endpoint ≠ entry.endpoint → after.serialize.1 = after.fields
  faithful : changed.endpoint ≠ entry.endpoint → after.Faithful

/-- A list keeps the bytes that it kept, whatever its entries tell now, and is encoded as them. Only
if it kept none it is encoded from its entries. -/
structure Retains (list after : AddressList) : Prop where
  encoding : after.encoding = list.encoding
  kept : ∀ bytes, list.encoding.retained = some bytes → after.serialize.1 = .ok bytes
  serialized : list.encoding.retained = none → after.serialize.1 = after.fields
  faithful : list.encoding.retained = none → after.Faithful

/-- A list does not hear of what its entry became: the entry is not the list's own, and the list
retains its bytes. -/
structure Unheard (list : AddressList) (changed : Address) (after : AddressList) : Prop extends
    Retains list after where
  owner : changed.membership.owner ≠ some list.id

/-- An address in the place of an entry is announced to the list: it is the list's own, and a change
of it is noted, or will be because it has to go back to the list's layout. -/
def Announced (list : AddressList) (address : Address) : Prop :=
  address.membership.owner = some list.id ∧
    (address.membership.stale = true ∨ address.version ≠ list.format.version)

/-- What a list makes of the address that is left in the place of its entry. The address tells the
same there and has the same owner, and its note is gone. If it was announced, the list keeps no
bytes, is encoded from its entries, and is read as what they tell; otherwise the list retains its
bytes. -/
structure Received (list : AddressList) (left changed : Address) (after : AddressList) : Prop where
  endpoint : changed.endpoint = left.endpoint
  membership : changed.membership = ⟨left.membership.owner, false⟩
  uncached : list.Announced left → after.encoding.retained = none
  serialized : list.Announced left → after.serialize.1 = after.fields
  faithful : list.Announced left → after.Faithful
  retains : ¬ list.Announced left → Retains list after

/-- What a list makes of the modification of an entry.

* It receives whatever address a closure leaves in the place of the entry.
* Of an address in its layout that is moved there it hears nothing if another list owns it, or none,
but also if the list itself owns it and no change of it is noted.
* It hears of edits if it owned the entry and none of them put another address in its place, and
only then. -/
structure Attentive (list : AddressList) (index : Nat) (entry : Address) : Prop where
  closures : ∀ closure : Address.Closure, ∃ after changed,
    list.modify index (fun entry => ((), closure.run entry)) = some ((), after) ∧
      after.entries[index]? = some changed ∧ Received list (closure.run entry) changed after
  moved : ∀ other : Address, other.Obtainable → other.version = list.format.version →
    other.membership.owner ≠ some list.id ∨ other.membership.stale = false →
    ∃ after changed, list.modify index (fun _ => ((), other)) = some ((), after) ∧
      after.entries[index]? = some changed ∧ changed.endpoint = other.endpoint ∧
      changed.membership.owner = other.membership.owner ∧ Retains list after
  edits : ∀ changes : List Address.Edit, (∀ change ∈ changes, change.Available) →
    ∃ results after changed, list.modify index (·.editAll changes) = some (results, after) ∧
      after.entries[index]? = some changed ∧
      (entry.membership.owner = some list.id ∧ (∀ change ∈ changes, change.inPlace) →
        Heard list entry changed after) ∧
      (¬ (entry.membership.owner = some list.id ∧ ∀ change ∈ changes, change.inPlace) →
        Unheard list changed after)

/-- Back on the list's layout an entry tells the same. -/
theorem endpoint_restoreLayout (list : AddressList) (entry : Address) :
    (list.restoreLayout entry).endpoint = entry.endpoint := by
  unfold AddressList.restoreLayout
  split
  next => rfl
  next => exact entry.endpoint_setDialect _

/-- Back on the list's layout an entry has the owner that it had. -/
theorem owner_restoreLayout (list : AddressList) (entry : Address) :
    (list.restoreLayout entry).membership.owner = entry.membership.owner := by
  unfold AddressList.restoreLayout
  split
  next => rfl
  next => exact entry.owner_setDialect _

/-- A list finds a note for it exactly if the address was announced before it was put back on the
list's layout. -/
theorem takeChange_restoreLayout (list : AddressList) (address : Address) :
    ((list.restoreLayout address).membership.takeChange list.id).1 = true ↔
      list.Announced address := by
  have htaken : ((list.restoreLayout address).membership.takeChange list.id).1 = true ↔
      (list.restoreLayout address).membership.stale = true ∧
        address.membership.owner = some list.id := by
    rw [← owner_restoreLayout list address, Membership.takeChange, Bool.and_eq_true, beq_iff_eq]
  rw [htaken, Announced, and_comm]
  refine and_congr_right fun howner => ?_
  unfold AddressList.restoreLayout
  split
  next hversion => simp only [hversion, ne_eq, not_true_eq_false, or_false]
  next hversion =>
    -- On its way back to the list's layout the address notes that.
    refine iff_of_true ?_ (Or.inr hversion)
    rcases (Address.watched_setDialect howner _).2 with hstale | ⟨-, -, hsame⟩
    · exact hstale
    · rw [Address.version_setDialect] at hsame
      exact absurd hsame.symm hversion

/-- A legible list that keeps no bytes is encoded from its entries, and is read as what they
tell. -/
theorem Legible.of_uncached {list : AddressList} (h : list.Legible)
    (huncached : list.encoding.retained = none) :
    list.serialize.1 = list.fields ∧ list.Faithful :=
  ⟨h.serialize_of_uncached huncached,
    h.faithful (Encoding.keeps_of_uncached huncached list.SpelledBy)⟩

/-- A list that is encoded as before retains its bytes. -/
theorem Regular.retains {list after : AddressList} (h : list.Regular)
    (hencoding : after.encoding = list.encoding) (hlegible : after.Legible) :
    Retains list after := by
  have huncached (hnone : list.encoding.retained = none) :
      after.serialize.1 = after.fields ∧ after.Faithful :=
    hlegible.of_uncached (by rw [hencoding]; exact hnone)
  refine ⟨hencoding, fun bytes hbytes => ?_, fun hnone => (huncached hnone).1,
    fun hnone => (huncached hnone).2⟩
  show (after.encoding.serialize after.fields).1 = .ok bytes
  rw [hencoding]
  unfold Encoding.serialize
  rw [Encoding.current?_of_retained hbytes (h.keeps bytes hbytes).1]

/-- A regular list receives what is left in the place of its entry. -/
theorem Regular.received {α : Type} {list : AddressList} (h : list.Regular) {index : Nat}
    {entry : Address} (hentry : list.entries[index]? = some entry) {change : Address → α × Address}
    (hchange : ∀ {entry : Address}, entry.Obtainable → (change entry).2.Obtainable) :
    ∃ after changed, list.modify index change = some ((change entry).1, after) ∧
      after.entries[index]? = some changed ∧ Received list (change entry).2 changed after := by
  obtain ⟨result, after, changed, hmodify, hchanged⟩ := modify_of_getElem? hentry change
  have hlegible := (h.modify hchange hmodify).legible
  obtain ⟨found, restored, hfound, hrestored, rfl, hafter⟩ := modify_eq_some hmodify
  obtain rfl := Option.some.inj (hentry.symm.trans hfound)
  have htaken := takeChange_restoreLayout list (change entry).2
  rw [← hrestored] at htaken
  have huncached (hannounced : list.Announced (change entry).2) :
      after.encoding.retained = none := by
    simp only [hafter, if_pos (htaken.2 hannounced), Encoding.retained_uncache_adjustLength]
  have hkept (hannounced : ¬ list.Announced (change entry).2) :
      after.encoding = list.encoding := by
    simp only [hafter, if_neg (mt htaken.1 hannounced)]
  have hbound := (List.getElem?_eq_some_iff.1 hentry).1
  obtain rfl : { restored with membership := { restored.membership with stale := false } } =
      changed := by
    rw [hafter] at hchanged
    exact Option.some.inj ((List.getElem?_set_self hbound).symm.trans hchanged)
  refine ⟨after, _, hmodify, hchanged, ?_, ?_, huncached,
    fun hannounced => (hlegible.of_uncached (huncached hannounced)).1,
    fun hannounced => (hlegible.of_uncached (huncached hannounced)).2,
    fun hannounced => h.retains (hkept hannounced) hlegible⟩
  · rw [hrestored]
    exact endpoint_restoreLayout list _
  · rw [hrestored, ← owner_restoreLayout list]

/-- Of edits in place of an entry that it owns a list hears. -/
theorem Received.heard {list after : AddressList} {entry changed : Address}
    {changes : List Address.Edit} (h : Received list (entry.editAll changes).2 changed after)
    (howner : entry.membership.owner = some list.id)
    (hplace : ∀ change ∈ changes, change.inPlace) : Heard list entry changed after := by
  have hwatched := Address.watched_editAll howner hplace
  have hannounced (hdiffers : changed.endpoint ≠ entry.endpoint) :
      list.Announced (entry.editAll changes).2 := by
    refine ⟨hwatched.1, ?_⟩
    rcases hwatched.2 with hstale | ⟨-, hsame, -⟩
    · exact Or.inl hstale
    · exact absurd (h.endpoint.trans hsame) hdiffers
  exact ⟨(congrArg Membership.owner h.membership).trans hwatched.1,
    fun hdiffers => h.uncached (hannounced hdiffers),
    fun hdiffers => h.serialized (hannounced hdiffers),
    fun hdiffers => h.faithful (hannounced hdiffers)⟩

/-- Of edits of an entry that it does not own, or that another address takes the place of, a list
does not hear. -/
theorem Received.unheard {list after : AddressList} {entry changed : Address}
    {changes : List Address.Edit} (h : Received list (entry.editAll changes).2 changed after)
    (hlost : ¬ (entry.membership.owner = some list.id ∧ ∀ change ∈ changes, change.inPlace)) :
    Unheard list changed after := by
  have howner : (entry.editAll changes).2.membership.owner ≠ some list.id := by
    rw [Address.owner_editAll]
    split
    next hplace => exact fun howner => hlost ⟨howner, hplace⟩
    next => exact fun hnone => nomatch hnone
  refine ⟨h.retains fun hannounced => howner hannounced.1, ?_⟩
  rw [h.membership]
  exact howner

/-- In every state that a program brings a list to, the list is attentive to each of its entries. -/
theorem heard_modify {origin : Origin} {start : AddressList} (h : origin.list? = some start)
    (operations : List Operation) {index : Nat} {entry : Address}
    (hentry : (start.applyAll operations).entries[index]? = some entry) :
    (start.applyAll operations).Attentive index entry := by
  have hregular := (regular_ofOrigin h).applyAll operations
  generalize start.applyAll operations = list at hentry hregular
  refine ⟨fun closure => hregular.received hentry closure.obtainable,
    fun other hobtainable hversion hquiet => ?_, fun changes havailable => ?_⟩
  · obtain ⟨after, changed, hmodify, hchanged, hreceived⟩ : ∃ after changed,
        list.modify index (fun _ => ((), other)) = some ((), after) ∧
          after.entries[index]? = some changed ∧ Received list other changed after :=
      hregular.received hentry fun _ => hobtainable
    refine ⟨after, changed, hmodify, hchanged, hreceived.endpoint, by rw [hreceived.membership],
      hreceived.retains ?_⟩
    rintro ⟨howner, hstale | hother⟩
    · rcases hquiet with hforeign | hfresh
      · exact hforeign howner
      · exact Bool.eq_false_iff.1 hfresh hstale
    · exact hother hversion
  · obtain ⟨after, changed, hmodify, hchanged, hreceived⟩ := hregular.received hentry
      fun hobtained => hobtained.editAll havailable
    exact ⟨_, after, changed, hmodify, hchanged, fun hown => hreceived.heard hown.1 hown.2,
      fun hlost => hreceived.unheard hlost⟩

/-- A list of one entry that was read with its bytes kept. -/
def keptList : Origin :=
  .parsed ⟨.main, Dialect.currentVersion, true⟩ .addr ⟨0⟩ (AddressBook.oneEntry 8333)

/-- The entry moves to another port. -/
def movedPort : List Address.Edit :=
  [.port 18333]

/-- The list was encoded from its bytes; then it hears that its entry moved, and is encoded with the
new port. -/
theorem heard_modify_movedPort :
    ∃ start entry results after changed, keptList.list? = some start ∧
      (start.applyAll [.serialize]).entries[0]? = some entry ∧
      (start.applyAll [.serialize]).modify 0 (·.editAll movedPort) = some (results, after) ∧
      changed.endpoint ≠ entry.endpoint ∧
      Heard (start.applyAll [.serialize]) entry changed after ∧
      after.serialize.1 = .ok (AddressBook.oneEntry 18333) := by
  obtain ⟨start, entry, results, after, changed, hstart, hentry, howner, hmodify, hchanged,
      hdiffers, hfields⟩ :
      ∃ start entry results after changed, keptList.list? = some start ∧
        (start.applyAll [.serialize]).entries[0]? = some entry ∧
        entry.membership.owner = some (start.applyAll [.serialize]).id ∧
        (start.applyAll [.serialize]).modify 0 (·.editAll movedPort) = some (results, after) ∧
        after.entries[0]? = some changed ∧ changed.endpoint ≠ entry.endpoint ∧
        after.fields = .ok (AddressBook.oneEntry 18333) :=
    ⟨_, _, _, _, _, rfl, rfl, rfl, rfl, rfl, by decide, rfl⟩
  have hplace : ∀ change ∈ movedPort, change.inPlace := by decide
  have havailable : ∀ change ∈ movedPort, change.Available := fun change hchange =>
    List.mem_singleton.1 hchange ▸ trivial
  obtain ⟨results', after', changed', hmodify', hchanged', hheard, -⟩ :=
    (heard_modify hstart [.serialize] hentry).edits movedPort havailable
  obtain ⟨rfl, rfl⟩ := Prod.mk.inj (Option.some.inj (hmodify.symm.trans hmodify'))
  obtain rfl := Option.some.inj (hchanged.symm.trans hchanged')
  have hheard := hheard ⟨howner, hplace⟩
  exact ⟨start, entry, _, after, changed, hstart, hentry, hmodify, hdiffers, hheard,
    (hheard.serialized hdiffers).trans hfields⟩

/-- A list of a stranger as it is sent. -/
def strangerEntry : Bytes :=
  [1, 0, 0, 0, 0, 0, 0, 0, 0, 0, 0, 0, 0, 0, 0, 0, 0, 0, 0, 0, 0, 0, 0, 0xFF, 0xFF, 9, 9, 9, 9,
    0x10, 0x92]

/-- A copy of a stranger takes the place of the only entry of a list that keeps its bytes: the
entry has no owner, and the list is still encoded as the entry that is gone, and not as the one that
it has. -/
theorem unheard_overwritten :
    ∃ start entry results after changed, keptList.list? = some start ∧
      (start.applyAll []).entries[0]? = some entry ∧
      (start.applyAll []).modify 0 (·.editAll [.replace (stranger .timed)]) =
        some (results, after) ∧
      after.entries[0]? = some changed ∧
      changed.membership.owner = none ∧ changed.endpoint ≠ entry.endpoint ∧
      after.encoding.retained = some (AddressBook.oneEntry 8333) ∧
      after.serialize.1 = .ok (AddressBook.oneEntry 8333) ∧ after.fields = .ok strangerEntry :=
  ⟨_, _, _, _, _, rfl, rfl, rfl, rfl, rfl, by decide, rfl, rfl, rfl⟩

end AddressList

end PeerProtocol
