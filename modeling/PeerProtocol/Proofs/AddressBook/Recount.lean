import Mathlib.Algebra.GroupWithZero.Nat
import Mathlib.Data.List.Induction
import PeerProtocol.Proofs.AddressBook.Size
import PeerProtocol.Proofs.AddressList.Current

/-!
# Sizes of lists that a program builds

A list that was built, not read, tells the size that one gets by counting anew: that of the count
and those of what its entries are encoded as. It is encoded in this size, however often the count
grew and the entries changed. The size is unknown only where it was lost: since the list was made or
last encoded, an entry was removed, or one of unknown size was added or changed
(`AddressBook.recounted_run`).
-/

namespace PeerProtocol

/-- The list is encoded in the size that it tells, which is that of the count and of all that the
entries are encoded as. -/
def AddressList.Recounted (list : AddressList) : Prop :=
  ∀ size bytes after, list.size? = some size → list.serialize = (.ok bytes, after) →
    bytes.length = size ∧
      ∃ parts : List Bytes, list.entries.map Address.fields = parts.map .ok ∧
        size = CompactSize.size (UInt64.ofNat list.entries.length) + (parts.map List.length).sum

namespace AddressBook

/-- Whether the act builds what it makes, if it makes something, and reads nothing. -/
def Act.isBuilt : Act → Bool
  | .makeAddress (.parsed ..) => false
  | .makeList (.parsed ..) => false
  | _ => true

/-- The act encodes the list at an index. -/
def Encodes (book : AddressBook) (index : Nat) (act : Act) : Prop :=
  act = .serialize index ∧ ∃ list bytes after, book.lists[index]? = some list ∧
    list.serialize = (.ok bytes, after)

/-- The acts lost the size of the list at an index, and the list was not encoded since. -/
inductive Lost : List Act → Nat → Prop where
  /-- An entry was removed. -/
  | removed {acts : List Act} {index entry : Nat} {list after : AddressList} {address : Address} :
      (run acts).lists[index]? = some list → list.remove entry = some (address, after) →
      Lost (acts ++ [.remove index entry]) index
  /-- An address of unknown size was added. -/
  | added {acts : List Act} {index position : Nat} {list after : AddressList} {address : Address} :
      (run acts).lists[index]? = some list → (run acts).addresses[position]? = some address →
      list.add address = (.ok (), after) → address.size? = none →
      Lost (acts ++ [.add index position]) index
  /-- An entry left a note of a change, and its size was unknown before or is afterwards. -/
  | changed {acts : List Act} {index position : Nat} {changes : List Address.Change}
      {list : AddressList} {entry restored : Address} :
      (run acts).lists[index]? = some list → list.entries[position]? = some entry →
      restored = list.restoreLayout (entry.change changes) → restored.membership.stale = true →
      entry.size? = none ∨ restored.size? = none →
      Lost (acts ++ [.changeEntry index position changes]) index
  /-- A list of which the size was lost was copied. -/
  | copied {acts : List Act} {original : Nat} {id : ListId} :
      Lost acts original → Lost (acts ++ [.copyList original id]) (run acts).lists.length
  /-- The size was lost before, and the list was not encoded. -/
  | later {acts : List Act} {index : Nat} {act : Act} :
      Lost acts index → ¬ Encodes (run acts) index act → Lost (acts ++ [act]) index

/-! ## What an act does with the list at an index -/

/-- How the list at an index comes about by an act. -/
inductive Stepped (book : AddressBook) (index : Nat) (list : AddressList) : Act → Prop where
  /-- The list was there before and is left alone. -/
  | kept {act : Act} : book.lists[index]? = some list → act ≠ .serialize index →
      Stepped book index list act
  | made {origin : AddressList.Origin} : origin.list? = some list →
      Stepped book index list (.makeList origin)
  | copied {original : Nat} {before : AddressList} {id : ListId} :
      index = book.lists.length → book.lists[original]? = some before → list = before.copy id →
      Stepped book index list (.copyList original id)
  | changed {position : Nat} {before : AddressList} {changes : List Address.Change}
      {results : List (Option (Except CodecError Bytes))} : book.lists[index]? = some before →
      before.modify position (·.editAll (changes.map Subtype.val)) = some (results, list) →
      Stepped book index list (.changeEntry index position changes)
  | encoded {before : AddressList} : book.lists[index]? = some before →
      list = before.serialize.2 → Stepped book index list (.serialize index)
  | added {position : Nat} {before : AddressList} {address : Address} :
      book.lists[index]? = some before → book.addresses[position]? = some address →
      before.add address = (.ok (), list) → Stepped book index list (.add index position)
  | removed {position : Nat} {before : AddressList} {address : Address} :
      book.lists[index]? = some before → before.remove position = some (address, list) →
      Stepped book index list (.remove index position)

/-- A list stands in the place of one, or was there before. -/
theorem getElem?_setList {book : AddressBook} {position index : Nat} {after list : AddressList}
    (h : (book.setList position after).lists[index]? = some list) :
    (position = index ∧ list = after) ∨ (position ≠ index ∧ book.lists[index]? = some list) := by
  by_cases hindex : position = index
  · subst hindex
    obtain ⟨hlength, hlist⟩ := List.getElem?_eq_some_iff.1 h
    exact Or.inl ⟨rfl, hlist.symm.trans (List.getElem_set_self hlength)⟩
  · refine Or.inr ⟨hindex, ?_⟩
    rwa [setList, List.getElem?_set_ne hindex] at h

/-- A list is one more, or was there before. -/
theorem getElem?_withList {book : AddressBook} {index : Nat} {added : Option AddressList}
    {list : AddressList} (h : (book.withList added).lists[index]? = some list) :
    book.lists[index]? = some list ∨ (index = book.lists.length ∧ added = some list) := by
  by_cases hindex : index < book.lists.length
  · refine Or.inl ?_
    rwa [withList, List.getElem?_append_left hindex] at h
  · obtain ⟨place, rfl⟩ := Nat.exists_eq_add_of_le (Nat.le_of_not_lt hindex)
    rw [withList, List.getElem?_append_right (Nat.le_add_right _ _), Nat.add_sub_cancel_left] at h
    cases added with
    | none => cases h
    | some added =>
      cases place with
      | zero => exact Or.inr ⟨rfl, h⟩
      | succ place => cases h

/-- Every list comes about in one of these ways. -/
theorem stepped {book : AddressBook} {act : Act} {index : Nat} {list : AddressList}
    (h : (book.step act).lists[index]? = some list) : Stepped book index list act := by
  cases act with
  | makeAddress origin => exact .kept h nofun
  | makeList origin =>
    rcases getElem?_withList h with hkept | ⟨-, hmade⟩
    · exact .kept hkept nofun
    · exact .made hmade
  | copyAddress address => exact .kept h nofun
  | copyEntry position entry => exact .kept h nofun
  | copyList original id =>
    rcases getElem?_withList h with hkept | ⟨hindex, hcopied⟩
    · exact .kept hkept nofun
    · obtain ⟨before, hbefore, rfl⟩ := Option.map_eq_some_iff.1 hcopied
      exact .copied hindex hbefore rfl
  | changeAddress address changes =>
    unfold AddressBook.step at h
    simp only at h
    split at h
    next => exact .kept h nofun
    next => exact .kept h nofun
  | changeEntry position entry changes =>
    unfold AddressBook.step at h
    simp only at h
    split at h
    next => exact .kept h nofun
    next before hbefore =>
      split at h
      next => exact .kept h nofun
      next results after hmodify =>
        rcases getElem?_setList h with ⟨rfl, rfl⟩ | ⟨-, hkept⟩
        · exact .changed hbefore hmodify
        · exact .kept hkept nofun
  | serialize position =>
    unfold AddressBook.step at h
    simp only at h
    split at h
    next hnone =>
      refine .kept h ?_
      rintro ⟨⟩
      rw [hnone] at h
      cases h
    next before hbefore =>
      rcases getElem?_setList h with ⟨rfl, rfl⟩ | ⟨hother, hkept⟩
      · exact .encoded hbefore rfl
      · refine .kept hkept ?_
        rintro ⟨⟩
        exact hother rfl
  | add position address =>
    unfold AddressBook.step at h
    simp only at h
    split at h
    next before added hbefore hadded =>
      rcases getElem?_setList h with ⟨rfl, rfl⟩ | ⟨-, hkept⟩
      · rcases hadd : before.add added with ⟨error | _, after⟩
        · rw [AddressList.add_eq_error hadd]
          exact .kept hbefore nofun
        · exact .added hbefore hadded hadd
      · exact .kept hkept nofun
    next => exact .kept h nofun
  | remove position entry =>
    unfold AddressBook.step at h
    simp only at h
    split at h
    next => exact .kept h nofun
    next before hbefore =>
      split at h
      next => exact .kept h nofun
      next removed after hremove =>
        rcases getElem?_setList h with ⟨rfl, rfl⟩ | ⟨-, hkept⟩
        · exact .removed hbefore hremove
        · exact .kept hkept nofun

/-! ## What a run of building acts preserves -/

/-- Nothing that is done with sized and current addresses and lists takes that away. -/
theorem stable_current : Stable (fun address => address.Sized ∧ address.Current)
    fun list => list.Sized ∧ list.Current where
  change h changes := ⟨h.1.editAll inPlace_changes, h.2.editAll inPlace_changes⟩
  copy h := ⟨h.1.congr rfl rfl, h.2⟩
  entry h entry hentry := ⟨h.1.entries entry hentry, h.2.entries entry hentry⟩
  copyList h id := ⟨h.1.copy id, h.2.copy id⟩
  modify h hmodify :=
    ⟨h.1.modify h.2.coherent inPlace_changes hmodify, h.2.modify inPlace_changes hmodify⟩
  serialize h := ⟨h.1.serialize, h.2.serialize⟩
  add h haddress hadd := ⟨h.1.add haddress.1 hadd, h.2.add haddress.2 hadd⟩
  remove h hremove := by
    obtain ⟨hsizedAddress, hsizedList⟩ := h.1.remove hremove
    obtain ⟨hcurrentAddress, hcurrentList⟩ := h.2.remove hremove
    exact ⟨⟨hsizedAddress, hcurrentAddress⟩, hsizedList, hcurrentList⟩

/-- Everything that a program builds is sized and current. -/
theorem current_run {acts : List Act} (hbuilt : ∀ act ∈ acts, act.isBuilt = true) :
    (run acts).Holds (fun address => address.Sized ∧ address.Current)
      fun list => list.Sized ∧ list.Current := by
  refine stable_current.run acts ?_ ?_
  · intro origin address hact haddress
    rcases address?_eq_some haddress with ⟨_, _, _, _, _, rfl⟩ | ⟨_, _, _, _, rfl, -⟩
    · exact ⟨Address.sized_refreshLength _, Address.current_of_uncached rfl⟩
    · cases hbuilt _ hact
  · intro origin list hact hlist
    rcases list?_eq_some hlist with ⟨dialect, format, id, rfl⟩ | ⟨_, _, _, _, rfl, -⟩
    · exact ⟨AddressList.sized_new dialect format id, AddressList.current_new dialect format id⟩
    · cases hbuilt _ hact

/-- A sized and current list is encoded in the size that one gets by counting anew. -/
theorem recounted_of_current {list : AddressList} (hsized : list.Sized)
    (hcurrent : list.Current) : list.Recounted := by
  intro size bytes after hsize hserialize
  have hlength := hsized.length_of_serialize hsize hserialize
  obtain ⟨parts, hparts, rfl⟩ := hcurrent.parts_of_serialize hserialize
  refine ⟨hlength, parts, hparts, ?_⟩
  rw [← hlength, List.length_append, CompactSize.length_encode, List.length_flatten]

/-- One more act at the end of a run. -/
theorem run_concat (acts : List Act) (act : Act) : run (acts ++ [act]) = (run acts).step act := by
  rw [run, List.foldl_append]
  rfl

/-- The size of a list that a program builds is unknown only where it was lost. -/
theorem lost_of_unknown {acts : List Act} (hbuilt : ∀ act ∈ acts, act.isBuilt = true)
    {index : Nat} {list : AddressList} (hlist : (run acts).lists[index]? = some list)
    (hunknown : list.size? = none) : Lost acts index := by
  induction acts using List.reverseRecOn generalizing index list with
  | nil => cases hlist
  | append_singleton acts act ih =>
    have hbefore : ∀ act ∈ acts, act.isBuilt = true := fun earlier hearlier =>
      hbuilt earlier (List.mem_append_left [act] hearlier)
    have hholds := current_run hbefore
    rw [run_concat] at hlist
    -- Where the size was unknown before, it was lost before, unless this act encodes the list.
    have hlater {before : AddressList} (hstood : (run acts).lists[index]? = some before)
        (hsize : before.size? = none) (hother : act ≠ .serialize index) :
        Lost (acts ++ [act]) index :=
      .later (ih hbefore hstood hsize) fun hencodes => hother hencodes.1
    cases stepped hlist with
    | kept hstood hother => exact hlater hstood hunknown hother
    | made hmade =>
      rcases list?_eq_some hmade with ⟨_, _, _, rfl⟩ | ⟨_, _, _, _, rfl, -⟩
      · cases hunknown
      · cases hbuilt _ (List.mem_append_right acts List.mem_cons_self)
    | copied hindex hstood hcopy =>
      subst hindex hcopy
      exact .copied (ih hbefore hstood hunknown)
    | changed hstood hmodify =>
      obtain ⟨hsized, hcurrent⟩ := hholds.lists _ (List.mem_of_getElem? hstood)
      obtain ⟨entry, restored, hentry, hrestored, hcounted⟩ :=
        hsized.counted_modify hcurrent.coherent inPlace_changes hmodify
      rcases hcounted.reason hunknown with hsize | ⟨hstale, hsize⟩
      · exact hlater hstood hsize nofun
      · exact .changed hstood hentry hrestored hstale hsize
    | @encoded before hstood hencoded =>
      obtain ⟨hsized, -⟩ := hholds.lists before (List.mem_of_getElem? hstood)
      rw [hencoded] at hunknown
      cases hresult : before.serialize.1 with
      | error error =>
        have hsame := Encoding.serialize_eq_error
          (AddressList.encoding_of_serialize (Prod.ext hresult rfl))
        have hsize : before.size? = none := (congrArg Encoding.length hsame).symm.trans hunknown
        refine .later (ih hbefore hstood hsize) ?_
        rintro ⟨-, other, bytes, after, hother, hserialize⟩
        obtain rfl := Option.some.inj (hstood.symm.trans hother)
        rw [hserialize] at hresult
        cases hresult
      | ok bytes =>
        have hknown := (hsized.computedSize?_of_serialize (Prod.ext hresult rfl)).2
        rw [hunknown] at hknown
        cases hknown
    | added hstood haddress hadd =>
      obtain ⟨hsized, -⟩ := hholds.lists _ (List.mem_of_getElem? hstood)
      obtain ⟨hsizedAddress, -⟩ := hholds.addresses _ (List.mem_of_getElem? haddress)
      rcases (hsized.counted_add hsizedAddress hadd).reason hunknown with hsize | hsize
      · exact hlater hstood hsize nofun
      · exact .added hstood haddress hadd hsize
    | removed hstood hremove => exact .removed hstood hremove

/-- A list that a program builds is encoded in the size that one gets by counting anew, and its size
is unknown only where it was lost. -/
theorem recounted_run {acts : List Act} (hbuilt : ∀ act ∈ acts, act.isBuilt = true) {index : Nat}
    {list : AddressList} (hlist : (run acts).lists[index]? = some list) :
    list.Recounted ∧ (list.size? = none → Lost acts index) := by
  obtain ⟨hsized, hcurrent⟩ := (current_run hbuilt).lists list (List.mem_of_getElem? hlist)
  exact ⟨recounted_of_current hsized hcurrent, lost_of_unknown hbuilt hlist⟩

/-- An address with one service bit is added to a new list of tagged entries, which is encoded; then
the services of the entry become a number of three bytes. -/
def grownEntry : List Act :=
  [.makeList (.new ⟨.main, Dialect.currentVersion, true⟩ .addrv2 ⟨0⟩),
    .makeAddress (.host ⟨.main, Layout.tagged.version, true⟩ (.ip (.v4 ⟨[10, 0, 0, 1], rfl⟩)) 8333
      ⟨1⟩ 0),
    .add 0 0, .serialize 0, .changeEntry 0 0 [widerServices]]

/-- The list with the grown entry is encoded in the 16 bytes that it tells, and without the entry it
has lost its size. -/
theorem recounted_run_grownEntry :
    (∀ act ∈ grownEntry, act.isBuilt = true) ∧
      (∃ list bytes after, (run grownEntry).lists[0]? = some list ∧ list.size? = some 16 ∧
        list.serialize = (.ok bytes, after) ∧ bytes.length = 16) ∧
      Lost (grownEntry ++ [.remove 0 0]) 0 := by
  have hbuilt : ∀ act ∈ grownEntry, act.isBuilt = true := by decide
  have hremoved : ∀ act ∈ grownEntry ++ [.remove 0 0], act.isBuilt = true := by decide
  refine ⟨hbuilt, ?_, ?_⟩
  · obtain ⟨list, hlist⟩ : ∃ list, (run grownEntry).lists[0]? = some list :=
      Option.isSome_iff_exists.1 (by decide)
    have hsize : (run grownEntry).lists[0]?.bind (·.size?) = some 16 := by decide
    have hwritten : ((run grownEntry).lists[0]?.bind (·.serialize.1.toOption)).isSome := by decide
    rw [hlist, Option.bind_some] at hsize hwritten
    obtain ⟨bytes, hbytes⟩ := Option.isSome_iff_exists.1 hwritten
    have hserialize : list.serialize = (.ok bytes, list.serialize.2) :=
      Prod.ext (eq_ok_of_toOption hbytes) rfl
    refine ⟨list, bytes, _, hlist, hsize, hserialize, ?_⟩
    exact ((recounted_run hbuilt hlist).1 16 _ _ hsize hserialize).1
  · obtain ⟨list, hlist⟩ : ∃ list, (run (grownEntry ++ [.remove 0 0])).lists[0]? = some list :=
      Option.isSome_iff_exists.1 (by decide)
    have hsize : (run (grownEntry ++ [.remove 0 0])).lists[0]?.bind (·.size?) = none := by decide
    rw [hlist, Option.bind_some] at hsize
    exact (recounted_run hremoved hlist).2 hsize

end AddressBook

end PeerProtocol
