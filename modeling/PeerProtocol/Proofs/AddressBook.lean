import PeerProtocol.Proofs.AddressList

/-!
# Runs of a program that holds addresses

A program makes lists and free-standing addresses, copies, edits and encodes them, and moves
addresses between them. What nothing that is done with addresses and lists takes away from them is
true of everything that a program ever holds (`AddressBook.Stable.run`). So in every state that it
reaches, whatever it did before, every list and every address is faithful: no stale bytes are ever
encoded (`AddressBook.faithful_run`). The identities that the program gives its lists are arbitrary.
-/

namespace PeerProtocol

open Bytes

/-- How a free-standing address comes to be. -/
inductive Address.Origin where
  | host (dialect : Dialect) (target : Host) (port : UInt16) (services : Services) (now : UInt32)
  | socket (dialect : Dialect) (target : SocketAddress) (now : UInt32)
  | onionName (dialect : Dialect) (name : String) (port : UInt16) (services : Services)
      (now : UInt32)
  | parsed (dialect : Dialect) (payload : Bytes) (offset : Nat)

/-- The address that was made, if it was. -/
def Address.Origin.address? : Address.Origin → Option Address
  | .host dialect target port services now => some (Address.new dialect target port services now)
  | .socket dialect target now => some (Address.ofSocket dialect target now)
  | .onionName dialect name port services now =>
      (Address.ofOnionName dialect name port services now).toOption
  | .parsed dialect payload offset => (Address.parse dialect payload offset none).toOption.map (·.1)

/-- How a list comes to be. -/
inductive AddressList.Origin where
  | new (dialect : Dialect) (format : ListFormat) (id : ListId)
  | parsed (dialect : Dialect) (format : ListFormat) (id : ListId) (payload : Bytes)

/-- The list that was made, if it was. -/
def AddressList.Origin.list? : AddressList.Origin → Option AddressList
  | .new dialect format id => some (AddressList.new dialect format id)
  | .parsed dialect format id payload => (AddressList.parse dialect format id payload).toOption

/-- An edit in place. -/
abbrev Address.Change := { edit : Address.Edit // edit.inPlace = true }

/-- The address after changes in order. -/
def Address.change (address : Address) (changes : List Address.Change) : Address :=
  (address.editAll (changes.map Subtype.val)).2

/-- The lists and the free-standing addresses that a program holds. -/
structure AddressBook where
  lists : List AddressList
  addresses : List Address

namespace AddressBook

/-- One thing that a program does. Lists and addresses are named by their positions, and what does
not exist is left alone. -/
inductive Act where
  | makeAddress (origin : Address.Origin)
  | makeList (origin : AddressList.Origin)
  | copyAddress (address : Nat)
  | copyEntry (list entry : Nat)
  | copyList (list : Nat) (id : ListId)
  | changeAddress (address : Nat) (changes : List Address.Change)
  | changeEntry (list entry : Nat) (changes : List Address.Change)
  | serialize (list : Nat)
  /-- The address is gone also where the list refuses it. -/
  | add (list address : Nat)
  | remove (list entry : Nat)

/-- Nothing is held at first. -/
def empty : AddressBook :=
  ⟨[], []⟩

/-- Holds one more free-standing address, if there is one. -/
def withAddress (book : AddressBook) (address : Option Address) : AddressBook :=
  { book with addresses := book.addresses ++ address.toList }

/-- Holds one more list, if there is one. -/
def withList (book : AddressBook) (list : Option AddressList) : AddressBook :=
  { book with lists := book.lists ++ list.toList }

/-- Holds another list in the place of one. -/
def setList (book : AddressBook) (index : Nat) (list : AddressList) : AddressBook :=
  { book with lists := book.lists.set index list }

/-- What is held after one act. -/
def step (book : AddressBook) : Act → AddressBook
  | .makeAddress origin => book.withAddress origin.address?
  | .makeList origin => book.withList origin.list?
  | .copyAddress address => book.withAddress (book.addresses[address]?.map Address.copy)
  | .copyEntry list entry =>
      book.withAddress ((book.lists[list]?.bind (·.entries[entry]?)).map Address.copy)
  | .copyList list id => book.withList (book.lists[list]?.map (·.copy id))
  | .changeAddress address changes =>
    match book.addresses[address]? with
    | none => book
    | some changed =>
        { book with addresses := book.addresses.set address (changed.change changes) }
  | .changeEntry list entry changes =>
    match book.lists[list]? with
    | none => book
    | some changed =>
      match changed.modify entry (·.editAll (changes.map Subtype.val)) with
      | none => book
      | some (_, changed) => book.setList list changed
  | .serialize list =>
    match book.lists[list]? with
    | none => book
    | some encoded => book.setList list encoded.serialize.2
  | .add list address =>
    match book.lists[list]?, book.addresses[address]? with
    | some grown, some added =>
      let book := { book with addresses := book.addresses.eraseIdx address }
      book.setList list (grown.add added).2
    | _, _ => book
  | .remove list entry =>
    match book.lists[list]? with
    | none => book
    | some shrunk =>
      match shrunk.remove entry with
      | none => book
      | some (removed, shrunk) => (book.setList list shrunk).withAddress (some removed)

/-- What is held after acts in order. -/
def run (acts : List Act) : AddressBook :=
  acts.foldl step empty

/-- Everything that is held is coherent. -/
structure Coherent (book : AddressBook) : Prop where
  lists : ∀ list ∈ book.lists, list.Coherent
  addresses : ∀ address ∈ book.addresses, address.Coherent

/-- Everything that is held is faithful: the lists, the free-standing addresses, and the entries,
also in the middle of a modification. -/
structure Faithful (book : AddressBook) : Prop where
  lists : ∀ list ∈ book.lists, list.Faithful
  addresses : ∀ address ∈ book.addresses, address.Faithful
  entries : ∀ list ∈ book.lists, ∀ entry ∈ list.entries, entry.Faithful
  changed : ∀ list ∈ book.lists, ∀ entry ∈ list.entries, ∀ changes, (entry.change changes).Faithful

/-! ## What one act preserves -/

/-- Changes are edits in place. -/
theorem inPlace_changes {changes : List Address.Change} :
    ∀ edit ∈ changes.map Subtype.val, edit.inPlace := by
  intro edit hedit
  obtain ⟨change, -, rfl⟩ := List.mem_map.1 hedit
  exact change.2

/-- Changes keep an address coherent. -/
theorem coherent_change {address : Address} (h : address.Coherent)
    (changes : List Address.Change) : (address.change changes).Coherent :=
  h.editAll inPlace_changes

/-- An address that was made is new or was parsed. -/
theorem address?_eq_some {origin : Address.Origin} {address : Address}
    (h : origin.address? = some address) :
    (∃ dialect target port services now,
      address = Address.new dialect target port services now) ∨
      ∃ dialect payload offset used, origin = .parsed dialect payload offset ∧
        Address.parse dialect payload offset none = .ok (address, used) := by
  cases origin with
  | host dialect target port services now =>
    exact Or.inl ⟨dialect, target, port, services, now, (Option.some.inj h).symm⟩
  | socket dialect target now =>
    exact Or.inl ⟨dialect, .ip target.ip, target.port, .empty, now, (Option.some.inj h).symm⟩
  | onionName dialect name port services now =>
    cases hkey : OnionKey.ofName name with
    | error cause =>
      rw [Address.Origin.address?, Address.ofOnionName, hkey] at h
      cases h
    | ok key =>
      rw [Address.Origin.address?, Address.ofOnionName, hkey] at h
      exact Or.inl ⟨dialect, .onion key.name, port, services, now, (Option.some.inj h).symm⟩
  | parsed dialect payload offset =>
    cases hparse : Address.parse dialect payload offset none with
    | error error =>
      rw [Address.Origin.address?, hparse] at h
      cases h
    | ok parsed =>
      rw [Address.Origin.address?, hparse] at h
      obtain rfl := Option.some.inj h
      exact Or.inr ⟨dialect, payload, offset, parsed.2, rfl, hparse⟩

/-- A list that was made is new or was parsed. -/
theorem list?_eq_some {origin : AddressList.Origin} {list : AddressList}
    (h : origin.list? = some list) :
    (∃ dialect format id, list = AddressList.new dialect format id) ∨
      ∃ dialect format id payload, origin = .parsed dialect format id payload ∧
        AddressList.parse dialect format id payload = .ok list := by
  cases origin with
  | new dialect format id => exact Or.inl ⟨dialect, format, id, (Option.some.inj h).symm⟩
  | parsed dialect format id payload =>
    cases hparse : AddressList.parse dialect format id payload with
    | error error =>
      rw [AddressList.Origin.list?, hparse] at h
      cases h
    | ok parsed =>
      rw [AddressList.Origin.list?, hparse] at h
      obtain rfl := Option.some.inj h
      exact Or.inr ⟨dialect, format, id, payload, rfl, hparse⟩

/-- An address that was made is coherent. -/
theorem coherent_ofOrigin {origin : Address.Origin} {address : Address}
    (h : origin.address? = some address) : address.Coherent := by
  rcases address?_eq_some h with ⟨_, _, _, _, _, rfl⟩ | ⟨_, _, _, _, -, hparse⟩
  · exact Address.coherent_of_uncached rfl
  · exact Address.coherent_parse hparse

/-- A list that was made is coherent. -/
theorem coherent_ofListOrigin {origin : AddressList.Origin} {list : AddressList}
    (h : origin.list? = some list) : list.Coherent := by
  rcases list?_eq_some h with ⟨dialect, format, id, rfl⟩ | ⟨_, _, _, _, -, hparse⟩
  · exact AddressList.coherent_new dialect format id
  · exact AddressList.coherent_parse hparse

/-- A property of addresses and one of lists that nothing that is done with them takes away. -/
structure Stable (onAddress : Address → Prop) (onList : AddressList → Prop) : Prop where
  change : ∀ {address}, onAddress address → ∀ changes, onAddress (address.change changes)
  copy : ∀ {address}, onAddress address → onAddress address.copy
  entry : ∀ {list}, onList list → ∀ entry ∈ list.entries, onAddress entry
  copyList : ∀ {list}, onList list → ∀ id, onList (list.copy id)
  modify : ∀ {list after index results} {changes : List Address.Change}, onList list →
    list.modify index (·.editAll (changes.map Subtype.val)) = some (results, after) → onList after
  serialize : ∀ {list}, onList list → onList list.serialize.2
  add : ∀ {list after address}, onList list → onAddress address →
    list.add address = (.ok (), after) → onList after
  remove : ∀ {list after index address}, onList list →
    list.remove index = some (address, after) → onAddress address ∧ onList after

/-- All lists and all free-standing addresses have their properties. -/
structure Holds (onAddress : Address → Prop) (onList : AddressList → Prop) (book : AddressBook) :
    Prop where
  lists : ∀ list ∈ book.lists, onList list
  addresses : ∀ address ∈ book.addresses, onAddress address

section

variable {onAddress : Address → Prop} {onList : AddressList → Prop} {book : AddressBook}

/-- One more address that has the property may be held. -/
theorem Holds.withAddress (h : book.Holds onAddress onList) {address : Option Address}
    (haddress : ∀ added, address = some added → onAddress added) :
    (book.withAddress address).Holds onAddress onList := by
  refine ⟨h.lists, fun held hheld => ?_⟩
  rcases List.mem_append.1 hheld with hheld | hheld
  · exact h.addresses held hheld
  · exact haddress held (Option.mem_toList.1 hheld)

/-- One more list that has the property may be held. -/
theorem Holds.withList (h : book.Holds onAddress onList) {list : Option AddressList}
    (hlist : ∀ added, list = some added → onList added) :
    (book.withList list).Holds onAddress onList := by
  refine ⟨fun held hheld => ?_, h.addresses⟩
  rcases List.mem_append.1 hheld with hheld | hheld
  · exact h.lists held hheld
  · exact hlist held (Option.mem_toList.1 hheld)

/-- A list that has the property may be held in the place of another. -/
theorem Holds.setList (h : book.Holds onAddress onList) (index : Nat) {list : AddressList}
    (hlist : onList list) : (book.setList index list).Holds onAddress onList := by
  exact ⟨forall_mem_set h.lists hlist index, h.addresses⟩

/-- One act leaves everything with stable properties, if what it makes has them. -/
theorem Holds.step (h : book.Holds onAddress onList) (hstable : Stable onAddress onList) (act : Act)
    (haddress : ∀ origin address, act = .makeAddress origin → origin.address? = some address →
      onAddress address)
    (hlist : ∀ origin list, act = .makeList origin → origin.list? = some list → onList list) :
    (book.step act).Holds onAddress onList := by
  cases act with
  | makeAddress origin => exact h.withAddress fun address => haddress origin address rfl
  | makeList origin => exact h.withList fun list => hlist origin list rfl
  | copyAddress address =>
    refine h.withAddress fun copied hcopied => ?_
    obtain ⟨original, horiginal, rfl⟩ := Option.map_eq_some_iff.1 hcopied
    exact hstable.copy (h.addresses original (List.mem_of_getElem? horiginal))
  | copyEntry list entry =>
    refine h.withAddress fun copied hcopied => ?_
    obtain ⟨original, horiginal, rfl⟩ := Option.map_eq_some_iff.1 hcopied
    obtain ⟨owner, howner, hentry⟩ := Option.bind_eq_some_iff.1 horiginal
    have howner := h.lists owner (List.mem_of_getElem? howner)
    exact hstable.copy (hstable.entry howner original (List.mem_of_getElem? hentry))
  | copyList list id =>
    refine h.withList fun copied hcopied => ?_
    obtain ⟨original, horiginal, rfl⟩ := Option.map_eq_some_iff.1 hcopied
    exact hstable.copyList (h.lists original (List.mem_of_getElem? horiginal)) id
  | changeAddress address changes =>
    unfold AddressBook.step
    simp only
    split
    next => exact h
    next changed hchanged =>
      have hbefore := h.addresses changed (List.mem_of_getElem? hchanged)
      exact ⟨h.lists, forall_mem_set h.addresses (hstable.change hbefore changes) address⟩
  | changeEntry list entry changes =>
    unfold AddressBook.step
    simp only
    split
    next => exact h
    next changed hchanged =>
      split
      next => exact h
      next results after hmodify =>
        exact h.setList list
          (hstable.modify (h.lists changed (List.mem_of_getElem? hchanged)) hmodify)
  | serialize list =>
    unfold AddressBook.step
    simp only
    split
    next => exact h
    next encoded hencoded =>
      exact h.setList list (hstable.serialize (h.lists encoded (List.mem_of_getElem? hencoded)))
  | add list address =>
    unfold AddressBook.step
    simp only
    split
    next grown added hgrown hadded =>
      -- The address is no longer free-standing, whether or not the list takes it.
      have hwithout : Holds onAddress onList
          { book with addresses := book.addresses.eraseIdx address } :=
        ⟨h.lists, fun held hheld => h.addresses held (List.mem_of_mem_eraseIdx hheld)⟩
      have hgrownHolds := h.lists grown (List.mem_of_getElem? hgrown)
      refine hwithout.setList list ?_
      rcases hadd : grown.add added with ⟨error | _, after⟩
      · rw [AddressList.add_eq_error hadd]
        exact hgrownHolds
      · exact hstable.add hgrownHolds (h.addresses added (List.mem_of_getElem? hadded)) hadd
    next => exact h
  | remove list entry =>
    unfold AddressBook.step
    simp only
    split
    next => exact h
    next shrunk hshrunk =>
      split
      next => exact h
      next removed after hremove =>
        obtain ⟨hremoved, hafter⟩ :=
          hstable.remove (h.lists shrunk (List.mem_of_getElem? hshrunk)) hremove
        refine (h.setList list hafter).withAddress fun added hadded => ?_
        obtain rfl := Option.some.inj hadded
        exact hremoved

/-! ## What every run preserves -/

/-- Acts leave everything with stable properties, if what they make has them. -/
theorem Holds.foldl_step (h : book.Holds onAddress onList) (hstable : Stable onAddress onList)
    (acts : List Act)
    (haddress : ∀ origin address, .makeAddress origin ∈ acts → origin.address? = some address →
      onAddress address)
    (hlist : ∀ origin list, .makeList origin ∈ acts → origin.list? = some list → onList list) :
    (acts.foldl AddressBook.step book).Holds onAddress onList := by
  induction acts generalizing book with
  | nil => exact h
  | cons act acts ih =>
    refine ih (h.step hstable act ?_ ?_) ?_ ?_
    · intro origin address hact
      exact haddress origin address (hact ▸ List.mem_cons_self)
    · intro origin list hact
      exact hlist origin list (hact ▸ List.mem_cons_self)
    · intro origin address hact
      exact haddress origin address (List.mem_cons_of_mem act hact)
    · intro origin list hact
      exact hlist origin list (List.mem_cons_of_mem act hact)

/-- Everything that a program ever holds has the stable properties of what it makes. -/
theorem Stable.run (h : Stable onAddress onList) (acts : List Act)
    (haddress : ∀ origin address, .makeAddress origin ∈ acts → origin.address? = some address →
      onAddress address)
    (hlist : ∀ origin list, .makeList origin ∈ acts → origin.list? = some list → onList list) :
    (run acts).Holds onAddress onList :=
  Holds.foldl_step ⟨fun _ hheld => absurd hheld List.not_mem_nil,
    fun _ hheld => absurd hheld List.not_mem_nil⟩ h acts haddress hlist

end

/-- Nothing that is done with addresses and lists makes them incoherent. -/
theorem stable_coherent : Stable Address.Coherent AddressList.Coherent where
  change h changes := coherent_change h changes
  copy h := h
  entry h entry hentry := (h.owned entry hentry).coherent
  copyList h id := h.copy id
  modify h hmodify := h.modify inPlace_changes hmodify
  serialize h := h.serialize
  add h haddress hadd := h.add haddress hadd
  remove h hremove := h.remove hremove

/-- Everything that a program ever holds is coherent. -/
theorem coherent_run (acts : List Act) : (run acts).Coherent := by
  have h := stable_coherent.run acts (fun _ _ _ => coherent_ofOrigin)
    fun _ _ _ => coherent_ofListOrigin
  exact ⟨h.lists, h.addresses⟩

/-- A list of one entry as it is sent: seen at time 0, a full node at 1.2.3.4 and some port. -/
def oneEntry (port : UInt16) : Bytes :=
  [1, 0, 0, 0, 0, 1, 0, 0, 0, 0, 0, 0, 0, 0, 0, 0, 0, 0, 0, 0, 0, 0, 0, 0xFF, 0xFF, 1, 2, 3, 4] ++
    bigEndian 2 port.toNat

end AddressBook

end PeerProtocol
