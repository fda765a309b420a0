import PeerProtocol.Proofs.AddressBook
import PeerProtocol.Proofs.AddressList.Size

/-!
# Sizes of what a program holds

Whatever a program does with lists and addresses, each is encoded in the size that it tells before,
if one is known: provided that everything that the program read stood there with its numbers in
their shortest form (`AddressBook.exact_run`). A reader accepts longer forms as well and takes their
bytes into account, so what was read from one tells a size that is above the one it is encoded in
(`AddressBook.not_exact_longServices`).
-/

namespace PeerProtocol

/-- The address is encoded in the size that it tells. -/
def Address.Exact (address : Address) : Prop :=
  ∀ size bytes after, address.size? = some size → address.serialize = (.ok bytes, after) →
    bytes.length = size

/-- The list is encoded in the size that it tells. -/
def AddressList.Exact (list : AddressList) : Prop :=
  ∀ size bytes after, list.size? = some size → list.serialize = (.ok bytes, after) →
    bytes.length = size

namespace AddressBook

/-- Everything that is held is encoded in the size that it tells: the lists, the free-standing
addresses, and the entries, also in the middle of a modification. -/
structure Exact (book : AddressBook) : Prop where
  lists : ∀ list ∈ book.lists, list.Exact
  addresses : ∀ address ∈ book.addresses, address.Exact
  entries : ∀ list ∈ book.lists, ∀ entry ∈ list.entries, entry.Exact
  changed : ∀ list ∈ book.lists, ∀ entry ∈ list.entries, ∀ changes, (entry.change changes).Exact

/-- Whether the numbers of variable length in what the act reads stand there in their shortest
form. -/
def Act.isShortest : Act → Bool
  | .makeAddress (.parsed dialect payload offset) => Address.isShortest dialect payload offset
  | .makeList (.parsed dialect format id payload) =>
      AddressList.isShortest dialect format id payload
  | _ => true

/-! ## What is made -/

/-- An address that was made, other than from longer forms, is sized. -/
theorem sized_ofOrigin {origin : Address.Origin} {address : Address}
    (hshortest : (Act.makeAddress origin).isShortest = true)
    (h : origin.address? = some address) : address.Sized := by
  rcases address?_eq_some h with ⟨_, _, _, _, _, rfl⟩ | ⟨_, _, _, _, rfl, hparse⟩
  · exact Address.sized_refreshLength _
  · exact Address.sized_parse hparse hshortest

/-- A list that was made, other than from longer forms, is sized. -/
theorem sized_ofListOrigin {origin : AddressList.Origin} {list : AddressList}
    (hshortest : (Act.makeList origin).isShortest = true)
    (h : origin.list? = some list) : list.Sized := by
  rcases list?_eq_some h with ⟨dialect, format, id, rfl⟩ | ⟨_, _, _, _, rfl, hparse⟩
  · exact AddressList.sized_new dialect format id
  · exact AddressList.sized_parse hparse hshortest

/-! ## What every run preserves -/

/-- Nothing that is done with coherent addresses and lists makes them lose count of their sizes. -/
theorem stable_sized : Stable (fun address => address.Coherent ∧ address.Sized)
    fun list => list.Coherent ∧ list.Sized where
  change h changes := ⟨coherent_change h.1 changes, h.2.editAll inPlace_changes⟩
  copy h := ⟨h.1, h.2.congr rfl rfl⟩
  entry h entry hentry := ⟨(h.1.owned entry hentry).coherent, h.2.entries entry hentry⟩
  copyList h id := ⟨h.1.copy id, h.2.copy id⟩
  modify h hmodify :=
    ⟨h.1.modify inPlace_changes hmodify, h.2.modify h.1 inPlace_changes hmodify⟩
  serialize h := ⟨h.1.serialize, h.2.serialize⟩
  add h haddress hadd := ⟨h.1.add haddress.1 hadd, h.2.add haddress.2 hadd⟩
  remove h hremove := by
    obtain ⟨haddress, hlist⟩ := h.1.remove hremove
    obtain ⟨hsizedAddress, hsizedList⟩ := h.2.remove hremove
    exact ⟨⟨haddress, hsizedAddress⟩, hlist, hsizedList⟩

/-- Everything that a program holds that read no longer forms is encoded in the size that it
tells. -/
theorem exact_run {acts : List Act} (hshortest : ∀ act ∈ acts, act.isShortest = true) :
    (run acts).Exact := by
  have h := stable_sized.run acts
    (fun origin _ hact haddress =>
      ⟨coherent_ofOrigin haddress, sized_ofOrigin (hshortest _ hact) haddress⟩)
    (fun origin _ hact hlist =>
      ⟨coherent_ofListOrigin hlist, sized_ofListOrigin (hshortest _ hact) hlist⟩)
  refine ⟨?_, ?_, ?_, ?_⟩
  · intro list hlist size bytes after hsize
    exact (h.lists list hlist).2.length_of_serialize hsize
  · intro address haddress size bytes after hsize
    exact (h.addresses address haddress).2.length_of_serialize hsize
  · intro list hlist entry hentry size bytes after hsize
    exact ((h.lists list hlist).2.entries entry hentry).length_of_serialize hsize
  · intro list hlist entry hentry changes size bytes after hsize
    have hchanged := stable_sized.change (stable_sized.entry (h.lists list hlist) entry hentry)
      changes
    exact hchanged.2.length_of_serialize hsize

/-- Only a success has a value. -/
theorem eq_ok_of_toOption {ε α : Type} {result : Except ε α} {value : α}
    (h : result.toOption = some value) : result = .ok value := by
  cases result with
  | error error => cases h
  | ok given => exact congrArg Except.ok (Option.some.inj h)

/-- A tagged entry as it is sent: seen at time 0, the services behind the given bytes, at 1.2.3.4
and port 8333. -/
def taggedEntry (services : Bytes) : Bytes :=
  [0, 0, 0, 0] ++ services ++ [1, 4, 1, 2, 3, 4, 0x20, 0x8D]

/-- The services become a number of three bytes. -/
def widerServices : Address.Change :=
  ⟨.services ⟨0x0409⟩, rfl⟩

/-- A list of one tagged entry is read with its bytes kept; then the services of the entry become a
number of three bytes. -/
def grownServices : List Act :=
  [.makeList (.parsed ⟨.main, Dialect.currentVersion, true⟩ .addrv2 ⟨0⟩ (1 :: taggedEntry [1])),
    .changeEntry 0 0 [widerServices]]

/-- The list with the grown entry tells 16 bytes and is encoded in them. -/
theorem exact_run_grownServices :
    (∀ act ∈ grownServices, act.isShortest = true) ∧
      ∃ list ∈ (run grownServices).lists, list.size? = some 16 ∧
        ∃ bytes after, list.serialize = (.ok bytes, after) ∧ bytes.length = 16 := by
  have hshortest : ∀ act ∈ grownServices, act.isShortest = true := by decide
  have hlist : ∃ list ∈ (run grownServices).lists, list.size? = some 16 ∧
      list.serialize.1.toOption = some (1 :: taggedEntry [0xFD, 0x09, 0x04]) := by decide
  obtain ⟨list, hheld, hsize, hbytes⟩ := hlist
  have hserialize : list.serialize =
      (.ok (1 :: taggedEntry [0xFD, 0x09, 0x04]), list.serialize.2) :=
    Prod.ext (eq_ok_of_toOption hbytes) rfl
  refine ⟨hshortest, list, hheld, hsize, _, _, hserialize, ?_⟩
  exact (exact_run hshortest).lists list hheld 16 _ _ hsize hserialize

/-- An entry whose services are written in three bytes, though one would do, is read as an address
of 15 bytes, but is encoded in 13. -/
theorem not_exact_longServices : ¬ ∀ acts : List Act, (run acts).Exact := by
  intro h
  let acts : List Act :=
    [.makeAddress (.parsed ⟨.main, Layout.tagged.version, false⟩ (taggedEntry [0xFD, 1, 0]) 0)]
  have haddress : ∃ address ∈ (run acts).addresses, address.size? = some 15 ∧
      address.serialize.1.toOption = some (taggedEntry [1]) := by decide
  obtain ⟨address, hheld, hsize, hbytes⟩ := haddress
  have hserialize : address.serialize = (.ok (taggedEntry [1]), address.serialize.2) :=
    Prod.ext (eq_ok_of_toOption hbytes) rfl
  have hlength := (h acts).addresses address hheld 15 _ _ hsize hserialize
  exact absurd hlength (by decide)

end AddressBook

end PeerProtocol
