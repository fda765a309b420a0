import PeerProtocol.Proofs.AddressBook
import PeerProtocol.Proofs.AddressList.Rewriting

/-!
# Operations on one list

A program adds addresses to a list and removes them, copies and encodes the list, and lets closures
act on its entries. A closure may leave any address that a program can obtain in the place of the
entry, whatever layout it has and whoever owns it; so a list need not own its entries, and the bytes
that it keeps need not tell what they tell. What remains of coherence is that a list is regular: its
entries are in its layout, there are not too many of them, and the bytes that it keeps are read as
so many endpoints. Every operation leaves a list regular (`Regular.apply`), so in every state that
is reached a refused address changes nothing, and the list is encoded as a payload of as many
entries or is refused for one of its hosts (`orderly_applyAll`).
-/

namespace PeerProtocol

open Bytes

namespace Address

/-- The addresses that a program can obtain. It makes and parses them, alone or as entries of a
list; it edits them in place; and it moves them, which changes whose they are. -/
inductive Obtainable : Address → Prop where
  | made {origin : Origin} {address : Address} (h : origin.address? = some address) :
      Obtainable address
  | entry {dialect : Dialect} {payload : Bytes} {offset used : Nat} {owner : ListId}
      {address : Address} (h : parse dialect payload offset (some owner) = .ok (address, used)) :
      Obtainable address
  | edited {address : Address} {change : Edit} (h : Obtainable address) (hplace : change.inPlace) :
      Obtainable (address.edit change).2
  | moved {address : Address} (h : Obtainable address) (membership : Membership) :
      Obtainable { address with membership := membership }

/-- The addresses that a program can obtain are coherent. -/
theorem Obtainable.coherent {address : Address} (h : address.Obtainable) : address.Coherent := by
  induction h with
  | made h => exact AddressBook.coherent_ofOrigin h
  | entry h => exact coherent_parse h
  | edited _ hplace ih => exact ih.edit hplace
  | moved _ _ ih => exact ih

/-- Under another dialect an address can be obtained. -/
theorem Obtainable.setDialect {address : Address} (h : address.Obtainable) (dialect : Dialect) :
    (address.setDialect dialect).Obtainable :=
  h.edited (rfl : (Edit.dialect dialect).inPlace = true)

/-- What may act on an entry of a list: it is given an address that a program can obtain, and leaves
one in its place. -/
structure Closure where
  run : Address → Address
  obtainable : ∀ {address : Address}, address.Obtainable → (run address).Obtainable

/-- An edit that puts another address in the place of one is given an address that a program can
obtain. -/
def Edit.Available : Edit → Prop
  | .replace other => other.Obtainable
  | _ => True

/-- Edits leave an address that can be obtained. -/
theorem Obtainable.editAll {address : Address} (h : address.Obtainable) {changes : List Edit}
    (havailable : ∀ change ∈ changes, change.Available) :
    (address.editAll changes).2.Obtainable := by
  induction changes generalizing address with
  | nil => exact h
  | cons change changes ih =>
    have hfirst : (address.edit change).2.Obtainable := by
      cases change with
      | replace other =>
        exact Obtainable.moved (havailable (.replace other) List.mem_cons_self) .free
      | _ => exact h.edited rfl
    exact ih hfirst fun other hother => havailable other (List.mem_cons_of_mem change hother)

/-- The closure that makes edits in order. -/
def Closure.ofEdits (changes : List Edit) (havailable : ∀ change ∈ changes, change.Available) :
    Closure :=
  ⟨fun address => (address.editAll changes).2, fun h => h.editAll havailable⟩

end Address

namespace AddressList

/-- One thing that a program does with a list. An index that is not there does nothing. -/
inductive Operation where
  | add (address : Address) (obtainable : address.Obtainable)
  | remove (index : Nat)
  | copy (id : ListId)
  | serialize
  | modify (index : Nat) (closure : Address.Closure)

/-- The list after an operation. -/
def apply (list : AddressList) : Operation → AddressList
  | .add address _ => (list.add address).2
  | .remove index =>
    match list.remove index with
    | none => list
    | some (_, after) => after
  | .copy id => list.copy id
  | .serialize => list.serialize.2
  | .modify index closure =>
    match list.modify index fun entry => ((), closure.run entry) with
    | none => list
    | some (_, after) => after

/-- The list after operations in order. -/
def applyAll (list : AddressList) (operations : List Operation) : AddressList :=
  operations.foldl apply list

/-- The bytes are read as as many endpoints as the list has entries. -/
def CountedBy (list : AddressList) (bytes : Bytes) : Prop :=
  ∃ endpoints, Reads (readAll list.format.layout) bytes endpoints ∧
    endpoints.length = list.entries.length

/-- The entries can be obtained and are in the list's layout, there are not too many of them, and
the bytes that the list keeps are read as as many endpoints. -/
structure Regular (list : AddressList) : Prop where
  short : list.entries.length ≤ maxEntries
  obtainable : ∀ entry ∈ list.entries, entry.Obtainable
  version : ∀ entry ∈ list.entries, entry.version = list.format.version
  keeps : list.encoding.Keeps list.CountedBy

/-- What holds of a list in every state that a program brings it to.

* It has at most 1000 entries, all in its layout.
* It refuses an address exactly if that is in another layout or the list is full; a refusal changes
nothing.
* It is encoded as a payload that is parsed, whatever follows, as a list of as many entries, or is
refused for a host that cannot be written. -/
structure Orderly (list : AddressList) : Prop where
  short : list.entries.length ≤ maxEntries
  version : ∀ entry ∈ list.entries, entry.version = list.format.version
  refused_iff : ∀ address, (∃ error, (list.add address).1 = .error error) ↔
    address.version ≠ list.format.version ∨ list.entries.length = maxEntries
  refused : ∀ address error, (list.add address).1 = .error error → (list.add address).2 = list
  serialized : (∃ bytes, list.serialize.1 = .ok bytes ∧ ∀ dialect id tail, ∃ read,
      parse dialect list.format id (bytes ++ tail) = .ok read ∧ read.size? = some bytes.length ∧
        read.entries.length = list.entries.length) ∨
    ∃ cause, list.serialize.1 = .error (.unencodable cause)

/-! ## What is encoded -/

/-- A regular list is legible. -/
theorem Regular.legible {list : AddressList} (h : list.Regular) : list.Legible :=
  ⟨h.short, fun entry hentry => (h.obtainable entry hentry).coherent, h.version⟩

/-- Bytes that spell a list are read as as many endpoints. -/
theorem countedBy_of_spelledBy {list : AddressList} {bytes : Bytes} (h : list.SpelledBy bytes) :
    list.CountedBy bytes :=
  ⟨list.normalEndpoints, h, List.length_map _⟩

/-- The fields of a regular list are read as as many endpoints. -/
theorem Regular.countedBy_of_fields {list : AddressList} (h : list.Regular) {bytes : Bytes}
    (hbytes : list.fields = .ok bytes) : list.CountedBy bytes :=
  countedBy_of_spelledBy (h.legible.spelledBy_of_fields hbytes)

/-- An entry in the layout of a list contributes nothing only for its host. -/
theorem unencodable_of_contribution {format : ListFormat} {entry : Address}
    (hversion : entry.version = format.version) {error : CodecError}
    (h : entry.contribution = .error error) : ∃ cause, error = .unencodable cause := by
  have hfields : entry.fields = .error error := by
    unfold Address.contribution Encoding.contribution at h
    split at h
    next => cases h
    next => exact h
  cases Address.fields_eq_error_iff.1 hfields with
  | version hnone => exact absurd hversion (hnone format.layout)
  | host => exact ⟨_, rfl⟩

/-- Entries in the layout of a list contribute nothing only for a host. -/
theorem unencodable_of_entriesFields {format : ListFormat} {entries : List Address}
    (hversion : ∀ entry ∈ entries, entry.version = format.version) {error : CodecError}
    (h : entriesFields entries = .error error) : ∃ cause, error = .unencodable cause := by
  induction entries with
  | nil => cases h
  | cons entry rest ih =>
    rw [entriesFields] at h
    cases hfront : entry.contribution with
    | error first =>
      rw [hfront] at h
      obtain rfl := Except.error.inj h
      exact unencodable_of_contribution (hversion entry List.mem_cons_self) hfront
    | ok front =>
      cases hback : entriesFields rest with
      | error later =>
        rw [hfront, hback] at h
        obtain rfl := Except.error.inj h
        exact ih (fun other hother => hversion other (List.mem_cons_of_mem entry hother)) hback
      | ok back =>
        rw [hfront, hback] at h
        cases h

/-- A legible list has fields, or a host that cannot be written. -/
theorem Legible.unencodable_of_fields {list : AddressList} (h : list.Legible) {error : CodecError}
    (herror : list.fields = .error error) : ∃ cause, error = .unencodable cause := by
  unfold fields at herror
  cases hentries : entriesFields list.entries with
  | error found =>
    rw [hentries] at herror
    obtain rfl := Except.error.inj herror
    exact unencodable_of_entriesFields h.version hentries
  | ok entries =>
    rw [hentries] at herror
    cases herror

/-- A regular list is encoded as so many endpoints, or is refused for a host. -/
theorem Regular.serialize_cases {list : AddressList} (h : list.Regular) :
    (∃ bytes, list.serialize.1 = .ok bytes ∧ list.CountedBy bytes) ∨
      ∃ cause, list.serialize.1 = .error (.unencodable cause) := by
  rw [h.legible.serialize_eq]
  cases hcontribution : list.encoding.contribution list.fields with
  | ok bytes =>
    exact Or.inl ⟨bytes, rfl,
      h.keeps.of_contribution (fun _ => h.countedBy_of_fields) hcontribution⟩
  | error error =>
    have hfields : list.fields = .error error := by
      unfold Encoding.contribution at hcontribution
      split at hcontribution
      next => cases hcontribution
      next => exact hcontribution
    obtain ⟨cause, rfl⟩ := h.legible.unencodable_of_fields hfields
    exact Or.inr ⟨cause, rfl⟩

/-! ## What one operation preserves -/

/-- A list that was made is regular. -/
theorem regular_ofOrigin {origin : Origin} {list : AddressList} (h : origin.list? = some list) :
    list.Regular := by
  have hcoherent := AddressBook.coherent_ofListOrigin h
  refine ⟨hcoherent.short, fun entry hentry => ?_, hcoherent.legible.version,
    hcoherent.keeps.mono fun _ => countedBy_of_spelledBy⟩
  rcases AddressBook.list?_eq_some h with ⟨dialect, format, id, rfl⟩ | ⟨_, _, _, _, -, hparse⟩
  · exact absurd hentry List.not_mem_nil
  · obtain ⟨-, -, -, -, -, -, hparsed⟩ := parse_eq_ok hparse
    obtain ⟨offset, used, hentry⟩ := hparsed entry hentry
    exact .entry hentry

/-- With another address at its end a regular list is regular. -/
theorem Regular.add {list after : AddressList} {address : Address} (h : list.Regular)
    (haddress : address.Obtainable) (hadd : list.add address = (.ok (), after)) :
    after.Regular := by
  obtain ⟨hversion, hroom, rfl⟩ := add_eq_ok hadd
  refine ⟨?_, ?_, ?_, Encoding.keeps_uncache_adjustLength _ _ _ _⟩
  · rw [List.length_append, List.length_singleton]
    exact hroom
  · exact List.forall_mem_append.2
      ⟨h.obtainable, List.forall_mem_singleton.2 (haddress.moved _)⟩
  · exact List.forall_mem_append.2 ⟨h.version, List.forall_mem_singleton.2 hversion⟩

/-- Without one of its entries a regular list is regular. -/
theorem Regular.remove {list after : AddressList} {index : Nat} {address : Address}
    (h : list.Regular) (hremove : list.remove index = some (address, after)) : after.Regular := by
  obtain ⟨entry, hentry, rfl, rfl⟩ := remove_eq_some hremove
  refine ⟨?_, fun other hother => ?_, fun other hother => ?_, Encoding.keeps_of_uncached rfl _⟩
  · exact Nat.le_trans (List.length_eraseIdx_le list.entries index) h.short
  · exact h.obtainable other (List.mem_of_mem_eraseIdx hother)
  · exact h.version other (List.mem_of_mem_eraseIdx hother)

/-- A copy of a regular list is regular. -/
theorem Regular.copy {list : AddressList} (h : list.Regular) (id : ListId) :
    (list.copy id).Regular := by
  refine ⟨?_, fun copied hcopied => ?_, fun copied hcopied => ?_, h.keeps.mono ?_⟩
  · unfold AddressList.copy
    rw [List.length_map]
    exact h.short
  · obtain ⟨entry, hentry, rfl⟩ := List.mem_map.1 hcopied
    exact (h.obtainable entry hentry).moved _
  · obtain ⟨entry, hentry, rfl⟩ := List.mem_map.1 hcopied
    exact h.version entry hentry
  · rintro bytes ⟨endpoints, hreads, hlength⟩
    refine ⟨endpoints, hreads, ?_⟩
    rw [hlength, AddressList.copy, List.length_map]

/-- After it was encoded a regular list is regular. -/
theorem Regular.serialize {list : AddressList} (h : list.Regular) : list.serialize.2.Regular :=
  ⟨h.short, h.obtainable, h.version, h.keeps.serialize fun _ => h.countedBy_of_fields⟩

/-- After a closure acted on an entry a regular list is regular: the entry is back on the list's
layout, and whether or not the list drops its bytes, it has as many entries as before. -/
theorem Regular.modify {α : Type} {list after : AddressList} {index : Nat}
    {change : Address → α × Address} {result : α} (h : list.Regular)
    (hchange : ∀ {entry : Address}, entry.Obtainable → (change entry).2.Obtainable)
    (hmodify : list.modify index change = some (result, after)) : after.Regular := by
  obtain ⟨entry, restored, hentry, rfl, -, rfl⟩ := modify_eq_some hmodify
  have hobtained := hchange (h.obtainable entry (List.mem_of_getElem? hentry))
  have hrestored : (list.restoreLayout (change entry).2).Obtainable :=
    restoreLayout_of_setDialect hobtained hobtained.setDialect list
  refine ⟨?_, forall_mem_set h.obtainable (hrestored.moved _) index,
    forall_mem_set h.version (by exact version_restoreLayout list (change entry).2) index, ?_⟩
  · rw [List.length_set]
    exact h.short
  · refine Encoding.keeps_of_noted fun _ => h.keeps.mono ?_
    rintro bytes ⟨endpoints, hreads, hlength⟩
    exact ⟨endpoints, hreads, hlength.trans List.length_set.symm⟩

/-- An operation leaves a regular list regular. -/
theorem Regular.apply {list : AddressList} (h : list.Regular) (operation : Operation) :
    (list.apply operation).Regular := by
  cases operation with
  | add address obtainable =>
    show (list.add address).2.Regular
    rcases hadd : list.add address with ⟨error | _, after⟩
    · rw [add_eq_error hadd]
      exact h
    · exact h.add obtainable hadd
  | remove index =>
    unfold AddressList.apply
    simp only
    split
    next => exact h
    next removed after hremove => exact h.remove hremove
  | copy id => exact h.copy id
  | serialize => exact h.serialize
  | modify index closure =>
    unfold AddressList.apply
    simp only
    split
    next => exact h
    next after hmodify => exact h.modify closure.obtainable hmodify

/-! ## What every run preserves -/

/-- Operations leave a regular list regular. -/
theorem Regular.applyAll {list : AddressList} (h : list.Regular) (operations : List Operation) :
    (list.applyAll operations).Regular := by
  induction operations generalizing list with
  | nil => exact h
  | cons operation operations ih => exact ih (h.apply operation)

/-- A list refuses an address exactly if that is in another layout or the list is full. -/
theorem Regular.refused_iff {list : AddressList} (h : list.Regular) (address : Address) :
    (∃ error, (list.add address).1 = .error error) ↔
      address.version ≠ list.format.version ∨ list.entries.length = maxEntries := by
  have hshort := h.short
  unfold AddressList.add
  split
  next hversion => exact iff_of_true ⟨_, rfl⟩ (Or.inl hversion)
  next hversion =>
    split
    next hfull => exact iff_of_true ⟨_, rfl⟩ (Or.inr (Nat.le_antisymm hshort hfull))
    next hroom =>
      refine iff_of_false ?_ ?_
      · rintro ⟨error, herror⟩
        cases herror
      · rintro (hother | hfull)
        · exact hversion hother
        · exact hroom (Nat.le_of_eq hfull.symm)

/-- In every state that a program brings a list to, the list is orderly. -/
theorem orderly_applyAll {origin : Origin} {start : AddressList} (h : origin.list? = some start)
    (operations : List Operation) : (start.applyAll operations).Orderly := by
  have hregular := (regular_ofOrigin h).applyAll operations
  refine ⟨hregular.short, hregular.version, hregular.refused_iff, ?_, ?_⟩
  · intro address error herror
    exact add_eq_error (Prod.ext herror rfl)
  · rcases hregular.serialize_cases with ⟨bytes, hbytes, endpoints, hreads, hlength⟩ | hrefused
    · refine Or.inl ⟨bytes, hbytes, fun dialect id tail => ?_⟩
      obtain ⟨entries, hparse, hendpoints⟩ := parse_of_reads hreads dialect id tail
      have hmany : entries.length = endpoints.length := by
        rw [← hendpoints, List.length_map]
      exact ⟨_, hparse, rfl, hmany.trans hlength⟩
    · exact Or.inr hrefused

/-- A free-standing address in some layout. -/
def stranger (layout : Layout) : Address :=
  Address.ofSocket ⟨.main, layout.version, false⟩ ⟨.v4 ⟨[9, 9, 9, 9], rfl⟩, 4242⟩ 0

/-- A program can obtain it. -/
theorem obtainable_stranger (layout : Layout) : (stranger layout).Obtainable :=
  .made (rfl : (Address.Origin.socket ⟨.main, layout.version, false⟩
    ⟨.v4 ⟨[9, 9, 9, 9], rfl⟩, 4242⟩ 0).address? = some (stranger layout))

/-- A stranger in the layout that no list has takes the place of the only entry, is refused as
another one, and the list is encoded. -/
def invaded : List Operation :=
  [.modify 0 (.ofEdits [.replace (stranger .embedded)] fun _ hchange =>
      List.mem_singleton.1 hchange ▸ obtainable_stranger .embedded),
    .add (stranger .embedded) (obtainable_stranger .embedded), .serialize]

/-- The entry of the list that was invaded is in the list's layout, and the list, which still has
its one entry, is encoded as what is parsed as a list of one. -/
theorem orderly_applyAll_invaded :
    ∃ start, (Origin.parsed ⟨.main, Dialect.currentVersion, true⟩ .addrv2 ⟨0⟩
        ([1] ++ wideEntry)).list? = some start ∧
      (∀ entry ∈ (start.applyAll invaded).entries, entry.version = Layout.tagged.version) ∧
      ∃ bytes read, (start.applyAll invaded).serialize.1 = .ok bytes ∧
        parse ⟨.test, Dialect.currentVersion, false⟩ .addrv2 ⟨1⟩ bytes = .ok read ∧
        read.entries.length = 1 := by
  obtain ⟨start, hstart, hformat, hmany, bytes, hbytes⟩ : ∃ start,
      (Origin.parsed ⟨.main, Dialect.currentVersion, true⟩ .addrv2 ⟨0⟩
          ([1] ++ wideEntry)).list? = some start ∧
        (start.applyAll invaded).format = .addrv2 ∧
        (start.applyAll invaded).entries.length = 1 ∧
        ∃ bytes, (start.applyAll invaded).serialize.1 = .ok bytes :=
    ⟨_, rfl, rfl, rfl, _, rfl⟩
  have horderly := orderly_applyAll hstart invaded
  refine ⟨start, hstart, fun entry hentry => ?_, ?_⟩
  · rw [horderly.version entry hentry, hformat]
    rfl
  · rcases horderly.serialized with ⟨encoded, hencoded, hread⟩ | ⟨cause, hrefused⟩
    · obtain ⟨read, hparse, -, hlength⟩ :=
        hread ⟨.test, Dialect.currentVersion, false⟩ ⟨1⟩ []
      rw [hformat, List.append_nil] at hparse
      exact ⟨encoded, read, hencoded, hparse, hlength.trans hmany⟩
    · rw [hbytes] at hrefused
      cases hrefused

end AddressList

end PeerProtocol
