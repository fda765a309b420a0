import PeerProtocol.Proofs.AddressList
import PeerProtocol.Proofs.Address.Size

/-!
# Sizes of address lists

A list keeps count of its size: every operation adjusts the length by what it changes, or forgets
it. A list is sized if its entries are, and if the length that it knows is the one that is computed
anew from the sizes of its entries (`computedSize?`). New lists are sized, and so are those that
were parsed from numbers in their shortest form; whatever is done with a list leaves it sized. A
sized list is encoded in the size that it tells (`Sized.length_of_serialize`).
-/

namespace PeerProtocol

namespace Encoding

/-- A length that is not negative and fits in a word is known. -/
theorem wordLength?_natCast {length : Nat} (h : length < 0x8000000000000000) :
    wordLength? (length : Int) = some length := by
  rw [wordLength?_of_range (by omega) (by omega), if_neg (by omega), Int.toNat_natCast]

/-- A known length follows a known change. -/
theorem length_adjustLength {encoding : Encoding} {count length result : Nat} {delta : Int}
    (hlength : encoding.length = some length) (hresult : result < 0x8000000000000000)
    (hsum : (length : Int) + delta + countGrowth count = result) :
    (encoding.adjustLength count (some delta)).length = some result := by
  unfold adjustLength
  rw [hlength]
  show wordLength? ((length : Int) + delta + countGrowth count) = some result
  rw [hsum, wordLength?_natCast hresult]

/-- An unknown length stays unknown. -/
theorem length_adjustLength_of_none {encoding : Encoding} (hlength : encoding.length = none)
    (count : Nat) (delta : Option Int) : (encoding.adjustLength count delta).length = none := by
  unfold adjustLength
  rw [hlength]
  exact hlength

/-- No length is known after an unknown change. -/
theorem length_adjustLength_unknown (encoding : Encoding) (count : Nat) :
    (encoding.adjustLength count none).length = none := by
  cases hlength : encoding.length with
  | none => exact length_adjustLength_of_none hlength count none
  | some length =>
    unfold adjustLength
    rw [hlength]
    rfl

end Encoding

namespace AddressList

/-- The size of all entries together, if every size is known. -/
def entriesSize? : List Address → Option Nat
  | [] => some 0
  | entry :: rest => do
      let front ← entry.size?
      let back ← entriesSize? rest
      pure (front + back)

/-- The size of a list computed anew from its entries: that of the count and those of all entries,
if every size is known. -/
def computedSize? (list : AddressList) : Option Nat :=
  (entriesSize? list.entries).map fun size =>
    CompactSize.size (UInt64.ofNat list.entries.length) + size

/-- The entries are sized, and the size that is known is the one that is computed anew. -/
structure Sized (list : AddressList) : Prop where
  entries : ∀ entry ∈ list.entries, entry.Sized
  size : ∀ size, list.size? = some size → list.computedSize? = some size

/-! ## Sizes of entries -/

/-- All sizes are known only if the first and those of the rest are. -/
theorem entriesSize?_cons_eq_some {entry : Address} {rest : List Address} {size : Nat}
    (h : entriesSize? (entry :: rest) = some size) :
    ∃ front back, entry.size? = some front ∧ entriesSize? rest = some back ∧
      size = front + back := by
  obtain ⟨front, hfront, h⟩ := Option.bind_eq_some_iff.1 h
  obtain ⟨back, hback, h⟩ := Option.bind_eq_some_iff.1 h
  exact ⟨front, back, hfront, hback, (Option.some.inj h).symm⟩

/-- Known sizes add up. -/
theorem entriesSize?_cons {entry : Address} {rest : List Address} {front back : Nat}
    (hfront : entry.size? = some front) (hback : entriesSize? rest = some back) :
    entriesSize? (entry :: rest) = some (front + back) := by
  rw [entriesSize?, hfront, hback]
  rfl

/-- One more entry adds its size. -/
theorem entriesSize?_append {entries : List Address} {entry : Address} {front back : Nat}
    (hfront : entriesSize? entries = some front) (hback : entry.size? = some back) :
    entriesSize? (entries ++ [entry]) = some (front + back) := by
  induction entries generalizing front with
  | nil =>
    obtain rfl := Option.some.inj hfront
    rw [List.nil_append, entriesSize?_cons hback rfl, Nat.add_comm]
  | cons first rest ih =>
    obtain ⟨size, others, hfirst, hrest, rfl⟩ := entriesSize?_cons_eq_some hfront
    rw [List.cons_append, entriesSize?_cons hfirst (ih hrest), Nat.add_assoc]

/-- Another entry in the place of one puts its size in the place of the other's. -/
theorem entriesSize?_set {entries : List Address} {index size : Nat} {entry : Address}
    (hentry : entries[index]? = some entry) (hsize : entriesSize? entries = some size) :
    ∃ before others, entry.size? = some before ∧ size = others + before ∧
      ∀ other after, other.size? = some after →
        entriesSize? (entries.set index other) = some (others + after) := by
  induction entries generalizing index size with
  | nil => cases hentry
  | cons first rest ih =>
    obtain ⟨front, back, hfirst, hrest, rfl⟩ := entriesSize?_cons_eq_some hsize
    cases index with
    | zero =>
      obtain rfl := Option.some.inj hentry
      refine ⟨front, back, hfirst, Nat.add_comm front back, fun other after hother => ?_⟩
      rw [List.set_cons_zero, entriesSize?_cons hother hrest, Nat.add_comm]
    | succ index =>
      obtain ⟨before, others, hbefore, rfl, hset⟩ := ih hentry hrest
      refine ⟨before, front + others, hbefore, (Nat.add_assoc front others before).symm,
        fun other after hother => ?_⟩
      rw [List.set_cons_succ, entriesSize?_cons hfirst (hset other after hother), Nat.add_assoc]

/-- The size of a list in which another entry stands in the place of one follows from the size of
the other. -/
theorem computedSize?_set {list : AddressList} {index size : Nat} {entry : Address}
    (hentry : list.entries[index]? = some entry) (hsize : list.computedSize? = some size) :
    ∃ before others, entry.size? = some before ∧ size = others + before ∧
      ∀ {after : AddressList} {other : Address} {changed : Nat},
        after.entries = list.entries.set index other → other.size? = some changed →
          after.computedSize? = some (others + changed) := by
  obtain ⟨total, htotal, rfl⟩ := Option.map_eq_some_iff.1 hsize
  obtain ⟨before, others, hbefore, rfl, hset⟩ := entriesSize?_set hentry htotal
  refine ⟨before, CompactSize.size (UInt64.ofNat list.entries.length) + others, hbefore,
    (Nat.add_assoc _ others before).symm, ?_⟩
  intro after other changed hentries hother
  rw [computedSize?, hentries, hset other changed hother, List.length_set, Option.map_some,
    Nat.add_assoc]

/-- Entries that tell the same sizes have the same size together. -/
theorem entriesSize?_map {change : Address → Address}
    (hchange : ∀ entry, (change entry).size? = entry.size?) (entries : List Address) :
    entriesSize? (entries.map change) = entriesSize? entries := by
  induction entries with
  | nil => rfl
  | cons entry rest ih => rw [List.map_cons, entriesSize?, entriesSize?, hchange, ih]

/-- Sized entries are not larger together than so many of the largest. -/
theorem entriesSize?_le {entries : List Address} (h : ∀ entry ∈ entries, entry.Sized) {size : Nat}
    (hsize : entriesSize? entries = some size) : size ≤ entries.length * Endpoint.maxSize := by
  induction entries generalizing size with
  | nil =>
    obtain rfl := Option.some.inj hsize
    exact Nat.zero_le _
  | cons entry rest ih =>
    obtain ⟨front, back, hfront, hback, rfl⟩ := entriesSize?_cons_eq_some hsize
    have hfirst := (h entry List.mem_cons_self).le front hfront
    have hrest := ih (fun other hother => h other (List.mem_cons_of_mem entry hother)) hback
    rw [List.length_cons, Nat.add_mul, Nat.one_mul]
    omega

/-- No list has more bytes than one of the most entries of the largest size. -/
theorem computedSize?_le {list : AddressList} (hshort : list.entries.length ≤ maxEntries)
    (h : ∀ entry ∈ list.entries, entry.Sized) {size : Nat}
    (hsize : list.computedSize? = some size) : size ≤ 9 + maxEntries * Endpoint.maxSize := by
  obtain ⟨total, htotal, rfl⟩ := Option.map_eq_some_iff.1 hsize
  have hentries := entriesSize?_le h htotal
  have hcount := CompactSize.size_le (UInt64.ofNat list.entries.length)
  have hmost := Nat.mul_le_mul_right Endpoint.maxSize hshort
  omega

/-! ## Reading -/

/-- Whether the numbers of variable length in so many entries from an offset of a payload on stand
there in their shortest form. -/
def isShortestEntries (dialect : Dialect) (owner : ListId) (payload : Bytes) :
    (count offset : Nat) → Bool
  | 0, _ => true
  | count + 1, offset =>
    Address.isShortest dialect payload offset &&
      match Address.parse dialect payload offset (some owner) with
      | .ok (_, used) => isShortestEntries dialect owner payload count (offset + used)
      | .error _ => true

/-- Whether the numbers of variable length in the list at the front of a payload stand there in
their shortest form: the count and those in the entries. -/
def isShortest (dialect : Dialect) (format : ListFormat) (id : ListId) (payload : Bytes) : Bool :=
  CompactSize.isShortest payload &&
    match CompactSize.decode payload with
    | .ok (count, rest) =>
      isShortestEntries (dialect.withVersion format.version) id payload count.toNat
        (payload.length - rest.length)
    | .error _ => true

/-- Parsed entries have the size of what they were read from, and are sized if they were parsed from
numbers in their shortest form. -/
theorem sized_parseEntries {dialect : Dialect} {owner : ListId} {payload : Bytes}
    {count offset final : Nat} {entries : List Address}
    (h : parseEntries dialect owner payload count offset = .ok (entries, final)) :
    (∃ size, entriesSize? entries = some size ∧ final = offset + size) ∧
      (isShortestEntries dialect owner payload count offset = true →
        ∀ entry ∈ entries, entry.Sized) := by
  induction count generalizing offset entries with
  | zero =>
    obtain ⟨rfl, rfl⟩ := Prod.mk.inj (Except.ok.inj h)
    exact ⟨⟨0, rfl, rfl⟩, fun _ entry hentry => absurd hentry List.not_mem_nil⟩
  | succ count ih =>
    obtain ⟨entry, used, others, hentry, hrest, rfl⟩ := parseEntries_succ_eq_ok h
    obtain ⟨⟨size, hsize, hlast⟩, hsized⟩ := ih hrest
    refine ⟨⟨used + size, entriesSize?_cons (Address.size?_parse hentry) hsize, ?_⟩, ?_⟩
    · rw [hlast, Nat.add_assoc]
    · intro hshortest
      simp only [isShortestEntries, hentry, Bool.and_eq_true] at hshortest
      intro other hother
      rcases List.mem_cons.1 hother with rfl | hother
      · exact Address.sized_parse hentry hshortest.1
      · exact hsized hshortest.2 other hother

/-- A list that was parsed from numbers in their shortest form is sized. -/
theorem sized_parse {dialect : Dialect} {format : ListFormat} {id : ListId} {payload : Bytes}
    {list : AddressList} (h : parse dialect format id payload = .ok list)
    (hshortest : isShortest dialect format id payload = true) : list.Sized := by
  obtain ⟨count, rest, entries, final, hcount, -, hentries, rfl⟩ := parse_eq_parsed h
  simp only [isShortest, hcount, Bool.and_eq_true] at hshortest
  have hlength := CompactSize.length_of_isShortest hshortest.1 hcount
  obtain ⟨⟨size, hsize, hfinal⟩, hsized⟩ := sized_parseEntries hentries
  have hmany : UInt64.ofNat entries.length = count := by
    rw [(parseEntries_eq_ok (ofVersion?_format format) hentries).2.1, UInt64.ofNat_toNat]
  refine ⟨hsized hshortest.2, fun known hknown => ?_⟩
  obtain rfl : final = known := Option.some.inj hknown
  rw [computedSize?, hsize, Option.map_some, hmany, hfinal, hlength, Nat.add_sub_cancel]

/-- A new list is sized. -/
theorem sized_new (dialect : Dialect) (format : ListFormat) (id : ListId) :
    (new dialect format id).Sized :=
  ⟨fun _ hentry => absurd hentry List.not_mem_nil, fun _ hsize => hsize⟩

/-! ## Writing -/

/-- Sized entries contribute as many bytes as their sizes tell. -/
theorem entriesSize?_of_entriesFields {entries : List Address}
    (h : ∀ entry ∈ entries, entry.Sized) {bytes : Bytes}
    (hbytes : entriesFields entries = .ok bytes) : entriesSize? entries = some bytes.length := by
  induction entries generalizing bytes with
  | nil =>
    obtain rfl := Except.ok.inj hbytes
    rfl
  | cons entry rest ih =>
    obtain ⟨front, back, hfront, hback, rfl⟩ := entriesFields_cons_eq_ok hbytes
    have hfirst := (h entry List.mem_cons_self).size?_of_contribution hfront
    have hrest := ih (fun other hother => h other (List.mem_cons_of_mem entry hother)) hback
    rw [entriesSize?_cons hfirst hrest, List.length_append]

/-- The entries of a list with sized entries are encoded in the size that is computed. -/
theorem computedSize?_of_fields {list : AddressList} (h : ∀ entry ∈ list.entries, entry.Sized)
    {bytes : Bytes} (hbytes : list.fields = .ok bytes) :
    list.computedSize? = some bytes.length := by
  obtain ⟨entries, hentries, rfl⟩ := fields_eq_ok hbytes
  rw [computedSize?, entriesSize?_of_entriesFields h hentries, Option.map_some,
    List.length_append, CompactSize.length_encode]

/-- What a sized list is encoded as has the size that is computed. -/
theorem Sized.computedSize?_of_serialize {list after : AddressList} (h : list.Sized)
    {bytes : Bytes} (hserialize : list.serialize = (.ok bytes, after)) :
    list.computedSize? = some bytes.length ∧ after.size? = some bytes.length := by
  have hencoding := encoding_of_serialize hserialize
  rcases Encoding.serialize_eq_ok hencoding with ⟨hcurrent, hafter⟩ | ⟨-, hfields, -, hafter⟩
  · have hsize := Encoding.length_of_current? hcurrent
    exact ⟨h.size bytes.length hsize, (congrArg Encoding.length hafter).trans hsize⟩
  · exact ⟨computedSize?_of_fields h.entries hfields, congrArg Encoding.length hafter⟩

/-- A sized list is encoded in the size that it tells. -/
theorem Sized.length_of_serialize {list after : AddressList} (h : list.Sized) {bytes : Bytes}
    {size : Nat} (hsize : list.size? = some size)
    (hserialize : list.serialize = (.ok bytes, after)) : bytes.length = size :=
  Option.some.inj
    ((h.computedSize?_of_serialize hserialize).1.symm.trans (h.size size hsize))

/-- After it was encoded a sized list is sized. -/
theorem Sized.serialize {list : AddressList} (h : list.Sized) : list.serialize.2.Sized := by
  refine ⟨h.entries, fun size hsize => ?_⟩
  change (list.encoding.serialize list.fields).2.length = some size at hsize
  show list.computedSize? = some size
  unfold Encoding.serialize at hsize
  split at hsize
  next => exact h.size size hsize
  next =>
    split at hsize
    next => exact h.size size hsize
    next bytes hfields =>
      split at hsize
      next => exact h.size size hsize
      next =>
        rw [computedSize?_of_fields h.entries hfields, ← hsize]
        rfl

/-! ## Operations -/

/-- The size is the one that is computed anew, or it is unknown and there is a reason for it. -/
def Counted (list : AddressList) (reason : Prop) : Prop :=
  (∃ size, list.size? = some size ∧ list.computedSize? = some size) ∨
    (list.size? = none ∧ reason)

/-- A size that is known is the one that is computed anew. -/
theorem Counted.size {list : AddressList} {reason : Prop} (h : list.Counted reason) {size : Nat}
    (hsize : list.size? = some size) : list.computedSize? = some size := by
  rcases h with ⟨known, hknown, hcomputed⟩ | ⟨hnone, -⟩
  · rw [hcomputed, ← hknown, hsize]
  · rw [hnone] at hsize
    cases hsize

/-- A size that is unknown is so for the reason. -/
theorem Counted.reason {list : AddressList} {reason : Prop} (h : list.Counted reason)
    (hnone : list.size? = none) : reason := by
  rcases h with ⟨known, hknown, -⟩ | ⟨-, hreason⟩
  · rw [hnone] at hknown
    cases hknown
  · exact hreason

/-- An address that is added leaves the size known unless it was unknown before or that of the
address is. -/
theorem Sized.counted_add {list after : AddressList} {address : Address} (h : list.Sized)
    (haddress : address.Sized) (hadd : list.add address = (.ok (), after)) :
    after.Counted (list.size? = none ∨ address.size? = none) := by
  obtain ⟨-, hroom, hafter⟩ := add_eq_ok hadd
  have hentries := congrArg AddressList.entries hafter
  have hafter : after.size? = (list.encoding.uncache.adjustLength (list.entries.length + 1)
      (address.size?.map Int.ofNat)).length := congrArg size? hafter
  cases hsize : list.size? with
  | none =>
    have huncached : list.encoding.uncache.length = none := hsize
    exact Or.inr ⟨hafter.trans (Encoding.length_adjustLength_of_none huncached _ _), Or.inl rfl⟩
  | some size =>
    cases hadded : address.size? with
    | none =>
      rw [hadded] at hafter
      exact Or.inr ⟨hafter.trans (Encoding.length_adjustLength_unknown _ _), Or.inr rfl⟩
    | some added =>
      have hcomputed := h.size size hsize
      have hbound := computedSize?_le (Nat.le_of_lt hroom) h.entries hcomputed
      have hlargest := haddress.le added hadded
      obtain ⟨total, htotal, rfl⟩ := Option.map_eq_some_iff.1 hcomputed
      have hcount := CompactSize.size_le (UInt64.ofNat (list.entries.length + 1))
      rw [hadded] at hafter
      refine Or.inl ⟨CompactSize.size (UInt64.ofNat (list.entries.length + 1)) + (total + added),
        hafter.trans (Encoding.length_adjustLength hsize ?_ ?_), ?_⟩
      · have hlarge : 9 + maxEntries * Endpoint.maxSize + 9 + Endpoint.maxSize <
            0x8000000000000000 := by decide
        omega
      · rw [Encoding.countGrowth, if_neg (Nat.succ_ne_zero _), Nat.add_sub_cancel]
        simp only [Int.ofNat_eq_natCast]
        omega
      · have hgrown : entriesSize? after.entries = some (total + added) := by
          rw [hentries]
          exact entriesSize?_append htotal hadded
        rw [computedSize?, hgrown, hentries, List.length_append, List.length_singleton,
          Option.map_some]

/-- With another sized address at its end a sized list is sized. -/
theorem Sized.add {list after : AddressList} {address : Address} (h : list.Sized)
    (haddress : address.Sized) (hadd : list.add address = (.ok (), after)) : after.Sized := by
  refine ⟨?_, fun size => (h.counted_add haddress hadd).size⟩
  obtain ⟨-, -, rfl⟩ := add_eq_ok hadd
  exact List.forall_mem_append.2
    ⟨h.entries, List.forall_mem_singleton.2 (haddress.congr rfl rfl)⟩

/-- Without one of its entries a sized list is sized, and the entry is. -/
theorem Sized.remove {list after : AddressList} {index : Nat} {address : Address}
    (h : list.Sized) (hremove : list.remove index = some (address, after)) :
    address.Sized ∧ after.Sized := by
  obtain ⟨entry, hentry, rfl, rfl⟩ := remove_eq_some hremove
  refine ⟨(h.entries entry hentry).congr rfl rfl, ?_, ?_⟩
  · intro other hother
    exact h.entries other (List.mem_of_mem_eraseIdx hother)
  · intro size hsize
    cases hsize

/-- A copy of a sized list is sized. -/
theorem Sized.copy {list : AddressList} (h : list.Sized) (id : ListId) : (list.copy id).Sized := by
  refine ⟨fun copied hcopied => ?_, fun size hsize => ?_⟩
  · obtain ⟨entry, hentry, rfl⟩ := List.mem_map.1 hcopied
    exact (h.entries entry hentry).congr rfl rfl
  · have hentries : entriesSize? (list.copy id).entries = entriesSize? list.entries :=
      entriesSize?_map (fun _ => by rfl) list.entries
    rw [computedSize?, hentries, AddressList.copy, List.length_map]
    exact h.size size hsize

/-- An entry that is back on the list's layout left a note, unless it never left the layout. -/
theorem restoreLayout_eq_or_stale {list : AddressList} {entry : Address}
    (howner : entry.membership.owner = some list.id) :
    list.restoreLayout entry = entry ∨ (list.restoreLayout entry).membership.stale = true := by
  unfold AddressList.restoreLayout
  split
  next => exact Or.inl rfl
  next =>
    unfold Address.setDialect
    split
    next => exact Or.inl rfl
    next => exact Or.inr (Address.stale_markChanged howner)

/-- An entry that was edited without a note is as large as before. -/
theorem size?_of_unnoted {list : AddressList} {entry : Address} {changes : List Address.Edit}
    (howned : Owned list.id list.format entry) (hsized : entry.Sized)
    (hplace : ∀ change ∈ changes, change.inPlace)
    (hunnoted : ¬ (list.restoreLayout (entry.editAll changes).2).membership.stale = true) :
    (list.restoreLayout (entry.editAll changes).2).size? = entry.size? := by
  have howner : entry.membership.owner = some list.id := by
    rw [howned.membership]
    rfl
  have hedited := (Address.watched_editAll howner hplace).1
  rcases restoreLayout_eq_or_stale hedited with hsame | hstale
  · rw [hsame] at hunnoted ⊢
    exact (hsized.size?_editAll howner hplace).resolve_left hunnoted
  · exact absurd hstale hunnoted

/-- Edits of an entry leave the size known unless it was unknown before or the entry left a note and
its size was unknown before or is after. -/
theorem Sized.counted_modify {list after : AddressList} {index : Nat}
    {changes : List Address.Edit} {results : List (Option (Except CodecError Bytes))}
    (h : list.Sized) (hcoherent : list.Coherent) (hplace : ∀ change ∈ changes, change.inPlace)
    (hmodify : list.modify index (·.editAll changes) = some (results, after)) :
    ∃ entry restored, list.entries[index]? = some entry ∧
      restored = list.restoreLayout (entry.editAll changes).2 ∧
      after.Counted (list.size? = none ∨
        restored.membership.stale = true ∧ (entry.size? = none ∨ restored.size? = none)) := by
  obtain ⟨entry, restored, hentry, hrestored, -, hafter⟩ :=
    modify_editAll_eq_some hcoherent hplace hmodify
  refine ⟨entry, restored, hentry, hrestored, ?_⟩
  have hentries := congrArg AddressList.entries hafter
  have hsized := h.entries entry (List.mem_of_getElem? hentry)
  have howned := hcoherent.owned entry (List.mem_of_getElem? hentry)
  have hafter : after.size? = (if restored.membership.stale then
      list.encoding.uncache.adjustLength 0 (sizeChange? entry.size? restored.size?)
    else list.encoding).length := congrArg size? hafter
  by_cases hstale : restored.membership.stale = true
  · rw [if_pos hstale] at hafter
    cases hsize : list.size? with
    | none =>
      have huncached : list.encoding.uncache.length = none := hsize
      exact Or.inr ⟨hafter.trans (Encoding.length_adjustLength_of_none huncached _ _), Or.inl rfl⟩
    | some size =>
      have hcomputed := h.size size hsize
      obtain ⟨before, others, hbefore, rfl, hset⟩ := computedSize?_set hentry hcomputed
      cases hchanged : restored.size? with
      | none =>
        rw [hbefore, hchanged] at hafter
        exact Or.inr ⟨hafter.trans (Encoding.length_adjustLength_unknown _ _),
          Or.inr ⟨hstale, Or.inr rfl⟩⟩
      | some changed =>
        have hbound := computedSize?_le hcoherent.short h.entries hcomputed
        have hlargest : changed ≤ Endpoint.maxSize := by
          have hedited := hsized.editAll hplace
          have hback : restored.Sized := by
            rw [hrestored]
            exact restoreLayout_of_setDialect hedited hedited.setDialect list
          exact hback.le changed hchanged
        rw [hbefore, hchanged] at hafter
        refine Or.inl ⟨others + changed, hafter.trans (Encoding.length_adjustLength hsize ?_ ?_),
          hset hentries hchanged⟩
        · have hlarge : 9 + maxEntries * Endpoint.maxSize + Endpoint.maxSize <
              0x8000000000000000 := by decide
          omega
        · rw [Encoding.countGrowth, if_pos rfl]
          omega
  · rw [if_neg hstale] at hafter
    cases hsize : list.size? with
    | none => exact Or.inr ⟨hafter.trans hsize, Or.inl rfl⟩
    | some size =>
      obtain ⟨before, others, hbefore, rfl, hset⟩ := computedSize?_set hentry (h.size size hsize)
      have hsame : restored.size? = entry.size? := by
        rw [hrestored] at hstale ⊢
        exact size?_of_unnoted howned hsized hplace hstale
      exact Or.inl ⟨others + before, hafter.trans hsize, hset hentries (hsame.trans hbefore)⟩

/-- After edits in place of an entry a sized list is sized. -/
theorem Sized.modify {list after : AddressList} {index : Nat} {changes : List Address.Edit}
    {results : List (Option (Except CodecError Bytes))} (h : list.Sized)
    (hcoherent : list.Coherent) (hplace : ∀ change ∈ changes, change.inPlace)
    (hmodify : list.modify index (·.editAll changes) = some (results, after)) : after.Sized := by
  refine ⟨?_, ?_⟩
  · obtain ⟨entry, restored, hentry, hrestored, -, rfl⟩ :=
      modify_editAll_eq_some hcoherent hplace hmodify
    have hedited := (h.entries entry (List.mem_of_getElem? hentry)).editAll hplace
    have hback : restored.Sized := by
      rw [hrestored]
      exact restoreLayout_of_setDialect hedited hedited.setDialect list
    exact forall_mem_set h.entries (by exact hback.congr rfl rfl) index
  · intro size hsize
    obtain ⟨_, _, -, -, hcounted⟩ := h.counted_modify hcoherent hplace hmodify
    exact hcounted.size hsize

end AddressList

end PeerProtocol
