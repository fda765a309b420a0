import PeerProtocol.Proofs.Address.Rewriting
import PeerProtocol.Proofs.AddressList.Size

/-!
# Lists encoded again

A list that was parsed is encoded again as the bytes that it was parsed from, where it keeps them.
Where it keeps none it is encoded from its entries: as the same bytes so far as the count and the
numbers in all entries stood there in their shortest form, and not at all if an entry is not. The
main statement, `rewritten_parsed`, says so of everything that is parsed, addresses and lists.
-/

namespace PeerProtocol.AddressList

/-- What a list that was parsed from the first `used` bytes of a payload is encoded as.

* Where it keeps its bytes: those bytes.
* Else it is refused exactly if one of its entries is, and otherwise encoded as those bytes exactly
if the count and the numbers in all entries stood there in their shortest form. -/
structure Rewritten (list : AddressList) (payload : Bytes) (used : Nat) : Prop where
  retained : list.encoding.dialect.retain = true → list.serialize.1 = .ok (payload.take used)
  refused_iff : list.encoding.dialect.retain = false →
    ((∃ error, list.serialize.1 = .error error) ↔
      ∃ entry ∈ list.entries, ∃ error, entry.serialize.1 = .error error)
  eq_iff : list.encoding.dialect.retain = false → ∀ bytes, list.serialize.1 = .ok bytes →
    (bytes = payload.take used ↔
      isShortest list.encoding.dialect list.format list.id payload = true)

/-! ## Entries -/

/-- The entries contribute nothing together exactly if one of them does not. -/
theorem entriesFields_eq_error_iff {entries : List Address} :
    (∃ error, entriesFields entries = .error error) ↔
      ∃ entry ∈ entries, ∃ error, entry.contribution = .error error := by
  induction entries with
  | nil =>
    refine iff_of_false ?_ ?_
    · rintro ⟨error, herror⟩
      cases herror
    · rintro ⟨entry, hentry, -⟩
      cases hentry
  | cons entry rest ih =>
    rw [entriesFields]
    cases hfront : entry.contribution with
    | error error => exact iff_of_true ⟨error, rfl⟩ ⟨entry, List.mem_cons_self, error, hfront⟩
    | ok front =>
      have hothers : (∃ other ∈ entry :: rest, ∃ error, other.contribution = .error error) ↔
          ∃ other ∈ rest, ∃ error, other.contribution = .error error := by
        constructor
        · rintro ⟨other, hother, error, herror⟩
          rcases List.mem_cons.1 hother with rfl | hother
          · rw [hfront] at herror
            cases herror
          · exact ⟨other, hother, error, herror⟩
        · rintro ⟨other, hother, herror⟩
          exact ⟨other, List.mem_cons_of_mem entry hother, herror⟩
      rw [hothers, ← ih]
      cases entriesFields rest with
      | error error => exact iff_of_true ⟨error, rfl⟩ ⟨error, rfl⟩
      | ok back =>
        refine iff_of_false ?_ ?_
        · rintro ⟨error, herror⟩
          cases herror
        · rintro ⟨error, herror⟩
          cases herror

/-- Coherent entries do not contribute more together than so many of the largest. -/
theorem length_entriesFields_le {entries : List Address}
    (h : ∀ entry ∈ entries, entry.Coherent) {bytes : Bytes}
    (hbytes : entriesFields entries = .ok bytes) :
    bytes.length ≤ entries.length * Endpoint.maxSize := by
  induction entries generalizing bytes with
  | nil =>
    obtain rfl := Except.ok.inj hbytes
    exact Nat.zero_le _
  | cons entry rest ih =>
    obtain ⟨front, back, hfront, hback, rfl⟩ := entriesFields_cons_eq_ok hbytes
    have hfirst := (h entry List.mem_cons_self).length_contribution_le hfront
    have hrest := ih (fun other hother => h other (List.mem_cons_of_mem entry hother)) hback
    rw [List.length_append, List.length_cons, Nat.add_mul, Nat.one_mul]
    omega

/-- What parsed entries that kept no bytes contribute has the form of what they were parsed from, or
a shorter one. -/
theorem shortens_parseEntries {dialect : Dialect} {owner : ListId} {payload : Bytes}
    (hretain : dialect.retain = false) {count offset final : Nat} {entries : List Address}
    (h : parseEntries dialect owner payload count offset = .ok (entries, final)) :
    ∃ front rest, payload.drop offset = front ++ rest ∧ final = offset + front.length ∧
      ∀ bytes, entriesFields entries = .ok bytes →
        Shortens (isShortestEntries dialect owner payload count offset) bytes front := by
  induction count generalizing offset entries with
  | zero =>
    obtain ⟨rfl, rfl⟩ := Prod.mk.inj (Except.ok.inj h)
    refine ⟨[], payload.drop offset, rfl, rfl, fun bytes hbytes => ?_⟩
    obtain rfl := Except.ok.inj hbytes
    exact shortens_refl []
  | succ count ih =>
    obtain ⟨entry, used, others, hentry, hothers, rfl⟩ := parseEntries_succ_eq_ok h
    obtain ⟨back, rest, hback, hlast, hshortens⟩ := ih hothers
    obtain ⟨_, front, middle, -, hinput, rfl, -, -, -, -⟩ := Address.parse_eq_ok hentry
    have hmiddle : payload.drop (offset + front.length) = middle := by
      rw [← List.drop_drop, hinput, List.drop_left]
    have htake : (payload.drop offset).take front.length = front := by
      rw [hinput, List.take_left]
    refine ⟨front ++ back, rest, ?_, ?_, fun bytes hbytes => ?_⟩
    · rw [hinput, ← hmiddle, hback, List.append_assoc]
    · rw [hlast, List.length_append, Nat.add_assoc]
    · obtain ⟨written, more, hfirst, hmore, rfl⟩ := entriesFields_cons_eq_ok hbytes
      have hwritten := Address.shortens_of_parse hentry hretain hfirst
      rw [htake] at hwritten
      rw [isShortestEntries, hentry]
      exact hwritten.append (hshortens more hmore)

/-! ## Lists -/

/-- A list has no fields exactly if its entries contribute nothing. -/
theorem fields_eq_error_iff {list : AddressList} :
    (∃ error, list.fields = .error error) ↔ ∃ error, entriesFields list.entries = .error error := by
  unfold fields
  cases entriesFields list.entries with
  | error error => exact iff_of_true ⟨error, rfl⟩ ⟨error, rfl⟩
  | ok entries =>
    refine iff_of_false ?_ ?_
    · rintro ⟨error, herror⟩
      cases herror
    · rintro ⟨error, herror⟩
      cases herror

/-- The fields of a legible list are never too large. -/
theorem Legible.length_fields_le {list : AddressList} (h : list.Legible) {bytes : Bytes}
    (hbytes : list.fields = .ok bytes) : bytes.length ≤ maxMessageSize := by
  obtain ⟨contributed, hcontributed, rfl⟩ := fields_eq_ok hbytes
  have hmost := length_entriesFields_le h.coherent hcontributed
  have hcount := CompactSize.size_le (UInt64.ofNat list.entries.length)
  have hlargest := Nat.mul_le_mul_right Endpoint.maxSize h.short
  have hlarge : 9 + maxEntries * Endpoint.maxSize ≤ maxMessageSize := by decide
  rw [List.length_append, CompactSize.length_encode]
  omega

/-- A legible list is encoded as what it contributes: its kept bytes, or else its fields. -/
theorem Legible.serialize_eq {list : AddressList} (h : list.Legible) :
    list.serialize.1 = list.encoding.contribution list.fields := by
  show (list.encoding.serialize list.fields).1 = list.encoding.contribution list.fields
  unfold Encoding.serialize Encoding.contribution
  cases list.encoding.current? with
  | some kept => rfl
  | none =>
    cases hfields : list.fields with
    | error error => rfl
    | ok bytes => simp only [if_neg (Nat.not_lt.2 (h.length_fields_le hfields))]

/-- A legible list that keeps no bytes is encoded from its entries. -/
theorem Legible.serialize_of_uncached {list : AddressList} (h : list.Legible)
    (huncached : list.encoding.retained = none) : list.serialize.1 = list.fields := by
  rw [h.serialize_eq, Encoding.contribution, Encoding.current?_of_uncached huncached]

/-- What a list that was parsed and kept no bytes has as its fields is the count and the entries
that it was parsed from, or a shorter form. -/
theorem shortens_of_parse {dialect : Dialect} {format : ListFormat} {id : ListId} {payload : Bytes}
    {list : AddressList} (h : parse dialect format id payload = .ok list)
    (hretain : dialect.retain = false) :
    ∃ front rest, payload = front ++ rest ∧ list.size? = some front.length ∧
      ∀ bytes, list.fields = .ok bytes →
        Shortens (isShortest dialect format id payload) bytes front := by
  obtain ⟨count, behind, entries, final, hcount, -, hentries, rfl⟩ := parse_eq_parsed h
  obtain ⟨front, hinput, hfront⟩ := CompactSize.shortens_of_decode hcount
  have hoffset : payload.length - behind.length = front.length := by
    rw [hinput, List.length_append, Nat.add_sub_cancel]
  rw [hoffset] at hentries
  have hentryRetain : (dialect.withVersion format.version).retain = false := hretain
  obtain ⟨back, rest, hback, hfinal, hshortens⟩ := shortens_parseEntries hentryRetain hentries
  have hbehind : behind = back ++ rest := by
    rw [← hback, hinput, List.drop_left]
  have hmany : UInt64.ofNat entries.length = count := by
    rw [(parseEntries_eq_ok (ofVersion?_format format) hentries).2.1, UInt64.ofNat_toNat]
  refine ⟨front ++ back, rest, ?_, ?_, fun bytes hbytes => ?_⟩
  · rw [hinput, hbehind, List.append_assoc]
  · show some final = _
    rw [hfinal, List.length_append]
  · obtain ⟨written, hwritten, rfl⟩ := fields_eq_ok hbytes
    simp only [isShortest, hcount, hoffset, hmany]
    exact hfront.append (hshortens written hwritten)

/-- What becomes of the bytes that a list was parsed from. -/
theorem rewritten_of_parse {dialect : Dialect} {format : ListFormat} {id : ListId} {payload : Bytes}
    {list : AddressList} (h : parse dialect format id payload = .ok list) :
    ∃ used, list.size? = some used ∧ used ≤ payload.length ∧ list.Rewritten payload used := by
  obtain ⟨front, rest, hpayload, -, hlist, -, hparsed⟩ := parse_eq_ok h
  have hencoding : list.encoding = .parsed dialect payload 0 front.length :=
    congrArg AddressList.encoding hlist
  have hdialect : list.encoding.dialect = dialect := congrArg Encoding.dialect hencoding
  have hformat : list.format = format := congrArg AddressList.format hlist
  have hid : list.id = id := congrArg AddressList.id hlist
  have htake : payload.take front.length = front := by rw [hpayload, List.take_left]
  -- Neither the list nor an entry keeps bytes where the dialect does not ask for them.
  have hplain (hretain : dialect.retain = false) : ∀ entry ∈ list.entries,
      entry.encoding.retained = none := by
    have hentryRetain : (dialect.withVersion format.version).retain = false := hretain
    intro entry hentry
    obtain ⟨offset, used, hentry⟩ := hparsed entry hentry
    obtain ⟨_, _, _, -, -, -, -, -, hkept, -⟩ := Address.parse_eq_ok hentry
    rw [hkept]
    exact Encoding.retained_parsed_of_not_retain hentryRetain _ _ _
  have hserialize (hretain : dialect.retain = false) : list.serialize.1 = list.fields := by
    refine (coherent_parse h).legible.serialize_of_uncached ?_
    rw [hencoding]
    exact Encoding.retained_parsed_of_not_retain hretain _ _ _
  refine ⟨front.length, congrArg Encoding.length hencoding, ?_, fun hretain => ?_,
    fun hretain => ?_, fun hretain => ?_⟩
  · rw [hpayload, List.length_append]
    exact Nat.le_add_right _ _
  · rw [hdialect] at hretain
    show (list.encoding.serialize list.fields).1 = _
    rw [hencoding]
    exact Encoding.serialize_parsed_of_retain hretain (by rw [List.drop_zero, htake]) list.fields
  · rw [hdialect] at hretain
    rw [hserialize hretain, fields_eq_error_iff, entriesFields_eq_error_iff]
    refine exists_congr fun entry => and_congr_right fun hentry => ?_
    rw [Address.contribution_of_uncached (hplain hretain entry hentry),
      Address.serialize_of_uncached (hplain hretain entry hentry)]
  · rw [hdialect] at hretain ⊢
    rw [hserialize hretain, hformat, hid]
    intro bytes hbytes
    obtain ⟨other, behind, hother, hsize, hshortens⟩ := shortens_of_parse h hretain
    have hlength : front.length = other.length :=
      Option.some.inj ((congrArg Encoding.length hencoding).symm.trans hsize)
    rw [hlength, show payload.take other.length = other by rw [hother, List.take_left]]
    exact (hshortens bytes hbytes).eq_iff

/-- Whatever is parsed, an address or a list, is encoded again as what it was parsed from, but for
the exceptions that are told. -/
theorem rewritten_parsed :
    (∀ {dialect : Dialect} {payload : Bytes} {offset used : Nat} {owner : Option ListId}
      {address : Address}, Address.parse dialect payload offset owner = .ok (address, used) →
        address.Rewritten (payload.drop offset) used) ∧
    (∀ {dialect : Dialect} {format : ListFormat} {id : ListId} {payload : Bytes}
      {list : AddressList}, parse dialect format id payload = .ok list →
        ∃ used, list.size? = some used ∧ used ≤ payload.length ∧ list.Rewritten payload used) :=
  ⟨Address.rewritten_of_parse, rewritten_of_parse⟩

/-- A tagged entry whose services stand in three bytes where one would do. -/
def wideEntry : Bytes :=
  [0, 0, 0, 0, 0xFD, 9, 0, 1, 4, 10, 0, 0, 1, 0x20, 0x8D]

/-- Without kept bytes the entry is encoded in fewer, alone and in a list; with kept bytes it is
encoded as it was. -/
theorem rewritten_parsed_wideEntry :
    (∃ address bytes,
        Address.parse ⟨.main, Layout.tagged.version, false⟩ ([7] ++ wideEntry) 1 none =
          .ok (address, 15) ∧ address.serialize.1 = .ok bytes ∧ bytes.length < 15) ∧
      (∃ list bytes, parse ⟨.main, Dialect.currentVersion, false⟩ .addrv2 ⟨0⟩ ([1] ++ wideEntry) =
        .ok list ∧ list.serialize.1 = .ok bytes ∧ bytes ≠ [1] ++ wideEntry) ∧
      ∃ list, parse ⟨.main, Dialect.currentVersion, true⟩ .addrv2 ⟨0⟩ ([1] ++ wideEntry) =
        .ok list ∧ list.serialize.1 = .ok ([1] ++ wideEntry) := by
  refine ⟨?_, ?_, ?_⟩
  · obtain ⟨address, hparse, hdialect⟩ : ∃ address,
        Address.parse ⟨.main, Layout.tagged.version, false⟩ ([7] ++ wideEntry) 1 none =
            .ok (address, 15) ∧
          address.encoding.dialect = ⟨.main, Layout.tagged.version, false⟩ := ⟨_, rfl, rfl⟩
    obtain ⟨networkId, hnetwork, -, hknown⟩ := (rewritten_parsed.1 hparse).tagged
      (congrArg Dialect.retain hdialect) (congrArg Dialect.version hdialect)
    obtain rfl : 1 = networkId := Option.some.inj hnetwork
    obtain ⟨bytes, hbytes, -, hshorter⟩ := hknown (by decide)
    exact ⟨address, bytes, hparse, hbytes, (hshorter rfl).1⟩
  · obtain ⟨list, bytes, hparse, hdialect, hformat, hid, hsize, hbytes⟩ : ∃ list bytes,
        parse ⟨.main, Dialect.currentVersion, false⟩ .addrv2 ⟨0⟩ ([1] ++ wideEntry) = .ok list ∧
          list.encoding.dialect = ⟨.main, Dialect.currentVersion, false⟩ ∧ list.format = .addrv2 ∧
          list.id = ⟨0⟩ ∧ list.size? = some 16 ∧ list.serialize.1 = .ok bytes :=
      ⟨_, _, rfl, rfl, rfl, rfl, rfl, rfl⟩
    obtain ⟨used, hused, -, hrewritten⟩ := rewritten_parsed.2 hparse
    obtain rfl : 16 = used := Option.some.inj (hsize.symm.trans hused)
    have hsame := hrewritten.eq_iff (by rw [hdialect]) bytes hbytes
    rw [hdialect, hformat, hid] at hsame
    refine ⟨list, bytes, hparse, hbytes, fun hkept => ?_⟩
    have hlonger : isShortest ⟨.main, Dialect.currentVersion, false⟩ .addrv2 ⟨0⟩
        ([1] ++ wideEntry) = false := rfl
    exact Bool.false_ne_true (hlonger.symm.trans (hsame.1 hkept))
  · obtain ⟨list, hparse, hretain, hsize⟩ : ∃ list,
        parse ⟨.main, Dialect.currentVersion, true⟩ .addrv2 ⟨0⟩ ([1] ++ wideEntry) = .ok list ∧
          list.encoding.dialect.retain = true ∧ list.size? = some 16 := ⟨_, rfl, rfl, rfl⟩
    obtain ⟨used, hused, -, hrewritten⟩ := rewritten_parsed.2 hparse
    obtain rfl : 16 = used := Option.some.inj (hsize.symm.trans hused)
    exact ⟨list, hparse, hrewritten.retained hretain⟩

end PeerProtocol.AddressList
