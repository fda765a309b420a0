import PeerProtocol.Proofs.AddressList

/-!
# The grammar of lists

A list's payload begins with a count of at most 1000 and holds that many entries, each at the end
of the one before (`Listed`), so that they tile the payload from the end of the count up to the end
of the list. Parsing accepts exactly these payloads, whatever follows the last entry, and its
failures come in a fixed order: a count that is none, a count that is too large, the first entry
that is none. The main statement is `tiled_parse`.
-/

namespace PeerProtocol

/-- What is parsed at an offset does not depend on what follows it. -/
theorem Address.parse_take_append {dialect : Dialect} {payload : Bytes} {offset used stop : Nat}
    {owner : Option ListId} {address : Address}
    (h : parse dialect payload offset owner = .ok (address, used)) (hused : offset + used ≤ stop)
    (hstop : stop ≤ payload.length) (more : Bytes) :
    parse dialect (payload.take stop ++ more) offset owner = .ok (address, used) := by
  obtain ⟨layout, front, rest, hlayout, hinput, rfl, hfront, -, hencoding, hmembership⟩ :=
    parse_eq_ok h
  have hshort : (payload.take stop).length = stop := List.length_take_of_le hstop
  have hother : (payload.take stop ++ more).drop offset =
      front ++ (rest.take (stop - offset - front.length) ++ more) := by
    rw [List.drop_append_of_le_length (by omega), List.drop_take, hinput, List.take_append,
      List.take_of_length_le (by omega), List.append_assoc]
  have hread : Endpoint.decode layout ((payload.take stop ++ more).drop offset) =
      .ok (address.endpoint, rest.take (stop - offset - front.length) ++ more) := by
    rw [hother]
    exact hfront _
  -- The bytes that are kept, if any are, are those of the address.
  have hkept : Encoding.parsed dialect (payload.take stop ++ more) offset front.length =
      address.encoding := by
    rw [hencoding, Encoding.parsed, Encoding.parsed, hother, hinput, List.take_left, List.take_left]
  rw [parse_of_decode hlayout hother hread owner, hkept, ← hmembership]

namespace AddressList

/-- The entries that are parsed off a payload for an owner from one offset up to another: each one
at the end of the one before. -/
inductive Tiles (dialect : Dialect) (owner : ListId) (payload : Bytes) :
    Nat → List Address → Nat → Prop where
  | nil (offset : Nat) : Tiles dialect owner payload offset [] offset
  | cons {offset used final : Nat} {entry : Address} {entries : List Address} :
      Address.parse dialect payload offset (some owner) = .ok (entry, used) →
      Tiles dialect owner payload (offset + used) entries final →
      Tiles dialect owner payload offset (entry :: entries) final

/-- The entries of a list whose payload this is, and the offset at which the last one ends: the
payload begins with a count, which is not too large, and so many entries follow it. -/
inductive Listed (dialect : Dialect) (format : ListFormat) (id : ListId) (payload : Bytes)
    (entries : List Address) (final : Nat) : Prop where
  | intro {count : UInt64} {front rest : Bytes} (split : payload = front ++ rest)
      (counted : CompactSize.decode payload = .ok (count, rest)) (few : count.toNat ≤ maxEntries)
      (tiles : Tiles (dialect.withVersion format.version) id payload front.length entries final)
      (many : entries.length = count.toNat)

/-- What comes of parsing a list off a payload. -/
structure Tiled (dialect : Dialect) (format : ListFormat) (id : ListId) (payload : Bytes) :
    Prop where
  /-- A list is parsed exactly off a payload that begins with a count and its entries. It is made
  of them, and its size is the offset at which the last one ends. -/
  parsed_iff : ∀ list, parse dialect format id payload = .ok list ↔
    ∃ entries final, Listed dialect format id payload entries final ∧
      list = ⟨.parsed dialect payload 0 final, id, format, entries⟩
  /-- The size of a parsed list is within the payload, and the list owns all entries. -/
  owned : ∀ list, parse dialect format id payload = .ok list →
    (∃ final, list.size? = some final ∧ final ≤ payload.length) ∧
      ∀ entry ∈ list.entries, entry.membership = .ownedBy id
  /-- The same list is parsed whatever follows the last entry. -/
  stable : ∀ list, parse dialect format id payload = .ok list →
    ∀ final, list.size? = some final → ∀ more,
      parse dialect format id (payload.take final ++ more) = .ok list
  /-- Without a count there is no list. -/
  uncounted : ∀ error, CompactSize.decode payload = .error error →
    parse dialect format id payload = .error error
  /-- A count that is too large is an error, whatever follows it. -/
  tooMany : ∀ front count rest, payload = front ++ rest →
    CompactSize.decode payload = .ok (count, rest) → maxEntries < count.toNat → ∀ more,
      parse dialect format id (front ++ more) = .error (.tooManyAddresses count.toNat)
  /-- Any other failure is that of the first entry that cannot be parsed. -/
  failed_iff : ∀ front count rest, payload = front ++ rest →
    CompactSize.decode payload = .ok (count, rest) → count.toNat ≤ maxEntries → ∀ error,
      (parse dialect format id payload = .error error ↔
        ∃ entries middle,
          Tiles (dialect.withVersion format.version) id payload front.length entries middle ∧
          entries.length < count.toNat ∧
          Address.parse (dialect.withVersion format.version) payload middle (some id) =
            .error error)

variable {dialect : Dialect} {owner : ListId} {payload : Bytes}

/-- Entries are parsed exactly where so many tile the payload. -/
theorem parseEntries_eq_ok_iff {count offset final : Nat} {entries : List Address} :
    parseEntries dialect owner payload count offset = .ok (entries, final) ↔
      Tiles dialect owner payload offset entries final ∧ entries.length = count := by
  constructor
  · intro h
    induction count generalizing offset entries with
    | zero =>
      obtain ⟨rfl, rfl⟩ := Prod.mk.inj (Except.ok.inj h)
      exact ⟨.nil offset, rfl⟩
    | succ count ih =>
      obtain ⟨entry, used, others, hentry, hothers, rfl⟩ := parseEntries_succ_eq_ok h
      obtain ⟨htiles, hlength⟩ := ih hothers
      exact ⟨.cons hentry htiles, by rw [List.length_cons, hlength]⟩
  · rintro ⟨htiles, rfl⟩
    induction htiles with
    | nil offset => rfl
    | cons hentry _ ih =>
      simp only [List.length_cons, parseEntries, hentry, ih, bind, Except.bind, pure, Except.pure]

/-- Parsing entries fails exactly with the error of the first one that cannot be parsed. -/
theorem parseEntries_eq_error_iff {count offset : Nat} {error : CodecError} :
    parseEntries dialect owner payload count offset = .error error ↔
      ∃ entries middle, Tiles dialect owner payload offset entries middle ∧
        entries.length < count ∧
        Address.parse dialect payload middle (some owner) = .error error := by
  constructor
  · intro h
    induction count generalizing offset with
    | zero => cases h
    | succ count ih =>
      cases hentry : Address.parse dialect payload offset (some owner) with
      | error other =>
        simp only [parseEntries, hentry, bind, Except.bind, Except.error.injEq] at h
        exact ⟨[], offset, .nil offset, Nat.succ_pos count, by rw [hentry, h]⟩
      | ok parsed =>
        obtain ⟨entry, used⟩ := parsed
        cases hothers : parseEntries dialect owner payload count (offset + used) with
        | ok others =>
          simp only [parseEntries, hentry, hothers, bind, Except.bind, pure, Except.pure] at h
          cases h
        | error other =>
          simp only [parseEntries, hentry, hothers, bind, Except.bind, Except.error.injEq] at h
          obtain ⟨entries, middle, htiles, hfew, hfailed⟩ := ih (h ▸ hothers)
          exact ⟨entry :: entries, middle, .cons hentry htiles, by
            rw [List.length_cons]; omega, hfailed⟩
  · rintro ⟨entries, middle, htiles, hfew, hfailed⟩
    induction htiles generalizing count with
    | nil offset =>
      obtain ⟨more, rfl⟩ : ∃ more, count = more + 1 := ⟨count - 1, by simp at hfew; omega⟩
      simp only [parseEntries, hfailed, bind, Except.bind]
    | cons hentry _ ih =>
      obtain ⟨more, rfl⟩ : ∃ more, count = more + 1 := ⟨count - 1, by omega⟩
      have hothers := ih (Nat.lt_of_succ_lt_succ hfew) hfailed
      simp only [parseEntries, hentry, hothers, bind, Except.bind]

/-- A tile ends within the payload. -/
theorem length_of_parse {offset used : Nat} {entry : Address}
    (h : Address.parse dialect payload offset (some owner) = .ok (entry, used))
    (hoffset : offset ≤ payload.length) : offset + used ≤ payload.length := by
  obtain ⟨_, front, rest, -, hinput, rfl, -, -, -, -⟩ := Address.parse_eq_ok h
  have hlength := congrArg List.length hinput
  rw [List.length_drop, List.length_append] at hlength
  omega

/-- Tiles end within the payload, and not before they begin. -/
theorem Tiles.final_le {offset final : Nat} {entries : List Address}
    (h : Tiles dialect owner payload offset entries final) (hoffset : offset ≤ payload.length) :
    offset ≤ final ∧ final ≤ payload.length := by
  induction h with
  | nil offset => exact ⟨Nat.le_refl offset, hoffset⟩
  | cons hentry _ ih =>
    obtain ⟨hlower, hupper⟩ := ih (length_of_parse hentry hoffset)
    exact ⟨by omega, hupper⟩

/-- Tiles belong to the owner for which they are parsed. -/
theorem Tiles.membership {offset final : Nat} {entries : List Address}
    (h : Tiles dialect owner payload offset entries final) :
    ∀ entry ∈ entries, entry.membership = .ownedBy owner := by
  induction h with
  | nil offset => exact fun entry hentry => absurd hentry List.not_mem_nil
  | cons hentry _ ih =>
    obtain ⟨_, _, _, -, -, -, -, -, -, hmembership⟩ := Address.parse_eq_ok hentry
    exact List.forall_mem_cons.2 ⟨hmembership, ih⟩

/-- Tiles do not depend on what follows them. The end of the bytes that are kept stays fixed along
the induction, while the tiles that are left become fewer. -/
theorem Tiles.take_append {offset final stop : Nat} {entries : List Address}
    (h : Tiles dialect owner payload offset entries final) (hoffset : offset ≤ payload.length)
    (hfinal : final ≤ stop) (hstop : stop ≤ payload.length) (more : Bytes) :
    Tiles dialect owner (payload.take stop ++ more) offset entries final := by
  induction h with
  | nil offset => exact .nil offset
  | cons hentry htiles ih =>
    have hnext := length_of_parse hentry hoffset
    obtain ⟨hlower, -⟩ := htiles.final_le hnext
    exact .cons (Address.parse_take_append hentry (by omega) hstop more) (ih hnext hfinal)

variable {format : ListFormat} {id : ListId}

/-- The bytes of a count are a front of the payload, and are read as the count whatever follows. -/
theorem front_of_decode {front rest : Bytes} {count : UInt64} (hsplit : payload = front ++ rest)
    (hcount : CompactSize.decode payload = .ok (count, rest)) :
    payload.length - rest.length = front.length ∧ Reads CompactSize.decode front count := by
  obtain ⟨other, hother, hreads⟩ := CompactSize.local_decode _ _ _ hcount
  obtain rfl : front = other := List.append_cancel_right (hsplit.symm.trans hother)
  exact ⟨by rw [hsplit, List.length_append, Nat.add_sub_cancel], hreads⟩

/-- With a count that is not too large, parsing a list is parsing so many entries behind it. -/
theorem parse_of_count {front rest : Bytes} {count : UInt64} (hsplit : payload = front ++ rest)
    (hcount : CompactSize.decode payload = .ok (count, rest)) (hfew : count.toNat ≤ maxEntries) :
    parse dialect format id payload =
      (parseEntries (dialect.withVersion format.version) id payload count.toNat front.length).map
        fun parsed => ⟨.parsed dialect payload 0 parsed.2, id, format, parsed.1⟩ := by
  obtain ⟨hoffset, -⟩ := front_of_decode hsplit hcount
  unfold parse
  simp only [hcount, bind, Except.bind, pure, Except.pure, if_neg (Nat.not_lt.2 hfew), hoffset]
  cases parseEntries (dialect.withVersion format.version) id payload count.toNat front.length <;>
    rfl

/-- What is listed is parsed. -/
theorem Listed.parse_eq {entries : List Address} {final : Nat}
    (h : Listed dialect format id payload entries final) :
    parse dialect format id payload =
      .ok ⟨.parsed dialect payload 0 final, id, format, entries⟩ := by
  obtain ⟨hsplit, hcount, hfew, htiles, hmany⟩ := h
  rw [parse_of_count hsplit hcount hfew, parseEntries_eq_ok_iff.2 ⟨htiles, hmany⟩]
  rfl

/-- A list that is parsed is listed. -/
theorem listed_of_parse {list : AddressList} (h : parse dialect format id payload = .ok list) :
    ∃ entries final, Listed dialect format id payload entries final ∧
      list = ⟨.parsed dialect payload 0 final, id, format, entries⟩ := by
  obtain ⟨count, rest, entries, final, hcount, hfew, hentries, hlist⟩ := parse_eq_parsed h
  obtain ⟨front, hsplit, -⟩ := CompactSize.local_decode _ _ _ hcount
  rw [(front_of_decode hsplit hcount).1] at hentries
  obtain ⟨htiles, hmany⟩ := parseEntries_eq_ok_iff.1 hentries
  exact ⟨entries, final, ⟨hsplit, hcount, hfew, htiles, hmany⟩, hlist⟩

/-- A list ends within its payload. -/
theorem Listed.final_le {entries : List Address} {final : Nat}
    (h : Listed dialect format id payload entries final) : final ≤ payload.length := by
  obtain ⟨hsplit, -, -, htiles, -⟩ := h
  exact (htiles.final_le (by rw [hsplit, List.length_append]; exact Nat.le_add_right _ _)).2

/-- What is listed does not depend on what follows it. -/
theorem Listed.take_append {entries : List Address} {final : Nat}
    (h : Listed dialect format id payload entries final) (more : Bytes) :
    Listed dialect format id (payload.take final ++ more) entries final := by
  have hfinal := h.final_le
  obtain ⟨hsplit, hcount, hfew, htiles, hmany⟩ := h
  rename_i count front rest
  obtain ⟨-, hreads⟩ := front_of_decode hsplit hcount
  have hoffset : front.length ≤ payload.length := by
    rw [hsplit, List.length_append]
    exact Nat.le_add_right _ _
  obtain ⟨hlower, -⟩ := htiles.final_le hoffset
  have hfront : payload.take final ++ more =
      front ++ (rest.take (final - front.length) ++ more) := by
    rw [hsplit, List.take_append, List.take_of_length_le hlower, List.append_assoc]
  refine ⟨hfront, ?_, hfew, htiles.take_append hoffset (Nat.le_refl final) hfinal more, hmany⟩
  rw [hfront]
  exact hreads _

/-- Parsing accepts exactly the grammar of lists: the entries tile the payload behind the count, and
every failure is that of the count or of the first entry that is none. -/
theorem tiled_parse (dialect : Dialect) (format : ListFormat) (id : ListId) (payload : Bytes) :
    Tiled dialect format id payload where
  parsed_iff list := by
    refine ⟨listed_of_parse, ?_⟩
    rintro ⟨entries, final, hlisted, rfl⟩
    exact hlisted.parse_eq
  owned list h := by
    obtain ⟨entries, final, hlisted, rfl⟩ := listed_of_parse h
    refine ⟨⟨final, rfl, hlisted.final_le⟩, ?_⟩
    obtain ⟨-, -, -, htiles, -⟩ := hlisted
    exact htiles.membership
  stable list h final hsize more := by
    obtain ⟨entries, last, hlisted, rfl⟩ := listed_of_parse h
    obtain rfl : last = final := Option.some.inj hsize
    have htake : (payload.take last ++ more).take last = payload.take last :=
      List.take_left' (List.length_take_of_le hlisted.final_le)
    rw [(hlisted.take_append more).parse_eq, Encoding.parsed, Encoding.parsed, List.drop_zero,
      List.drop_zero, htake]
  uncounted error h := by
    unfold parse
    rw [h]
    rfl
  tooMany front count rest hsplit hcount hmany more := by
    obtain ⟨-, hreads⟩ := front_of_decode hsplit hcount
    unfold parse
    rw [hreads more]
    exact if_pos hmany
  failed_iff front count rest hsplit hcount hfew error := by
    rw [parse_of_count hsplit hcount hfew, ← parseEntries_eq_error_iff]
    cases parseEntries (dialect.withVersion format.version) id payload count.toNat front.length
      with
    | error other => simp only [Except.map, Except.error.injEq]
    | ok parsed => exact iff_of_false (fun h => by cases h) (fun h => by cases h)

/-- Two tagged entries of different sizes tile their payload up to the byte behind them, and are
the same with other bytes there. -/
theorem tiled_parse_twoEntries :
    let dialect : Dialect := ⟨.main, Dialect.currentVersion, false⟩
    let near : Bytes := [0, 0, 0, 1, 9, 1, 4, 10, 0, 0, 1, 0x20, 0x8D]
    let far : Bytes := [0, 0, 0, 2, 0xFD, 9, 4, 3, 10] ++ List.replicate 10 7 ++ [0x20, 0x8D]
    ∃ list, parse dialect .addrv2 ⟨0⟩ ([2] ++ near ++ far ++ [5]) = .ok list ∧
      list.entries.length = 2 ∧
      Listed dialect .addrv2 ⟨0⟩ ([2] ++ near ++ far ++ [5]) list.entries 35 ∧
      parse dialect .addrv2 ⟨0⟩ ([2] ++ near ++ far ++ [8, 8]) = .ok list := by
  intro dialect near far
  obtain ⟨list, hlist, hlength, hsize⟩ :
      ∃ list, parse dialect .addrv2 ⟨0⟩ ([2] ++ near ++ far ++ [5]) = .ok list ∧
        list.entries.length = 2 ∧ list.size? = some 35 := ⟨_, rfl, rfl, rfl⟩
  have htiled := tiled_parse dialect .addrv2 ⟨0⟩ ([2] ++ near ++ far ++ [5])
  obtain ⟨entries, final, hlisted, rfl⟩ := (htiled.parsed_iff list).1 hlist
  obtain rfl : final = 35 := Option.some.inj hsize
  exact ⟨_, hlist, hlength, hlisted, htiled.stable _ hlist 35 hsize [8, 8]⟩

end AddressList

end PeerProtocol
