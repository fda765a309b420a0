import PeerProtocol.AddressList
import PeerProtocol.Proofs.Address

/-!
# Kept bytes of an address list

A list is coherent if the bytes that it keeps spell it, and if each of its entries is coherent, in
the list's layout, and owned by the list without a note. New and parsed lists are coherent, and
whatever is done with a list leaves it coherent: adding, removing and modifying entries, copying
and encoding it. A coherent list is faithful to whoever reads what it is encoded as
(`Coherent.faithful`).
-/

namespace PeerProtocol

/-- What holds of all values holds of all still if it holds of one that takes the place of
another. -/
theorem forall_mem_set {α : Type} {holds : α → Prop} {values : List α}
    (h : ∀ value ∈ values, holds value) {value : α} (hvalue : holds value) (index : Nat) :
    ∀ other ∈ values.set index value, holds other := by
  intro other hother
  rcases List.mem_or_eq_of_mem_set hother with hother | rfl
  · exact h other hother
  · exact hvalue

namespace AddressList

open Bytes

/-- So many endpoints, one after the other. -/
def readEndpoints (layout : Layout) : Nat → Reader (List Endpoint)
  | 0 => Reader.ofValue []
  | count + 1 =>
      Reader.andThen (Endpoint.decode layout) fun endpoint =>
        Reader.andThen (readEndpoints layout count) fun endpoints =>
          Reader.ofValue (endpoint :: endpoints)

/-- A count, which is checked first, and that many endpoints. -/
def readAll (layout : Layout) : Reader (List Endpoint) :=
  Reader.andThen CompactSize.decode fun count bytes =>
    if maxEntries < count.toNat then .error (.tooManyAddresses count.toNat)
    else readEndpoints layout count.toNat bytes

/-- What the entries tell, in the normal form of the list's layout. -/
def normalEndpoints (list : AddressList) : List Endpoint :=
  list.entries.map fun entry => entry.endpoint.normal list.format.layout

/-- In the layout of the list, the bytes are read as the normal forms of its entries. -/
def SpelledBy (list : AddressList) (bytes : Bytes) : Prop :=
  Reads (readAll list.format.layout) bytes list.normalEndpoints

/-- The entry is coherent, in the layout of the list's format, and owned by the list without a
note. -/
structure Owned (id : ListId) (format : ListFormat) (entry : Address) : Prop where
  coherent : entry.Coherent
  version : entry.version = format.version
  membership : entry.membership = .ownedBy id

/-- The list is not too long, owns its entries and keeps only bytes that spell it. -/
structure Coherent (list : AddressList) : Prop where
  short : list.entries.length ≤ maxEntries
  owned : ∀ entry ∈ list.entries, Owned list.id list.format entry
  keeps : list.encoding.Keeps list.SpelledBy

/-- The list is not too long, and its entries are coherent and in the layout of its format, whoever
owns them. -/
structure Legible (list : AddressList) : Prop where
  short : list.entries.length ≤ maxEntries
  coherent : ∀ entry ∈ list.entries, entry.Coherent
  version : ∀ entry ∈ list.entries, entry.version = list.format.version

/-- The entries that a list owns are legible. -/
theorem Coherent.legible {list : AddressList} (h : list.Coherent) : list.Legible :=
  ⟨h.short, fun entry hentry => (h.owned entry hentry).coherent,
    fun entry hentry => (h.owned entry hentry).version⟩

/-- What the list is encoded as it also contributes, before and after, and is encoded as again; and
whatever follows, these bytes are read to their end as a list of the same format whose entries tell
the same in the normal form of the layout. -/
def Faithful (list : AddressList) : Prop :=
  ∀ bytes after, list.serialize = (.ok bytes, after) →
    list.encoding.contribution list.fields = .ok bytes ∧
      after.encoding.contribution after.fields = .ok bytes ∧
      after.serialize = (.ok bytes, after) ∧
      ∀ dialect id tail, ∃ read,
        parse dialect list.format id (bytes ++ tail) = .ok read ∧
          read.size? = some bytes.length ∧ read.format = list.format ∧
          read.entries.map (·.endpoint) = list.normalEndpoints

/-- The layout of a format is the one that its version names. -/
theorem ofVersion?_format (format : ListFormat) :
    Layout.ofVersion? format.version = some format.layout :=
  Layout.ofVersion?_version format.layout

/-! ## Inversion -/

/-- At least one entry is parsed as a first one and the others behind it. -/
theorem parseEntries_succ_eq_ok {dialect : Dialect} {owner : ListId} {payload : Bytes}
    {count offset final : Nat} {entries : List Address}
    (h : parseEntries dialect owner payload (count + 1) offset = .ok (entries, final)) :
    ∃ entry used others, Address.parse dialect payload offset (some owner) = .ok (entry, used) ∧
      parseEntries dialect owner payload count (offset + used) = .ok (others, final) ∧
      entries = entry :: others := by
  unfold parseEntries at h
  cases hentry : Address.parse dialect payload offset (some owner) with
  | error error =>
    rw [hentry] at h
    cases h
  | ok parsed =>
    obtain ⟨entry, used⟩ := parsed
    simp only [hentry, bind, Except.bind] at h
    cases hrest : parseEntries dialect owner payload count (offset + used) with
    | error error =>
      rw [hrest] at h
      cases h
    | ok parsedRest =>
      obtain ⟨others, last⟩ := parsedRest
      rw [hrest] at h
      obtain ⟨rfl, rfl⟩ := Prod.mk.inj (Except.ok.inj h)
      exact ⟨entry, used, others, rfl, hrest, rfl⟩

/-- A parsed list is made of a count, which is not too large, and that many entries behind it. -/
theorem parse_eq_parsed {dialect : Dialect} {format : ListFormat} {id : ListId} {payload : Bytes}
    {list : AddressList} (h : parse dialect format id payload = .ok list) :
    ∃ count rest entries final, CompactSize.decode payload = .ok (count, rest) ∧
      count.toNat ≤ maxEntries ∧
      parseEntries (dialect.withVersion format.version) id payload count.toNat
        (payload.length - rest.length) = .ok (entries, final) ∧
      list = ⟨.parsed dialect payload 0 final, id, format, entries⟩ := by
  unfold parse at h
  cases hcount : CompactSize.decode payload with
  | error error =>
    rw [hcount] at h
    cases h
  | ok parsed =>
    obtain ⟨count, rest⟩ := parsed
    simp only [hcount, bind, Except.bind] at h
    split at h
    next => cases h
    next hshort =>
      simp only [pure, Except.pure] at h
      split at h
      next => cases h
      next parsedEntries hentries =>
        obtain ⟨entries, final⟩ := parsedEntries
        obtain rfl := Except.ok.inj h
        exact ⟨count, rest, entries, final, rfl, Nat.le_of_not_lt hshort, hentries, rfl⟩

/-- Entries contribute together what the first one does, and then what the others do. -/
theorem entriesFields_cons_eq_ok {entry : Address} {rest : List Address} {bytes : Bytes}
    (h : entriesFields (entry :: rest) = .ok bytes) :
    ∃ front back, entry.contribution = .ok front ∧ entriesFields rest = .ok back ∧
      bytes = front ++ back := by
  unfold entriesFields at h
  cases hfront : entry.contribution with
  | error error =>
    rw [hfront] at h
    cases h
  | ok front =>
    cases hback : entriesFields rest with
    | error error =>
      simp only [hfront, hback, bind, Except.bind] at h
      cases h
    | ok back =>
      simp only [hfront, hback, bind, Except.bind] at h
      exact ⟨front, back, rfl, rfl, (Except.ok.inj h).symm⟩

/-- The encoding of the entries is the count and what they contribute. -/
theorem fields_eq_ok {list : AddressList} {bytes : Bytes} (h : list.fields = .ok bytes) :
    ∃ entries, entriesFields list.entries = .ok entries ∧
      bytes = CompactSize.encode (UInt64.ofNat list.entries.length) ++ entries := by
  unfold fields at h
  cases hentries : entriesFields list.entries with
  | error error =>
    rw [hentries] at h
    cases h
  | ok entries =>
    rw [hentries] at h
    exact ⟨entries, rfl, (Except.ok.inj h).symm⟩

/-! ## Reading -/

/-- Parsed entries were read one after the other, each as part of the list. -/
theorem parseEntries_eq_ok {dialect : Dialect} {layout : Layout} {owner : ListId} {payload : Bytes}
    (hlayout : Layout.ofVersion? dialect.version = some layout) {count offset final : Nat}
    {entries : List Address}
    (h : parseEntries dialect owner payload count offset = .ok (entries, final)) :
    (∃ front rest, payload.drop offset = front ++ rest ∧ final = offset + front.length ∧
      Reads (readEndpoints layout count) front (entries.map (·.endpoint))) ∧
      entries.length = count ∧
      ∀ entry ∈ entries, ∃ offset used,
        Address.parse dialect payload offset (some owner) = .ok (entry, used) := by
  induction count generalizing offset entries with
  | zero =>
    obtain ⟨rfl, rfl⟩ := Prod.mk.inj (Except.ok.inj h)
    exact ⟨⟨[], payload.drop offset, rfl, rfl, reads_ofValue []⟩, rfl,
      fun entry hentry => absurd hentry List.not_mem_nil⟩
  | succ count ih =>
    obtain ⟨entry, used, others, hentry, hrest, rfl⟩ := parseEntries_succ_eq_ok h
    obtain ⟨⟨back, rest, hback, hlast, hreads⟩, hlength, hothers⟩ := ih hrest
    obtain ⟨layout', front, middle, hlayout', hinput, rfl, hfront, -, -, -⟩ :=
      Address.parse_eq_ok hentry
    -- A version names one layout, so all entries are read in it.
    obtain rfl : layout = layout' := Option.some.inj (hlayout.symm.trans hlayout')
    have hmiddle : payload.drop (offset + front.length) = middle := by
      rw [← List.drop_drop, hinput, List.drop_left]
    refine ⟨⟨front ++ back, rest, ?_, ?_, ?_⟩, ?_, ?_⟩
    · rw [hinput, ← hmiddle, hback, List.append_assoc]
    · rw [hlast, List.length_append, Nat.add_assoc]
    · exact hfront.andThen (hreads.map fun endpoints => entry.endpoint :: endpoints)
    · rw [List.length_cons, hlength]
    · intro other hother
      rcases List.mem_cons.1 hother with rfl | hother
      · exact ⟨offset, front.length, hentry⟩
      · exact hothers other hother

/-- Endpoints that are read one after the other are parsed as entries. -/
theorem parseEntries_of_read {dialect : Dialect} {layout : Layout} {payload : Bytes}
    (hlayout : Layout.ofVersion? dialect.version = some layout) (owner : ListId)
    {count offset : Nat} {endpoints : List Endpoint} {rest : Bytes}
    (h : readEndpoints layout count (payload.drop offset) = .ok (endpoints, rest)) :
    ∃ entries front, payload.drop offset = front ++ rest ∧
      parseEntries dialect owner payload count offset = .ok (entries, offset + front.length) ∧
      entries.map (·.endpoint) = endpoints := by
  induction count generalizing offset endpoints with
  | zero =>
    obtain ⟨rfl, rfl⟩ := Prod.mk.inj (Except.ok.inj h)
    exact ⟨[], [], rfl, rfl, rfl⟩
  | succ count ih =>
    obtain ⟨endpoint, middle, hendpoint, h⟩ := Reader.andThen_eq_ok h
    obtain ⟨others, last, hothers, h⟩ := Reader.andThen_eq_ok h
    obtain ⟨rfl, rfl⟩ := Prod.mk.inj (Except.ok.inj h)
    obtain ⟨front, hinput, hfront⟩ := Endpoint.local_decode layout _ _ _ hendpoint
    have hmiddle : payload.drop (offset + front.length) = middle := by
      rw [← List.drop_drop, hinput, List.drop_left]
    rw [← hmiddle] at hothers
    obtain ⟨entries, back, hback, hentries, rfl⟩ := ih hothers
    refine ⟨⟨.parsed dialect payload offset front.length, .ownedBy owner, endpoint⟩ :: entries,
      front ++ back, ?_, ?_, rfl⟩
    · rw [hinput, ← hmiddle, hback, List.append_assoc]
    · have hentry := Address.parse_of_decode hlayout hinput hendpoint (some owner)
      unfold parseEntries
      simp only [hentry, bind, Except.bind, hentries, pure, Except.pure, List.length_append,
        Nat.add_assoc]
      rfl

/-- Bytes that are read as endpoints are parsed as a list, whatever follows. -/
theorem parse_of_reads {format : ListFormat} {bytes : Bytes} {endpoints : List Endpoint}
    (h : Reads (readAll format.layout) bytes endpoints) (dialect : Dialect) (id : ListId)
    (tail : Bytes) :
    ∃ entries, parse dialect format id (bytes ++ tail) =
        .ok ⟨.parsed dialect (bytes ++ tail) 0 bytes.length, id, format, entries⟩ ∧
      entries.map (·.endpoint) = endpoints := by
  obtain ⟨count, middle, hcount, hread⟩ := Reader.andThen_eq_ok (h tail)
  obtain ⟨front, hinput, -⟩ := CompactSize.local_decode _ _ _ hcount
  split at hread
  next => cases hread
  next hshort =>
    -- The entries start behind the count.
    have hoffset : (bytes ++ tail).length - middle.length = front.length := by
      rw [hinput, List.length_append, Nat.add_sub_cancel]
    have hmiddle : (bytes ++ tail).drop front.length = middle := by
      rw [hinput, List.drop_left]
    rw [← hmiddle] at hread
    have hlayout : Layout.ofVersion? (dialect.withVersion format.version).version =
        some format.layout := ofVersion?_format format
    obtain ⟨entries, back, hback, hentries, hendpoints⟩ := parseEntries_of_read hlayout id hread
    have hused : front.length + back.length = bytes.length := by
      have hlength := congrArg List.length hinput
      rw [← hmiddle, hback] at hlength
      simp only [List.length_append] at hlength
      omega
    refine ⟨entries, ?_, hendpoints⟩
    unfold parse
    simp only [hcount, bind, Except.bind, pure, Except.pure, if_neg hshort, hoffset, hentries,
      hused]

/-- An entry that was parsed for a list is owned by it. -/
theorem owned_of_parse {dialect : Dialect} {format : ListFormat} {id : ListId} {payload : Bytes}
    {offset used : Nat} {entry : Address}
    (h : Address.parse (dialect.withVersion format.version) payload offset (some id) =
      .ok (entry, used)) : Owned id format entry := by
  obtain ⟨_, _, _, -, -, -, -, -, hencoding, hmembership⟩ := Address.parse_eq_ok h
  refine ⟨Address.coherent_parse h, ?_, hmembership⟩
  rw [Address.version, hencoding]
  rfl

/-- An entry that was parsed tells what it tells in the normal form of its layout. -/
theorem normal_of_parse {dialect : Dialect} {layout : Layout} {payload : Bytes} {offset used : Nat}
    {owner : Option ListId} {entry : Address}
    (hlayout : Layout.ofVersion? dialect.version = some layout)
    (h : Address.parse dialect payload offset owner = .ok (entry, used)) :
    entry.endpoint.normal layout = entry.endpoint := by
  obtain ⟨layout', _, _, hlayout', -, -, -, hnormal, -, -⟩ := Address.parse_eq_ok h
  obtain rfl : layout = layout' := Option.some.inj (hlayout.symm.trans hlayout')
  exact hnormal

/-- A parsed list was read off a part of the payload: its count was checked, and then its entries
were read one after the other. -/
theorem parse_eq_ok {dialect : Dialect} {format : ListFormat} {id : ListId} {payload : Bytes}
    {list : AddressList} (h : parse dialect format id payload = .ok list) :
    ∃ used rest, payload = used ++ rest ∧
      Reads (readAll format.layout) used (list.entries.map (·.endpoint)) ∧
      list = ⟨.parsed dialect payload 0 used.length, id, format, list.entries⟩ ∧
      list.entries.length ≤ maxEntries ∧
      ∀ entry ∈ list.entries, ∃ offset used,
        Address.parse (dialect.withVersion format.version) payload offset (some id) =
          .ok (entry, used) := by
  obtain ⟨count, rest, entries, final, hcount, hshort, hentries, rfl⟩ := parse_eq_parsed h
  obtain ⟨front, hinput, hfront⟩ := CompactSize.local_decode _ _ _ hcount
  have hoffset : payload.length - rest.length = front.length := by
    rw [hinput, List.length_append, Nat.add_sub_cancel]
  rw [hoffset] at hentries
  have hlayout : Layout.ofVersion? (dialect.withVersion format.version).version =
      some format.layout := ofVersion?_format format
  obtain ⟨⟨back, more, hback, hfinal, hreads⟩, hlength, hparsed⟩ :=
    parseEntries_eq_ok hlayout hentries
  have hrest : rest = back ++ more := by
    rw [← hback, hinput, List.drop_left]
  refine ⟨front ++ back, more, ?_, ?_, ?_, ?_, hparsed⟩
  · rw [hinput, hrest, List.append_assoc]
  · refine hfront.andThen fun tail => ?_
    rw [if_neg (Nat.not_lt.2 hshort)]
    exact hreads tail
  · rw [hfinal, List.length_append]
  · rw [hlength]
    exact hshort

/-- A parsed list is coherent. -/
theorem coherent_parse {dialect : Dialect} {format : ListFormat} {id : ListId} {payload : Bytes}
    {list : AddressList} (h : parse dialect format id payload = .ok list) : list.Coherent := by
  obtain ⟨used, rest, hpayload, hreads, hlist, hshort, hparsed⟩ := parse_eq_ok h
  have hlayout : Layout.ofVersion? (dialect.withVersion format.version).version =
      some format.layout := ofVersion?_format format
  have hnormal : list.entries.map (fun entry => entry.endpoint.normal format.layout) =
      list.entries.map (·.endpoint) :=
    List.map_congr_left fun entry hentry => by
      obtain ⟨offset, used, hentry⟩ := hparsed entry hentry
      exact normal_of_parse hlayout hentry
  have htake : (payload.drop 0).take used.length = used := by
    rw [List.drop_zero, hpayload, List.take_left]
  rw [← hnormal] at hreads
  rw [hlist]
  refine ⟨hshort, fun entry hentry => ?_, Encoding.keeps_parsed ?_ ?_⟩
  · obtain ⟨offset, used, hentry⟩ := hparsed entry hentry
    exact owned_of_parse hentry
  · rw [htake]
  · rw [htake]
    exact hreads

/-- A new list is coherent. -/
theorem coherent_new (dialect : Dialect) (format : ListFormat) (id : ListId) :
    (new dialect format id).Coherent :=
  ⟨Nat.zero_le maxEntries, fun _ hentry => absurd hentry List.not_mem_nil,
    Encoding.keeps_of_uncached rfl _⟩

/-! ## Writing -/

/-- The contributions of coherent entries in one layout are read as their normal forms. -/
theorem reads_entriesFields {format : ListFormat} {entries : List Address}
    (hcoherent : ∀ entry ∈ entries, entry.Coherent)
    (hversion : ∀ entry ∈ entries, entry.version = format.version) {bytes : Bytes}
    (h : entriesFields entries = .ok bytes) :
    Reads (readEndpoints format.layout entries.length) bytes
      (entries.map fun entry => entry.endpoint.normal format.layout) := by
  induction entries generalizing bytes with
  | nil =>
    obtain rfl := Except.ok.inj h
    exact reads_ofValue []
  | cons entry entries ih =>
    obtain ⟨front, back, hfront, hback, rfl⟩ := entriesFields_cons_eq_ok h
    obtain ⟨layout, hlayout, hreads⟩ :=
      (hcoherent entry List.mem_cons_self).spelledBy_of_contribution hfront
    rw [hversion entry List.mem_cons_self, ofVersion?_format] at hlayout
    obtain rfl := Option.some.inj hlayout
    have hrest := ih (fun other hother => hcoherent other (List.mem_cons_of_mem entry hother))
      (fun other hother => hversion other (List.mem_cons_of_mem entry hother)) hback
    exact hreads.andThen (hrest.map fun endpoints =>
      entry.endpoint.normal format.layout :: endpoints)

/-- The encoding of the entries spells a legible list. -/
theorem Legible.spelledBy_of_fields {list : AddressList} (h : list.Legible) {bytes : Bytes}
    (hbytes : list.fields = .ok bytes) : list.SpelledBy bytes := by
  obtain ⟨entries, hentries, rfl⟩ := fields_eq_ok hbytes
  have hshort : list.entries.length ≤ 1000 := h.short
  have hcount : (UInt64.ofNat list.entries.length).toNat = list.entries.length := by
    rw [UInt64.toNat_ofNat']
    omega
  refine (CompactSize.reads_encode (UInt64.ofNat list.entries.length)).andThen fun tail => ?_
  rw [hcount, if_neg (Nat.not_lt.2 h.short)]
  exact reads_entriesFields h.coherent h.version hentries tail

/-- The encoding of the entries spells a coherent list. -/
theorem Coherent.spelledBy_of_fields {list : AddressList} (h : list.Coherent) {bytes : Bytes}
    (hbytes : list.fields = .ok bytes) : list.SpelledBy bytes :=
  h.legible.spelledBy_of_fields hbytes

/-- What a coherent list contributes spells it. -/
theorem Coherent.spelledBy_of_contribution {list : AddressList} (h : list.Coherent) {bytes : Bytes}
    (hbytes : list.encoding.contribution list.fields = .ok bytes) : list.SpelledBy bytes :=
  h.keeps.of_contribution (fun _ => h.spelledBy_of_fields) hbytes

/-- A list is encoded as its encoding says. -/
theorem encoding_of_serialize {list after : AddressList} {result : Except CodecError Bytes}
    (h : list.serialize = (result, after)) :
    list.encoding.serialize list.fields = (result, after.encoding) := by
  obtain ⟨hresult, rfl⟩ := Prod.mk.inj h
  exact Prod.ext hresult rfl

/-- A legible list that keeps only bytes that spell it is faithful. -/
theorem Legible.faithful {list : AddressList} (h : list.Legible)
    (hkeeps : list.encoding.Keeps list.SpelledBy) : list.Faithful := by
  intro bytes after hserialize
  have hencoding := encoding_of_serialize hserialize
  have hfields : after.fields = list.fields := by
    obtain ⟨-, rfl⟩ := Prod.mk.inj hserialize
    rfl
  have hagain : after.encoding.serialize after.fields = (.ok bytes, after.encoding) := by
    rw [hfields]
    exact hkeeps.serialize_again hencoding
  have hcontribution := Encoding.contribution_of_serialize hencoding
  refine ⟨hcontribution, Encoding.contribution_of_serialize hagain, ?_, ?_⟩
  · unfold serialize
    rw [hagain]
  · intro dialect id tail
    obtain ⟨entries, hparse, hendpoints⟩ :=
      parse_of_reads (hkeeps.of_contribution (fun _ => h.spelledBy_of_fields) hcontribution)
        dialect id tail
    exact ⟨_, hparse, rfl, rfl, hendpoints⟩

/-- A coherent list is faithful. -/
theorem Coherent.faithful {list : AddressList} (h : list.Coherent) : list.Faithful :=
  h.legible.faithful h.keeps

/-! ## Operations -/

/-- After it was encoded a coherent list is coherent. -/
theorem Coherent.serialize {list : AddressList} (h : list.Coherent) :
    list.serialize.2.Coherent :=
  ⟨h.short, h.owned, h.keeps.serialize fun _ => h.spelledBy_of_fields⟩

/-- A list that took an address has it at its end, as its own, and adjusted its length by the size
of the address. -/
theorem add_eq_ok {list after : AddressList} {address : Address}
    (h : list.add address = (.ok (), after)) :
    address.version = list.format.version ∧ list.entries.length < maxEntries ∧
      after = { list with
        entries :=
          list.entries ++ [{ address with membership := address.membership.attach list.id }]
        encoding := list.encoding.uncache.adjustLength (list.entries.length + 1)
          (address.size?.map Int.ofNat) } := by
  unfold AddressList.add at h
  split at h
  next => cases (Prod.mk.inj h).1
  next hversion =>
    split at h
    next => cases (Prod.mk.inj h).1
    next hroom =>
      obtain rfl := (Prod.mk.inj h).2
      refine ⟨Decidable.not_not.1 hversion, Nat.lt_of_not_le hroom, ?_⟩
      simp only [List.length_append, List.length_singleton]
      cases address.size? with
      | none => rfl
      | some size => rfl

/-- A list that refused an address is as it was before. -/
theorem add_eq_error {list after : AddressList} {address : Address} {error : CodecError}
    (h : list.add address = (.error error, after)) : after = list := by
  unfold AddressList.add at h
  split at h
  next => exact (Prod.mk.inj h).2.symm
  next =>
    split at h
    next => exact (Prod.mk.inj h).2.symm
    next => cases (Prod.mk.inj h).1

/-- With another address at its end a coherent list is coherent. -/
theorem Coherent.add {list after : AddressList} {address : Address} (h : list.Coherent)
    (haddress : address.Coherent) (hadd : list.add address = (.ok (), after)) :
    after.Coherent := by
  obtain ⟨hversion, hroom, rfl⟩ := add_eq_ok hadd
  refine ⟨?_, ?_, Encoding.keeps_uncache_adjustLength _ _ _ _⟩
  · rw [List.length_append, List.length_singleton]
    exact hroom
  · exact List.forall_mem_append.2
      ⟨h.owned, List.forall_mem_singleton.2 ⟨haddress, hversion, rfl⟩⟩

/-- A list that gave up an entry forgot its size, and the entry is handed out. -/
theorem remove_eq_some {list after : AddressList} {index : Nat} {address : Address}
    (h : list.remove index = some (address, after)) :
    ∃ entry ∈ list.entries, address = { entry with membership := entry.membership.detach } ∧
      after = { list with
        entries := list.entries.eraseIdx index
        encoding := list.encoding.uncache.setLength none } := by
  unfold AddressList.remove at h
  split at h
  next => cases h
  next entry hentry =>
    obtain ⟨rfl, rfl⟩ := Prod.mk.inj (Option.some.inj h)
    exact ⟨entry, List.mem_of_getElem? hentry, rfl, rfl⟩

/-- Without one of its entries a coherent list is coherent, and the entry is. -/
theorem Coherent.remove {list after : AddressList} {index : Nat} {address : Address}
    (h : list.Coherent) (hremove : list.remove index = some (address, after)) :
    address.Coherent ∧ after.Coherent := by
  obtain ⟨entry, hentry, rfl, rfl⟩ := remove_eq_some hremove
  refine ⟨(h.owned entry hentry).coherent, ?_, ?_, Encoding.keeps_of_uncached rfl _⟩
  · exact Nat.le_trans (List.length_eraseIdx_le list.entries index) h.short
  · intro other hother
    exact h.owned other (List.mem_of_mem_eraseIdx hother)

/-- What a change of the dialect keeps of an entry is kept when it is back on the list's layout. -/
theorem restoreLayout_of_setDialect {kept : Address → Prop} {entry : Address} (h : kept entry)
    (hdialect : ∀ dialect, kept (entry.setDialect dialect)) (list : AddressList) :
    kept (list.restoreLayout entry) := by
  unfold AddressList.restoreLayout
  split
  next => exact h
  next => exact hdialect _

/-- An entry is back on the list's layout. -/
theorem version_restoreLayout (list : AddressList) (entry : Address) :
    (list.restoreLayout entry).version = list.format.version := by
  unfold AddressList.restoreLayout
  split
  next hversion => exact hversion
  next => exact entry.version_setDialect _

/-- A list that let an entry be changed has the changed entry in its place, back on the list's
layout and without a note; if there was a note for this list, it adjusted its length by how the size
changed. -/
theorem modify_eq_some {α : Type} {list after : AddressList} {index : Nat}
    {change : Address → α × Address} {result : α}
    (h : list.modify index change = some (result, after)) :
    ∃ entry restored, list.entries[index]? = some entry ∧
      restored = list.restoreLayout (change entry).2 ∧ result = (change entry).1 ∧
      after = { list with
        entries := list.entries.set index
          { restored with membership := { restored.membership with stale := false } }
        encoding := if (restored.membership.takeChange list.id).1 then
            list.encoding.uncache.adjustLength 0 (sizeChange? entry.size? restored.size?)
          else list.encoding } := by
  unfold AddressList.modify at h
  split at h
  next => cases h
  next entry hentry =>
    obtain ⟨rfl, rfl⟩ := Prod.mk.inj (Option.some.inj h)
    exact ⟨entry, _, hentry, rfl, rfl, rfl⟩

/-- An entry that is there can be modified, and is there afterwards. -/
theorem modify_of_getElem? {α : Type} {list : AddressList} {index : Nat} {entry : Address}
    (hentry : list.entries[index]? = some entry) (change : Address → α × Address) :
    ∃ result after changed, list.modify index change = some (result, after) ∧
      after.entries[index]? = some changed := by
  have hbound := (List.getElem?_eq_some_iff.1 hentry).1
  unfold modify
  rw [hentry]
  exact ⟨_, _, _, rfl, List.getElem?_set_self hbound⟩

/-- Of an entry that it owns, a list hears by a note of edits in place that changed what the entry
tells, also when the entry is back on the list's layout. -/
theorem watched_restoreLayout {list : AddressList} {entry : Address}
    (howner : entry.membership.owner = some list.id) {changes : List Address.Edit}
    (hplace : ∀ change ∈ changes, change.inPlace) :
    Address.Watched list.id entry (list.restoreLayout (entry.editAll changes).2) := by
  have hedited := Address.watched_editAll howner hplace
  exact restoreLayout_of_setDialect hedited
    (fun dialect => hedited.trans (Address.watched_setDialect hedited.1 dialect)) list

/-- Of an entry that it owns, a coherent list hears by a note of every edit that changed what the
entry tells. -/
theorem modify_editAll_eq_some {list after : AddressList} {index : Nat}
    {changes : List Address.Edit} {results : List (Option (Except CodecError Bytes))}
    (h : list.Coherent) (hplace : ∀ change ∈ changes, change.inPlace)
    (hmodify : list.modify index (·.editAll changes) = some (results, after)) :
    ∃ entry restored, list.entries[index]? = some entry ∧
      restored = list.restoreLayout (entry.editAll changes).2 ∧
      Address.Watched list.id entry restored ∧
      after = { list with
        entries := list.entries.set index
          { restored with membership := { restored.membership with stale := false } }
        encoding := if restored.membership.stale then
            list.encoding.uncache.adjustLength 0 (sizeChange? entry.size? restored.size?)
          else list.encoding } := by
  obtain ⟨entry, restored, hentry, hrestored, -, hafter⟩ := modify_eq_some hmodify
  have howned := h.owned entry (List.mem_of_getElem? hentry)
  have howner : entry.membership.owner = some list.id := by
    rw [howned.membership]
    rfl
  have hwatched : Address.Watched list.id entry restored := by
    rw [hrestored]
    exact watched_restoreLayout howner hplace
  refine ⟨entry, restored, hentry, hrestored, hwatched, ?_⟩
  rw [hafter]
  simp only [Membership.takeChange, hwatched.1, BEq.rfl, Bool.and_true]

/-- In the place of an entry, one that tells the same leaves what the list tells. -/
theorem map_normal_set {entries : List Address} {index : Nat} {entry other : Address}
    (hentry : entries[index]? = some entry) (hendpoint : other.endpoint = entry.endpoint)
    (layout : Layout) :
    (entries.set index other).map (fun entry => entry.endpoint.normal layout) =
      entries.map fun entry => entry.endpoint.normal layout := by
  obtain ⟨hindex, rfl⟩ := List.getElem?_eq_some_iff.1 hentry
  rw [List.map_set, hendpoint]
  have hmapped : index < (entries.map fun entry => entry.endpoint.normal layout).length := by
    rwa [List.length_map]
  have hsame := List.set_getElem_self hmapped
  rwa [List.getElem_map] at hsame

/-- After edits in place of an entry a coherent list is coherent. -/
theorem Coherent.modify {list after : AddressList} {index : Nat} {changes : List Address.Edit}
    {results : List (Option (Except CodecError Bytes))} (h : list.Coherent)
    (hplace : ∀ change ∈ changes, change.inPlace)
    (hmodify : list.modify index (·.editAll changes) = some (results, after)) :
    after.Coherent := by
  obtain ⟨entry, restored, hentry, hrestored, ⟨howner, hnoted⟩, rfl⟩ :=
    modify_editAll_eq_some h hplace hmodify
  have hbefore := h.owned entry (List.mem_of_getElem? hentry)
  have hedited := hbefore.coherent.editAll hplace
  have hcoherent : restored.Coherent := by
    rw [hrestored]
    exact restoreLayout_of_setDialect hedited hedited.setDialect list
  have hversion : restored.version = list.format.version := by
    rw [hrestored]
    exact version_restoreLayout list _
  have howned : Owned list.id list.format
      { restored with membership := { restored.membership with stale := false } } := by
    refine ⟨hcoherent, hversion, ?_⟩
    show Membership.mk restored.membership.owner false = _
    rw [howner]
    rfl
  refine ⟨?_, forall_mem_set h.owned howned index, ?_⟩
  · rw [List.length_set]
    exact h.short
  · -- Without a note for the list nothing that it tells has changed.
    refine Encoding.keeps_of_noted fun hunnoted => h.keeps.mono fun bytes hbytes => ?_
    rcases hnoted with hnoted | ⟨-, hendpoint, -⟩
    · exact absurd (hunnoted.symm.trans hnoted) Bool.false_ne_true
    · unfold SpelledBy normalEndpoints
      rw [map_normal_set hentry (by exact hendpoint)]
      exact hbytes

/-- A copy of a coherent list is coherent, whatever its identity. -/
theorem Coherent.copy {list : AddressList} (h : list.Coherent) (id : ListId) :
    (list.copy id).Coherent := by
  refine ⟨?_, ?_, h.keeps.mono fun bytes hbytes => ?_⟩
  · unfold AddressList.copy
    rw [List.length_map]
    exact h.short
  · intro copied hcopied
    obtain ⟨entry, hentry, rfl⟩ := List.mem_map.1 hcopied
    have howned := h.owned entry hentry
    exact ⟨howned.coherent, howned.version, rfl⟩
  · unfold SpelledBy normalEndpoints AddressList.copy
    rw [List.map_map]
    exact hbytes

end AddressList

end PeerProtocol
