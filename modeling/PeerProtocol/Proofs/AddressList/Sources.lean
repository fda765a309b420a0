import Mathlib.Data.List.Forall2
import PeerProtocol.Proofs.AddressList.Current
import PeerProtocol.Proofs.AddressList.Operations

/-!
# Where the bytes of a revised list come from

A list that was read with its bytes kept may have been read from numbers in longer forms and from
networks that nobody can write. When it is revised, its entries keep their own bytes: each was read
from a slice of the payload, and stays encoded as that slice while its neighbours are changed,
removed or added and while the list is encoded in between. `Tracked` notes beside the list where
each entry comes from; `spliced_revised` says that a list that was revised is encoded as its count
in the shortest form and then, for each entry in order, the slice that it was read from, what it
contributed when it was added, or its fields if it was changed.
-/

namespace PeerProtocol

open Bytes

/-! ## Lists side by side -/

/-- Lists that are related stay so if related values take the same place in both. -/
theorem forall₂_set {α β : Type} {related : α → β → Prop} {left : List α} {right : List β}
    (h : List.Forall₂ related left right) {a : α} {b : β} (hab : related a b) (index : Nat) :
    List.Forall₂ related (left.set index a) (right.set index b) := by
  induction h generalizing index with
  | nil => exact .nil
  | cons hfirst hrest ih =>
    cases index with
    | zero => exact .cons hab hrest
    | succ index => exact .cons hfirst (ih index)

/-- Lists that are related stay so if a value of the one is replaced by one that is related to the
same. -/
theorem forall₂_set_left {α β : Type} {related : α → β → Prop} {left : List α} {right : List β}
    (h : List.Forall₂ related left right) {index : Nat} {before after : α}
    (hbefore : left[index]? = some before)
    (hafter : ∀ b, related before b → related after b) :
    List.Forall₂ related (left.set index after) right := by
  induction h generalizing index with
  | nil => exact .nil
  | cons hfirst hrest ih =>
    cases index with
    | zero =>
      obtain rfl := Option.some.inj hbefore
      exact .cons (hafter _ hfirst) hrest
    | succ index => exact .cons hfirst (ih hbefore)

/-- Lists that are related stay so without the values at one place. -/
theorem forall₂_eraseIdx {α β : Type} {related : α → β → Prop} {left : List α} {right : List β}
    (h : List.Forall₂ related left right) (index : Nat) :
    List.Forall₂ related (left.eraseIdx index) (right.eraseIdx index) := by
  induction h generalizing index with
  | nil => exact .nil
  | cons hfirst hrest ih =>
    cases index with
    | zero => exact hrest
    | succ index => exact .cons hfirst (ih index)

namespace Address

/-! ## Edits that touch an address -/

/-- Whether an edit sets something of an address. To set the dialect that it has sets nothing. -/
def Edit.touches (address : Address) : Edit → Bool
  | .host _ | .port _ | .services _ | .time _ | .replace _ => true
  | .dialect other => address.encoding.dialect != other
  | .version other => address.encoding.dialect != address.encoding.dialect.withVersion other
  | .serialize | .contribution | .fields => false

/-- Whether one of the edits in order sets something of an address. -/
def touched (address : Address) : List Edit → Bool
  | [] => false
  | change :: changes => change.touches address || (address.edit change).2.touched changes

/-- Another dialect drops the kept bytes and leaves a note for the owner. -/
theorem invalidated_setDialect {address : Address} {dialect : Dialect}
    (h : address.encoding.dialect ≠ dialect) :
    (address.setDialect dialect).encoding.retained = none ∧
      (address.setDialect dialect).membership = address.membership.markChanged := by
  unfold setDialect
  rw [if_neg h]
  exact ⟨rfl, rfl⟩

/-- An edit in place that sets something drops the kept bytes and leaves a note for the owner. -/
theorem invalidated_edit {address : Address} {change : Edit} (hplace : change.inPlace)
    (htouches : change.touches address) :
    (address.edit change).2.encoding.retained = none ∧
      (address.edit change).2.membership = address.membership.markChanged := by
  cases change with
  | host host => exact ⟨rfl, rfl⟩
  | port port => exact ⟨rfl, rfl⟩
  | services services => exact ⟨rfl, rfl⟩
  | time time => exact ⟨rfl, rfl⟩
  | dialect dialect => exact invalidated_setDialect (bne_iff_ne.1 htouches)
  | version version => exact invalidated_setDialect (bne_iff_ne.1 htouches)
  | replace other => cases hplace
  | serialize => cases htouches
  | contribution => cases htouches
  | fields => cases htouches

/-- Edits in place of which one sets something leave an address that is current, with a note for the
owner if it has one. -/
theorem current_of_touched {address : Address} {owner : ListId}
    (howner : address.membership.owner = some owner) {changes : List Edit}
    (hplace : ∀ change ∈ changes, change.inPlace) (htouched : address.touched changes) :
    (address.editAll changes).2.Current ∧ (address.editAll changes).2.membership.stale = true := by
  induction changes generalizing address with
  | nil => cases htouched
  | cons change changes ih =>
    have hfirst := hplace change List.mem_cons_self
    have hothers : ∀ other ∈ changes, other.inPlace := fun other hother =>
      hplace other (List.mem_cons_of_mem change hother)
    have hstill := (watched_edit howner hfirst).1
    rcases Bool.or_eq_true_iff.1 htouched with htouches | hrest
    · obtain ⟨huncached, hmarked⟩ := invalidated_edit hfirst htouches
      have hstale : (address.edit change).2.membership.stale = true := by
        rw [hmarked]
        exact stale_markChanged howner
      exact ⟨(current_of_uncached huncached).editAll hothers, stale_editAll hstill hstale hothers⟩
    · exact ih hstill hothers hrest

/-- The second address contributes the same bytes as the first, in the same layout, and bears no
other note. -/
structure Undisturbed (before after : Address) : Prop where
  membership : after.membership = before.membership
  version : after.version = before.version
  contribution : after.contribution = before.contribution

/-- Encoding a coherent address does not disturb it. -/
theorem Coherent.undisturbed_serialize {address : Address} (h : address.Coherent) :
    Undisturbed address address.serialize.2 := by
  refine ⟨rfl, congrArg Dialect.version
    (Encoding.serialize_dialect address.encoding address.fields), ?_⟩
  cases hresult : address.serialize.1 with
  | ok bytes =>
    obtain ⟨hbefore, hafter, -⟩ := h.faithful bytes _ (Prod.ext hresult rfl)
    rw [hbefore, hafter]
  | error error =>
    -- A failure changes nothing.
    have hserialize : address.serialize = (.error error, address.serialize.2) :=
      Prod.ext hresult rfl
    have hsame := Encoding.serialize_eq_error (encoding_of_serialize hserialize)
    show ({ address with encoding := address.serialize.2.encoding } : Address).contribution = _
    rw [hsame]

/-- Under the dialect that it has an address is not disturbed. -/
theorem undisturbed_setDialect {address : Address} {dialect : Dialect}
    (h : (address.encoding.dialect != dialect) = false) :
    Undisturbed address (address.setDialect dialect) := by
  unfold setDialect
  rw [if_pos (bne_eq_false_iff_eq.1 h)]
  exact ⟨rfl, rfl, rfl⟩

/-- An edit in place that sets nothing does not disturb a coherent address. -/
theorem Coherent.undisturbed_edit {address : Address} (h : address.Coherent) {change : Edit}
    (hplace : change.inPlace) (huntouched : change.touches address = false) :
    Undisturbed address (address.edit change).2 := by
  cases change with
  | host host => cases huntouched
  | port port => cases huntouched
  | services services => cases huntouched
  | time time => cases huntouched
  | dialect dialect => exact undisturbed_setDialect huntouched
  | version version => exact undisturbed_setDialect huntouched
  | replace other => cases hplace
  | serialize => exact h.undisturbed_serialize
  | contribution => exact ⟨rfl, rfl, rfl⟩
  | fields => exact ⟨rfl, rfl, rfl⟩

/-- Edits in place that set nothing do not disturb a coherent address. -/
theorem Coherent.undisturbed_editAll {address : Address} (h : address.Coherent)
    {changes : List Edit} (hplace : ∀ change ∈ changes, change.inPlace)
    (huntouched : address.touched changes = false) :
    Undisturbed address (address.editAll changes).2 := by
  induction changes generalizing address with
  | nil => exact ⟨rfl, rfl, rfl⟩
  | cons change changes ih =>
    have hfirst := hplace change List.mem_cons_self
    obtain ⟨huntouches, hrest⟩ := Bool.or_eq_false_iff.1 huntouched
    have hedited := h.undisturbed_edit hfirst huntouches
    have hothers := ih (h.edit hfirst)
      (fun other hother => hplace other (List.mem_cons_of_mem change hother)) hrest
    exact ⟨hothers.membership.trans hedited.membership, hothers.version.trans hedited.version,
      hothers.contribution.trans hedited.contribution⟩

end Address

namespace AddressList

/-! ## Where an entry comes from -/

/-- Where the bytes of an entry come from. -/
inductive Source where
  /-- The entry was read from so many bytes at an offset of the payload. -/
  | parsed (offset used : Nat)
  /-- The address was added. -/
  | added (address : Address)
  /-- The entry was changed in place. -/
  | changed

/-- The bytes of an entry as its source tells them. -/
def Source.bytes (payload : Bytes) (entry : Address) : Source → Except CodecError Bytes
  | .parsed offset used => .ok ((payload.drop offset).take used)
  | .added address => address.contribution
  | .changed => entry.fields

/-- The entry contributes the bytes that its source tells, and if it was changed, it is current. -/
inductive Stands (payload : Bytes) (entry : Address) : Source → Prop where
  | parsed (offset used : Nat) (h : entry.contribution = .ok ((payload.drop offset).take used)) :
      Stands payload entry (.parsed offset used)
  | added (address : Address) (h : entry.contribution = address.contribution) :
      Stands payload entry (.added address)
  | changed (h : entry.Current) : Stands payload entry .changed

/-- The slices that so many entries from an offset of a payload on are read from. -/
def slices (dialect : Dialect) (owner : ListId) (payload : Bytes) :
    (count offset : Nat) → List Source
  | 0, _ => []
  | count + 1, offset =>
    match Address.parse dialect payload offset (some owner) with
    | .ok (_, used) => .parsed offset used :: slices dialect owner payload count (offset + used)
    | .error _ => []

/-- The slices that the entries of the list at the front of a payload are read from. -/
def parsedSources (dialect : Dialect) (format : ListFormat) (id : ListId) (payload : Bytes) :
    List Source :=
  match CompactSize.decode payload with
  | .ok (count, rest) =>
    slices (dialect.withVersion format.version) id payload count.toNat
      (payload.length - rest.length)
  | .error _ => []

/-- One thing that is done to revise a list. An index that is not there does nothing. -/
inductive Revision where
  | add (address : Address) (obtainable : address.Obtainable)
  | remove (index : Nat)
  | change (index : Nat) (changes : List Address.Change)
  | serialize

namespace Revision

/-- Changes put no other address in the place of an entry, so a closure can make all of them. -/
theorem available_changes {changes : List Address.Change} :
    ∀ edit ∈ changes.map Subtype.val, edit.Available := by
  intro edit hedit
  obtain ⟨⟨edit, hplace⟩, -, rfl⟩ := List.mem_map.1 hedit
  cases edit with
  | replace other => cases hplace
  | _ => trivial

/-- A revision as an operation on the list. -/
def operation : Revision → Operation
  | .add address obtainable => .add address obtainable
  | .remove index => .remove index
  | .change index changes => .modify index (.ofEdits (changes.map Subtype.val) available_changes)
  | .serialize => .serialize

/-- Whether a revision changes the list: an address is taken, an entry is there and removed, or an
entry is there and something of it is set. -/
def alters (list : AddressList) : Revision → Bool
  | .add address _ => (list.add address).1.isOk
  | .remove index => index < list.entries.length
  | .change index changes =>
      list.entries[index]?.any fun entry => entry.touched (changes.map Subtype.val)
  | .serialize => false

/-- The sources after a revision that changed the list. -/
def revise (sources : List Source) : Revision → List Source
  | .add address _ => sources ++ [.added address]
  | .remove index => sources.eraseIdx index
  | .change index _ => sources.set index .changed
  | .serialize => sources

end Revision

/-- A list, where its entries come from, and whether it was changed. -/
structure Tracked where
  list : AddressList
  sources : List Source
  altered : Bool

namespace Tracked

/-- A list that was just read has its entries from slices of the payload. -/
def start (dialect : Dialect) (format : ListFormat) (id : ListId) (payload : Bytes)
    (list : AddressList) : Tracked :=
  ⟨list, parsedSources dialect format id payload, false⟩

/-- What is tracked after a revision. -/
def step (tracked : Tracked) (revision : Revision) : Tracked where
  list := tracked.list.apply revision.operation
  sources :=
    if revision.alters tracked.list then revision.revise tracked.sources else tracked.sources
  altered := tracked.altered || revision.alters tracked.list

/-- What is tracked after revisions in order. -/
def run (tracked : Tracked) (revisions : List Revision) : Tracked :=
  revisions.foldl step tracked

/-- The list that is tracked is the one that is brought about by the operations. -/
theorem list_run (tracked : Tracked) (revisions : List Revision) :
    (tracked.run revisions).list =
      tracked.list.applyAll (revisions.map Revision.operation) := by
  induction revisions generalizing tracked with
  | nil => rfl
  | cons revision revisions ih => exact ih (tracked.step revision)

end Tracked

/-- The bytes are the count of the entries in its shortest form and, one after the other, the bytes
of every entry as its source tells them. -/
structure Spliced (payload : Bytes) (list : AddressList) (sources : List Source) (bytes : Bytes) :
    Prop where
  length_eq : sources.length = list.entries.length
  parts : ∃ parts : List Bytes,
    List.zipWith (fun entry source => source.bytes payload entry) list.entries sources =
        parts.map .ok ∧
      bytes = CompactSize.encode (UInt64.ofNat list.entries.length) ++ parts.flatten

/-- The list is coherent, its entries contribute the bytes that their sources tell, and after it was
changed it keeps no bytes but its fields. -/
structure Sourced (payload : Bytes) (tracked : Tracked) : Prop where
  coherent : tracked.list.Coherent
  stands : List.Forall₂ (Stands payload) tracked.list.entries tracked.sources
  keeps : tracked.altered = true →
    tracked.list.encoding.Keeps fun bytes => tracked.list.fields = .ok bytes

/-- An entry contributes the bytes that its source tells. -/
theorem Stands.bytes_eq {payload : Bytes} {entry : Address} {source : Source}
    (h : Stands payload entry source) : source.bytes payload entry = entry.contribution := by
  cases h with
  | parsed offset used h => exact h.symm
  | added address h => exact h.symm
  | changed h => exact h.contribution_eq.symm

/-- An entry that contributes the same, and is current if the other is, has the same source. -/
theorem Stands.congr {payload : Bytes} {entry other : Address} {source : Source}
    (h : Stands payload entry source) (hcontribution : other.contribution = entry.contribution)
    (hcurrent : entry.Current → other.Current) : Stands payload other source := by
  cases h with
  | parsed offset used h => exact .parsed offset used (hcontribution.trans h)
  | added address h => exact .added address (hcontribution.trans h)
  | changed h => exact .changed (hcurrent h)

/-- Entries contribute one after the other the bytes that their sources tell. -/
theorem zipWith_bytes {payload : Bytes} {entries : List Address} {sources : List Source}
    (h : List.Forall₂ (Stands payload) entries sources) :
    List.zipWith (fun entry source => source.bytes payload entry) entries sources =
      entries.map Address.contribution := by
  induction h with
  | nil => rfl
  | cons hfirst hrest ih => rw [List.zipWith_cons_cons, List.map_cons, hfirst.bytes_eq, ih]

/-! ## Reading -/

/-- An entry that was read with its bytes kept contributes the slice that it was read from. -/
theorem contribution_of_parse {dialect : Dialect} {payload : Bytes} {offset used : Nat}
    {owner : Option ListId} {entry : Address} (hretain : dialect.retain = true)
    (h : Address.parse dialect payload offset owner = .ok (entry, used)) :
    entry.contribution = .ok ((payload.drop offset).take used) := by
  obtain ⟨_, front, rest, -, hinput, rfl, -, -, hencoding, -⟩ := Address.parse_eq_ok h
  rw [Address.contribution, hencoding]
  exact Encoding.contribution_parsed_of_retain hretain (by rw [hinput, List.take_left]) _

/-- Entries that were read with their bytes kept contribute the slices that they were read from. -/
theorem stands_slices {dialect : Dialect} {owner : ListId} {payload : Bytes}
    (hretain : dialect.retain = true) {count offset final : Nat} {entries : List Address}
    (h : parseEntries dialect owner payload count offset = .ok (entries, final)) :
    List.Forall₂ (Stands payload) entries (slices dialect owner payload count offset) := by
  induction count generalizing offset entries with
  | zero =>
    obtain ⟨rfl, rfl⟩ := Prod.mk.inj (Except.ok.inj h)
    exact .nil
  | succ count ih =>
    obtain ⟨entry, used, others, hentry, hothers, rfl⟩ := parseEntries_succ_eq_ok h
    rw [slices, hentry]
    exact .cons (.parsed offset used (contribution_of_parse hretain hentry)) (ih hothers)

/-- A list that was read with its bytes kept has its entries from slices of the payload. -/
theorem sourced_parse {dialect : Dialect} {format : ListFormat} {id : ListId} {payload : Bytes}
    {list : AddressList} (hretain : dialect.retain = true)
    (h : parse dialect format id payload = .ok list) :
    Sourced payload (.start dialect format id payload list) := by
  have hentryRetain : (dialect.withVersion format.version).retain = true := hretain
  refine ⟨coherent_parse h, ?_, fun haltered => nomatch haltered⟩
  obtain ⟨count, rest, entries, final, hcount, -, hentries, rfl⟩ := parse_eq_parsed h
  simp only [Tracked.start, parsedSources, hcount]
  exact stands_slices hentryRetain hentries

/-! ## What one revision preserves -/

/-- After a revision that changes the list the sources are revised. -/
theorem Tracked.step_of_alters {tracked : Tracked} {revision : Revision}
    (h : revision.alters tracked.list = true) :
    tracked.step revision =
      ⟨tracked.list.apply revision.operation, revision.revise tracked.sources, true⟩ := by
  rw [step, h, if_pos rfl, Bool.or_true]

/-- After a revision that does not change the list the sources are as before. -/
theorem Tracked.step_of_not_alters {tracked : Tracked} {revision : Revision}
    (h : revision.alters tracked.list = false) :
    tracked.step revision =
      ⟨tracked.list.apply revision.operation, tracked.sources, tracked.altered⟩ := by
  rw [step, h, if_neg Bool.false_ne_true, Bool.or_false]

/-- An address that is added contributes what it did before. -/
theorem Sourced.add {payload : Bytes} {tracked : Tracked} (h : Sourced payload tracked)
    (address : Address) (obtainable : address.Obtainable) :
    Sourced payload (tracked.step (.add address obtainable)) := by
  rcases hadd : tracked.list.add address with ⟨result, after⟩
  have hlist : tracked.list.apply (.add address obtainable) = after := congrArg Prod.snd hadd
  cases result with
  | error error =>
    have hunaltered : (Revision.add address obtainable).alters tracked.list = false := by
      rw [Revision.alters, hadd]
      rfl
    rw [Tracked.step_of_not_alters hunaltered, Revision.operation, hlist, add_eq_error hadd]
    exact h
  | ok =>
    have halters : (Revision.add address obtainable).alters tracked.list = true := by
      rw [Revision.alters, hadd]
      rfl
    rw [Tracked.step_of_alters halters, Revision.operation, hlist]
    have hcoherent := h.coherent.add obtainable.coherent hadd
    obtain ⟨-, -, rfl⟩ := add_eq_ok hadd
    exact ⟨hcoherent, List.rel_append h.stands (.cons (.added address rfl) .nil),
      fun _ => Encoding.keeps_uncache_adjustLength _ _ _ _⟩

/-- The entries behind one that is removed move up with their sources. -/
theorem Sourced.remove {payload : Bytes} {tracked : Tracked} (h : Sourced payload tracked)
    (index : Nat) : Sourced payload (tracked.step (.remove index)) := by
  cases hentry : tracked.list.entries[index]? with
  | none =>
    have hunaltered : (Revision.remove index).alters tracked.list = false :=
      decide_eq_false (Nat.not_lt.2 (List.getElem?_eq_none_iff.1 hentry))
    have hlist : tracked.list.apply (.remove index) = tracked.list := by
      unfold AddressList.apply AddressList.remove
      simp only [hentry]
    rw [Tracked.step_of_not_alters hunaltered, Revision.operation, hlist]
    exact h
  | some entry =>
    have halters : (Revision.remove index).alters tracked.list = true :=
      decide_eq_true (List.getElem?_eq_some_iff.1 hentry).1
    obtain ⟨removed, after, hremove⟩ : ∃ removed after,
        tracked.list.remove index = some (removed, after) := by
      unfold AddressList.remove
      rw [hentry]
      exact ⟨_, _, rfl⟩
    have hlist : tracked.list.apply (.remove index) = after := by
      unfold AddressList.apply
      simp only [hremove]
    rw [Tracked.step_of_alters halters, Revision.operation, hlist]
    have hcoherent := (h.coherent.remove hremove).2
    obtain ⟨_, -, -, rfl⟩ := remove_eq_some hremove
    exact ⟨hcoherent, forall₂_eraseIdx h.stands index, fun _ => Encoding.keeps_of_uncached rfl _⟩

/-- Encoding a list leaves its entries and their sources. -/
theorem Sourced.serialize {payload : Bytes} {tracked : Tracked} (h : Sourced payload tracked) :
    Sourced payload (tracked.step .serialize) := by
  rw [Tracked.step_of_not_alters rfl]
  exact ⟨h.coherent.serialize, h.stands,
    fun haltered => (h.keeps haltered).serialize fun _ hfields => hfields⟩

/-- Whatever a closure gives back, the list is modified alike. -/
theorem modify_of_modify {α : Type} {list after : AddressList} {index : Nat}
    {change : Address → α × Address} {result : α}
    (h : list.modify index change = some (result, after)) :
    (list.modify index fun entry => ((), (change entry).2)) = some ((), after) := by
  unfold modify at h ⊢
  cases hentry : list.entries[index]? with
  | none =>
    rw [hentry] at h
    cases h
  | some entry =>
    rw [hentry] at h
    obtain ⟨-, rfl⟩ := Prod.mk.inj (Option.some.inj h)
    rfl

/-- After edits in place that set something of an entry, the list keeps no bytes, and the entry is
current. -/
theorem Coherent.modify_touched {list after : AddressList} {index : Nat} {entry : Address}
    {changes : List Address.Edit} {results : List (Option (Except CodecError Bytes))}
    (h : list.Coherent) (hentry : list.entries[index]? = some entry)
    (hplace : ∀ change ∈ changes, change.inPlace) (htouched : entry.touched changes = true)
    (hmodify : list.modify index (·.editAll changes) = some (results, after)) :
    after.encoding.retained = none ∧
      ∃ changed, after.entries = list.entries.set index changed ∧ changed.Current := by
  obtain ⟨found, restored, hfound, hrestored, hwatched, rfl⟩ :=
    modify_editAll_eq_some h hplace hmodify
  obtain rfl := Option.some.inj (hentry.symm.trans hfound)
  have howner : entry.membership.owner = some list.id := by
    rw [(h.owned entry (List.mem_of_getElem? hentry)).membership]
    rfl
  obtain ⟨hcurrent, hstale⟩ := Address.current_of_touched howner hplace htouched
  have hedited := (Address.watched_editAll howner hplace).1
  have hback : restored.Current := by
    rw [hrestored]
    exact restoreLayout_of_setDialect hcurrent hcurrent.setDialect list
  have hnoted : restored.membership.stale = true := by
    rw [hrestored]
    rcases restoreLayout_eq_or_stale hedited with hsame | hlate
    · rw [hsame]
      exact hstale
    · exact hlate
  refine ⟨?_, _, rfl, hback⟩
  simp only [if_pos hnoted, Encoding.retained_uncache_adjustLength]

/-- After edits in place that set nothing of an entry, the list knows of its encoding what it knew,
and the entry contributes what it did. -/
theorem Coherent.modify_untouched {list after : AddressList} {index : Nat} {entry : Address}
    {changes : List Address.Edit} {results : List (Option (Except CodecError Bytes))}
    (h : list.Coherent) (hentry : list.entries[index]? = some entry)
    (hplace : ∀ change ∈ changes, change.inPlace) (huntouched : entry.touched changes = false)
    (hmodify : list.modify index (·.editAll changes) = some (results, after)) :
    after.encoding = list.encoding ∧
      ∃ changed, after.entries = list.entries.set index changed ∧
        changed.contribution = entry.contribution ∧ (entry.Current → changed.Current) := by
  obtain ⟨found, restored, hfound, hrestored, -, rfl⟩ := modify_editAll_eq_some h hplace hmodify
  obtain rfl := Option.some.inj (hentry.symm.trans hfound)
  have howned := h.owned entry (List.mem_of_getElem? hentry)
  have hsame := howned.coherent.undisturbed_editAll hplace huntouched
  -- The entry did not leave the layout of the list.
  have hversion : (entry.editAll changes).2.version = list.format.version :=
    hsame.version.trans howned.version
  obtain rfl : restored = (entry.editAll changes).2 := by
    rw [hrestored]
    exact if_pos hversion
  have hunnoted : ¬ (entry.editAll changes).2.membership.stale = true := by
    rw [hsame.membership, howned.membership]
    exact Bool.false_ne_true
  refine ⟨if_neg hunnoted, _, rfl, hsame.contribution, fun hcurrent => ?_⟩
  exact hcurrent.editAll hplace

/-- An entry that is changed in place is encoded from its fields from then on, and one of which
nothing was set contributes what it did. -/
theorem Sourced.change {payload : Bytes} {tracked : Tracked} (h : Sourced payload tracked)
    (index : Nat) (changes : List Address.Change) :
    Sourced payload (tracked.step (.change index changes)) := by
  cases hentry : tracked.list.entries[index]? with
  | none =>
    have hunaltered : (Revision.change index changes).alters tracked.list = false := by
      rw [Revision.alters, hentry]
      rfl
    have hlist : tracked.list.apply (Revision.change index changes).operation = tracked.list := by
      unfold Revision.operation AddressList.apply modify
      simp only [hentry]
    rw [Tracked.step_of_not_alters hunaltered, hlist]
    exact h
  | some entry =>
    have hplace : ∀ edit ∈ changes.map Subtype.val, edit.inPlace := AddressBook.inPlace_changes
    obtain ⟨results, after, -, hmodify, -⟩ :=
      modify_of_getElem? hentry fun entry => entry.editAll (changes.map Subtype.val)
    have hlist : tracked.list.apply (Revision.change index changes).operation = after := by
      have hunit := modify_of_modify hmodify
      unfold Revision.operation AddressList.apply Address.Closure.ofEdits
      simp only [hunit]
    have hcoherent := h.coherent.modify hplace hmodify
    have halters : (Revision.change index changes).alters tracked.list =
        entry.touched (changes.map Subtype.val) := by
      rw [Revision.alters, hentry]
      rfl
    cases htouched : entry.touched (changes.map Subtype.val) with
    | true =>
      rw [Tracked.step_of_alters (halters.trans htouched), hlist]
      obtain ⟨huncached, changed, hentries, hcurrent⟩ :=
        h.coherent.modify_touched hentry hplace htouched hmodify
      refine ⟨hcoherent, ?_, fun _ => Encoding.keeps_of_uncached huncached _⟩
      simp only [hentries]
      exact forall₂_set h.stands (.changed hcurrent) index
    | false =>
      rw [Tracked.step_of_not_alters (halters.trans htouched), hlist]
      obtain ⟨hencoding, changed, hentries, hcontribution, hcurrent⟩ :=
        h.coherent.modify_untouched hentry hplace htouched hmodify
      refine ⟨hcoherent, ?_, fun haltered => ?_⟩
      · simp only [hentries]
        exact forall₂_set_left h.stands hentry fun _ hstands =>
          hstands.congr hcontribution hcurrent
      · simp only [hencoding]
        refine (h.keeps haltered).mono fun bytes hbytes => ?_
        rw [fields, hentries, entriesFields_set hentry hcontribution, List.length_set]
        exact hbytes

/-- A revision leaves the entries with the bytes that their sources tell. -/
theorem Sourced.step {payload : Bytes} {tracked : Tracked} (h : Sourced payload tracked)
    (revision : Revision) : Sourced payload (tracked.step revision) := by
  cases revision with
  | add address obtainable => exact h.add address obtainable
  | remove index => exact h.remove index
  | change index changes => exact h.change index changes
  | serialize => exact h.serialize

/-! ## What every run preserves -/

/-- Revisions leave the entries with the bytes that their sources tell. -/
theorem Sourced.run {payload : Bytes} {tracked : Tracked} (h : Sourced payload tracked)
    (revisions : List Revision) : Sourced payload (tracked.run revisions) := by
  induction revisions generalizing tracked with
  | nil => exact h
  | cons revision revisions ih => exact ih (h.step revision)

/-- A revised list that was read with its bytes kept is encoded as its count in the shortest form
and the bytes of its entries as their sources tell them, one after the other. -/
theorem spliced_revised {dialect : Dialect} {format : ListFormat} {id : ListId} {payload : Bytes}
    {start : AddressList} (hretain : dialect.retain = true)
    (hparse : parse dialect format id payload = .ok start) (revisions : List Revision)
    (haltered : ((Tracked.start dialect format id payload start).run revisions).altered = true)
    {bytes : Bytes} {after : AddressList}
    (hserialize : (start.applyAll (revisions.map Revision.operation)).serialize =
      (.ok bytes, after)) :
    Spliced payload (start.applyAll (revisions.map Revision.operation))
      ((Tracked.start dialect format id payload start).run revisions).sources bytes := by
  have hsourced := (sourced_parse hretain hparse).run revisions
  have hlist := Tracked.list_run (Tracked.start dialect format id payload start) revisions
  have hstands := hsourced.stands
  have hkeeps := hsourced.keeps haltered
  rw [hlist] at hstands hkeeps
  obtain ⟨parts, hparts, hbytes⟩ := parts_of_serialize hkeeps hserialize
  exact ⟨hstands.length_eq.symm, parts, (zipWith_bytes hstands).trans hparts, hbytes⟩

/-- An entry of a network that nobody knows. -/
def foreignEntry : Bytes :=
  [0, 0, 0, 0, 1, 9, 2, 0xAA, 0xBB, 0x20, 0x8D]

/-- Three entries behind a count in a longer form than it needs, and another byte. -/
def threeEntries : Bytes :=
  [0xFD, 3, 0] ++ wideEntry ++ foreignEntry ++ wideEntry ++ [0xEE]

/-- The last entry moves to another port. -/
def movedLast : Address.Change :=
  ⟨.port 18444, rfl⟩

/-- The list is encoded, its last entry is moved, the list is encoded again, loses its first entry,
and takes a stranger. -/
def revised : List Revision :=
  [.serialize, .change 2 [movedLast], .serialize, .remove 0,
    .add (stranger .tagged) (obtainable_stranger .tagged)]

/-- The entry of the unknown network is encoded as it was read, the moved entry with the shortest
form of its services, and behind them the stranger. -/
theorem spliced_revised_threeEntries :
    ∃ start, parse ⟨.main, Dialect.currentVersion, true⟩ .addrv2 ⟨0⟩ threeEntries = .ok start ∧
      ∃ bytes, (start.applyAll (revised.map Revision.operation)).serialize.1 = .ok bytes ∧
        Spliced threeEntries (start.applyAll (revised.map Revision.operation))
          [.parsed 18 11, .changed, .added (stranger .tagged)] bytes ∧
        bytes = [3] ++ foreignEntry ++ [0, 0, 0, 0, 9, 1, 4, 10, 0, 0, 1, 0x48, 0x0C] ++
          [0, 0, 0, 0, 0, 1, 4, 9, 9, 9, 9, 0x10, 0x92] := by
  obtain ⟨start, bytes, after, hparse, haltered, hsources, hserialize, hbytes⟩ :
      ∃ start bytes after,
        parse ⟨.main, Dialect.currentVersion, true⟩ .addrv2 ⟨0⟩ threeEntries = .ok start ∧
        ((Tracked.start ⟨.main, Dialect.currentVersion, true⟩ .addrv2 ⟨0⟩ threeEntries start).run
          revised).altered = true ∧
        ((Tracked.start ⟨.main, Dialect.currentVersion, true⟩ .addrv2 ⟨0⟩ threeEntries start).run
          revised).sources = [.parsed 18 11, .changed, .added (stranger .tagged)] ∧
        (start.applyAll (revised.map Revision.operation)).serialize = (.ok bytes, after) ∧
        bytes = [3] ++ foreignEntry ++ [0, 0, 0, 0, 9, 1, 4, 10, 0, 0, 1, 0x48, 0x0C] ++
          [0, 0, 0, 0, 0, 1, 4, 9, 9, 9, 9, 0x10, 0x92] :=
    ⟨_, _, _, rfl, rfl, rfl, rfl, rfl⟩
  have hspliced := spliced_revised rfl hparse revised haltered hserialize
  rw [hsources] at hspliced
  exact ⟨start, hparse, bytes, congrArg Prod.fst hserialize, hspliced, hbytes⟩

end AddressList

end PeerProtocol
