import PeerProtocol.Proofs.Frame.Search

/-!
# Going on with a search

A search that finds no magic keeps of its buffer the magic that the buffer has begun (`Begun`): the
longest end of the buffer that is the front of a magic. That nothing longer could be kept follows
from the search itself: what would complete a longer front is searched on from what was kept, and is
found nowhere, because the two together are shorter than a magic. The main statement, `searched`,
says what the search answers in both cases, and that searching on from what was kept finds a magic
exactly where searching all bytes at once does.
-/

namespace PeerProtocol

namespace Network

/-- The magic that a buffer has begun: the longest end of the buffer that is a front of the magic
and not all of it. -/
structure Begun (network : Network) (buffer begun : Bytes) : Prop where
  suffix : begun <:+ buffer
  front : begun <+: network.magic
  incomplete : begun ≠ network.magic
  longest : ∀ other, other <:+ buffer → other <+: network.magic → other ≠ network.magic →
    other.length ≤ begun.length

variable {network : Network} {buffer : Bytes}

/-- A front of the magic that is not all of it is shorter than the magic. -/
theorem length_lt_of_front {front : Bytes} (h : front <+: network.magic)
    (hincomplete : front ≠ network.magic) : front.length < 4 := by
  rw [← network.length_magic]
  exact Nat.lt_of_le_of_ne h.length_le fun hlength => hincomplete (h.eq_of_length hlength)

/-- A buffer has begun one magic only. -/
theorem Begun.eq {begun other : Bytes} (h : network.Begun buffer begun)
    (hother : network.Begun buffer other) : begun = other := by
  have hlength : begun.length = other.length :=
    Nat.le_antisymm (hother.longest begun h.suffix h.front h.incomplete)
      (h.longest other hother.suffix hother.front hother.incomplete)
  rw [List.suffix_iff_eq_drop.1 h.suffix, List.suffix_iff_eq_drop.1 hother.suffix, hlength]

/-- What a search without success keeps is the magic that the buffer has begun. -/
theorem begun_of_absent {discard : Nat} (h : network.seekMagic buffer = .absent discard) :
    network.Begun buffer (buffer.drop discard) := by
  obtain ⟨last, hlast, hlength, hkept, -⟩ := kept_of_absent h
  have hkeptLength : (buffer.drop discard).length = last := by
    rw [List.length_drop]
    omega
  refine ⟨List.drop_suffix discard buffer, ?_, fun hall => ?_, fun other hsuffix hfront hne => ?_⟩
  · rw [hkept]
    exact List.take_prefix last network.magic
  · rw [hall, network.length_magic] at hkeptLength
    omega
  · by_contra hlonger
    rw [Nat.not_le, hkeptLength] at hlonger
    obtain ⟨rest, hrest⟩ := hfront
    obtain ⟨before, hbefore⟩ := hsuffix
    -- The bytes that complete the longer front make up a magic at the end of the buffer.
    have hwhole : network.magic <:+: buffer ++ rest :=
      ⟨before, [], by rw [← hbefore, ← hrest, List.append_nil, List.append_assoc]⟩
    obtain ⟨-, -, hresume⟩ := seekMagic_append_of_absent h
    cases hseek : network.seekMagic (buffer.drop discard ++ rest) with
    | absent others =>
      have habsent := hresume rest
      rw [hseek, MagicSearch.shift] at habsent
      exact seekMagic_eq_absent_iff.1 ⟨_, habsent⟩ hwhole
    | found start =>
      -- But what was kept and these bytes have no room for a magic.
      obtain ⟨hfour, hle, -⟩ := drop_of_found hseek
      have htotal := congrArg List.length hrest
      rw [List.length_append, network.length_magic] at htotal
      rw [List.length_append, hkeptLength] at hle
      omega

/-- A search is without success exactly where there is no magic, and discards all but the magic that
the buffer has begun. -/
theorem seekMagic_eq_absent_discard_iff {discard : Nat} :
    network.seekMagic buffer = .absent discard ↔
      ¬ network.magic <:+: buffer ∧ discard ≤ buffer.length ∧
        network.Begun buffer (buffer.drop discard) := by
  constructor
  · intro h
    obtain ⟨hle, -⟩ := seekMagic_append_of_absent h
    exact ⟨seekMagic_eq_absent_iff.1 ⟨discard, h⟩, hle, begun_of_absent h⟩
  · rintro ⟨hnone, hle, hbegun⟩
    obtain ⟨other, hother⟩ := seekMagic_eq_absent_iff.2 hnone
    obtain ⟨hotherLe, -⟩ := seekMagic_append_of_absent hother
    have hlength := congrArg List.length (hbegun.eq (begun_of_absent hother))
    rw [List.length_drop, List.length_drop] at hlength
    rw [hother, MagicSearch.absent.injEq]
    omega

/-- A search succeeds exactly where there is a magic. -/
theorem exists_found_iff :
    (∃ start, network.seekMagic buffer = .found start) ↔ network.magic <:+: buffer := by
  constructor
  · rintro ⟨start, hseek⟩
    by_contra hnone
    obtain ⟨discard, habsent⟩ := seekMagic_eq_absent_iff.2 hnone
    rw [hseek] at habsent
    cases habsent
  · intro h
    obtain ⟨noise, rest, hopens⟩ := exists_opens h
    exact ⟨_, hopens.seekMagic_eq⟩

/-- What the search for the magic says of a buffer, and of what may follow it. -/
structure Searched (network : Network) (buffer : Bytes) : Prop where
  /-- The search answers with a place exactly if the first magic ends there. -/
  found_iff : ∀ start, network.seekMagic buffer = .found start ↔
    ∃ noise rest, network.Opens buffer noise rest ∧ start = noise.length + 4
  /-- It discards bytes exactly if there is no magic and those that are kept are the longest end of
  the buffer that is a front of the magic and not all of it. -/
  absent_iff : ∀ discard, network.seekMagic buffer = .absent discard ↔
    ¬ network.magic <:+: buffer ∧ discard ≤ buffer.length ∧
      network.Begun buffer (buffer.drop discard)
  /-- Searching on from the bytes that are kept succeeds exactly if searching all bytes does. -/
  resumes : ∀ discard, network.seekMagic buffer = .absent discard → ∀ more,
    (∃ start, network.seekMagic (buffer.drop discard ++ more) = .found start) ↔
      ∃ start, network.seekMagic (buffer ++ more) = .found start
  /-- The place where it succeeds is less by the number of the bytes that were discarded. -/
  shifts : ∀ discard, network.seekMagic buffer = .absent discard → ∀ more start,
    network.seekMagic (buffer.drop discard ++ more) = .found start ↔
      network.seekMagic (buffer ++ more) = .found (start + discard)
  /-- To discard the bytes neither loses nor makes up a magic. -/
  keeps : ∀ discard, network.seekMagic buffer = .absent discard → ∀ more,
    network.magic <:+: buffer.drop discard ++ more ↔ network.magic <:+: buffer ++ more

/-- The search for the magic of a network finds the first one. Where there is none it keeps the
longest beginning of one at the end of the buffer, and may go on from it. -/
theorem searched (network : Network) (buffer : Bytes) : network.Searched buffer := by
  have hshifts {discard : Nat} (h : network.seekMagic buffer = .absent discard)
      (more : Bytes) (start : Nat) :
      network.seekMagic (buffer.drop discard ++ more) = .found start ↔
        network.seekMagic (buffer ++ more) = .found (start + discard) := by
    obtain ⟨-, -, hresume⟩ := seekMagic_append_of_absent h
    rw [hresume]
    cases network.seekMagic (buffer.drop discard ++ more) with
    | absent others => simp only [MagicSearch.shift, reduceCtorEq]
    | found place =>
      simp only [MagicSearch.shift, MagicSearch.found.injEq, Nat.add_right_cancel_iff]
  have hresumes {discard : Nat} (h : network.seekMagic buffer = .absent discard) (more : Bytes) :
      (∃ start, network.seekMagic (buffer.drop discard ++ more) = .found start) ↔
        ∃ start, network.seekMagic (buffer ++ more) = .found start := by
    constructor
    · rintro ⟨start, hstart⟩
      exact ⟨_, (hshifts h more start).1 hstart⟩
    · rintro ⟨start, hstart⟩
      obtain ⟨-, -, hresume⟩ := seekMagic_append_of_absent h
      cases hseek : network.seekMagic (buffer.drop discard ++ more) with
      | found place => exact ⟨place, rfl⟩
      | absent others =>
        rw [hresume, hseek, MagicSearch.shift] at hstart
        cases hstart
  exact
    { found_iff := fun _ => seekMagic_eq_found_iff
      absent_iff := fun _ => seekMagic_eq_absent_discard_iff
      resumes := fun _ => hresumes
      shifts := fun _ => hshifts
      keeps := fun _ h more =>
        exists_found_iff.symm.trans ((hresumes h more).trans exists_found_iff) }

end Network

end PeerProtocol
