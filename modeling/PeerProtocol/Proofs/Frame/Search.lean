import Mathlib.Data.Nat.Find
import PeerProtocol.Frame.Magic

/-!
# What the search for the magic finds

The matcher's state is a count `matched`: the last bytes that were seen begin the magic
(`Matched`). From this follow the three facts that framing needs: a search that has found the
magic is not changed by more bytes (`seekMagic_append_of_found`), one that has not may go on from
the bytes it keeps (`seekMagic_append_of_absent`), and after bytes that do not hold the magic the
next magic is found where it stands (`seekMagic_noise`). Only the last one uses that no magic
holds its first byte twice. With it the search finds the first magic of a buffer, and finds one
wherever there is one (`seekMagic_eq_found_iff`, `seekMagic_eq_absent_iff`).
-/

namespace PeerProtocol

namespace MagicSearch

/-- The last `matched` bytes of what was seen begin the magic, which is not yet complete. -/
structure Matched (magic seen : Bytes) (matched : Nat) : Prop where
  lt_length : matched < magic.length
  suffix : magic.take matched <:+ seen

/-- Before anything was seen nothing is matched. -/
theorem matched_nil {magic : Bytes} (h : 0 < magic.length) : Matched magic [] 0 :=
  ⟨h, by simp⟩

/-- The matcher counts bytes of the magic at the end of what was seen. -/
theorem Matched.take_advance_suffix {magic seen : Bytes} {matched : Nat}
    (h : Matched magic seen matched) (byte : UInt8) :
    magic.take (advance magic matched byte) <:+ seen ++ [byte] := by
  unfold advance
  split
  next hnext =>
    obtain ⟨front, hfront⟩ := h.suffix
    rw [List.take_add_one, hnext]
    exact ⟨front, by simp [← hfront]⟩
  next =>
    split
    next hfirst =>
      obtain ⟨rest, rfl⟩ := List.head?_eq_some_iff.1 hfirst
      exact ⟨seen, by simp⟩
    next => simp

/-- One more byte keeps the matcher right, unless it completes the magic. -/
theorem Matched.advance {magic seen : Bytes} {matched : Nat} (h : Matched magic seen matched)
    {byte : UInt8} (hne : advance magic matched byte ≠ magic.length) :
    Matched magic (seen ++ [byte]) (MagicSearch.advance magic matched byte) := by
  refine ⟨?_, h.take_advance_suffix byte⟩
  have hlt := h.lt_length
  unfold MagicSearch.advance at hne ⊢
  grind

/-- A magic that was found ends where the search says. -/
theorem scan_found {magic seen bytes : Bytes} {matched count start : Nat}
    (h : Matched magic seen matched) (hscan : scan magic matched count bytes = .found start) :
    ∃ used, start = count + used ∧ 0 < used ∧ used ≤ bytes.length ∧
      magic <:+ seen ++ bytes.take used := by
  induction bytes generalizing seen matched count with
  | nil => simp [scan] at hscan
  | cons byte rest ih =>
    simp only [scan] at hscan
    split at hscan
    next hcomplete =>
      have hstart := found.inj hscan
      have hsuffix := h.take_advance_suffix byte
      rw [hcomplete, List.take_length] at hsuffix
      exact ⟨1, by omega, by omega, by simp, by simpa using hsuffix⟩
    next hne =>
      obtain ⟨used, hstart, hpos, hle, hsuffix⟩ := ih (h.advance hne) hscan
      exact ⟨used + 1, by omega, by omega, by simpa using hle, by simpa using hsuffix⟩

/-- More bytes do not change where the magic was found. -/
theorem scan_append_of_found {magic bytes : Bytes} {matched count start : Nat}
    (hscan : scan magic matched count bytes = .found start) (more : Bytes) :
    scan magic matched count (bytes ++ more) = .found start := by
  induction bytes generalizing matched count with
  | nil => simp [scan] at hscan
  | cons byte rest ih =>
    simp only [scan, List.cons_append] at hscan ⊢
    split at hscan
    next hcomplete => rw [if_pos hcomplete]; exact hscan
    next hne => rw [if_neg hne]; exact ih hscan

/-- A search without success stops in a state from which more bytes are searched. -/
theorem scan_absent {magic seen bytes : Bytes} {matched count discard : Nat}
    (h : Matched magic seen matched) (hscan : scan magic matched count bytes = .absent discard) :
    ∃ last, Matched magic (seen ++ bytes) last ∧ discard = count + bytes.length - last ∧
      ∀ more, scan magic matched count (bytes ++ more) =
        scan magic last (count + bytes.length) more := by
  induction bytes generalizing seen matched count with
  | nil =>
    simp only [scan, absent.injEq] at hscan
    exact ⟨matched, by simpa using h, by simpa using hscan.symm, fun more => rfl⟩
  | cons byte rest ih =>
    simp only [scan] at hscan
    split at hscan
    next => simp at hscan
    next hne =>
      obtain ⟨last, hlast, hdiscard, hmore⟩ := ih (h.advance hne) hscan
      have hcount : count + (byte :: rest).length = count + 1 + rest.length := by
        simp only [List.length_cons]
        omega
      refine ⟨last, by simpa using hlast, by rw [hcount]; exact hdiscard, fun more => ?_⟩
      rw [hcount, List.cons_append, scan, if_neg hne, hmore more]

/-- The outcome of a search that began later in the buffer by `offset` bytes. -/
def shift (offset : Nat) : MagicSearch → MagicSearch
  | found start => found (start + offset)
  | absent discard => absent (discard + offset)

/-- Where a search begins only shifts its outcome. -/
theorem scan_shift {magic bytes : Bytes} {matched count : Nat} (hle : matched ≤ count)
    (offset : Nat) :
    scan magic matched (count + offset) bytes = (scan magic matched count bytes).shift offset := by
  induction bytes generalizing matched count with
  | nil =>
    simp only [scan, shift, absent.injEq]
    omega
  | cons byte rest ih =>
    simp only [scan]
    split
    next => simp only [shift, found.injEq]; omega
    next =>
      have hadvance : advance magic matched byte ≤ count + 1 := by
        unfold advance
        split
        · omega
        · split <;> omega
      rw [Nat.add_right_comm]
      exact ih hadvance

/-- The next byte of the magic is matched. -/
theorem advance_getElem {magic : Bytes} {matched : Nat} (h : matched < magic.length) :
    advance magic matched magic[matched] = matched + 1 := by
  rw [advance, if_pos (List.getElem?_eq_getElem h)]

/-- The bytes of the magic itself advance the matcher one by one. -/
theorem scan_take {magic : Bytes} {matched last : Nat} (hle : matched ≤ last)
    (hlast : last < magic.length) (count : Nat) (more : Bytes) :
    scan magic matched count ((magic.take last).drop matched ++ more) =
      scan magic last (count + (last - matched)) more := by
  induction hsteps : last - matched generalizing matched count with
  | zero =>
    have hmatched : matched = last := by omega
    subst hmatched
    simp
  | succ steps ih =>
    have hlt : matched < (magic.take last).length := by
      simp only [List.length_take]
      omega
    rw [List.drop_eq_getElem_cons hlt, List.cons_append, scan, List.getElem_take,
      advance_getElem, if_neg (by omega), ih (by omega) (count + 1) (by omega)]
    congr 1
    omega

/-- What is missing of the magic completes it. -/
theorem scan_drop {magic : Bytes} {matched : Nat} (hlt : matched < magic.length) (count : Nat)
    (more : Bytes) :
    scan magic matched count (magic.drop matched ++ more) =
      .found (count + (magic.length - matched)) := by
  induction hsteps : magic.length - matched generalizing matched count with
  | zero => omega
  | succ steps ih =>
    rw [List.drop_eq_getElem_cons hlt, List.cons_append, scan, advance_getElem]
    split
    next => simp only [found.injEq]; omega
    next hne =>
      rw [ih (by omega) (count + 1) (by omega)]
      simp only [found.injEq]
      omega

/-- A magic that does not hold its first byte twice is found whatever part of it was matched
before, because its first byte can only begin anew. -/
theorem scan_magic {first : UInt8} {others : Bytes} {matched count : Nat} (hfresh : first ∉ others)
    (more : Bytes) :
    scan (first :: others) matched count (first :: others ++ more) =
      .found (count + (first :: others).length) := by
  -- Whatever was matched, the first byte of the magic leaves one byte matched.
  have hadvance : advance (first :: others) matched first = 1 := by
    unfold advance
    split
    next hnext =>
      cases matched with
      | zero => rfl
      | succ index =>
        rw [List.getElem?_cons_succ] at hnext
        exact absurd (List.mem_of_getElem? hnext) hfresh
    next => simp
  rw [List.cons_append, scan, hadvance]
  split
  next hone => rw [← hone]
  next hne =>
    have hlt : 1 < (first :: others).length := by
      simp only [List.length_cons] at hne ⊢
      omega
    have hrest := scan_drop hlt (count + 1) more
    rw [List.drop_one, List.tail_cons] at hrest
    rw [hrest, found.injEq]
    omega

end MagicSearch

namespace Network

/-- No magic holds its first byte twice. -/
theorem magic_eq_cons (network : Network) :
    ∃ first others, network.magic = first :: others ∧ first ∉ others := by
  cases network <;> exact ⟨_, _, rfl, by decide⟩

/-- Nothing is matched before a search. -/
theorem matched_start (network : Network) : MagicSearch.Matched network.magic [] 0 :=
  MagicSearch.matched_nil (by rw [network.length_magic]; decide)

/-- A search that found the magic found it right before the place that it answers with. -/
theorem drop_of_found {network : Network} {buffer : Bytes} {start : Nat}
    (h : network.seekMagic buffer = .found start) :
    4 ≤ start ∧ start ≤ buffer.length ∧
      buffer.drop (start - 4) = network.magic ++ buffer.drop start := by
  obtain ⟨used, hstart, -, hle, front, hfront⟩ :=
    MagicSearch.scan_found network.matched_start h
  have hused : start = used := by omega
  subst hused
  rw [List.nil_append] at hfront
  have hlength := congrArg List.length hfront
  rw [List.length_append, network.length_magic, List.length_take, Nat.min_eq_left hle] at hlength
  refine ⟨by omega, hle, ?_⟩
  have hbuffer : buffer = front ++ (network.magic ++ buffer.drop start) := by
    rw [← List.append_assoc, hfront, List.take_append_drop]
  have hfrontLength : start - 4 = front.length := by omega
  have hdrop := congrArg (List.drop front.length) hbuffer
  rwa [List.drop_left, ← hfrontLength] at hdrop

/-- A buffer that begins with the magic is found to do so. -/
theorem seekMagic_magic (network : Network) (more : Bytes) :
    network.seekMagic (network.magic ++ more) = .found 4 := by
  have h := MagicSearch.scan_drop network.matched_start.lt_length 0 more
  simpa [seekMagic, network.length_magic] using h

/-- More bytes do not change where the magic was found. -/
theorem seekMagic_append_of_found {network : Network} {buffer : Bytes} {start : Nat}
    (h : network.seekMagic buffer = .found start) (more : Bytes) :
    network.seekMagic (buffer ++ more) = .found start :=
  MagicSearch.scan_append_of_found h more

/-- What a search without success keeps is the front of a magic, and with more bytes the search goes
on from there. -/
theorem kept_of_absent {network : Network} {buffer : Bytes} {discard : Nat}
    (h : network.seekMagic buffer = .absent discard) :
    ∃ last, last < 4 ∧ buffer.length = discard + last ∧
      buffer.drop discard = network.magic.take last ∧
      ∀ more, network.seekMagic (buffer ++ more) =
        MagicSearch.scan network.magic last buffer.length more := by
  obtain ⟨last, ⟨hlt, front, hfront⟩, hdiscard, hmore⟩ :=
    MagicSearch.scan_absent network.matched_start h
  rw [List.nil_append] at hfront
  rw [network.length_magic] at hlt
  have htake : (network.magic.take last).length = last := by
    rw [List.length_take, network.length_magic]
    omega
  have hlength := congrArg List.length hfront
  rw [List.length_append, htake] at hlength
  have hfrontLength : discard = front.length := by omega
  refine ⟨last, hlt, by omega, ?_, fun more => ?_⟩
  · rw [hfrontLength, ← hfront]
    exact List.drop_left
  · rw [seekMagic, hmore, Nat.zero_add]

/-- What a search without success keeps is shorter than a magic, and with more bytes the search
may go on from it: the bytes that are discarded only shift the outcome. -/
theorem seekMagic_append_of_absent {network : Network} {buffer : Bytes} {discard : Nat}
    (h : network.seekMagic buffer = .absent discard) :
    discard ≤ buffer.length ∧ (buffer.drop discard).length < 4 ∧
      (∀ more, network.seekMagic (buffer ++ more) =
        (network.seekMagic (buffer.drop discard ++ more)).shift discard) := by
  obtain ⟨last, hlt, hlength, hkept, hmore⟩ := kept_of_absent h
  refine ⟨by omega, by rw [List.length_drop]; omega, fun more => ?_⟩
  have hresume := MagicSearch.scan_take (Nat.zero_le last)
    (by rw [network.length_magic]; exact hlt) 0 more
  rw [List.drop_zero, Nat.sub_zero, Nat.zero_add] at hresume
  have hcount : buffer.length = last + discard := by omega
  rw [hmore more, seekMagic, hkept, hresume, hcount, MagicSearch.scan_shift (Nat.le_refl last)]

/-- After bytes that do not hold the magic, the next magic is found where it stands: the end of
such bytes and the beginning of the magic never make up another one. -/
theorem seekMagic_noise {network : Network} {noise : Bytes} (h : ¬ network.magic <:+: noise)
    (more : Bytes) :
    network.seekMagic (noise ++ (network.magic ++ more)) = .found (noise.length + 4) := by
  cases hseek : network.seekMagic noise with
  | found start =>
    obtain ⟨-, -, hdrop⟩ := drop_of_found hseek
    exact absurd ⟨noise.take (start - 4), noise.drop start, by
      rw [List.append_assoc, ← hdrop, List.take_append_drop]⟩ h
  | absent discard =>
    -- At worst the noise ends in a front of the magic. The first byte of the next magic is not in
    -- the rest of it, so the matcher begins anew there.
    obtain ⟨last, -, -, hmore⟩ := MagicSearch.scan_absent network.matched_start hseek
    obtain ⟨first, others, hmagic, hfresh⟩ := network.magic_eq_cons
    rw [seekMagic, hmore, hmagic, MagicSearch.scan_magic hfresh, ← hmagic, network.length_magic,
      Nat.zero_add]

/-! ## The first magic -/

/-- The first magic of a buffer stands right after `noise`, and `rest` follows it. -/
structure Opens (network : Network) (buffer noise rest : Bytes) : Prop where
  buffer_eq : buffer = noise ++ (network.magic ++ rest)
  first : ∀ earlier, earlier ++ network.magic <+: buffer → noise.length ≤ earlier.length

/-- A buffer that holds the magic holds a first one. -/
theorem exists_opens {network : Network} {buffer : Bytes} (h : network.magic <:+: buffer) :
    ∃ noise rest, network.Opens buffer noise rest := by
  classical
  have hsome : ∃ count earlier, earlier.length = count ∧ earlier ++ network.magic <+: buffer := by
    obtain ⟨before, after, hbuffer⟩ := h
    exact ⟨before.length, before, rfl, after, hbuffer⟩
  obtain ⟨noise, hlength, rest, hrest⟩ := Nat.find_spec hsome
  refine ⟨noise, rest, by rw [← hrest, List.append_assoc], fun earlier hearlier => ?_⟩
  rw [hlength]
  exact Nat.find_min' hsome ⟨earlier, rfl, hearlier⟩

/-- The first magic of a buffer is found. -/
theorem Opens.seekMagic_eq {network : Network} {buffer noise rest : Bytes}
    (h : network.Opens buffer noise rest) :
    network.seekMagic buffer = .found (noise.length + 4) := by
  have hnoise : ¬ network.magic <:+: noise := by
    -- A magic inside the noise would be an earlier one.
    rintro ⟨before, after, rfl⟩
    have hearlier : before ++ network.magic <+: buffer :=
      ⟨after ++ (network.magic ++ rest), by
        rw [h.buffer_eq, List.append_assoc (before ++ network.magic)]⟩
    have hle := h.first before hearlier
    simp only [List.length_append, network.length_magic] at hle
    omega
  rw [h.buffer_eq]
  exact seekMagic_noise hnoise rest

/-- The search answers with the end of the first magic. -/
theorem seekMagic_eq_found_iff {network : Network} {buffer : Bytes} {start : Nat} :
    network.seekMagic buffer = .found start ↔
      ∃ noise rest, network.Opens buffer noise rest ∧ start = noise.length + 4 := by
  constructor
  · intro h
    obtain ⟨-, -, hdrop⟩ := drop_of_found h
    obtain ⟨noise, rest, hopens⟩ : ∃ noise rest, network.Opens buffer noise rest :=
      exists_opens ⟨buffer.take (start - 4), buffer.drop start, by
        rw [List.append_assoc, ← hdrop, List.take_append_drop]⟩
    rw [hopens.seekMagic_eq, MagicSearch.found.injEq] at h
    exact ⟨noise, rest, hopens, h.symm⟩
  · rintro ⟨noise, rest, hopens, rfl⟩
    exact hopens.seekMagic_eq

/-- The search is without success exactly where there is no magic. -/
theorem seekMagic_eq_absent_iff {network : Network} {buffer : Bytes} :
    (∃ discard, network.seekMagic buffer = .absent discard) ↔ ¬ network.magic <:+: buffer := by
  constructor
  · rintro ⟨discard, habsent⟩ hinfix
    obtain ⟨noise, rest, hopens⟩ := exists_opens hinfix
    rw [hopens.seekMagic_eq] at habsent
    cases habsent
  · intro h
    cases hseek : network.seekMagic buffer with
    | absent discard => exact ⟨discard, rfl⟩
    | found start =>
      obtain ⟨noise, rest, hopens, -⟩ := seekMagic_eq_found_iff.1 hseek
      exact absurd ⟨noise, rest, by rw [hopens.buffer_eq, List.append_assoc]⟩ h

end Network

end PeerProtocol
