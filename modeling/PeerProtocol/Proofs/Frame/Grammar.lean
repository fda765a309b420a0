import PeerProtocol.Proofs.Frame.RoundTrip

/-!
# The grammar of frames

What a buffer is whose first frame is whole (`Whole`), and one that ends before its first frame does
(`Unfinished`), said of its parts: the bytes before the first magic, the twenty bytes that spell a
header, the payload, and what follows. Decoding accepts exactly the first, answers with nothing on
exactly the second, and fails on all other buffers. The main statement, `exact_decode`, adds what
callers rely on who decode a growing buffer again and again: a frame or an error stays what it is
when more bytes follow, and no front of the buffer that is shorter than its frame holds one.
-/

namespace PeerProtocol

open Bytes

namespace Frame

/-- A buffer whose first frame is whole, holds this message and ends after `used` bytes: bytes
before the first magic, the magic, a header, a payload of the header's size and checksum that is
parsed as the message under the header's name, and whatever follows. -/
inductive Whole (dialect : Dialect) (id : ListId) (buffer : Bytes) (message : Message)
    (used : Nat) : Prop where
  | intro {noise raw payload tail : Bytes} {header : Header}
      (opens : dialect.network.Opens buffer noise (raw ++ (payload ++ tail)))
      (spelled : header.Spelled raw) (size : payload.length = header.size)
      (checksum : PeerProtocol.checksum payload = header.checksum)
      (parsed : Message.parse dialect id header.command payload = .ok message)
      (used_eq : used = noise.length + overhead + payload.length)

/-- A buffer that ends before its first frame does: there is no magic, or too little for a header
follows the first one, or too little for the payload follows a header. -/
inductive Unfinished (network : Network) (buffer : Bytes) : Prop where
  | noMagic (absent : ¬ network.magic <:+: buffer)
  | shortHeader {noise rest : Bytes} (opens : network.Opens buffer noise rest)
      (short : rest.length < Header.length)
  | shortPayload {noise raw body : Bytes} {header : Header}
      (opens : network.Opens buffer noise (raw ++ body)) (spelled : header.Spelled raw)
      (short : body.length < header.size)

/-- What decoding a buffer says of it, and of the buffers that it begins and that begin it. -/
structure Exact (dialect : Dialect) (id : ListId) (buffer : Bytes) : Prop where
  /-- A message is decoded exactly off a whole frame that holds it. -/
  whole_iff : ∀ message used,
    decode dialect id buffer = .ok (some (message, used)) ↔ Whole dialect id buffer message used
  /-- Nothing is decoded exactly where the frame is not finished. -/
  unfinished_iff : decode dialect id buffer = .ok none ↔ Unfinished dialect.network buffer
  /-- All other buffers are errors. -/
  broken_iff : (∃ error, decode dialect id buffer = .error error) ↔
    (¬ ∃ message used, Whole dialect id buffer message used) ∧ ¬ Unfinished dialect.network buffer
  /-- A frame or an error does not change when more bytes follow. -/
  stable : decode dialect id buffer ≠ .ok none → ∀ more,
    decode dialect id (buffer ++ more) = decode dialect id buffer
  /-- Nothing is decoded off a front of the buffer that is shorter than the frame. -/
  front : ∀ message used, decode dialect id buffer = .ok (some (message, used)) →
    ∀ front, front <+: buffer → front.length < used → decode dialect id front = .ok none

variable {dialect : Dialect} {id : ListId} {buffer : Bytes}

/-- What stands behind the first magic is split at the header's length. -/
theorem split_of_opens {noise raw body : Bytes}
    (hopens : dialect.network.Opens buffer noise (raw ++ body))
    (hlength : raw.length = Header.length) :
    Bytes.split? Header.length (buffer.drop (noise.length + 4)) = some (raw, body) := by
  rw [hopens.buffer_eq, ← List.drop_drop, List.drop_left,
    List.drop_left' dialect.network.length_magic]
  exact split?_eq_some_iff.2 ⟨rfl, hlength⟩

/-- With a header spelled behind the first magic, decoding is up to the payload. -/
theorem decode_of_spelled (id : ListId) {noise raw body : Bytes} {header : Header}
    (hopens : dialect.network.Opens buffer noise (raw ++ body)) (hspelled : header.Spelled raw) :
    decode dialect id buffer =
      match Bytes.split? header.size body with
      | none => .ok none
      | some (payload, _) =>
        (header.message dialect id payload).map fun message =>
          some (message, noise.length + 4 + Header.length + header.size) := by
  have hdecode := decode_of_header id hopens.seekMagic_eq
    (split_of_opens hopens hspelled.length_eq)
    ((Header.decode_eq_ok_iff hspelled.length_eq).2 hspelled) []
  rwa [List.append_nil, List.append_nil] at hdecode

/-- A whole frame is decoded. -/
theorem decode_of_whole {message : Message} {used : Nat}
    (h : Whole dialect id buffer message used) :
    decode dialect id buffer = .ok (some (message, used)) := by
  obtain ⟨hopens, hspelled, hsize, hchecksum, hparsed, rfl⟩ := h
  rw [decode_of_spelled id hopens hspelled, split?_eq_some_iff.2 ⟨rfl, hsize⟩, ← hsize]
  simp only [Header.message_eq_ok_iff.2 ⟨hchecksum, hparsed⟩, Except.map]
  rfl

/-- Nothing is decoded where the frame is not finished. -/
theorem decode_of_unfinished (h : Unfinished dialect.network buffer) :
    decode dialect id buffer = .ok none := by
  cases h with
  | noMagic habsent =>
    obtain ⟨discard, hseek⟩ := Network.seekMagic_eq_absent_iff.2 habsent
    exact decode_of_absent hseek
  | @shortHeader noise rest hopens hshort =>
    refine decode_of_short_header hopens.seekMagic_eq ?_
    rw [hopens.buffer_eq, ← List.drop_drop, List.drop_left,
      List.drop_left' dialect.network.length_magic]
    exact split?_eq_none_iff.2 hshort
  | shortPayload hopens hspelled hshort =>
    rw [decode_of_spelled id hopens hspelled, split?_eq_none_iff.2 hshort]

/-- Every buffer has a whole frame, or ends before its first frame does, or is an error. -/
theorem decode_cases (dialect : Dialect) (id : ListId) (buffer : Bytes) :
    (∃ message used, Whole dialect id buffer message used) ∨
      Unfinished dialect.network buffer ∨ ∃ error, decode dialect id buffer = .error error := by
  cases hseek : dialect.network.seekMagic buffer with
  | absent discard => exact .inr (.inl (.noMagic (Network.seekMagic_eq_absent_iff.1 ⟨_, hseek⟩)))
  | found start =>
    obtain ⟨noise, rest, hopens, rfl⟩ := Network.seekMagic_eq_found_iff.1 hseek
    by_cases hheader : rest.length < Header.length
    · exact .inr (.inl (.shortHeader hopens hheader))
    -- There is a header's worth of bytes, which spell a header or do not.
    obtain ⟨raw, body, rfl, hlength⟩ : ∃ raw body, rest = raw ++ body ∧
        raw.length = Header.length :=
      ⟨rest.take Header.length, rest.drop Header.length, (List.take_append_drop _ _).symm,
        List.length_take_of_le (Nat.le_of_not_lt hheader)⟩
    cases hdecode : Header.decode raw with
    | error error =>
      have hbroken :=
        decode_of_broken_header id hseek (split_of_opens hopens hlength) hdecode []
      rw [List.append_nil] at hbroken
      exact .inr (.inr ⟨error, hbroken⟩)
    | ok header =>
      have hspelled := (Header.decode_eq_ok_iff hlength).1 hdecode
      cases hpayload : Bytes.split? header.size body with
      | none =>
        exact .inr (.inl (.shortPayload hopens hspelled (split?_eq_none_iff.1 hpayload)))
      | some parts =>
        obtain ⟨payload, tail⟩ := parts
        obtain ⟨rfl, hsize⟩ := split?_eq_some_iff.1 hpayload
        cases hmessage : header.message dialect id payload with
        | error error =>
          refine .inr (.inr ⟨error, ?_⟩)
          rw [decode_of_spelled id hopens hspelled, hpayload]
          simp only [hmessage, Except.map]
        | ok message =>
          obtain ⟨hchecksum, hparsed⟩ := Header.message_eq_ok_iff.1 hmessage
          exact .inl ⟨message, _, hopens, hspelled, hsize, hchecksum, hparsed, rfl⟩

/-- No front of a buffer that is shorter than its first frame holds a frame or an error. -/
theorem decode_front {message : Message} {used : Nat}
    (h : decode dialect id buffer = .ok (some (message, used))) {front : Bytes}
    (hfront : front <+: buffer) (hshort : front.length < used) :
    decode dialect id front = .ok none := by
  by_contra hsome
  obtain ⟨more, rfl⟩ := hfront
  rw [decode_append hsome] at h
  exact absurd (used_le_length h).2 (Nat.not_le.2 hshort)

/-- Decoding accepts exactly the grammar of frames, is stable when more bytes follow, and finds
nothing in what is shorter than the frame. -/
theorem exact_decode (dialect : Dialect) (id : ListId) (buffer : Bytes) :
    Exact dialect id buffer where
  whole_iff message used := by
    refine ⟨fun h => ?_, decode_of_whole⟩
    rcases decode_cases dialect id buffer with ⟨other, last, hwhole⟩ | hunfinished | ⟨error, herror⟩
    · have hother := decode_of_whole hwhole
      rw [h] at hother
      obtain ⟨rfl, rfl⟩ := Prod.mk.inj (Option.some.inj (Except.ok.inj hother))
      exact hwhole
    · rw [decode_of_unfinished hunfinished] at h
      cases h
    · rw [herror] at h
      cases h
  unfinished_iff := by
    refine ⟨fun h => ?_, decode_of_unfinished⟩
    rcases decode_cases dialect id buffer with ⟨other, last, hwhole⟩ | hunfinished | ⟨error, herror⟩
    · rw [decode_of_whole hwhole] at h
      cases h
    · exact hunfinished
    · rw [herror] at h
      cases h
  broken_iff := by
    constructor
    · rintro ⟨error, herror⟩
      refine ⟨?_, fun hunfinished => ?_⟩
      · rintro ⟨message, used, hwhole⟩
        rw [decode_of_whole hwhole] at herror
        cases herror
      · rw [decode_of_unfinished hunfinished] at herror
        cases herror
    · rintro ⟨hwhole, hunfinished⟩
      exact (decode_cases dialect id buffer).resolve_left hwhole |>.resolve_left hunfinished
  stable := decode_append
  front _ _ h _ hfront hshort := decode_front h hfront hshort

/-- A frame behind the front of a magic, with a magic in its payload, is whole, and unfinished
without its last byte. -/
theorem exact_decode_nestedMagic :
    let dialect : Dialect := ⟨.main, Dialect.currentVersion, false⟩
    ∃ frame message, ofPayload dialect "blob" (Network.main.magic ++ [1]) = .ok frame ∧
      Whole dialect ⟨0⟩ ([0xF9, 0xBE] ++ frame ++ [7]) message 31 ∧
      Unfinished .main (([0xF9, 0xBE] ++ frame ++ [7]).take 30) := by
  intro dialect
  obtain ⟨frame, hframe⟩ : ∃ frame,
      ofPayload dialect "blob" (Network.main.magic ++ [1]) = .ok frame := ⟨_, rfl⟩
  obtain ⟨-, hname, -, hparts⟩ := ofPayload_eq_ok hframe
  have hlength : frame.length = 29 := by
    rw [hparts, List.length_append, List.length_append, Header.length_encode hname]
    rfl
  have hnoise : ¬ Network.main.magic <:+: [0xF9, 0xBE] := fun hinfix =>
    absurd hinfix.length_le (by decide)
  have hdecode := decode_ofPayload (show dialect.network = dialect.network from rfl) hframe
    hnoise [7] ⟨0⟩
  rw [hlength] at hdecode
  have hexact := exact_decode dialect ⟨0⟩ ([0xF9, 0xBE] ++ frame ++ [7])
  have hfront := hexact.front _ _ hdecode _ (List.take_prefix 30 _) (by simp [hlength])
  exact ⟨frame, _, hframe, (hexact.whole_iff _ _).1 hdecode,
    (exact_decode dialect ⟨0⟩ _).unfinished_iff.1 hfront⟩

end Frame

end PeerProtocol
