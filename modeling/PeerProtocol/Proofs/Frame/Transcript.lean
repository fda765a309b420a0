import PeerProtocol.Frame.Stream
import PeerProtocol.Proofs.Frame.Search

/-!
# What a buffer decodes as

The transcript of a buffer is what `decodeAll` makes of it: the messages in order, and the error
that ended the decoding if one did. Every outcome of decoding one frame is stable: a frame or an
error at the front of a buffer stays what it is when more bytes follow, and bytes before the next
magic may be dropped (`transcript_drop`). `transcript_of_header` and the lemmas before it unfold one
frame of a transcript.
-/

namespace PeerProtocol

namespace Frame

/-- The messages that were decoded, in order, and the error that ended the decoding. -/
structure Transcript where
  messages : List Message
  error : Option CodecError
deriving DecidableEq

namespace Transcript

/-- Nothing was decoded and nothing went wrong. -/
def empty : Transcript := ⟨[], none⟩

/-- A transcript that continues one with these messages. -/
def after (earlier : List Message) (transcript : Transcript) : Transcript :=
  ⟨earlier ++ transcript.messages, transcript.error⟩

@[simp] theorem messages_after (earlier : List Message) (transcript : Transcript) :
    (transcript.after earlier).messages = earlier ++ transcript.messages := rfl

@[simp] theorem error_after (earlier : List Message) (transcript : Transcript) :
    (transcript.after earlier).error = transcript.error := rfl

@[simp] theorem after_nil (transcript : Transcript) : transcript.after [] = transcript := rfl

/-- Continuing twice is continuing once. -/
@[simp] theorem after_after (first second : List Message) (transcript : Transcript) :
    (transcript.after second).after first = transcript.after (first ++ second) := by
  simp [after]

end Transcript

/-- The transcript of decoding a buffer frame after frame. -/
def transcript (dialect : Dialect) (id : ListId) (buffer : Bytes) : Transcript :=
  let (frames, error) := decodeAll dialect id buffer
  ⟨frames.map Prod.fst, error⟩

variable {dialect : Dialect} {id : ListId} {buffer : Bytes}

/-- Nothing is decoded off a buffer without a whole frame. -/
theorem decodeAll_of_none (h : decode dialect id buffer = .ok none) :
    decodeAll dialect id buffer = ([], none) := by
  rw [decodeAll]
  split <;> simp_all

/-- A broken first frame ends the decoding. -/
theorem decodeAll_of_error {error : CodecError} (h : decode dialect id buffer = .error error) :
    decodeAll dialect id buffer = ([], some error) := by
  rw [decodeAll]
  split <;> simp_all

/-- After a first frame the decoding goes on behind it. -/
theorem decodeAll_of_some {message : Message} {used : Nat}
    (h : decode dialect id buffer = .ok (some (message, used))) :
    decodeAll dialect id buffer =
      ((message, used) :: (decodeAll dialect id.next (buffer.drop used)).1,
        (decodeAll dialect id.next (buffer.drop used)).2) := by
  rw [decodeAll]
  split <;> simp_all

/-- A buffer without a whole frame has an empty transcript. -/
theorem transcript_of_none (h : decode dialect id buffer = .ok none) :
    transcript dialect id buffer = .empty := by
  rw [transcript, decodeAll_of_none h]
  rfl

/-- A buffer whose first frame is broken has that frame's error as its transcript. -/
theorem transcript_of_error {error : CodecError} (h : decode dialect id buffer = .error error) :
    transcript dialect id buffer = ⟨[], some error⟩ := by
  rw [transcript, decodeAll_of_error h]
  rfl

/-- The transcript of a buffer with a first frame continues after that frame's message. -/
theorem transcript_of_some {message : Message} {used : Nat}
    (h : decode dialect id buffer = .ok (some (message, used))) :
    transcript dialect id buffer =
      (transcript dialect id.next (buffer.drop used)).after [message] := by
  rw [transcript, decodeAll_of_some h]
  rfl

/-- Decoding looks at nothing before the magic: where dropping bytes only shifts the search, it
only shifts the frame. -/
theorem decode_drop (id : ListId) {offset : Nat}
    (h : dialect.network.seekMagic buffer =
      (dialect.network.seekMagic (buffer.drop offset)).shift offset) :
    decode dialect id buffer =
      (decode dialect id (buffer.drop offset)).map
        (Option.map fun frame => (frame.1, frame.2 + offset)) := by
  unfold decode
  rw [h]
  cases dialect.network.seekMagic (buffer.drop offset) with
  | absent discard => rfl
  | found start =>
    simp only [MagicSearch.shift, List.drop_drop, Nat.add_comm offset start]
    cases Bytes.split? Header.length (buffer.drop (start + offset)) with
    | none => rfl
    | some split =>
      obtain ⟨raw, rest⟩ := split
      cases hheader : Header.decode raw with
      | error error => simp [hheader, bind, Except.bind, Except.map]
      | ok header =>
        simp only [hheader, bind, Except.bind]
        cases Bytes.split? header.size rest with
        | none => rfl
        | some split =>
          obtain ⟨payload, tail⟩ := split
          cases hmessage : header.message dialect id payload with
          | error error => simp [hmessage, Except.map]
          | ok message =>
            simp only [hmessage, pure, Except.pure, Except.map, Option.map, Except.ok.injEq,
              Option.some.injEq, Prod.mk.injEq, true_and]
            omega

/-- Bytes whose loss only shifts the search do not show in the transcript. -/
theorem transcript_drop {offset : Nat}
    (h : dialect.network.seekMagic buffer =
      (dialect.network.seekMagic (buffer.drop offset)).shift offset) :
    transcript dialect id buffer = transcript dialect id (buffer.drop offset) := by
  have hdecode := decode_drop id h
  cases hrest : decode dialect id (buffer.drop offset) with
  | error error =>
    rw [hrest] at hdecode
    rw [transcript_of_error hrest, transcript_of_error hdecode]
  | ok frame =>
    rw [hrest] at hdecode
    cases frame with
    | none => rw [transcript_of_none hrest, transcript_of_none hdecode]
    | some frame =>
      obtain ⟨message, used⟩ := frame
      rw [transcript_of_some hrest, transcript_of_some hdecode, List.drop_drop,
        Nat.add_comm offset used]

/-- The noise that a search without success discards does not show in a transcript. -/
theorem transcript_discard (id : ListId) {discard : Nat}
    (h : dialect.network.seekMagic buffer = .absent discard) (more : Bytes) :
    transcript dialect id (buffer ++ more) =
      transcript dialect id (buffer.drop discard ++ more) := by
  obtain ⟨hle, -, hshift⟩ := Network.seekMagic_append_of_absent h
  have hdrop : (buffer ++ more).drop discard = buffer.drop discard ++ more :=
    List.drop_append_of_le_length hle
  rw [← hdrop]
  apply transcript_drop
  rw [hdrop]
  exact hshift more

/-- The noise before a magic that was found does not show in a transcript. -/
theorem transcript_noise (id : ListId) {start : Nat}
    (h : dialect.network.seekMagic buffer = .found start)
    (more : Bytes) :
    transcript dialect id (buffer ++ more) =
      transcript dialect id (buffer.drop (start - 4) ++ more) := by
  obtain ⟨hfour, hle, hdrop⟩ := Network.drop_of_found h
  have hfront : (buffer ++ more).drop (start - 4) = buffer.drop (start - 4) ++ more :=
    List.drop_append_of_le_length (by omega)
  rw [← hfront]
  apply transcript_drop
  rw [hfront, Network.seekMagic_append_of_found h, hdrop, List.append_assoc,
    Network.seekMagic_magic]
  simp only [MagicSearch.shift, MagicSearch.found.injEq]
  omega

/-- A buffer without a magic has no frame. -/
theorem decode_of_absent {discard : Nat} (h : dialect.network.seekMagic buffer = .absent discard) :
    decode dialect id buffer = .ok none := by
  simp only [decode, h]

/-- A buffer that ends inside a header has no whole frame. -/
theorem decode_of_short_header {start : Nat}
    (hseek : dialect.network.seekMagic buffer = .found start)
    (hraw : Bytes.split? Header.length (buffer.drop start) = none) :
    decode dialect id buffer = .ok none := by
  simp only [decode, hseek, hraw]

/-- A broken header is an error, whatever follows it. -/
theorem decode_of_broken_header (id : ListId) {start : Nat} {raw rest : Bytes} {error : CodecError}
    (hseek : dialect.network.seekMagic buffer = .found start)
    (hraw : Bytes.split? Header.length (buffer.drop start) = some (raw, rest))
    (hheader : Header.decode raw = .error error) (more : Bytes) :
    decode dialect id (buffer ++ more) = .error error := by
  obtain ⟨-, hle, -⟩ := Network.drop_of_found hseek
  simp only [decode, Network.seekMagic_append_of_found hseek,
    List.drop_append_of_le_length hle, Bytes.split?_append hraw, hheader, bind, Except.bind]

/-- With a header decoded, decoding is up to the payload. -/
theorem decode_of_header (id : ListId) {start : Nat} {raw body : Bytes} {header : Header}
    (hseek : dialect.network.seekMagic buffer = .found start)
    (hraw : Bytes.split? Header.length (buffer.drop start) = some (raw, body))
    (hheader : Header.decode raw = .ok header) (more : Bytes) :
    decode dialect id (buffer ++ more) =
      match Bytes.split? header.size (body ++ more) with
      | none => .ok none
      | some (payload, _) =>
        (header.message dialect id payload).map fun message =>
          some (message, start + Header.length + header.size) := by
  obtain ⟨-, hle, -⟩ := Network.drop_of_found hseek
  simp only [decode, Network.seekMagic_append_of_found hseek,
    List.drop_append_of_le_length hle, Bytes.split?_append hraw, hheader, bind, Except.bind]
  cases Bytes.split? header.size (body ++ more) with
  | none => rfl
  | some split =>
    obtain ⟨payload, rest⟩ := split
    cases hmessage : header.message dialect id payload <;>
      simp [hmessage, Except.map, pure, Except.pure]

/-- With a header decoded, the transcript is up to the payload. -/
theorem transcript_of_header (id : ListId) {start : Nat} {raw body : Bytes} {header : Header}
    (hseek : dialect.network.seekMagic buffer = .found start)
    (hraw : Bytes.split? Header.length (buffer.drop start) = some (raw, body))
    (hheader : Header.decode raw = .ok header) (more : Bytes) :
    transcript dialect id (buffer ++ more) =
      match Bytes.split? header.size (body ++ more) with
      | none => .empty
      | some (payload, rest) =>
        match header.message dialect id payload with
        | .error error => ⟨[], some error⟩
        | .ok message => (transcript dialect id.next rest).after [message] := by
  obtain ⟨-, hle, -⟩ := Network.drop_of_found hseek
  have hdecode := decode_of_header id hseek hraw hheader more
  cases hpayload : Bytes.split? header.size (body ++ more) with
  | none =>
    rw [hpayload] at hdecode
    exact transcript_of_none hdecode
  | some split =>
    obtain ⟨payload, rest⟩ := split
    rw [hpayload] at hdecode
    cases hmessage : header.message dialect id payload with
    | error error =>
      simp only [hmessage, Except.map] at hdecode ⊢
      exact transcript_of_error hdecode
    | ok message =>
      simp only [hmessage, Except.map] at hdecode ⊢
      have hrest : (buffer ++ more).drop (start + Header.length + header.size) = rest := by
        rw [← List.drop_drop, ← List.drop_drop, List.drop_append_of_le_length hle,
          Bytes.drop_of_split? (Bytes.split?_append hraw more), Bytes.drop_of_split? hpayload]
      rw [transcript_of_some hdecode, hrest]

/-- A frame or an error at the front of a buffer stays what it is when more bytes follow. -/
theorem decode_append (h : decode dialect id buffer ≠ .ok none) (more : Bytes) :
    decode dialect id (buffer ++ more) = decode dialect id buffer := by
  cases hseek : dialect.network.seekMagic buffer with
  | absent discard => exact absurd (decode_of_absent hseek) h
  | found start =>
    cases hraw : Bytes.split? Header.length (buffer.drop start) with
    | none => exact absurd (decode_of_short_header hseek hraw) h
    | some split =>
      obtain ⟨raw, body⟩ := split
      cases hheader : Header.decode raw with
      | error error =>
        have hnow := decode_of_broken_header id hseek hraw hheader []
        rw [List.append_nil] at hnow
        rw [hnow, decode_of_broken_header id hseek hraw hheader more]
      | ok header =>
        have hnow := decode_of_header id hseek hraw hheader []
        rw [List.append_nil, List.append_nil] at hnow
        rw [decode_of_header id hseek hraw hheader more]
        cases hpayload : Bytes.split? header.size body with
        | none => exact absurd (by rw [hnow, hpayload]) h
        | some split => rw [hnow, hpayload, Bytes.split?_append hpayload]

/-- More bytes only add to what was decoded. -/
theorem transcript_append (dialect : Dialect) (id : ListId) (buffer more : Bytes) :
    (transcript dialect id buffer).messages <+:
      (transcript dialect id (buffer ++ more)).messages := by
  induction hlength : buffer.length using Nat.strongRecOn generalizing id buffer with
  | _ length ih =>
  cases hdecode : decode dialect id buffer with
  | error error =>
    rw [transcript_of_error hdecode]
    exact List.nil_prefix
  | ok frame =>
    cases frame with
    | none =>
      rw [transcript_of_none hdecode]
      exact List.nil_prefix
    | some frame =>
      obtain ⟨message, used⟩ := frame
      obtain ⟨hpos, hle⟩ := used_le_length hdecode
      -- The first frame is the same with more bytes behind it, and the others follow by induction.
      have hmore := decode_append (by rw [hdecode]; simp) more
      rw [transcript_of_some hdecode, transcript_of_some (hmore.trans hdecode),
        List.drop_append_of_le_length hle]
      have hshorter : (buffer.drop used).length < length := by
        rw [List.length_drop]
        omega
      exact List.prefix_append_right_inj [message] |>.2 (ih _ hshorter id.next _ rfl)

/-- Every message takes at least one byte. -/
theorem length_messages_le (dialect : Dialect) (id : ListId) (buffer : Bytes) :
    (transcript dialect id buffer).messages.length ≤ buffer.length := by
  induction hlength : buffer.length using Nat.strongRecOn generalizing id buffer with
  | _ length ih =>
  cases hdecode : decode dialect id buffer with
  | error error => simp [transcript_of_error hdecode]
  | ok frame =>
    cases frame with
    | none => simp [transcript_of_none hdecode, Transcript.empty]
    | some frame =>
      obtain ⟨message, used⟩ := frame
      obtain ⟨hpos, hle⟩ := used_le_length hdecode
      have hrest : (buffer.drop used).length = length - used := by rw [List.length_drop, hlength]
      have hmessages := ih (length - used) (by omega) id.next _ hrest
      rw [transcript_of_some hdecode, Transcript.messages_after, List.length_append,
        List.length_singleton]
      omega

end Frame

end PeerProtocol
