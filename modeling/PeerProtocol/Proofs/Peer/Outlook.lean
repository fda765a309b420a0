import PeerProtocol.Proofs.Frame.Transcript
import PeerProtocol.Proofs.Peer.Steps

/-!
# What a peer will still decode

The outlook of a peer on bytes is the transcript that the peer has yet to produce when these bytes
follow what it has consumed: that of the bytes alone, or of the rest of the frame in progress and
what comes after it. Offering bytes (`receive_outcome`) turns the outlook on all that follows into
messages that are queued and the outlook of the peer that waits, whatever is to follow. So the
peer, stopped anywhere in a magic, a header or a payload, has lost and made up nothing.
-/

namespace PeerProtocol

open PeerProtocol.Frame (Transcript transcript)

namespace Peer

/-- A target, if there is one, takes as many pongs as asked for, one after the other. -/
def TakesPongs {σ : Type} [WriteTarget σ] (dialect : Dialect) : (count : Nat) → Option σ → Prop
  | 0, _ => True
  | _ + 1, none => True
  | count + 1, some target => ∀ nonce, ∃ ticket next,
      WriteTarget.write target (pongFrame dialect nonce) = (.ok ticket, next) ∧
      TakesPongs dialect count (some next)

/-- What a peer has yet to decode if these bytes follow the ones that it has consumed. -/
def outlook (peer : Peer) (bytes : Bytes) : Transcript :=
  match peer.pending with
  | none => transcript peer.dialect peer.nextList bytes
  | some frame =>
    match Bytes.split? frame.missing bytes with
    | none => .empty
    | some (piece, rest) =>
      match frame.header.message peer.dialect peer.nextList (frame.payload ++ piece) with
      | .error error => ⟨[], some error⟩
      | .ok message => (transcript peer.dialect peer.nextList.next rest).after [message]

/-- A peer after it has queued messages. -/
structure Queued (peer : Peer) (new : List Message) (next : Peer) : Prop where
  dialect : next.dialect = peer.dialect
  listening : next.listening = peer.listening
  inbox : next.inbox = peer.inbox ++ new

/-- Queuing twice is queuing once. -/
theorem Queued.trans {peer middle next : Peer} {first second : List Message}
    (h : Queued peer first middle) (h' : Queued middle second next) :
    Queued peer (first ++ second) next :=
  ⟨h'.dialect.trans h.dialect, h'.listening.trans h.listening, by
    rw [h'.inbox, h.inbox, List.append_assoc]⟩

/-- What was taken before and what is queued after are what was there and what is new. -/
theorem Queued.append_inbox {peer next : Peer} {new : List Message} (h : Queued peer new next)
    (taken : List Message) : taken ++ next.inbox = taken ++ peer.inbox ++ new := by
  rw [h.inbox, List.append_assoc]

variable {σ : Type} [WriteTarget σ]

/-- Why a message that was decoded may be lost: the target refuses an answer, or the queue refuses
the message. -/
inductive Refusal (peer : Peer) (target : Option σ) (new : List Message) : LinkError → Prop
  | write {reached : σ} {nonce : UInt64} {error : LinkError}
      (hwrite : (WriteTarget.write reached (pongFrame peer.dialect nonce)).1 = .error error)
      (hpongs : ¬ TakesPongs peer.dialect (new.length + 1) target) :
      Refusal peer target new error
  | deaf (hlistening : peer.listening = false) : Refusal peer target new .closed
  | full (hfull : inboxCapacity ≤ (peer.inbox ++ new).length) :
      Refusal peer target new (.rejected .inboxFull)

/-- What comes of offering bytes to a peer. It queues messages and waits with an outlook of its
own, keeping less than a frame's front; or it queues messages and breaks on an error of the
bytes; or a message after those that it queued is refused. In each case the outlook on the bytes
and all that may follow them has been followed so far. -/
inductive Outcome (peer : Peer) (target : Option σ) (bytes : Bytes) : Received σ → Prop
  | waits {next : Peer} {reached : Option σ} {rest : Bytes} (new : List Message)
      (hqueued : Queued peer new next) (hrest : rest <:+ bytes)
      (hshort : rest.length < Frame.overhead) (hdone : next.outlook rest = .empty)
      (hpongs : ∀ count, TakesPongs peer.dialect (new.length + count) target →
        TakesPongs peer.dialect count reached)
      (houtlook : ∀ more, peer.outlook (bytes ++ more) = (next.outlook (rest ++ more)).after new) :
      Outcome peer target bytes ⟨.ok rest, next, reached⟩
  | breaks {next : Peer} {reached : Option σ} {error : CodecError} (new : List Message)
      (hqueued : Queued peer new next)
      (houtlook : ∀ more, peer.outlook (bytes ++ more) = ⟨new, some error⟩) :
      Outcome peer target bytes ⟨.error (.codec error), next, reached⟩
  | refused {next : Peer} {reached : Option σ} {error : LinkError} (new : List Message)
      (lost : Message) (hqueued : Queued peer new next) (hrefusal : Refusal peer target new error)
      (houtlook : ∀ more, ∃ later,
        peer.outlook (bytes ++ more) = Transcript.after (new ++ [lost]) later) :
      Outcome peer target bytes ⟨.error error, next, reached⟩

/-- A peer without a frame in progress has the transcript of the bytes before it. -/
theorem outlook_of_idle {peer : Peer} (h : peer.pending = none) (bytes : Bytes) :
    peer.outlook bytes = transcript peer.dialect peer.nextList bytes := by
  simp only [outlook, h]

/-- Taking pongs means taking fewer as well. -/
theorem TakesPongs.mono {dialect : Dialect} {target : Option σ} {fewer count : Nat}
    (h : TakesPongs dialect count target) (hle : fewer ≤ count) :
    TakesPongs dialect fewer target := by
  induction count generalizing target fewer with
  | zero =>
    have hzero : fewer = 0 := by omega
    subst hzero
    trivial
  | succ count ih =>
    cases fewer with
    | zero => trivial
    | succ fewer =>
      cases target with
      | none => trivial
      | some target =>
        intro nonce
        obtain ⟨ticket, next, hwrite, hnext⟩ := h nonce
        exact ⟨ticket, next, hwrite, ih hnext (by omega)⟩

/-- A target that takes one more pong takes the others after an answer. -/
theorem takesPongs_of_answer {peer : Peer} {target reached : Option σ} {message : Message}
    (h : peer.answer target message = (.ok (), reached)) {count : Nat}
    (htakes : TakesPongs peer.dialect (count + 1) target) :
    TakesPongs peer.dialect count reached := by
  rcases answer_eq_ok h with ⟨before, nonce, ticket, after, rfl, -, hwrite, rfl⟩ | ⟨rfl, -⟩
  · obtain ⟨ticket', next, hwrite', hnext⟩ := htakes nonce
    rw [hwrite] at hwrite'
    obtain ⟨-, rfl⟩ := Prod.mk.inj hwrite'
    exact hnext
  · exact htakes.mono (Nat.le_succ count)

/-- An answer fails only where the target refuses it. -/
theorem refusal_of_answer {peer : Peer} {target reached : Option σ} {message : Message}
    {error : LinkError} (h : peer.answer target message = (.error error, reached)) :
    Refusal peer target [] error := by
  obtain ⟨before, nonce, after, rfl, -, hwrite, rfl⟩ := answer_eq_error h
  refine .write (by rw [hwrite]) fun htakes => ?_
  obtain ⟨ticket, next, hwrite', -⟩ := htakes nonce
  rw [hwrite] at hwrite'
  cases hwrite'

/-- A message is not queued only where nobody listens or the queue is full. -/
theorem refusal_of_deliver {peer next : Peer} {message : Message} {error : LinkError}
    (h : peer.deliver message = (.error error, next)) (target : Option σ) :
    Refusal peer target [] error := by
  obtain ⟨-, ⟨hlistening, rfl⟩ | ⟨hfull, rfl⟩⟩ := deliver_eq_error h
  · exact .deaf hlistening
  · exact .full (by rwa [List.append_nil])

/-- A refusal after messages that were queued before is a refusal after all of them. -/
theorem Refusal.after {peer middle : Peer} {target reached : Option σ}
    {earlier new : List Message} {error : LinkError} (hqueued : Queued peer earlier middle)
    (hpongs : ∀ count, TakesPongs peer.dialect (earlier.length + count) target →
      TakesPongs peer.dialect count reached)
    (h : Refusal middle reached new error) : Refusal peer target (earlier ++ new) error := by
  cases h with
  | write hwrite htakes =>
    rw [hqueued.dialect] at hwrite htakes
    refine .write hwrite fun hall => htakes (hpongs _ ?_)
    rwa [List.length_append, Nat.add_assoc] at hall
  | deaf hlistening => exact .deaf (hqueued.listening ▸ hlistening)
  | full hfull =>
    rw [hqueued.inbox, List.append_assoc] at hfull
    exact .full hfull

/-- What comes of a later part of the bytes is what comes of all of them, after the messages that
the earlier part held. -/
theorem Outcome.after {peer middle : Peer} {target reached : Option σ} {bytes tail : Bytes}
    {earlier : List Message} {received : Received σ} (hqueued : Queued peer earlier middle)
    (hpongs : ∀ count, TakesPongs peer.dialect (earlier.length + count) target →
      TakesPongs peer.dialect count reached)
    (htail : tail <:+ bytes)
    (houtlook : ∀ more,
      peer.outlook (bytes ++ more) = (middle.outlook (tail ++ more)).after earlier)
    (h : Outcome middle reached tail received) : Outcome peer target bytes received := by
  cases h with
  | waits new hnew hrest hshort hdone hrestPongs hrestOutlook =>
    refine .waits (earlier ++ new) (hqueued.trans hnew) (hrest.trans htail) hshort hdone
      (fun count htakes => ?_) fun more => ?_
    · rw [← hqueued.dialect]
      apply hrestPongs
      rw [hqueued.dialect]
      apply hpongs
      rwa [List.length_append, Nat.add_assoc] at htakes
    · rw [houtlook, hrestOutlook, Transcript.after_after]
  | breaks new hnew hrestOutlook =>
    refine .breaks (earlier ++ new) (hqueued.trans hnew) fun more => ?_
    rw [houtlook, hrestOutlook]
    rfl
  | refused new lost hnew hrefusal hrestOutlook =>
    refine .refused (earlier ++ new) lost (hqueued.trans hnew) (hrefusal.after hqueued hpongs)
      fun more => ?_
    obtain ⟨later, hlater⟩ := hrestOutlook more
    exact ⟨later, by rw [houtlook, hlater, Transcript.after_after, List.append_assoc]⟩

/-- A payload that is not all there yet is split off once the missing bytes follow. -/
theorem split?_of_short {count : Nat} {body : Bytes} (h : body.length < count) (more : Bytes) :
    Bytes.split? count (body ++ more) =
      (Bytes.split? (count - body.length) more).map fun parts => (body ++ parts.1, parts.2) := by
  cases hmore : Bytes.split? (count - body.length) more with
  | none =>
    rw [Bytes.split?_eq_none_iff] at hmore
    rw [Option.map_none, Bytes.split?_eq_none_iff, List.length_append]
    omega
  | some parts =>
    obtain ⟨piece, rest⟩ := parts
    obtain ⟨rfl, hpiece⟩ := Bytes.split?_eq_some_iff.1 hmore
    rw [Option.map_some, Bytes.split?_eq_some_iff, List.length_append]
    refine ⟨by rw [List.append_assoc], ?_⟩
    show body.length + piece.length = count
    omega

/-- A frame whose payload goes on arriving has the same outlook on all that follows. -/
theorem outlook_pending {peer : Peer} {header : Header} {body : Bytes}
    (hpending : peer.pending = some (.start header body)) (hshort : body.length < header.size)
    (more : Bytes) :
    peer.outlook more =
      match Bytes.split? header.size (body ++ more) with
      | none => .empty
      | some (payload, rest) =>
        match header.message peer.dialect peer.nextList payload with
        | .error error => ⟨[], some error⟩
        | .ok message => (transcript peer.dialect peer.nextList.next rest).after [message] := by
  rw [split?_of_short hshort]
  simp only [outlook, hpending, PartialFrame.start, PartialFrame.payload, List.reverse_reverse]
  cases Bytes.split? (header.size - body.length) more <;> rfl

/-- Nothing comes of a frame whose payload is not all there. -/
theorem outlook_pending_nil {peer : Peer} {frame : PartialFrame}
    (hpending : peer.pending = some frame) (hmissing : 0 < frame.missing) :
    peer.outlook [] = .empty := by
  have hsplit : Bytes.split? frame.missing [] = none := Bytes.split?_eq_none_iff.2 hmissing
  simp only [outlook, hpending, hsplit]

/-- What a peer finds in bytes, said of its outlook on them and on all that may follow. -/
inductive Finds (peer : Peer) (bytes : Bytes) : Look → Prop
  | waits {next : Peer} {rest : Bytes} (hqueued : Queued peer [] next) (hrest : rest <:+ bytes)
      (hshort : rest.length < Frame.overhead) (hdone : next.outlook rest = .empty)
      (houtlook : ∀ more, peer.outlook (bytes ++ more) = next.outlook (rest ++ more)) :
      Finds peer bytes (.waits next rest)
  | breaks {next : Peer} {error : CodecError} (hqueued : Queued peer [] next)
      (houtlook : ∀ more, peer.outlook (bytes ++ more) = ⟨[], some error⟩) :
      Finds peer bytes (.breaks next error)
  | decodes {message : Message} {next : Peer} {rest : Bytes} (hqueued : Queued peer [] next)
      (hrest : rest <:+ bytes)
      (houtlook : ∀ more,
        peer.outlook (bytes ++ more) = (next.outlook (rest ++ more)).after [message]) :
      Finds peer bytes (.decodes message next rest)

/-- A whole frame is found as what its payload is decoded as. -/
theorem finds_lookInto {peer idle : Peer} {bytes payload rest : Bytes} {header : Header}
    (hidle : idle.pending = none) (hsame : Queued peer [] idle) (hrest : rest <:+ bytes)
    (houtlook : ∀ more, peer.outlook (bytes ++ more) =
      match header.message idle.dialect idle.nextList payload with
      | .error error => ⟨[], some error⟩
      | .ok message =>
        (transcript idle.dialect idle.nextList.next (rest ++ more)).after [message]) :
    Finds peer bytes (idle.lookInto header payload rest) := by
  unfold lookInto
  cases hmessage : header.message idle.dialect idle.nextList payload with
  | error error => exact .breaks hsame fun more => by rw [houtlook, hmessage]
  | ok message =>
    have hnext : Queued peer [] { idle with nextList := idle.nextList.next } :=
      ⟨hsame.dialect, hsame.listening, hsame.inbox⟩
    refine .decodes hnext hrest fun more => ?_
    rw [houtlook, hmessage, outlook_of_idle (show Peer.pending { idle with
      nextList := idle.nextList.next } = none from hidle)]

/-- What is found shows in the outlook, whatever the peer is in the middle of. -/
theorem finds_look (peer : Peer) (bytes : Bytes) : Finds peer bytes (peer.look bytes) := by
  have hrefl : Queued peer [] peer := ⟨rfl, rfl, by simp⟩
  unfold look
  split
  next hidle =>
    split
    next discard hseek =>
      obtain ⟨-, hshort, -⟩ := Network.seekMagic_append_of_absent hseek
      -- Inside the magic: what is kept may begin it.
      have hkept := Frame.transcript_discard peer.nextList hseek
      refine .waits hrefl (List.drop_suffix _ _) (by rw [Frame.overhead]; omega) ?_
        fun more => ?_
      · rw [outlook_of_idle hidle, ← List.append_nil (bytes.drop discard), ← hkept,
          List.append_nil]
        exact Frame.transcript_of_none (Frame.decode_of_absent hseek)
      · rw [outlook_of_idle hidle, outlook_of_idle hidle, hkept]
    next start hseek =>
      obtain ⟨hfour, hle, hmagic⟩ := Network.drop_of_found hseek
      split
      next hraw =>
        -- Inside the header: the magic is kept, so that it is found again.
        have hkept := Frame.transcript_noise peer.nextList hseek
        have hbody := Bytes.split?_eq_none_iff.1 hraw
        refine .waits hrefl (List.drop_suffix _ _) ?_ ?_ fun more => ?_
        · rw [hmagic, List.length_append, Network.length_magic, Frame.overhead]
          rw [Header.length] at hbody
          omega
        · rw [outlook_of_idle hidle, ← List.append_nil (bytes.drop (start - 4)), ← hkept,
            List.append_nil]
          exact Frame.transcript_of_none (Frame.decode_of_short_header hseek hraw)
        · rw [outlook_of_idle hidle, outlook_of_idle hidle, hkept]
      next raw body hraw =>
        split
        next error hheader =>
          refine .breaks hrefl fun more => ?_
          rw [outlook_of_idle hidle]
          exact Frame.transcript_of_error
            (Frame.decode_of_broken_header peer.nextList hseek hraw hheader more)
        next header hheader =>
          have hdecode := Frame.transcript_of_header peer.nextList hseek hraw hheader
          obtain ⟨hdrop, -⟩ := Bytes.split?_eq_some_iff.1 hraw
          split
          next hpayload =>
            -- Inside the payload: all bytes are consumed into the frame in progress.
            have hshort := Bytes.split?_eq_none_iff.1 hpayload
            refine .waits ⟨rfl, rfl, by simp⟩ List.nil_suffix (by decide)
              (outlook_pending_nil rfl (by simp only [PartialFrame.start]; omega))
              fun more => ?_
            rw [outlook_of_idle hidle, outlook_pending rfl hshort, List.nil_append]
            exact hdecode more
          next payload rest hpayload =>
            obtain ⟨rfl, hsize⟩ := Bytes.split?_eq_some_iff.1 hpayload
            refine finds_lookInto hidle hrefl ?_ fun more => ?_
            · exact ⟨bytes.take start ++ raw ++ payload, by
                rw [List.append_assoc, List.append_assoc, ← hdrop, List.take_append_drop]⟩
            · have hnext := hdecode more
              rw [Bytes.split?_append hpayload] at hnext
              rw [outlook_of_idle hidle]
              exact hnext
  next frame hpending =>
    split
    next hpiece =>
      have hshort := Bytes.split?_eq_none_iff.1 hpiece
      refine .waits ⟨rfl, rfl, by simp⟩ List.nil_suffix (by decide)
        (outlook_pending_nil rfl (by simp only [PartialFrame.extend]; omega)) fun more => ?_
      simp only [outlook, hpending, split?_of_short hshort, List.nil_append,
        PartialFrame.payload_extend, PartialFrame.header_extend, PartialFrame.missing_extend]
      cases Bytes.split? (frame.missing - bytes.length) more with
      | none => rfl
      | some parts => simp only [Option.map_some, List.append_assoc]
    next piece rest hpiece =>
      obtain ⟨rfl, hsize⟩ := Bytes.split?_eq_some_iff.1 hpiece
      refine finds_lookInto rfl ⟨rfl, rfl, by simp⟩ ⟨piece, rfl⟩ fun more => ?_
      simp only [outlook, hpending, Bytes.split?_append hpiece, PartialFrame.payload_extend]

/-- Offering bytes to a peer, whatever it is in the middle of. -/
theorem receive_outcome (peer : Peer) (target : Option σ) (bytes : Bytes) :
    Outcome peer target bytes (peer.receive target bytes) := by
  induction peer, target, bytes using receive_induction with
  | @waits peer next target bytes rest hlook =>
    have hfinds := finds_look peer bytes
    rw [hlook] at hfinds
    cases hfinds with
    | waits hqueued hrest hshort hdone houtlook =>
      exact .waits [] hqueued hrest hshort hdone
        (fun count htakes => by simpa [hqueued.dialect] using htakes) houtlook
  | @breaks peer next target bytes error hlook =>
    have hfinds := finds_look peer bytes
    rw [hlook] at hfinds
    cases hfinds with
    | breaks hqueued houtlook => exact .breaks [] hqueued houtlook
  | @unanswered peer next target reached bytes rest message error hlook hanswer =>
    have hfinds := finds_look peer bytes
    rw [hlook] at hfinds
    cases hfinds with
    | decodes hqueued hrest houtlook =>
      refine .refused [] message hqueued ?_ fun more => ⟨_, houtlook more⟩
      exact (refusal_of_answer hanswer).after hqueued fun count htakes => by simpa using htakes
  | @unqueued peer next last target reached bytes rest message error hlook hanswer hdeliver =>
    have hfinds := finds_look peer bytes
    rw [hlook] at hfinds
    cases hfinds with
    | decodes hqueued hrest houtlook =>
      obtain ⟨rfl, -⟩ := deliver_eq_error hdeliver
      refine .refused [] message hqueued ?_ fun more => ⟨_, houtlook more⟩
      exact (refusal_of_deliver hdeliver target).after hqueued
        fun count htakes => by simpa using htakes
  | @queued peer next last target reached bytes rest message hlook hanswer hdeliver ih =>
    have hfinds := finds_look peer bytes
    rw [hlook] at hfinds
    cases hfinds with
    | decodes hqueued hrest houtlook =>
      obtain ⟨rfl, -, -⟩ := deliver_eq_ok hdeliver
      have hnext : Queued peer [message] { next with inbox := next.inbox ++ [message] } :=
        ⟨hqueued.dialect, hqueued.listening, by simp [hqueued.inbox]⟩
      refine Outcome.after hnext (fun count htakes => ?_) hrest houtlook ih
      rw [← hqueued.dialect] at htakes ⊢
      exact takesPongs_of_answer hanswer (by rwa [List.length_singleton, Nat.add_comm] at htakes)

end Peer

end PeerProtocol
