import Mathlib.Algebra.GroupWithZero.Nat
import PeerProtocol.Proofs.Connection.Outbox

/-!
# Finished and waiting writes

Of the writes that an outbox has accepted some are finished and the others wait, and what the socket
took are the finished ones and a part of the next one (`Progress`). An open outbox queues the writes
that wait (`Open`), a closed one has failed them (`Ended`). Accepting a write, flushing in pieces of
any size and closing preserve this (`Open.append`, `Open.flush`, `Open.close`). After a flush no
write that waits is finished. What a flush hands over is told attempt by attempt
(`handsOver_flush`).
-/

namespace PeerProtocol.Outbox

/-- Of the accepted writes some are finished and the others wait, and the socket took the finished
ones and `front`, the beginning of the first that waits. -/
structure Progress (accepted : List Bytes) (sent : Bytes) (finished : List Bytes) (front : Bytes)
    (waiting : List Bytes) : Prop where
  accepted_eq : accepted = finished ++ waiting
  sent_eq : sent = finished.flatten ++ front
  front_prefix : front <+: waiting.headD []

/-- The queued writes as they were accepted, given what the socket took of the first of them. -/
def whole (front : Bytes) : List QueuedWrite → List Bytes
  | [] => []
  | head :: rest => (front ++ head.unsent) :: rest.map (·.unsent)

/-- If nothing was taken off the first, what is unsent is all there was. -/
theorem whole_nil (queue : List QueuedWrite) : whole [] queue = queue.map (·.unsent) := by
  cases queue <;> rfl

/-- As many writes as are queued. -/
theorem length_whole (front : Bytes) (queue : List QueuedWrite) :
    (whole front queue).length = queue.length := by
  cases queue <;> simp [whole]

/-- Behind the writes that are queued comes a whole one. -/
theorem whole_append {front : Bytes} {queue : List QueuedWrite} (h : queue = [] → front = [])
    (write : QueuedWrite) :
    whole front (queue ++ [write]) = whole front queue ++ [write.unsent] := by
  cases queue with
  | nil => simp [whole, h rfl]
  | cons head rest => simp [whole]

/-- How an open outbox stands to the accepted writes: the finished ones are resolved, and the others
are queued. -/
structure Open (outbox : Outbox) (finished : List Bytes) (front : Bytes) (waiting : List Bytes) :
    Prop where
  closed : outbox.closed = false
  count : outbox.accepted = finished.length + waiting.length
  queue : whole front outbox.queue = waiting
  tickets : outbox.queue.map (·.ticket) = List.range' finished.length waiting.length
  resolved : outbox.resolved = (List.range finished.length).map fun ticket => (ticket, .ok ())
  remaining : outbox.remaining = (outbox.queue.map (·.unsent.length)).sum

/-- The outcomes of tickets of which the first are those of finished writes. -/
def outcomes (finished count : Nat) : List (Nat × Except LinkError Unit) :=
  (List.range count).map fun ticket =>
    (ticket, if ticket < finished then .ok () else .error .closed)

/-- As long as nothing has failed, the outcomes are those of finished writes. -/
theorem outcomes_self (finished : Nat) :
    outcomes finished finished = (List.range finished).map fun ticket => (ticket, .ok ()) := by
  refine List.map_congr_left fun ticket hticket => ?_
  rw [if_pos (List.mem_range.1 hticket)]

/-- The tickets that have an outcome are the first ones. -/
theorem map_fst_outcomes (finished count : Nat) :
    (outcomes finished count).map Prod.fst = List.range count := by
  simp [outcomes, Function.comp_def]

/-- What became of a ticket. -/
theorem lookup_outcomes (finished count ticket : Nat) :
    (outcomes finished count).lookup ticket =
      if ticket < count then some (if ticket < finished then .ok () else .error .closed)
      else none := by
  induction count with
  | zero => simp [outcomes]
  | succ count ih =>
    have hsucc : outcomes finished (count + 1) = outcomes finished count ++
        [(count, if count < finished then .ok () else .error .closed)] := by
      simp [outcomes, List.range_succ]
    rw [hsucc, List.lookup_append, ih]
    by_cases hticket : ticket < count
    · simp [hticket, Nat.lt_succ_of_lt hticket]
    · by_cases hlast : ticket = count
      · simp [hlast]
      · have habove : ¬ ticket < count + 1 := by omega
        have hother : (ticket == count) = false := beq_eq_false_iff_ne.2 hlast
        simp [hticket, habove, List.lookup_cons, hother]

/-- How a closed outbox stands to the accepted writes: all are resolved, and those that waited have
failed. -/
structure Ended (outbox : Outbox) (finished waiting : List Bytes) : Prop where
  closed : outbox.closed = true
  queue : outbox.queue = []
  remaining : outbox.remaining = 0
  resolved : outbox.resolved = outcomes finished.length (finished.length + waiting.length)

variable {outbox : Outbox} {accepted : List Bytes} {sent front : Bytes}
  {finished waiting : List Bytes}

/-- Where nothing waits nothing was taken of it. -/
theorem Progress.front_eq_nil (h : Progress accepted sent finished front waiting)
    (hwaiting : waiting = []) : front = [] := by
  have hfront := h.front_prefix
  rw [hwaiting] at hfront
  exact List.prefix_nil.1 hfront

/-- An accepted write waits behind the others. -/
theorem Progress.append (h : Progress accepted sent finished front waiting) (bytes : Bytes) :
    Progress (accepted ++ [bytes]) sent finished front (waiting ++ [bytes]) := by
  refine ⟨by rw [h.accepted_eq, List.append_assoc], h.sent_eq, ?_⟩
  cases hwaiting : waiting with
  | nil =>
    rw [h.front_eq_nil hwaiting]
    exact List.nil_prefix
  | cons first rest =>
    have hfront := h.front_prefix
    rwa [hwaiting] at hfront

/-- The queue of an open outbox is empty where nothing waits. -/
theorem Open.queue_eq_nil_iff (h : Open outbox finished front waiting) :
    outbox.queue = [] ↔ waiting = [] := by
  have hlength : outbox.queue.length = waiting.length := by rw [← h.queue, length_whole]
  rw [← List.length_eq_zero_iff, hlength, List.length_eq_zero_iff]

/-- An open outbox that accepts a write queues it behind the others. -/
theorem Open.append (h : Open outbox finished front waiting)
    (hprogress : Progress accepted sent finished front waiting) (bytes : Bytes) :
    Open { outbox with
      queue := outbox.queue ++ [⟨outbox.accepted, bytes⟩]
      remaining := outbox.remaining + bytes.length
      accepted := outbox.accepted + 1 } finished front (waiting ++ [bytes]) := by
  have hempty : outbox.queue = [] → front = [] := fun hqueue =>
    hprogress.front_eq_nil (h.queue_eq_nil_iff.1 hqueue)
  refine ⟨h.closed, ?_, ?_, ?_, h.resolved, ?_⟩
  · simp only [h.count, List.length_append, List.length_singleton]
    omega
  · rw [whole_append hempty, h.queue]
  · rw [List.map_append, h.tickets, List.length_append, List.length_singleton,
      List.range'_1_concat, ← h.count]
    rfl
  · simp [h.remaining]

/-- An outbox stays open whatever flags are set for its closing. -/
theorem Open.withFlags (h : Open outbox finished front waiting)
    (closeRequested closeAfterFlush : Bool) :
    Open { outbox with closeRequested := closeRequested, closeAfterFlush := closeAfterFlush }
      finished front waiting :=
  ⟨h.closed, h.count, h.queue, h.tickets, h.resolved, h.remaining⟩

/-- An open outbox that refuses a write stays open. -/
theorem Open.write_error (h : Open outbox finished front waiting) {after : Outbox} {bytes : Bytes}
    {error : LinkError} (hwrite : outbox.write bytes = (.error error, after)) :
    Open after finished front waiting := by
  obtain ⟨-, rfl⟩ := write_refused hwrite
  exact h.withFlags outbox.closeRequested _

/-- An open outbox that accepts a write queues it behind the others. -/
theorem Open.write_ok (h : Open outbox finished front waiting)
    (hprogress : Progress accepted sent finished front waiting) {after : Outbox} {bytes : Bytes}
    {ticket : Nat} (hwrite : outbox.write bytes = (.ok ticket, after)) :
    Progress (accepted ++ [bytes]) sent finished front (waiting ++ [bytes]) ∧
      Open after finished front (waiting ++ [bytes]) := by
  obtain ⟨-, -, rfl⟩ := write_accepted hwrite
  exact ⟨hprogress.append bytes, h.append hprogress bytes⟩

/-- Where something is left of the first write that is queued, the first write that waits is not
finished. -/
theorem Open.unfinished (h : Open outbox finished front waiting)
    (hhead : ∀ head ∈ outbox.queue.head?, head.unsent ≠ []) (hfirst : waiting.head? = some front) :
    front = [] := by
  cases hqueue : outbox.queue with
  | nil =>
    rw [h.queue_eq_nil_iff.1 hqueue] at hfirst
    cases hfirst
  | cons head rest =>
    have hunsent : head.unsent ≠ [] := hhead head (by rw [hqueue]; rfl)
    rw [← h.queue, hqueue] at hfirst
    have hwhole : front ++ head.unsent = front := Option.some.inj hfirst
    exact absurd (List.append_right_eq_self.1 hwhole) hunsent

/-! ## Flushing -/

/-- A first write of which nothing is left is resolved, and with it the others. -/
theorem resolveFinished_of_finished {head : QueuedWrite} {rest : List QueuedWrite}
    (hqueue : outbox.queue = head :: rest) (hhead : head.unsent = []) :
    outbox.resolveFinished = Outbox.resolveFinished { outbox with
      queue := rest, resolved := outbox.resolved ++ [(head.ticket, .ok ())] } := by
  unfold Outbox.resolveFinished
  simp [hqueue, splitFinished, hhead]

/-- Nothing is resolved where something is left of the first write. -/
theorem resolveFinished_of_unsent (h : ∀ head ∈ outbox.queue.head?, head.unsent ≠ []) :
    outbox.resolveFinished = outbox := by
  cases outbox with
  | mk budget queue remaining closeRequested closeAfterFlush closed accepted resolved =>
    cases queue with
    | nil => simp [Outbox.resolveFinished, splitFinished]
    | cons head rest => simp [Outbox.resolveFinished, splitFinished, h head rfl]

/-- A first write of which nothing is left is finished. -/
theorem Open.finish (h : Open outbox finished front waiting)
    (hprogress : Progress accepted sent finished front waiting) {head : QueuedWrite}
    {rest : List QueuedWrite} (hqueue : outbox.queue = head :: rest) (hhead : head.unsent = []) :
    Progress accepted sent (finished ++ [front]) [] (rest.map (·.unsent)) ∧
      Open { outbox with queue := rest, resolved := outbox.resolved ++ [(head.ticket, .ok ())] }
        (finished ++ [front]) [] (rest.map (·.unsent)) := by
  have hwaiting : waiting = front :: rest.map (·.unsent) := by
    rw [← h.queue, hqueue, whole, hhead, List.append_nil]
  have htickets : head.ticket = finished.length ∧
      rest.map (·.ticket) = List.range' (finished.length + 1) rest.length := by
    have htickets := h.tickets
    rwa [hqueue, hwaiting, List.map_cons, List.length_cons, List.length_map, List.range'_succ,
      List.cons.injEq] at htickets
  refine ⟨⟨?_, ?_, List.nil_prefix⟩, h.closed, ?_, whole_nil rest, ?_, ?_, ?_⟩
  · rw [hprogress.accepted_eq, hwaiting, List.append_assoc, List.singleton_append]
  · rw [hprogress.sent_eq]
    simp
  · show outbox.accepted = _
    rw [h.count, hwaiting]
    simp only [List.length_append, List.length_cons, List.length_nil]
    omega
  · simpa using htickets.2
  · show outbox.resolved ++ [(head.ticket, .ok ())] = _
    rw [h.resolved, htickets.1, List.length_append, List.length_singleton, List.range_succ,
      List.map_append]
    rfl
  · show outbox.remaining = _
    simp [h.remaining, hqueue, hhead]

/-- Resolving finishes every leading write of which nothing is left. -/
theorem Open.resolveFinished (h : Open outbox finished front waiting)
    (hprogress : Progress accepted sent finished front waiting) :
    ∃ finished front waiting, Progress accepted sent finished front waiting ∧
      Open outbox.resolveFinished finished front waiting ∧
      ∀ head ∈ outbox.resolveFinished.queue.head?, head.unsent ≠ [] := by
  induction hqueue : outbox.queue generalizing outbox finished front waiting with
  | nil =>
    have hhead : ∀ head ∈ outbox.queue.head?, head.unsent ≠ [] := by simp [hqueue]
    rw [resolveFinished_of_unsent hhead]
    exact ⟨finished, front, waiting, hprogress, h, hhead⟩
  | cons head rest ih =>
    by_cases hfinished : head.unsent = []
    · obtain ⟨hprogress, hnext⟩ := h.finish hprogress hqueue hfinished
      rw [resolveFinished_of_finished hqueue hfinished]
      exact ih hnext hprogress rfl
    · have hhead : ∀ head ∈ outbox.queue.head?, head.unsent ≠ [] := by
        simpa [hqueue] using hfinished
      rw [resolveFinished_of_unsent hhead]
      exact ⟨finished, front, waiting, hprogress, h, hhead⟩

/-- A socket that takes bytes takes them off the first write that waits. -/
theorem Open.accepts (h : Open outbox finished front waiting)
    (hprogress : Progress accepted sent finished front waiting) {head : QueuedWrite}
    {rest : List QueuedWrite} (hqueue : outbox.queue = head :: rest) (count : Nat) :
    Progress accepted (sent ++ head.unsent.take count) finished (front ++ head.unsent.take count)
        waiting ∧
      Open { outbox with
        queue := { head with unsent := head.unsent.drop count } :: rest
        remaining := outbox.remaining - (head.unsent.take count).length } finished
        (front ++ head.unsent.take count) waiting := by
  have hwaiting : waiting = (front ++ head.unsent) :: rest.map (·.unsent) := by
    rw [← h.queue, hqueue]
    rfl
  have hpiece : front ++ head.unsent.take count ++ head.unsent.drop count =
      front ++ head.unsent := by
    rw [List.append_assoc, List.take_append_drop]
  refine ⟨⟨hprogress.accepted_eq, ?_, ?_⟩, h.closed, h.count, ?_, ?_, h.resolved, ?_⟩
  · rw [hprogress.sent_eq, List.append_assoc]
  · rw [hwaiting]
    exact ⟨head.unsent.drop count, hpiece⟩
  · rw [hwaiting, ← hpiece]
    rfl
  · have htickets := h.tickets
    rwa [hqueue] at htickets
  · have hremaining := h.remaining
    rw [hqueue] at hremaining
    simp only [List.map_cons, List.sum_cons, List.length_take, List.length_drop] at hremaining ⊢
    omega

/-- After a flush what is finished is resolved, and something is left of the first write that
waits. -/
theorem Open.flush (h : Open outbox finished front waiting)
    (hprogress : Progress accepted sent finished front waiting) (attempts : List SocketWrite) :
    ∃ finished front waiting,
      Progress accepted (sent ++ (outbox.flush attempts).sent) finished front waiting ∧
      Open (outbox.flush attempts).outbox finished front waiting ∧
      ∀ head ∈ (outbox.flush attempts).outbox.queue.head?, head.unsent ≠ [] := by
  induction attempts generalizing outbox sent finished front waiting with
  | nil =>
    show ∃ finished front waiting, Progress accepted (sent ++ []) finished front waiting ∧
      Open outbox.resolveFinished finished front waiting ∧ _
    rw [List.append_nil]
    exact h.resolveFinished hprogress
  | cons attempt attempts ih =>
    obtain ⟨finished, front, waiting, hprogress, h, hhead⟩ := h.resolveFinished hprogress
    have hstop : ∃ finished front waiting,
        Progress accepted (sent ++ []) finished front waiting ∧
        Open outbox.resolveFinished finished front waiting ∧
        ∀ head ∈ outbox.resolveFinished.queue.head?, head.unsent ≠ [] := by
      rw [List.append_nil]
      exact ⟨finished, front, waiting, hprogress, h, hhead⟩
    unfold Outbox.flush
    simp only
    split
    next => exact hstop
    next head rest hqueue =>
      cases attempt with
      | blocks => exact hstop
      | fails => exact hstop
      | accepts count =>
        obtain ⟨hprogress, h⟩ := h.accepts hprogress hqueue count
        simp only [← List.append_assoc]
        exact ih h hprogress

/-- A flush leaves what the outbox knows of its closing, its budget and the number of accepted
writes, and sends from what waits. -/
theorem flush_frame (outbox : Outbox) (attempts : List SocketWrite) :
    ∃ queue remaining resolved, remaining ≤ outbox.remaining ∧
      (outbox.flush attempts).outbox = { outbox with
        queue := queue, remaining := remaining, resolved := resolved } := by
  induction attempts generalizing outbox with
  | nil => exact ⟨_, _, _, Nat.le_refl _, rfl⟩
  | cons attempt attempts ih =>
    unfold Outbox.flush
    simp only
    split
    next => exact ⟨_, _, _, Nat.le_refl _, rfl⟩
    next head rest hqueue =>
      cases attempt with
      | blocks => exact ⟨_, _, _, Nat.le_refl _, rfl⟩
      | fails => exact ⟨_, _, _, Nat.le_refl _, rfl⟩
      | accepts count =>
        obtain ⟨queue, remaining, resolved, hremaining, hflushed⟩ := ih {
          outbox.resolveFinished with
          queue := { head with unsent := head.unsent.drop count } :: rest
          remaining := outbox.resolveFinished.remaining - (head.unsent.take count).length }
        exact ⟨queue, remaining, resolved, Nat.le_trans hremaining (Nat.sub_le _ _), hflushed⟩

/-! ## Handing over -/

/-- How what is left of some writes is handed to a socket that answers attempts in turn: what it
takes of them, what is left then, and whether it broke. Each attempt offers what is left of the
first write of which something is left. -/
inductive HandsOver : List Bytes → List SocketWrite → Bytes → List Bytes → Bool → Prop where
  /-- No write is left. -/
  | drained (attempts : List SocketWrite) : HandsOver [] attempts [] [] false
  /-- Nothing is left of the first write. -/
  | finished {others left : List Bytes} {attempts : List SocketWrite} {sent : Bytes}
      {failed : Bool} (h : HandsOver others attempts sent left failed) :
      HandsOver ([] :: others) attempts sent left failed
  /-- There is no other attempt. -/
  | stops {first : Bytes} {others : List Bytes} (hfirst : first ≠ []) :
      HandsOver (first :: others) [] [] (first :: others) false
  | blocks {first : Bytes} {others : List Bytes} {attempts : List SocketWrite}
      (hfirst : first ≠ []) :
      HandsOver (first :: others) (.blocks :: attempts) [] (first :: others) false
  | fails {first : Bytes} {others : List Bytes} {attempts : List SocketWrite}
      (hfirst : first ≠ []) :
      HandsOver (first :: others) (.fails :: attempts) [] (first :: others) true
  | accepts {first sent : Bytes} {others left : List Bytes} {attempts : List SocketWrite}
      {failed : Bool} (count : Nat) (hfirst : first ≠ [])
      (h : HandsOver (first.drop count :: others) attempts sent left failed) :
      HandsOver (first :: others) (.accepts count :: attempts) (first.take count ++ sent) left
        failed

/-- Something is left of the first write that is queued behind the finished ones. -/
theorem unsent_of_splitFinished {queue rest : List QueuedWrite} {head : QueuedWrite}
    (h : (splitFinished queue).2 = head :: rest) : head.unsent ≠ [] := by
  induction queue with
  | nil => cases h
  | cons write others ih =>
    unfold splitFinished at h
    split at h
    next => exact ih h
    next hunsent =>
      obtain ⟨rfl, -⟩ := List.cons.inj h
      exact fun hempty => hunsent (List.isEmpty_iff.2 hempty)

/-- Finished writes make no difference to what is handed over. -/
theorem HandsOver.of_splitFinished {queue : List QueuedWrite} {attempts : List SocketWrite}
    {left : List Bytes} {failed : Bool}
    (h : HandsOver ((splitFinished queue).2.map (·.unsent)) attempts sent left failed) :
    HandsOver (queue.map (·.unsent)) attempts sent left failed := by
  induction queue with
  | nil => exact h
  | cons write others ih =>
    unfold splitFinished at h
    split at h
    next hfinished =>
      rw [List.map_cons, List.isEmpty_iff.1 hfinished]
      exact .finished (ih h)
    next => exact h

/-- A flush hands the queued writes to the socket. -/
theorem handsOver_flush (outbox : Outbox) (attempts : List SocketWrite) :
    HandsOver (outbox.queue.map (·.unsent)) attempts (outbox.flush attempts).sent
      ((outbox.flush attempts).outbox.queue.map (·.unsent)) (outbox.flush attempts).failed := by
  induction attempts generalizing outbox with
  | nil =>
    refine .of_splitFinished ?_
    show HandsOver _ [] [] ((splitFinished outbox.queue).2.map (·.unsent)) false
    cases hqueue : (splitFinished outbox.queue).2 with
    | nil => exact .drained []
    | cons head rest => exact .stops (unsent_of_splitFinished hqueue)
  | cons attempt attempts ih =>
    refine .of_splitFinished ?_
    show HandsOver (outbox.resolveFinished.queue.map (·.unsent)) _ _ _ _
    unfold Outbox.flush
    simp only
    split
    next hqueue =>
      simp only [hqueue]
      exact .drained _
    next head rest hqueue =>
      have hfirst : head.unsent ≠ [] := unsent_of_splitFinished hqueue
      cases attempt with
      | blocks =>
        simp only [hqueue]
        exact .blocks hfirst
      | fails =>
        simp only [hqueue]
        exact .fails hfirst
      | accepts count =>
        simp only [hqueue]
        exact .accepts count hfirst (ih { outbox.resolveFinished with
          queue := { head with unsent := head.unsent.drop count } :: rest
          remaining := outbox.resolveFinished.remaining - (head.unsent.take count).length })

/-- A socket that always takes as much as waits takes all of it, in an attempt for each write of
which something is left. -/
theorem HandsOver.of_ready {waiting left : List Bytes} {attempts : List SocketWrite}
    {failed : Bool} (h : HandsOver waiting attempts sent left failed)
    (hmany : waiting.countP (fun bytes => !bytes.isEmpty) ≤ attempts.length)
    (hready : ∀ attempt ∈ attempts, ∃ count, attempt = .accepts count ∧
      waiting.flatten.length ≤ count) :
    sent = waiting.flatten ∧ left = [] ∧ failed = false := by
  induction h with
  | drained attempts => exact ⟨rfl, rfl, rfl⟩
  | finished h ih => exact ih hmany hready
  | @stops first others hfirst => simp [hfirst] at hmany
  | blocks hfirst =>
    obtain ⟨count, hcount, -⟩ := hready .blocks List.mem_cons_self
    cases hcount
  | fails hfirst =>
    obtain ⟨count, hcount, -⟩ := hready .fails List.mem_cons_self
    cases hcount
  | @accepts first sent others left attempts failed count hfirst h ih =>
    obtain ⟨_, hcount, hall⟩ := hready (.accepts count) List.mem_cons_self
    obtain rfl := SocketWrite.accepts.inj hcount
    rw [List.flatten_cons, List.length_append] at hall
    have hdrop : first.drop count = [] := List.drop_eq_nil_of_le (by omega)
    have htake : first.take count = first := List.take_of_length_le (by omega)
    rw [hdrop] at ih
    obtain ⟨hsent, hleft, hfailed⟩ := ih (by simpa [hfirst] using hmany)
      fun attempt hattempt => by
        obtain ⟨more, hmore, hrest⟩ := hready attempt (List.mem_cons_of_mem _ hattempt)
        rw [List.flatten_cons, List.length_append] at hrest
        exact ⟨more, hmore, by rw [List.flatten_cons, List.nil_append]; omega⟩
    rw [htake, hsent]
    exact ⟨rfl, hleft, hfailed⟩

/-! ## Closing -/

/-- Closing leaves whether the end was asked for. -/
@[simp] theorem closeRequested_close (outbox : Outbox) :
    outbox.close.closeRequested = outbox.closeRequested := by
  unfold Outbox.close
  split <;> rfl

/-- Closing leaves whether a write was refused for want of room. -/
@[simp] theorem closeAfterFlush_close (outbox : Outbox) :
    outbox.close.closeAfterFlush = outbox.closeAfterFlush := by
  unfold Outbox.close
  split <;> rfl

/-- Closing an open outbox fails what waits. -/
theorem Open.close (h : Open outbox finished front waiting) :
    Ended outbox.close finished waiting := by
  have hclose : outbox.close = { outbox with
      queue := []
      remaining := 0
      closed := true
      resolved := outbox.resolved ++
        outbox.queue.map fun write => (write.ticket, .error .closed) } := by
    unfold Outbox.close
    rw [h.closed]
    rfl
  rw [hclose]
  refine ⟨rfl, rfl, rfl, ?_⟩
  show outbox.resolved ++ outbox.queue.map (fun write => (write.ticket, .error .closed)) = _
  have hfailed : outbox.queue.map
        (fun write => (write.ticket, (.error .closed : Except LinkError Unit))) =
      (List.range' finished.length waiting.length).map fun ticket => (ticket, .error .closed) := by
    rw [← h.tickets, List.map_map]
    rfl
  rw [hfailed, h.resolved, outcomes, List.range_add, List.map_append]
  congr 1
  · refine List.map_congr_left fun ticket hticket => ?_
    rw [if_pos (List.mem_range.1 hticket)]
  · rw [List.range'_eq_map_range, List.map_map, List.map_map]
    refine List.map_congr_left fun ticket _ => ?_
    simp

/-- An ended outbox stays as it is. -/
theorem Ended.close (h : Ended outbox finished waiting) : outbox.close = outbox := by
  simp [Outbox.close, h.closed]

/-- An ended outbox has nothing to send. -/
theorem Ended.flush (h : Ended outbox finished waiting) (attempts : List SocketWrite) :
    outbox.flush attempts = ⟨outbox, [], false⟩ := by
  have hresolve : outbox.resolveFinished = outbox :=
    resolveFinished_of_unsent (by simp [h.queue])
  cases attempts with
  | nil => simp [Outbox.flush, hresolve]
  | cons attempt attempts => simp [Outbox.flush, hresolve, h.queue]

end PeerProtocol.Outbox
