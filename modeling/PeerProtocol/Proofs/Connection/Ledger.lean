import Mathlib.Data.List.Induction
import PeerProtocol.Proofs.Connection.Progress

/-!
# The ledger of an outbox

A ledger keeps beside an outbox what was accepted, what was refused, and what the socket took.
Whatever is written, flushed in whatever pieces, asked to close and closed, in any order: the ledger
stays balanced, that is, the accepted writes are finished, wait or have failed (`balanced_run`), and
the flags of the outbox record what happened (`recorded_run`). The main statement, `kept_run`, reads
off what this says of the bytes that wait and of those that were sent, of tickets, and of the answer
to the next write.
-/

namespace PeerProtocol.Outbox

/-- What happens to an outbox. -/
inductive Event where
  | write (bytes : Bytes)
  | requestClose
  | flush (attempts : List SocketWrite)
  | close
deriving DecidableEq

/-- An outbox, the writes that it accepted in the order of their tickets, the errors with which it
refused others, and the bytes that the socket took. -/
structure Ledger where
  outbox : Outbox
  accepted : List Bytes
  refusals : List LinkError
  sent : Bytes

namespace Ledger

/-- Of an outbox of a connection that carries messages up to a size. -/
def start (maxMessageSize : Nat) : Ledger :=
  ⟨Outbox.new maxMessageSize, [], [], []⟩

/-- The ledger after an event. -/
def step (ledger : Ledger) : Event → Ledger
  | .write bytes =>
    match ledger.outbox.write bytes with
    | (.ok _, outbox) => { ledger with outbox := outbox, accepted := ledger.accepted ++ [bytes] }
    | (.error error, outbox) =>
        { ledger with outbox := outbox, refusals := ledger.refusals ++ [error] }
  | .requestClose => { ledger with outbox := ledger.outbox.requestClose }
  | .flush attempts =>
      let flushed := ledger.outbox.flush attempts
      { ledger with outbox := flushed.outbox, sent := ledger.sent ++ flushed.sent }
  | .close => { ledger with outbox := ledger.outbox.close }

/-- The ledger after events in order. -/
def run (ledger : Ledger) (events : List Event) : Ledger :=
  events.foldl step ledger

/-- The bytes of an accepted write. -/
def bytes (ledger : Ledger) (ticket : Nat) : Bytes :=
  ledger.accepted[ticket]?.getD []

/-- How many bytes of an accepted write the socket took, given that it took those of the writes
before it first. -/
def written (ledger : Ledger) (ticket : Nat) : Nat :=
  min (ledger.bytes ticket).length
    (ledger.sent.length - (ledger.accepted.take ticket).flatten.length)

end Ledger

/-! ## What every run preserves -/

namespace Ledger

variable {ledger : Ledger}

/-- The accepted writes are finished or wait in the outbox or, if it has ended, have failed; and
of a write that waits something is left. -/
structure Balanced (ledger : Ledger) (finished : List Bytes) (front : Bytes)
    (waiting : List Bytes) : Prop where
  progress : Progress ledger.accepted ledger.sent finished front waiting
  unfinished : waiting.head? = some front → front = []
  outbox : Open ledger.outbox finished front waiting ∨ Ended ledger.outbox finished waiting

/-- The last event is the last step. -/
theorem run_append_singleton (ledger : Ledger) (events : List Event) (event : Event) :
    ledger.run (events ++ [event]) = (ledger.run events).step event := by
  simp [run]

/-- Nothing is accepted or sent at first. -/
theorem balanced_start (maxMessageSize : Nat) : Balanced (start maxMessageSize) [] [] [] where
  progress := ⟨rfl, rfl, List.nil_prefix⟩
  unfinished _ := rfl
  outbox := .inl ⟨rfl, rfl, rfl, rfl, rfl, rfl⟩

/-- A write leaves a ledger balanced, whether it is accepted or refused. -/
theorem Balanced.write {finished waiting : List Bytes} {front : Bytes}
    (h : Balanced ledger finished front waiting) (bytes : Bytes) :
    ∃ waiting, Balanced (ledger.step (.write bytes)) finished front waiting := by
  cases hwrite : ledger.outbox.write bytes with
  | mk result after =>
  cases result with
  | error error =>
    refine ⟨waiting, ?_⟩
    simp only [step, hwrite]
    refine ⟨h.progress, h.unfinished, h.outbox.imp (·.write_error hwrite) fun hended => ?_⟩
    obtain ⟨-, rfl⟩ := write_refused hwrite
    exact ⟨hended.closed, hended.queue, hended.remaining, hended.resolved⟩
  | ok ticket =>
    simp only [step, hwrite]
    rcases h.outbox with hopen | hended
    · obtain ⟨hprogress, hnext⟩ := hopen.write_ok h.progress hwrite
      refine ⟨waiting ++ [bytes], hprogress, fun hfirst => ?_, .inl hnext⟩
      -- Behind other writes nothing changes for the first; before it nothing was sent of it.
      cases hwaiting : waiting with
      | nil => exact h.progress.front_eq_nil hwaiting
      | cons first rest =>
        rw [hwaiting] at hfirst
        exact h.unfinished (by rw [hwaiting]; exact hfirst)
    · have hclosing : ledger.outbox.isClosing = true := by simp [isClosing, hended.closed]
      rw [write_of_closing hclosing] at hwrite
      cases (Prod.mk.inj hwrite).1

/-- An event leaves a ledger balanced. -/
theorem Balanced.step {finished waiting : List Bytes} {front : Bytes}
    (h : Balanced ledger finished front waiting) (event : Event) :
    ∃ finished front waiting, Balanced (ledger.step event) finished front waiting := by
  cases event with
  | write bytes => exact ⟨finished, front, h.write bytes⟩
  | requestClose =>
    refine ⟨finished, front, waiting, h.progress, h.unfinished, h.outbox.imp ?_ fun hended => ?_⟩
    · exact fun hopen => hopen.withFlags true ledger.outbox.closeAfterFlush
    · exact ⟨hended.closed, hended.queue, hended.remaining, hended.resolved⟩
  | flush attempts =>
    rcases h.outbox with hopen | hended
    · obtain ⟨finished, front, waiting, hprogress, hopen, hhead⟩ := hopen.flush h.progress attempts
      exact ⟨finished, front, waiting, hprogress, hopen.unfinished hhead, .inl hopen⟩
    · refine ⟨finished, front, waiting, ?_⟩
      simp only [Ledger.step, hended.flush, List.append_nil]
      exact h
  | close =>
    refine ⟨finished, front, waiting, h.progress, h.unfinished, .inr ?_⟩
    rcases h.outbox with hopen | hended
    · exact hopen.close
    · show Ended ledger.outbox.close finished waiting
      rwa [hended.close]

/-- A ledger stays balanced. -/
theorem balanced_run (maxMessageSize : Nat) (events : List Event) :
    ∃ finished front waiting,
      Balanced ((start maxMessageSize).run events) finished front waiting := by
  -- From the last event, so that the induction speaks of runs from one start.
  induction events using List.reverseRecOn with
  | nil => exact ⟨[], [], [], balanced_start maxMessageSize⟩
  | append_singleton events event ih =>
    obtain ⟨finished, front, waiting, h⟩ := ih
    rw [run_append_singleton]
    exact h.step event

/-! ### What the socket took of each write -/

section

variable {finished waiting : List Bytes} {front : Bytes}

/-- A finished write is among the finished ones. -/
theorem Balanced.bytes_of_finished (h : Balanced ledger finished front waiting) {ticket : Nat}
    (hticket : ticket < finished.length) : ledger.bytes ticket = finished[ticket] := by
  simp [bytes, h.progress.accepted_eq, List.getElem?_append_left hticket, hticket]

/-- The tickets of writes that wait come after those of finished ones. -/
theorem Balanced.bytes_of_waiting (h : Balanced ledger finished front waiting) (position : Nat) :
    ledger.bytes (finished.length + position) = waiting[position]?.getD [] := by
  rw [bytes, h.progress.accepted_eq, List.getElem?_append_right (Nat.le_add_right _ _),
    Nat.add_sub_cancel_left]

/-- The socket took all of a finished write. -/
theorem Balanced.written_of_finished (h : Balanced ledger finished front waiting) {ticket : Nat}
    (hticket : ticket < finished.length) :
    ledger.written ticket = (ledger.bytes ticket).length := by
  have hbefore : ledger.accepted.take ticket = finished.take ticket := by
    rw [h.progress.accepted_eq, List.take_append_of_le_length (Nat.le_of_lt hticket)]
  have hsplit : finished = finished.take ticket ++ finished[ticket] :: finished.drop (ticket + 1) :=
    by simp
  have hsent : ledger.sent.length = (finished.take ticket).flatten.length +
      finished[ticket].length + (finished.drop (ticket + 1)).flatten.length + front.length := by
    rw [h.progress.sent_eq, List.length_append]
    conv => lhs; rw [hsplit]
    simp only [List.flatten_append, List.flatten_cons, List.length_append]
    omega
  rw [written, hbefore, h.bytes_of_finished hticket, hsent]
  omega

/-- The socket took the front of the first write that waits, and nothing of those behind it. -/
theorem Balanced.written_of_waiting (h : Balanced ledger finished front waiting) (position : Nat) :
    ledger.written (finished.length + position) = if position = 0 then front.length else 0 := by
  have hbefore : (ledger.accepted.take (finished.length + position)).flatten.length =
      finished.flatten.length + (waiting.take position).flatten.length := by
    rw [h.progress.accepted_eq, List.take_length_add_append, List.flatten_append,
      List.length_append]
  have hfront : front.length ≤ (waiting.headD []).length := h.progress.front_prefix.length_le
  rw [written, hbefore, h.bytes_of_waiting, h.progress.sent_eq, List.length_append]
  cases waiting with
  | nil =>
    rw [h.progress.front_eq_nil rfl]
    simp
  | cons first rest =>
    cases position with
    | zero =>
      have hfirst : front.length ≤ first.length := hfront
      simp [hfirst]
    | succ position =>
      have hfirst : front.length ≤ first.length := hfront
      simp
      omega

/-! ### Tickets and what waits -/

/-- The first tickets are resolved: those of finished writes well, the others as failed, and all of
them once the outbox has closed. -/
theorem Balanced.resolved (h : Balanced ledger finished front waiting) :
    ∃ count, ledger.outbox.resolved = outcomes finished.length count ∧ finished.length ≤ count ∧
      count ≤ ledger.accepted.length ∧
      (ledger.outbox.closed = true → count = ledger.accepted.length) := by
  have hcount : ledger.accepted.length = finished.length + waiting.length := by
    rw [h.progress.accepted_eq, List.length_append]
  rcases h.outbox with hopen | hended
  · refine ⟨finished.length, ?_, Nat.le_refl _, by omega, fun hclosed => ?_⟩
    · rw [hopen.resolved, outcomes_self]
    · rw [hopen.closed] at hclosed
      cases hclosed
  · exact ⟨ledger.accepted.length, by rw [hended.resolved, hcount], by omega, Nat.le_refl _,
      fun _ => rfl⟩

/-- What is unsent of a queued write is what the socket has not taken of it. -/
theorem Balanced.length_unsent (h : Balanced ledger finished front waiting)
    (hopen : Open ledger.outbox finished front waiting) {position : Nat} {write : QueuedWrite}
    (hwrite : ledger.outbox.queue[position]? = some write) :
    write.ticket = finished.length + position ∧
      write.unsent.length = (ledger.bytes write.ticket).length - ledger.written write.ticket := by
  have hticket : write.ticket = finished.length + position := by
    have htickets := congrArg (·[position]?) hopen.tickets
    simp only [List.getElem?_map, hwrite, Option.map_some] at htickets
    have hposition : position < waiting.length := by
      rw [← hopen.queue, length_whole]
      exact (List.getElem?_eq_some_iff.1 hwrite).1
    rw [List.getElem?_range' hposition] at htickets
    simpa using htickets
  refine ⟨hticket, ?_⟩
  rw [hticket, h.bytes_of_waiting, h.written_of_waiting, ← hopen.queue]
  cases hqueue : ledger.outbox.queue with
  | nil => simp [hqueue] at hwrite
  | cons head rest =>
    rw [hqueue] at hwrite
    cases position with
    | zero =>
      obtain rfl : head = write := by simpa using hwrite
      simp [whole]
    | succ position =>
      have hunsent : (rest.map (·.unsent))[position]? = some write.unsent := by
        rw [List.getElem?_map, show rest[position]? = some write from hwrite]
        rfl
      simp [whole, hunsent]

/-- What waits is what the socket has not taken of the queued writes. -/
theorem Balanced.remaining_eq (h : Balanced ledger finished front waiting) :
    ledger.outbox.remaining = (ledger.outbox.queue.map fun write =>
      (ledger.bytes write.ticket).length - ledger.written write.ticket).sum := by
  rcases h.outbox with hopen | hended
  · rw [hopen.remaining]
    congr 1
    refine List.map_congr_left fun write hwrite => ?_
    obtain ⟨position, hposition⟩ := List.getElem?_of_mem hwrite
    exact (h.length_unsent hopen hposition).2
  · simp [hended.remaining, hended.queue]

/-- As many bytes wait as the outbox counts. -/
theorem Balanced.length_flatten_unsent (h : Balanced ledger finished front waiting) :
    (ledger.outbox.queue.map (·.unsent)).flatten.length = ledger.outbox.remaining := by
  rcases h.outbox with hopen | hended
  · rw [hopen.remaining, List.length_flatten, List.map_map]
    rfl
  · rw [hended.queue, hended.remaining]
    rfl

/-- A flush sends all that waits to a socket that takes as much in each of enough attempts. -/
theorem Balanced.drained (h : Balanced ledger finished front waiting)
    {attempts : List SocketWrite} (hmany : ledger.outbox.queue.length ≤ attempts.length)
    (hready : ∀ attempt ∈ attempts, ∃ count, attempt = .accepts count ∧
      ledger.outbox.remaining ≤ count) :
    (ledger.step (.flush attempts)).sent = ledger.sent ++ ledger.outbox.unsent ∧
      (ledger.step (.flush attempts)).outbox.queue = [] := by
  have hcount : (ledger.outbox.queue.map (·.unsent)).countP (fun bytes => !bytes.isEmpty) ≤
      attempts.length := by
    refine Nat.le_trans List.countP_le_length ?_
    rwa [List.length_map]
  rw [← h.length_flatten_unsent] at hready
  obtain ⟨hsent, hleft, -⟩ := (handsOver_flush ledger.outbox attempts).of_ready hcount hready
  refine ⟨?_, List.map_eq_nil_iff.1 hleft⟩
  show ledger.sent ++ (ledger.outbox.flush attempts).sent = _
  rw [hsent, unsent, List.flatMap_def]

/-- What was sent and what waits are what was accepted, as long as the outbox is open. -/
theorem Balanced.sent_append (h : Balanced ledger finished front waiting)
    (hopen : ledger.outbox.closed = false) :
    ledger.sent ++ ledger.outbox.unsent = ledger.accepted.flatten := by
  rcases h.outbox with hwaits | hended
  · rw [h.progress.accepted_eq, h.progress.sent_eq, ← hwaits.queue, unsent]
    cases hqueue : ledger.outbox.queue with
    | nil =>
      rw [h.progress.front_eq_nil (hwaits.queue_eq_nil_iff.1 hqueue)]
      simp [whole]
    | cons head rest => simp [whole, List.flatMap_def]
  · rw [hended.closed] at hopen
    cases hopen

/-- What was sent is a beginning of what was accepted. -/
theorem Balanced.sent_prefix (h : Balanced ledger finished front waiting) :
    ledger.sent <+: ledger.accepted.flatten := by
  rw [h.progress.accepted_eq, h.progress.sent_eq, List.flatten_append]
  refine (List.prefix_append_right_inj _).2 ?_
  cases hwaiting : waiting with
  | nil =>
    rw [h.progress.front_eq_nil hwaiting]
    exact List.nil_prefix
  | cons first rest =>
    have hfront := h.progress.front_prefix
    rw [hwaiting] at hfront
    exact hfront.trans (List.prefix_append first rest.flatten)

/-- A write that is not empty has a good outcome exactly if the socket took all of it. -/
theorem Balanced.outcome_iff (h : Balanced ledger finished front waiting) {ticket : Nat}
    (hticket : ticket < ledger.accepted.length) (hbytes : ledger.bytes ticket ≠ []) :
    ledger.outbox.outcome? ticket = some (.ok ()) ↔
      ledger.written ticket = (ledger.bytes ticket).length := by
  obtain ⟨count, hresolved, hfinished, -, -⟩ := h.resolved
  rw [outcome?, hresolved, lookup_outcomes]
  by_cases hdone : ticket < finished.length
  · simp [hdone, Nat.lt_of_lt_of_le hdone hfinished, h.written_of_finished hdone]
  · obtain ⟨position, rfl⟩ := Nat.exists_eq_add_of_le (Nat.le_of_not_lt hdone)
    have hnone : ¬ ledger.written (finished.length + position) =
        (ledger.bytes (finished.length + position)).length := by
      rw [h.written_of_waiting]
      intro hwritten
      have hpositive : 0 < (ledger.bytes (finished.length + position)).length :=
        List.length_pos_iff.2 hbytes
      by_cases hposition : position = 0
      · -- Of the first write that waits something is left.
        subst hposition
        rw [if_pos rfl, h.bytes_of_waiting] at hwritten
        rw [h.bytes_of_waiting] at hpositive
        cases hwaiting : waiting with
        | nil => simp [hwaiting] at hpositive
        | cons first rest =>
          have hfront := h.progress.front_prefix
          rw [hwaiting] at hfront hwritten hpositive
          have hwhole : front = first := hfront.eq_of_length hwritten
          have hempty := h.unfinished (by rw [hwaiting, hwhole]; rfl)
          rw [hempty] at hwritten
          exact absurd hwritten.symm (Nat.ne_of_gt hpositive)
      · rw [if_neg hposition] at hwritten
        omega
    simp [hdone, hnone]

end

/-! ### What was refused -/

/-- The flags of the outbox tell what happened: that it was closed, that this was asked for, that a
write was refused for want of room; and what waits is within the budget. -/
structure Recorded (maxMessageSize : Nat) (events : List Event) (ledger : Ledger) : Prop where
  budget : ledger.outbox.budget = maxMessageSize + Frame.overhead
  fits : ledger.outbox.remaining ≤ ledger.outbox.budget
  closed : ledger.outbox.closed = decide (.close ∈ events)
  closeRequested : ledger.outbox.closeRequested = decide (.requestClose ∈ events)
  closeAfterFlush : ledger.outbox.closeAfterFlush = ledger.refusals.any LinkError.isOverflow

/-- Nothing has happened at first. -/
theorem recorded_start (maxMessageSize : Nat) :
    Recorded maxMessageSize [] (start maxMessageSize) :=
  ⟨rfl, Nat.zero_le _, rfl, rfl, rfl⟩

/-- An event is recorded. -/
theorem Recorded.step {maxMessageSize : Nat} {events : List Event}
    (h : Recorded maxMessageSize events ledger) (event : Event) :
    Recorded maxMessageSize (events ++ [event]) (ledger.step event) := by
  obtain ⟨hbudget, hfits, hclosed, hrequested, hafterFlush⟩ := h
  cases event with
  | write bytes =>
    by_cases hclosing : ledger.outbox.isClosing
    · simp only [Ledger.step, write_of_closing hclosing bytes]
      exact ⟨hbudget, hfits, by simp [hclosed], by simp [hrequested],
        by simp [hafterFlush, LinkError.isOverflow]⟩
    · rw [Bool.not_eq_true] at hclosing
      by_cases hover : ledger.outbox.budget < ledger.outbox.remaining + bytes.length
      · simp only [Ledger.step, write_of_overflow hclosing hover]
        exact ⟨hbudget, hfits, by simp [hclosed], by simp [hrequested],
          by simp [LinkError.isOverflow]⟩
      · simp only [Ledger.step, write_of_fits hclosing (Nat.le_of_not_lt hover)]
        exact ⟨hbudget, Nat.le_of_not_lt hover, by simp [hclosed], by simp [hrequested],
          hafterFlush⟩
  | requestClose =>
    exact ⟨hbudget, hfits, by simp [Ledger.step, requestClose, hclosed],
      by simp [Ledger.step, requestClose], hafterFlush⟩
  | flush attempts =>
    obtain ⟨queue, remaining, resolved, hremaining, hflushed⟩ :=
      flush_frame ledger.outbox attempts
    simp only [Ledger.step, hflushed]
    exact ⟨hbudget, Nat.le_trans hremaining hfits, by simp [hclosed], by simp [hrequested],
      hafterFlush⟩
  | close =>
    simp only [Ledger.step, Outbox.close]
    split
    next hended => exact ⟨hbudget, hfits, by simp [hended], by simp [hrequested], hafterFlush⟩
    next => exact ⟨hbudget, Nat.zero_le _, by simp, by simp [hrequested], hafterFlush⟩

/-- Everything is recorded. -/
theorem recorded_run (maxMessageSize : Nat) (events : List Event) :
    Recorded maxMessageSize events ((start maxMessageSize).run events) := by
  induction events using List.reverseRecOn with
  | nil => exact recorded_start maxMessageSize
  | append_singleton events event ih =>
    rw [run_append_singleton]
    exact ih.step event

/-- The outbox closes, is asked to close, or has refused a write for want of room. -/
theorem Recorded.isClosing_eq {maxMessageSize : Nat} {events : List Event}
    (h : Recorded maxMessageSize events ledger) : ledger.outbox.isClosing =
      (decide (.close ∈ events) || decide (.requestClose ∈ events) ||
        ledger.refusals.any LinkError.isOverflow) := by
  rw [isClosing, h.closed, h.closeRequested, h.closeAfterFlush]

/-- A write is answered by what was recorded: it is refused if the outbox closes, else if it exceeds
the budget, and else gets the next ticket. -/
theorem Balanced.write_eq {maxMessageSize : Nat} {events : List Event}
    {finished waiting : List Bytes} {front : Bytes} (h : Balanced ledger finished front waiting)
    (hrecorded : Recorded maxMessageSize events ledger) (bytes : Bytes) :
    (ledger.outbox.write bytes).1 =
      if .close ∈ events ∨ .requestClose ∈ events ∨ ledger.refusals.any LinkError.isOverflow then
        .error .closed
      else if maxMessageSize + Frame.overhead < ledger.outbox.remaining + bytes.length then
        .error (.outboundOverflow ledger.outbox.remaining bytes.length
          (maxMessageSize + Frame.overhead))
      else .ok ledger.accepted.length := by
  have hflags := hrecorded.isClosing_eq
  rw [← hrecorded.budget]
  by_cases hclosing : ledger.outbox.isClosing
  · have hcause : .close ∈ events ∨ .requestClose ∈ events ∨
        ledger.refusals.any LinkError.isOverflow := by
      rw [hclosing] at hflags
      simpa [or_assoc] using hflags.symm
    rw [if_pos hcause, write_of_closing hclosing]
  · rw [Bool.not_eq_true] at hclosing
    have hcause : ¬ (.close ∈ events ∨ .requestClose ∈ events ∨
        ledger.refusals.any LinkError.isOverflow) := by
      rw [hclosing] at hflags
      simpa [and_assoc] using hflags.symm
    rw [if_neg hcause]
    by_cases hover : ledger.outbox.budget < ledger.outbox.remaining + bytes.length
    · rw [if_pos hover, write_of_overflow hclosing hover]
    · rw [if_neg hover, write_of_fits hclosing (Nat.le_of_not_lt hover)]
      rcases h.outbox with hopen | hended
      · rw [hopen.count, h.progress.accepted_eq, List.length_append]
      · rw [isClosing, hended.closed] at hclosing
        cases hclosing

/-! ## What a ledger tells -/

/-- What a ledger tells after events.

* What waits is what the socket has not taken of the queued writes, and fits the budget.
* What was sent is a beginning of what was accepted, and until the outbox is closed the rest of that
  is what waits.
* Each flush adds to what was sent what the queued writes hand over to the socket, attempt by
  attempt; to one that takes as much as waits in each of enough attempts, all of it.
* Tickets are resolved in order, each at most once, and all of them once the outbox is closed. One
  for some bytes is resolved well exactly if the socket took them all, and otherwise as closed.
* A write is refused as closed exactly if the outbox was closed, was asked to close or has refused a
  write above the budget, else as an overflow exactly if it exceeds the budget; refusing it changes
  nothing but that an overflow makes the outbox close. -/
structure Kept (maxMessageSize : Nat) (events : List Event) (ledger : Ledger) : Prop where
  remaining_eq : ledger.outbox.remaining = (ledger.outbox.queue.map fun write =>
    (ledger.bytes write.ticket).length - ledger.written write.ticket).sum
  remaining_le : ledger.outbox.remaining ≤ maxMessageSize + Frame.overhead
  sent_prefix : ledger.sent <+: ledger.accepted.flatten
  sent_append : .close ∉ events → ledger.sent ++ ledger.outbox.unsent = ledger.accepted.flatten
  handed : ∀ attempts, ∃ taken, (ledger.step (.flush attempts)).sent = ledger.sent ++ taken ∧
    HandsOver (ledger.outbox.queue.map (·.unsent)) attempts taken
      ((ledger.step (.flush attempts)).outbox.queue.map (·.unsent))
      (ledger.outbox.flush attempts).failed
  drained : ∀ attempts, ledger.outbox.queue.length ≤ attempts.length →
    (∀ attempt ∈ attempts, ∃ count, attempt = .accepts count ∧ ledger.outbox.remaining ≤ count) →
      (ledger.step (.flush attempts)).sent = ledger.sent ++ ledger.outbox.unsent ∧
        (ledger.step (.flush attempts)).outbox.queue = []
  tickets_prefix : ledger.outbox.resolved.map Prod.fst <+: List.range ledger.accepted.length
  tickets_eq : .close ∈ events →
    ledger.outbox.resolved.map Prod.fst = List.range ledger.accepted.length
  outcome_iff : ∀ ticket < ledger.accepted.length, ledger.bytes ticket ≠ [] →
    (ledger.outbox.outcome? ticket = some (.ok ()) ↔
      ledger.written ticket = (ledger.bytes ticket).length)
  outcome_error : ∀ ticket error, ledger.outbox.outcome? ticket = some (.error error) →
    error = .closed
  answer : ∀ bytes, (ledger.outbox.write bytes).1 =
    if .close ∈ events ∨ .requestClose ∈ events ∨ ledger.refusals.any LinkError.isOverflow then
      .error .closed
    else if maxMessageSize + Frame.overhead < ledger.outbox.remaining + bytes.length then
      .error (.outboundOverflow ledger.outbox.remaining bytes.length
        (maxMessageSize + Frame.overhead))
    else .ok ledger.accepted.length
  refused : ∀ bytes error after, ledger.outbox.write bytes = (.error error, after) →
    after = { ledger.outbox with
      closeAfterFlush := ledger.outbox.closeAfterFlush || error.isOverflow }

/-- Whatever happens to an outbox, in whatever order, its ledger tells all of this. -/
theorem kept_run (maxMessageSize : Nat) (events : List Event) :
    Kept maxMessageSize events ((start maxMessageSize).run events) := by
  obtain ⟨finished, front, waiting, hbalanced⟩ := balanced_run maxMessageSize events
  have hrecorded := recorded_run maxMessageSize events
  generalize (start maxMessageSize).run events = ledger at hbalanced hrecorded
  obtain ⟨count, hresolved, -, hcount, hall⟩ := hbalanced.resolved
  refine ⟨hbalanced.remaining_eq, ?_, hbalanced.sent_prefix, fun hopen => ?_,
    fun attempts => ⟨_, rfl, handsOver_flush ledger.outbox attempts⟩,
    fun _ hmany hready => hbalanced.drained hmany hready, ?_, fun hclosed => ?_,
    fun ticket hticket hbytes => hbalanced.outcome_iff hticket hbytes,
    fun ticket error herror => ?_, hbalanced.write_eq hrecorded,
    fun bytes error after hwrite => (write_refused hwrite).2⟩
  · exact hrecorded.budget ▸ hrecorded.fits
  · exact hbalanced.sent_append (by rw [hrecorded.closed]; exact decide_eq_false hopen)
  · have htake : List.range count = (List.range ledger.accepted.length).take count := by
      rw [List.take_range, Nat.min_eq_left hcount]
    rw [hresolved, map_fst_outcomes, htake]
    exact List.take_prefix count _
  · have hended := hall (by rw [hrecorded.closed]; exact decide_eq_true hclosed)
    rw [hresolved, map_fst_outcomes, hended]
  · rw [outcome?, hresolved, lookup_outcomes] at herror
    by_cases hticket : ticket < count
    · by_cases hfinished : ticket < finished.length
      · simp [hticket, hfinished] at herror
      · simpa [hticket, hfinished, eq_comm] using herror
    · simp [hticket] at herror

end Ledger

end PeerProtocol.Outbox
