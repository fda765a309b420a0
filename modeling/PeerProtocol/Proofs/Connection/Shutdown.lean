import Mathlib.Data.List.Basic
import PeerProtocol.Proofs.Connection.Lifecycle

/-!
# Shutdowns return

A shutdown waits for the reactor of its run, and the reactor waits for its tasks. None of them waits
for ever: wherever the run is, once it has been signalled its reactor can leave, every connect
attempt can be given up, every open connection ends with its next turn, and every request that is
left can be failed. So whatever has happened to a manager, every shutdown that waits can return
(`shutdown_returns`). A schedule is a run of those of its events that are possible (`run?_attempt`),
and so the schedule of a whole shutdown gets to its return (`shutdown_spec`) and leaves nothing open
and every request settled (`shutdown_settles`).
-/

namespace PeerProtocol

/-- A connection that sees the signal ends. -/
theorem Connection.isClosed_turn_shutdown {γ : Type} [Collaborator γ] (connection : Connection γ)
    (read : SocketRead) (writes : Option (List Outbox.SocketWrite)) :
    (connection.turn true read writes).1.isClosed = true := by
  unfold turn
  split
  next hclosed => exact hclosed
  next =>
    -- The signal is looked at before anything else.
    rw [if_pos (show connection.mustEnd true = true from rfl)]
    exact connection.close_kept.2.1

/-- A request that is given up, or whose connection sees the signal, is no task any more. -/
theorem LinkState.isTask_windUp (state : LinkState) (reaction : Reaction)
    (read : Connection.SocketRead) (writes : Option (List Outbox.SocketWrite)) :
    let abandoned := state.abandon?.getD state
    ((abandoned.turn? true reaction read writes).getD abandoned).isTask = false := by
  cases state with
  | queued puppet => rfl
  | connecting puppet => rfl
  | finished puppet => rfl
  | live connection =>
    show (if (Connection.turn _ true read writes).1.isClosed = true then _ else _ :
      LinkState).isTask = false
    rw [if_pos (Connection.isClosed_turn_shutdown _ read writes)]
    rfl

/-- A request that may fail without having been taken up is not queued any more. -/
theorem LinkState.isQueued_drain (state : LinkState) :
    (state.drain?.getD state).isQueued = false := by
  cases state with
  | queued puppet => rfl
  | connecting puppet => rfl
  | live connection => rfl
  | finished puppet => rfl

namespace Manager

variable {manager after : Manager} {number : Nat} {run : Run}

/-! ## Schedules -/

/-- A schedule is one part after the other. -/
theorem attempt_append (manager : Manager) (first second : List Event) :
    manager.attempt (first ++ second) = (manager.attempt first).attempt second :=
  List.foldl_append

/-- A schedule runs those of its events that are possible. -/
theorem run?_attempt (manager : Manager) (events : List Event) :
    ∃ happened, happened.Sublist events ∧
      manager.run? happened = some (manager.attempt events) := by
  induction events generalizing manager with
  | nil => exact ⟨[], List.Sublist.refl _, rfl⟩
  | cons event events ih =>
    cases hstep : manager.step? event with
    | none =>
      obtain ⟨happened, hsublist, hrun⟩ := ih manager
      refine ⟨happened, hsublist.cons event, hrun.trans ?_⟩
      show _ = some (attempt ((manager.step? event).getD manager) events)
      rw [hstep]
      rfl
    | some reached =>
      obtain ⟨happened, hsublist, hrun⟩ := ih reached
      refine ⟨event :: happened, hsublist.cons_cons event, ?_⟩
      show (manager.step? event).bind (·.run? happened) =
        some (attempt ((manager.step? event).getD manager) events)
      rw [hstep]
      exact hrun

/-! ## Steps of links and reactors -/

/-- Its callers find a manager as it was. -/
structure Kept (manager after : Manager) : Prop where
  current : after.current = manager.current
  waiting : after.waiting = manager.waiting

/-- Steps that keep a manager keep it together. -/
theorem Kept.trans {reached : Manager} (hfirst : manager.Kept reached)
    (hsecond : reached.Kept after) : manager.Kept after :=
  ⟨hsecond.current.trans hfirst.current, hsecond.waiting.trans hfirst.waiting⟩

/-- The state to which a step brings a link, if it is possible. -/
def nextState? (runs : List Run) (step? : Run → LinkState → Option LinkState) (link : Link) :
    Option LinkState :=
  (link.run.bind (runs[·]?)).bind (step? · link.state)

/-- What becomes of a link that takes a step if it can. -/
def afterStep (runs : List Run) (step? : Run → LinkState → Option LinkState) (link : Link) : Link :=
  { link with state := (nextState? runs step? link).getD link.state }

/-- A link of a run takes the step of that run. -/
theorem state_afterStep {runs : List Run} (hrun : runs[number]? = some run)
    (step? : Run → LinkState → Option LinkState) {link : Link} (hlink : link.run = some number) :
    (afterStep runs step? link).state = (step? run link.state).getD link.state := by
  unfold afterStep nextState?
  rw [hlink, Option.bind_some, hrun, Option.bind_some]

/-- A step of one link, if it is possible, changes this link only. -/
theorem getD_stepLink? {index : Nat} {step? : Run → LinkState → Option LinkState}
    (h : (manager.stepLink? index step?).getD manager = after) :
    after.links = manager.links.modify index (afterStep manager.runs step?) ∧
      after.runs = manager.runs ∧ manager.Kept after := by
  have hstep : manager.stepLink? index step? = (manager.links[index]?).bind fun link =>
      (nextState? manager.runs step? link).map fun state => { manager with
        links := manager.links.set index { link with state := state }
        registry := registryAfter manager.registry index link.state state } := by
    unfold stepLink? nextState?
    refine congrArg _ (funext fun link => ?_)
    rw [Option.map_eq_bind, Option.bind_assoc, Option.bind_assoc]
    rfl
  rw [hstep] at h
  rw [List.modify_eq_set_getElem?]
  cases hlink : manager.links[index]? with
  | none =>
    rw [hlink] at h
    subst h
    exact ⟨rfl, rfl, rfl, rfl⟩
  | some link =>
    rw [hlink, Option.bind_some] at h
    show after.links = manager.links.set index (afterStep manager.runs step? link) ∧ _
    unfold afterStep
    cases hstate : nextState? manager.runs step? link with
    | some state =>
      rw [hstate] at h
      subst h
      exact ⟨rfl, rfl, rfl, rfl⟩
    | none =>
      rw [hstate] at h
      subst h
      obtain ⟨hbound, rfl⟩ := List.getElem?_eq_some_iff.1 hlink
      exact ⟨(List.set_getElem_self hbound).symm, rfl, rfl, rfl⟩

/-- If every link takes a step if it can, one after the other, no link is left out. -/
theorem attempt_each {event : Nat → Event} {step? : Run → LinkState → Option LinkState}
    (hevent : ∀ (manager : Manager) (index : Nat),
      manager.step? (event index) = manager.stepLink? index step?)
    {count : Nat} (hcount : manager.links.length = count)
    (h : manager.attempt ((List.range count).map event) = after) :
    after.links = manager.links.map (afterStep manager.runs step?) ∧
      after.runs = manager.runs ∧ manager.Kept after := by
  -- After the first `count` links have taken their steps, the others are as they were.
  have hfirst (count : Nat) {reached : Manager}
      (h : manager.attempt ((List.range count).map event) = reached) :
      (∀ index, reached.links[index]? = (manager.links[index]?).map fun link =>
        if index < count then afterStep manager.runs step? link else link) ∧
        reached.runs = manager.runs ∧ manager.Kept reached := by
    induction count generalizing reached with
    | zero =>
      subst h
      exact ⟨fun index => Option.map_id'.symm, rfl, rfl, rfl⟩
    | succ count ih =>
      rw [List.range_succ, List.map_append, attempt_append] at h
      obtain ⟨hlinks, hruns, hkept⟩ := ih rfl
      generalize manager.attempt ((List.range count).map event) = before at h hlinks hruns hkept
      have hlast : (before.stepLink? count step?).getD before = reached := by
        rw [← hevent]
        exact h
      obtain ⟨hmodify, hsameRuns, hstay⟩ := getD_stepLink? hlast
      refine ⟨fun index => ?_, hsameRuns.trans hruns, hkept.trans hstay⟩
      rw [hmodify, List.getElem?_modify, hlinks, hruns]
      show ((manager.links[index]?).map _).map _ = _
      rw [Option.map_map]
      refine congrFun (congrArg Option.map (funext fun link => ?_)) _
      show (if count = index then afterStep _ _ (if _ then _ else _) else if _ then _ else _) = _
      split
      next hsame =>
        rw [if_neg (by omega), if_pos (by omega)]
      next hother =>
        by_cases hbefore : index < count
        · rw [if_pos hbefore, if_pos (Nat.lt_succ_of_lt hbefore)]
        · rw [if_neg hbefore, if_neg (by omega)]
  obtain ⟨hlinks, hruns, hkept⟩ := hfirst count h
  refine ⟨List.ext_getElem? fun index => ?_, hruns, hkept⟩
  rw [hlinks, List.getElem?_map]
  refine Option.map_congr fun link hlink => ?_
  exact if_pos (hcount ▸ (List.getElem?_eq_some_iff.1 hlink).1)

/-- A step of the reactor of a run, if it is possible, changes only how far that run has come. -/
theorem getD_stepRun? (hrun : manager.runs[number]? = some run) {step? : Run → Option Stage}
    (h : (manager.stepRun? number step?).getD manager = after) :
    after.links = manager.links ∧
      after.runs[number]? = some { run with stage := (step? run).getD run.stage } ∧
      manager.Kept after := by
  have hstep : manager.stepRun? number step? = (step? run).map fun stage =>
      { manager with runs := manager.runs.set number { run with stage := stage } } := by
    unfold stepRun?
    rw [hrun, Option.map_eq_bind]
    rfl
  rw [hstep] at h
  subst h
  cases step? run with
  | none => exact ⟨rfl, hrun, rfl, rfl⟩
  | some stage =>
    obtain ⟨hbound, -⟩ := List.getElem?_eq_some_iff.1 hrun
    exact ⟨rfl, List.getElem?_set_self hbound, rfl, rfl⟩

/-- Links of which none of a run is in such a state. -/
theorem hasLink_eq_false {isSuch : LinkState → Bool}
    (h : ∀ link ∈ manager.links, link.run = some number → isSuch link.state = false) :
    manager.hasLink number isSuch = false := by
  refine List.any_eq_false.2 fun link hlink => ?_
  rw [Bool.and_eq_true]
  rintro ⟨hnumber, hsuch⟩
  rw [h link hlink (of_decide_eq_true hnumber)] at hsuch
  cases hsuch

/-! ## Winding up a run -/

/-- A reactor that has been signalled can leave. -/
theorem attempt_leave (hrun : manager.runs[number]? = some run) (hsignalled : run.signalled = true)
    (h : manager.attempt [.leave number] = after) :
    after.links = manager.links ∧ manager.Kept after ∧
      ∃ left : Run, after.runs[number]? = some left ∧ left.signalled = true ∧
        left.stage ≠ .serving := by
  obtain ⟨hlinks, hleft, hkept⟩ := getD_stepRun? hrun h
  refine ⟨hlinks, hkept, _, hleft, hsignalled, ?_⟩
  show (if run.stage = .serving ∧ run.signalled = true then some Stage.joining else none).getD
    run.stage ≠ .serving
  split
  next => nofun
  next hstay => exact fun hserving => hstay ⟨hserving, hsignalled⟩

/-- A link gives up its connect attempt once its run has been signalled. -/
theorem step?_abandon (manager : Manager) (index : Nat) :
    manager.step? (.abandon index) = manager.stepLink? index fun run state =>
      if run.signalled then state.abandon? else none := rfl

/-- A link sees the signal in its next turn once its run has been signalled. -/
theorem step?_idleTurn (manager : Manager) (index : Nat) :
    manager.step? (.idleTurn true index) = manager.stepLink? index fun run state =>
      if true = true → run.signalled = true then state.turn? true ⟨[], .ok 0⟩ .nothing none
      else none := rfl

/-- A link that was not taken up fails once its run drains. -/
theorem step?_drain (manager : Manager) (index : Nat) :
    manager.step? (.drain index) = manager.stepLink? index fun run state =>
      if run.stage = .draining then state.drain? else none := rfl

/-- Once every connect attempt was given up and every open connection has taken a turn, a run that
has been signalled has no task. -/
theorem attempt_endTasks (hrun : manager.runs[number]? = some run)
    (hsignalled : run.signalled = true) {count : Nat} (hcount : manager.links.length = count)
    (h : (manager.attempt ((List.range count).map .abandon)).attempt
      ((List.range count).map (.idleTurn true)) = after) :
    after.links.length = count ∧ after.runs = manager.runs ∧ manager.Kept after ∧
      after.hasLink number LinkState.isTask = false := by
  obtain ⟨habandoned, hruns, hkept⟩ := attempt_each step?_abandon hcount rfl
  generalize manager.attempt ((List.range count).map .abandon) = reached at *
  have hlength : reached.links.length = count := by
    rw [habandoned, List.length_map, hcount]
  obtain ⟨hturned, hsameRuns, hsame⟩ := attempt_each step?_idleTurn hlength h
  refine ⟨?_, hsameRuns.trans hruns, hkept.trans hsame,
    hasLink_eq_false fun link hlink hnumber => ?_⟩
  · rw [hturned, List.length_map, hlength]
  · rw [hturned, hruns] at hlink
    obtain ⟨abandoned, hmem, rfl⟩ := List.mem_map.1 hlink
    rw [state_afterStep hrun _ (show abandoned.run = some number from hnumber)]
    rw [habandoned] at hmem
    obtain ⟨link, -, rfl⟩ := List.mem_map.1 hmem
    rw [state_afterStep hrun _ (show link.run = some number from hnumber), hsignalled]
    exact link.state.isTask_windUp ⟨[], .ok 0⟩ .nothing none

/-- Without a task a reactor that has left can receive no more requests. -/
theorem attempt_joined (hrun : manager.runs[number]? = some run) (hleft : run.stage ≠ .serving)
    (htask : manager.hasLink number LinkState.isTask = false)
    (h : manager.attempt [.joined number] = after) :
    after.links = manager.links ∧ manager.Kept after ∧
      ∃ joined : Run, after.runs[number]? = some joined ∧
        (joined.stage = .draining ∨ joined.stage = .stopped) := by
  obtain ⟨hlinks, hjoined, hkept⟩ := getD_stepRun? hrun h
  refine ⟨hlinks, hkept, _, hjoined, ?_⟩
  rw [htask]
  cases hstage : run.stage with
  | serving => exact absurd hstage hleft
  | joining => exact Or.inl rfl
  | draining => exact Or.inl rfl
  | stopped => exact Or.inr rfl

/-- Once every request that was left has failed, a reactor that receives no more can stop. -/
theorem attempt_stop (hrun : manager.runs[number]? = some run)
    (hjoined : run.stage = .draining ∨ run.stage = .stopped) {count : Nat}
    (hcount : manager.links.length = count)
    (h : (manager.attempt ((List.range count).map .drain)).attempt
      [.stop number] = after) :
    manager.Kept after ∧ ∃ stopped : Run, after.runs[number]? = some stopped ∧
      stopped.stage = .stopped := by
  obtain ⟨hdrained, hruns, hkept⟩ := attempt_each step?_drain hcount rfl
  generalize manager.attempt ((List.range count).map .drain) = reached at *
  obtain ⟨-, hstopped, hsame⟩ := getD_stepRun? ((congrArg (·[number]?) hruns).trans hrun) h
  refine ⟨hkept.trans hsame, _, hstopped, ?_⟩
  rcases hjoined with hdraining | hover
  · have hqueued : reached.hasLink number LinkState.isQueued = false := by
      refine hasLink_eq_false fun link hlink hnumber => ?_
      rw [hdrained] at hlink
      obtain ⟨link, -, rfl⟩ := List.mem_map.1 hlink
      rw [state_afterStep hrun _ (show link.run = some number from hnumber), if_pos hdraining]
      exact link.state.isQueued_drain
    rw [hqueued, hdraining]
    rfl
  · rw [hover]
    rfl

/-- A shutdown that waits for a run that is over can return. -/
theorem step?_returns (hwaiting : number ∈ manager.waiting)
    (hrun : manager.runs[number]? = some run) (hover : run.stage = .stopped) :
    manager.step? (.returns number) =
      some { manager with waiting := manager.waiting.erase number } := by
  refine if_pos ?_
  rw [Bool.and_eq_true, List.contains_iff_mem, hrun]
  exact ⟨hwaiting, decide_eq_true hover⟩

/-- A shutdown that waits for a run that has been signalled returns when this run is wound up. -/
theorem returns_windUp (hrun : manager.runs[number]? = some run) (hsignalled : run.signalled = true)
    (hwaiting : number ∈ manager.waiting) :
    (manager.attempt (manager.windUp number)).current = manager.current ∧
      (manager.attempt (manager.windUp number)).waiting = manager.waiting.erase number := by
  -- One phase after the other: no phase changes the number of links, and each finds the run where
  -- the one before has left it.
  unfold windUp
  generalize hcount : manager.links.length = count
  rw [attempt_append, attempt_append, attempt_append, attempt_append, attempt_append,
    attempt_append]
  obtain ⟨hlinks, hleave, left, hleft, hsignalled, hnot⟩ := attempt_leave hrun hsignalled rfl
  generalize manager.attempt [.leave number] = afterLeave at *
  rw [← hlinks] at hcount
  obtain ⟨hlength, hruns, hend, htask⟩ := attempt_endTasks hleft hsignalled hcount rfl
  generalize (afterLeave.attempt _).attempt _ = afterTasks at *
  obtain ⟨hlinks, hjoin, joined, hjoined, hstage⟩ :=
    attempt_joined ((congrArg (·[number]?) hruns).trans hleft) hnot htask rfl
  generalize afterTasks.attempt [.joined number] = afterJoined at *
  rw [← hlinks] at hlength
  obtain ⟨hstop, stopped, hstopped, hover⟩ := attempt_stop hjoined hstage hlength rfl
  generalize (afterJoined.attempt _).attempt _ = afterStop at *
  obtain ⟨hcurrent, hsame⟩ := ((hleave.trans hend).trans hjoin).trans hstop
  rw [← hsame] at hwaiting
  have hreturn : afterStop.attempt [.returns number] =
      { afterStop with waiting := afterStop.waiting.erase number } := by
    show (afterStop.step? (.returns number)).getD afterStop = _
    rw [step?_returns hwaiting hstopped hover]
    rfl
  rw [hreturn]
  exact ⟨hcurrent, congrArg (·.erase number) hsame⟩

/-! ## Shutdowns -/

/-- Whatever has happened to a manager, every shutdown that waits can return. -/
theorem shutdown_returns {events : List Event} (h : new.run? events = some manager)
    (hwaiting : number ∈ manager.waiting) :
    ∃ more after, manager.run? more = some after ∧
      after.waiting = manager.waiting.erase number := by
  obtain ⟨run, hrun, hsignalled⟩ := (sound_run h).awaited number hwaiting
  obtain ⟨happened, -, hhappened⟩ := manager.run?_attempt (manager.windUp number)
  exact ⟨happened, _, hhappened, (returns_windUp hrun hsignalled hwaiting).2⟩

/-- A whole shutdown is a run of events. -/
theorem run?_shutdown (manager : Manager) :
    ∃ happened, manager.run? happened = some manager.shutdown := by
  unfold shutdown
  split
  next => exact ⟨[], rfl⟩
  next number _ =>
    obtain ⟨happened, -, hhappened⟩ := manager.run?_attempt (.shutdown :: manager.windUp number)
    exact ⟨happened, hhappened⟩

/-- A whole shutdown leaves no run that takes requests, and no shutdown that waits and did not wait
before. -/
theorem shutdown_spec (h : manager.Supervised) :
    manager.shutdown.current = none ∧ manager.shutdown.waiting.Perm manager.waiting := by
  unfold shutdown
  cases hcurrent : manager.current with
  | none => exact ⟨hcurrent, List.Perm.refl _⟩
  | some number =>
    show (manager.signal.attempt (manager.windUp number)).current = _ ∧
      (manager.signal.attempt (manager.windUp number)).waiting.Perm _
    have hsignal : manager.signal = { manager with
        runs := manager.runs.modify number fun run => { run with signalled := true }
        current := none
        waiting := manager.waiting ++ [number] } := by
      unfold signal
      rw [hcurrent]
    have hrun : manager.signal.runs[number]? = some ⟨true, .serving⟩ := by
      rw [hsignal]
      show (manager.runs.modify number _)[number]? = _
      rw [List.getElem?_modify, h.serving number hcurrent]
      show some (if number = number then _ else _) = _
      rw [if_pos rfl]
    have hwaiting : number ∈ manager.signal.waiting := by
      rw [hsignal]
      exact List.mem_append_right _ List.mem_cons_self
    have hschedule : manager.signal.windUp number = manager.windUp number := by
      rw [hsignal]
      rfl
    obtain ⟨hnone, herased⟩ := returns_windUp hrun rfl hwaiting
    rw [hschedule] at hnone herased
    refine ⟨hnone.trans (by rw [hsignal]), ?_⟩
    rw [herased, hsignal]
    -- The shutdown that is called waits behind the others.
    have hperm : (manager.waiting ++ [number]).Perm (number :: manager.waiting) :=
      List.perm_append_singleton number manager.waiting
    have hlast := hperm.erase number
    rwa [List.erase_cons_head] at hlast

/-- A whole shutdown of a manager for which no other one waits leaves nothing open, and every
request settled. -/
theorem shutdown_settles {events : List Event} (h : new.run? events = some manager)
    (hwaiting : manager.waiting = []) :
    manager.shutdown.connectedCount = 0 ∧ ∀ link ∈ manager.shutdown.links, link.IsSettled := by
  have hsound := sound_run h
  obtain ⟨hcurrent, hperm⟩ := shutdown_spec hsound.supervised
  rw [hwaiting] at hperm
  obtain ⟨happened, hhappened⟩ := manager.run?_shutdown
  exact (hsound.run hhappened).idle hcurrent hperm.eq_nil

end Manager

end PeerProtocol
