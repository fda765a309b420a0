import PeerProtocol.Proofs.Connection.Supervision

/-!
# The lifecycle of requested connections

Every request runs along one of few courses, which depends on nothing but on whether a run takes it
and on how its connect attempt is settled (`OnCourse`): by its outcome, by the signal that is seen
first, or by the end of a run that never took the request up. Each event keeps every link on its
course (`OnCourse.step`), and with what is known of runs and of the registry this makes a manager
sound after any run of events (`sound_run`). The main statement is `orderly_run`: whatever callers,
reactors and connections do, and however many runs are under way, completions resolve at most once,
the callbacks come in their order, the count is that of the open connections, and a shutdown that
returns has left nothing open and nothing unresolved.
-/

namespace PeerProtocol

namespace ConnectOutcome

/-- How a connect attempt settles its request. -/
def result : ConnectOutcome → Except LinkError Unit
  | connected _ => .ok ()
  | refused => .error .connectFailed
  | timedOut => .error .connectTimeout

end ConnectOutcome

namespace Manager

/-- How an event settles the request at a position, if it does. -/
def Event.settles? (index : Nat) : Event → Option (Except LinkError Unit)
  | .connect other outcome => if other = index then some outcome.result else none
  | .abandon other | .drain other => if other = index then some (.error .notRunning) else none
  | _ => none

/-- How the request at a position was settled by some events. -/
def fates (events : List Event) (index : Nat) : List (Except LinkError Unit) :=
  events.filterMap (Event.settles? index)

/-- One more event may settle a request. -/
theorem fates_concat (events : List Event) (event : Event) (index : Nat) :
    fates (events ++ [event]) index = fates events index ++ (event.settles? index).toList := by
  unfold fates
  rw [List.filterMap_append]
  cases h : event.settles? index with
  | none => rw [List.filterMap_cons_none h]; rfl
  | some result => rw [List.filterMap_cons_some h]; rfl

variable {manager after : Manager} {event : Event} {events : List Event}

/-! ## Courses -/

/-- Every link is on its course, given how the requests were settled, and no other request was
settled. -/
structure OnCourse (events : List Event) (manager : Manager) : Prop where
  course : ∀ (index : Nat) (link : Link), manager.links[index]? = some link →
    Course link (fates events index)
  unborn : ∀ index, manager.links.length ≤ index → fates events index = []

/-- An event that settles no request leaves the fates as they are. -/
theorem fates_concat_of_none {index : Nat} (h : event.settles? index = none) :
    fates (events ++ [event]) index = fates events index := by
  rw [fates_concat, h]
  exact List.append_nil _

/-- A link moves along its course. -/
theorem Moves.course {run : Run} {index number : Nat} {before state : LinkState}
    {settled : List (Except LinkError Unit)} (h : Moves run index before event state)
    (hbefore : Course ⟨some number, before⟩ settled) :
    Course ⟨some number, state⟩ (settled ++ (event.settles? index).toList) := by
  cases h with
  | takesUp puppet hstage =>
    cases hbefore with
    | queued hhistory => exact .connecting hhistory
  | opens puppet uses =>
    cases hbefore with
    | connecting hhistory =>
      rw [Event.settles?, if_pos rfl]
      exact Course.open hhistory uses
  | isRefused puppet =>
    cases hbefore with
    | connecting hhistory =>
      rw [Event.settles?, if_pos rfl]
      exact Course.fail hhistory _
  | timesOut puppet =>
    cases hbefore with
    | connecting hhistory =>
      rw [Event.settles?, if_pos rfl]
      exact Course.fail hhistory _
  | isAbandoned puppet hsignal =>
    cases hbefore with
    | connecting hhistory =>
      rw [Event.settles?, if_pos rfl]
      exact Course.fail hhistory _
  | isDrained puppet hstage =>
    cases hbefore with
    | queued hhistory =>
      rw [Event.settles?, if_pos rfl]
      exact Course.fail hhistory _
  | turns shutdown reaction read writes hturn =>
    rw [Event.settles?]
    · rw [Option.toList_none, List.append_nil]
      exact hbefore.turn shutdown reaction read writes hturn
    · nofun
    · nofun
    · nofun

/-- A link that moves settles no other request. -/
theorem Moves.settles?_eq_none {run : Run} {index other : Nat} {before state : LinkState}
    (h : Moves run index before event state) (hother : index ≠ other) :
    event.settles? other = none := by
  cases h with
  | takesUp | turns => rfl
  | opens | isRefused | timesOut | isAbandoned | isDrained =>
    rw [Event.settles?, if_neg hother]

/-- A new manager has no links. -/
theorem onCourse_new : OnCourse [] new where
  course _ _ hlink := by cases hlink
  unborn _ _ := rfl

/-- The courses depend on the links only. -/
theorem OnCourse.congr (h : manager.OnCourse events) (hlinks : after.links = manager.links) :
    after.OnCourse events := by
  refine ⟨fun index link hlink => ?_, fun index hindex => ?_⟩
  · rw [hlinks] at hlink
    exact h.course index link hlink
  · rw [hlinks] at hindex
    exact h.unborn index hindex

/-- An event that settles no request does not change what the courses are. -/
theorem OnCourse.of_silent (h : manager.OnCourse events)
    (hsilent : ∀ index, event.settles? index = none) : manager.OnCourse (events ++ [event]) := by
  refine ⟨fun index link hlink => ?_, fun index hindex => ?_⟩
  · rw [fates_concat_of_none (hsilent index)]
    exact h.course index link hlink
  · rw [fates_concat_of_none (hsilent index)]
    exact h.unborn index hindex

/-- A link that was just requested is at the beginning of its course. -/
theorem Supervised.course_requested (h : manager.Supervised) (maxMessageSize : Nat) :
    Course ⟨manager.current, manager.requested (.new maxMessageSize)⟩ [] := by
  unfold requested
  cases hcurrent : manager.current with
  | none => exact .refused rfl
  | some number =>
    simp only [h.serving number hcurrent, Option.any_some]
    exact .queued rfl

/-- A request keeps the links of a supervised manager on their courses. -/
theorem OnCourse.request (h : manager.OnCourse events) (hsupervised : manager.Supervised)
    (maxMessageSize : Nat) : (manager.request maxMessageSize).2.OnCourse events := by
  refine ⟨fun index link hlink => ?_, fun index hindex => h.unborn index ?_⟩
  · rcases getElem?_concat_eq_some hlink with hbefore | ⟨rfl, rfl⟩
    · exact h.course index link hbefore
    · rw [h.unborn _ (Nat.le_refl _)]
      exact hsupervised.course_requested maxMessageSize
  · refine Nat.le_trans ?_ hindex
    show _ ≤ (manager.links ++ [_]).length
    rw [List.length_append]
    exact Nat.le_add_right _ _

/-- The use of an outbox keeps the links of a manager on their courses. -/
theorem OnCourse.use (h : manager.OnCourse events) (index : Nat) (use : Outbox.Use) :
    (manager.use index use).OnCourse events := by
  refine ⟨fun other link hlink => ?_, fun other hother => h.unborn other ?_⟩
  · obtain ⟨before, hbefore, rfl | rfl⟩ := getElem?_use_eq_some hlink
    · exact (h.course other before hbefore).use use
    · exact h.course other link hbefore
  · refine Nat.le_trans (Nat.le_of_eq ?_) hother
    exact (List.length_modify _ _ _).symm

/-- A step of a link keeps the links of a manager on their courses. -/
theorem OnCourse.move (h : manager.OnCourse events) {index number : Nat} {link : Link} {run : Run}
    {state : LinkState} (hlink : manager.links[index]? = some link)
    (hnumber : link.run = some number) (hmoves : Moves run index link.state event state)
    (registry : List Nat) :
    OnCourse (events ++ [event]) { manager with
      links := manager.links.set index { link with state := state }, registry := registry } := by
  obtain ⟨hbound, -⟩ := List.getElem?_eq_some_iff.1 hlink
  refine ⟨fun other otherLink hother => ?_, fun other hother => ?_⟩
  · by_cases hsame : index = other
    · subst hsame
      obtain rfl := Option.some.inj ((List.getElem?_set_self hbound).symm.trans hother)
      have hcourse := h.course index link hlink
      obtain ⟨linkRun, before⟩ := link
      obtain rfl : linkRun = some number := hnumber
      rw [fates_concat]
      exact hmoves.course hcourse
    · rw [List.getElem?_set_ne hsame] at hother
      rw [fates_concat_of_none (hmoves.settles?_eq_none hsame)]
      exact h.course other otherLink hother
  · have hlength : manager.links.length ≤ other := by
      rwa [List.length_set] at hother
    rw [fates_concat_of_none (hmoves.settles?_eq_none (by omega))]
    exact h.unborn other hlength

/-- Every step of a supervised manager keeps its links on their courses. -/
theorem OnCourse.step (h : manager.OnCourse events) (hsupervised : manager.Supervised)
    (hstepped : Stepped manager event after) : after.OnCourse (events ++ [event]) := by
  cases hstepped with
  | starts => exact (h.congr manager.links_start.1).of_silent fun _ => rfl
  | requests maxMessageSize =>
    exact (h.request hsupervised maxMessageSize).of_silent fun _ => rfl
  | asks chosen =>
    exact (askToClose_of_use (fun _ index h => h.use index _) h chosen).of_silent fun _ => rfl
  | uses index use => exact (h.use index use).of_silent fun _ => rfl
  | signals => exact (h.congr manager.links_signal.1).of_silent fun _ => rfl
  | returns => exact OnCourse.of_silent (h.congr rfl) fun _ => rfl
  | advances _ hadvances =>
    refine OnCourse.of_silent (h.congr rfl) fun _ => ?_
    cases hadvances <;> rfl
  | moves hlink hnumber _ hmoves => exact h.move hlink hnumber hmoves _

/-! ## Runs of events -/

/-- What is certain of a manager after some events. -/
structure Sound (events : List Event) (manager : Manager) : Prop where
  supervised : manager.Supervised
  awaited : manager.Awaited
  registered : manager.Registered
  onCourse : manager.OnCourse events

/-- A new manager is sound. -/
theorem sound_new : Sound [] new :=
  ⟨supervised_new, nofun, registered_new, onCourse_new⟩

/-- Every event that is possible keeps a manager sound. -/
theorem Sound.step (h : manager.Sound events) (hstep : manager.step? event = some after) :
    after.Sound (events ++ [event]) :=
  have hstepped := stepped_of_step? hstep
  ⟨h.supervised.step hstepped, h.awaited.step h.supervised hstepped,
    h.registered.step hstepped, h.onCourse.step h.supervised hstepped⟩

/-- A run keeps a manager sound. -/
theorem Sound.run (h : manager.Sound events) {more : List Event}
    (hrun : manager.run? more = some after) : after.Sound (events ++ more) := by
  induction more generalizing manager events with
  | nil =>
    obtain rfl := Option.some.inj hrun
    rwa [List.append_nil]
  | cons event more ih =>
    obtain ⟨reached, hstep, hrest⟩ := Option.bind_eq_some_iff.1 hrun
    rw [← List.singleton_append, ← List.append_assoc]
    exact ih (h.step hstep) hrest

/-- A manager that has run from its beginning is sound. -/
theorem sound_run (h : new.run? events = some manager) : manager.Sound events :=
  sound_new.run h

/-! ## Requests and the runs that take them -/

/-- A request keeps its place, and stays with the run that took it. -/
theorem Stepped.link_kept (h : Stepped manager event after) {index : Nat} {link : Link}
    (hlink : manager.links[index]? = some link) :
    ∃ later, after.links[index]? = some later ∧ later.run = link.run := by
  have huse (reached : Manager) (used : Nat) (use : Outbox.Use)
      (h : ∃ later, reached.links[index]? = some later ∧ later.run = link.run) :
      ∃ later, (reached.use used use).links[index]? = some later ∧ later.run = link.run := by
    obtain ⟨later, hlater, hrun⟩ := h
    refine ⟨_, by rw [getElem?_use, hlater]; rfl, ?_⟩
    split
    next => exact hrun
    next => exact hrun
  cases h with
  | starts =>
    rw [manager.links_start.1]
    exact ⟨link, hlink, rfl⟩
  | requests maxMessageSize => exact ⟨link, getElem?_concat_of_some hlink _, rfl⟩
  | asks chosen =>
    exact askToClose_of_use (fun reached used => huse reached used _) ⟨link, hlink, rfl⟩ chosen
  | uses used use => exact huse manager used use ⟨link, hlink, rfl⟩
  | signals =>
    rw [manager.links_signal.1]
    exact ⟨link, hlink, rfl⟩
  | returns => exact ⟨link, hlink, rfl⟩
  | advances => exact ⟨link, hlink, rfl⟩
  | @moves _ moved number before run state hbefore hnumber hrun hmoves =>
    by_cases hsame : moved = index
    · subst hsame
      obtain ⟨hbound, -⟩ := List.getElem?_eq_some_iff.1 hlink
      obtain rfl := Option.some.inj (hlink.symm.trans hbefore)
      exact ⟨_, List.getElem?_set_self hbound, rfl⟩
    · exact ⟨link, (List.getElem?_set_ne hsame).trans hlink, rfl⟩

/-- A request keeps its place along a run, and stays with the run that took it. -/
theorem link_kept_of_run? (hrun : manager.run? events = some after) {index : Nat} {link : Link}
    (hlink : manager.links[index]? = some link) :
    ∃ later, after.links[index]? = some later ∧ later.run = link.run := by
  induction events generalizing manager link with
  | nil =>
    obtain rfl := Option.some.inj hrun
    exact ⟨link, hlink, rfl⟩
  | cons event events ih =>
    obtain ⟨reached, hstep, hrest⟩ := Option.bind_eq_some_iff.1 hrun
    obtain ⟨next, hnext, hsame⟩ := (stepped_of_step? hstep).link_kept hlink
    obtain ⟨later, hlater, hlast⟩ := ih hrest hnext
    exact ⟨later, hlater, hlast.trans hsame⟩

/-- A run is one of its events after the others. -/
theorem run?_append (manager : Manager) (before later : List Event) :
    manager.run? (before ++ later) = (manager.run? before).bind (·.run? later) := by
  induction before generalizing manager with
  | nil => rfl
  | cons event before ih =>
    show (manager.step? event).bind (·.run? (before ++ later)) =
      ((manager.step? event).bind (·.run? before)).bind (·.run? later)
    rw [Option.bind_assoc]
    exact congrArg _ (funext fun reached => ih reached)

/-- A run that goes on with an event goes on from what that event does to the manager. -/
theorem run?_append_cons_eq_some {before later : List Event} {reached : Manager}
    (hrun : manager.run? (before ++ event :: later) = some after)
    (hreached : manager.run? before = some reached) :
    ∃ next, reached.step? event = some next ∧ next.run? later = some after := by
  rw [run?_append, hreached] at hrun
  exact Option.bind_eq_some_iff.1 hrun

/-! ## The number of open connections -/

/-- Counting the positions of the elements that have a property counts these elements. -/
theorem countP_range {α : Type} (list : List α) (isSuch : α → Bool) :
    (List.range list.length).countP (fun index => (list[index]?).any isSuch) =
      list.countP isSuch := by
  induction list with
  | nil => rfl
  | cons value list ih =>
    rw [List.length_cons, List.range_succ_eq_map, List.countP_cons, List.countP_map,
      List.countP_cons, ← ih]
    rfl

/-- The registry holds as many connections as are open. -/
theorem Registered.connectedCount_eq (h : manager.Registered) :
    manager.connectedCount = manager.links.countP (·.state.isLive) := by
  -- The registry lists the open links in the order in which they were opened.
  have hperm : manager.registry.Perm ((List.range manager.links.length).filter fun index =>
      (manager.links[index]?).any (·.state.isLive)) := by
    refine (List.perm_ext_iff_of_nodup h.nodup (List.nodup_range.filter _)).2 fun index => ?_
    rw [h.live, List.mem_filter, List.mem_range, Option.any_eq_true]
    constructor
    · rintro ⟨link, hlink, hlive⟩
      exact ⟨(List.getElem?_eq_some_iff.1 hlink).1, link, hlink, hlive⟩
    · exact fun ⟨_, hlive⟩ => hlive
  unfold connectedCount
  rw [hperm.length_eq, ← List.countP_eq_length_filter, countP_range]

/-- The number of open connections is that of the collaborators that have heard of the opening and
not of the end. -/
theorem Sound.connectedCount_eq (h : manager.Sound events) :
    manager.connectedCount = manager.links.countP Link.isConnected := by
  rw [h.registered.connectedCount_eq]
  refine List.countP_congr fun link hlink => ?_
  obtain ⟨index, hindex⟩ := List.mem_iff_getElem?.1 hlink
  rw [(h.onCourse.course index link hindex).told.isConnected_eq]

/-! ## Shutdowns -/

/-- The links of a run that is over are over. -/
theorem Supervised.isOver (h : manager.Supervised) {number : Nat} {run : Run}
    (hrun : manager.runs[number]? = some run) (hover : run.stage = .stopped) {index : Nat}
    {link : Link} (hlink : manager.links[index]? = some link) (hnumber : link.run = some number) :
    link.state.isOver = true := by
  obtain ⟨same, hsame, hpermits⟩ := h.permitted index link number hlink hnumber
  obtain rfl := Option.some.inj (hrun.symm.trans hsame)
  unfold LinkState.isOver
  rw [hpermits.drained hover, hpermits.joined (Or.inr hover)]
  rfl

/-- The links of a run that is over are settled. -/
theorem Sound.isSettled (h : manager.Sound events) {number : Nat} {run : Run}
    (hrun : manager.runs[number]? = some run) (hover : run.stage = .stopped) {link : Link}
    (hlink : link ∈ manager.links) (hnumber : link.run = some number) : link.IsSettled := by
  obtain ⟨index, hindex⟩ := List.mem_iff_getElem?.1 hlink
  exact (h.onCourse.course index link hindex).told.isSettled
    (h.supervised.isOver hrun hover hindex hnumber)

/-- If no run takes requests and no shutdown waits, nothing is left behind. -/
theorem Sound.idle (h : manager.Sound events) (hcurrent : manager.current = none)
    (hwaiting : manager.waiting = []) :
    manager.connectedCount = 0 ∧ ∀ link ∈ manager.links, link.IsSettled := by
  -- A link that no run took was over at once, and every run that took one is over by now.
  have hover (index : Nat) (link : Link) (hlink : manager.links[index]? = some link) :
      link.state.isOver = true := by
    cases hnumber : link.run with
    | none => exact ((h.onCourse.course index link hlink).told.refused_of_run hnumber).1
    | some number =>
      obtain ⟨run, hrun, -⟩ := h.supervised.permitted index link number hlink hnumber
      rcases h.supervised.underWay number run hrun with hserves | hwaits | hended
      · rw [hcurrent] at hserves
        cases hserves
      · rw [hwaiting] at hwaits
        cases hwaits
      · exact h.supervised.isOver hrun hended hlink hnumber
  refine ⟨?_, fun link hlink => ?_⟩
  · rw [h.registered.connectedCount_eq, List.countP_eq_zero]
    intro link hlink
    obtain ⟨index, hindex⟩ := List.mem_iff_getElem?.1 hlink
    rw [LinkState.isLive_of_isOver (hover index link hindex)]
    exact Bool.false_ne_true
  · obtain ⟨index, hindex⟩ := List.mem_iff_getElem?.1 hlink
    exact (h.onCourse.course index link hindex).told.isSettled (hover index link hindex)

/-- No run takes requests, and at most one shutdown waits. -/
structure Hushed (manager : Manager) : Prop where
  current : manager.current = none
  waiting : manager.waiting.length ≤ 1

/-- As long as there is no start, no run takes requests, and no other shutdown waits. -/
theorem Hushed.step (h : manager.Hushed) (hstepped : Stepped manager event after)
    (hstart : event ≠ .start) : after.Hushed := by
  cases hstepped with
  | starts => exact absurd rfl hstart
  | requests maxMessageSize => exact ⟨h.current, h.waiting⟩
  | asks chosen =>
    have huse (reached : Manager) (index : Nat) (h : reached.Hushed) :
        (reached.use index .requestClose).Hushed := ⟨h.current, h.waiting⟩
    exact askToClose_of_use huse h chosen
  | uses index use => exact ⟨h.current, h.waiting⟩
  | signals =>
    unfold Manager.signal
    rw [h.current]
    exact h
  | returns => exact ⟨h.current, Nat.le_trans (List.length_erase_le) h.waiting⟩
  | advances => exact ⟨h.current, h.waiting⟩
  | moves => exact ⟨h.current, h.waiting⟩

/-- A run without a start keeps a manager hushed. -/
theorem Hushed.run (h : manager.Hushed) (hrun : manager.run? events = some after)
    (hstart : .start ∉ events) : after.Hushed := by
  induction events generalizing manager with
  | nil =>
    obtain rfl := Option.some.inj hrun
    exact h
  | cons event events ih =>
    obtain ⟨reached, hstep, hrest⟩ := Option.bind_eq_some_iff.1 hrun
    have hevent : event ≠ .start := fun hsame => hstart (hsame ▸ List.mem_cons_self)
    exact ih (h.step (stepped_of_step? hstep) hevent) hrest
      fun hmem => hstart (List.mem_cons_of_mem _ hmem)

/-- A shutdown that is called while no other one waits hushes the manager. -/
theorem hushed_signal (hwaiting : manager.waiting = []) : manager.signal.Hushed := by
  unfold Manager.signal
  split
  next hcurrent => exact ⟨hcurrent, by rw [hwaiting]; exact Nat.zero_le 1⟩
  next number hcurrent =>
    refine ⟨rfl, ?_⟩
    show (manager.waiting ++ [number]).length ≤ 1
    rw [hwaiting]
    exact Nat.le_refl 1

/-- When the shutdown of a hushed manager returns, no other one waits. -/
theorem Hushed.waiting_of_returns (h : manager.Hushed) {number : Nat}
    (hreturns : manager.step? (.returns number) = some after) :
    after.current = none ∧ after.waiting = [] := by
  obtain ⟨run, hmem, -, -, rfl⟩ := step?_returns_eq_some hreturns
  refine ⟨h.current, List.eq_nil_of_length_eq_zero ?_⟩
  show (manager.waiting.erase number).length = 0
  have hlength := List.length_erase_of_mem hmem
  have hone := h.waiting
  omega

/-! ## Orderly lifecycles -/

/-- What the requested connections go through in a run of events, up to where the manager is. -/
structure Orderly (events : List Event) (manager : Manager) : Prop where
  /-- A completion is resolved at most once. -/
  resolved : ∀ link ∈ manager.links, link.results.length ≤ 1
  /-- A request stays with the run that takes requests when it is handed over, if one does. -/
  handed : ∀ (before later : List Event) (maxMessageSize : Nat) (reached : Manager),
    events = before ++ .request maxMessageSize :: later → new.run? before = some reached →
      ∃ link, manager.links[reached.links.length]? = some link ∧ link.run = reached.current
  /-- A request that is handed over while the manager is not running fails so, without a
  callback. -/
  refused : ∀ link ∈ manager.links, link.run = none →
    link.callbacks = [] ∧ link.results = [.error .notRunning]
  /-- A collaborator hears at most once that its connection has ended, and nothing after that. -/
  ended : ∀ link ∈ manager.links, link.callbacks.count .ended ≤ 1 ∧
    (.ended ∈ link.callbacks → link.callbacks.getLast? = some .ended)
  /-- A connection is opened once and only if the connect attempt succeeds: after the collaborator
  was attached, before the completion succeeds, and before any bytes are received. -/
  opened : ∀ index link, manager.links[index]? = some link → .opened ∈ link.callbacks →
    (∃ uses, .connect index (.connected uses) ∈ events) ∧
      ∃ later, link.history = [.call .attached, .call .opened, .resolved (.ok ())] ++ later ∧
        ∀ notice ∈ later, notice = .call .received ∨ notice = .call .ended
  /-- A collaborator whose connection was not opened receives no bytes, and its request has not
  succeeded. -/
  unopened : ∀ link ∈ manager.links, .opened ∉ link.callbacks →
    .received ∉ link.callbacks ∧ .ok () ∉ link.results
  /-- If the connect attempt fails, times out or is given up, or a request is not even taken up,
  then the completion fails with that error, and the collaborator hears of the end only. -/
  failed : ∀ event ∈ events, ∀ index error, event.settles? index = some (.error error) →
    ∃ link, manager.links[index]? = some link ∧
      link.callbacks = [.ended] ∧ link.results = [.error error]
  /-- The connections that are counted are those that were opened and have not ended. -/
  counted : manager.connectedCount = manager.links.countP Link.isConnected
  /-- A shutdown returns only when every request that was handed over to its run is settled. -/
  returned : ∀ number after, manager.step? (.returns number) = some after →
    ∀ link ∈ after.links, link.run = some number → link.IsSettled
  /-- If no run takes requests and every shutdown has returned, nothing is open and every request is
  settled. -/
  idle : manager.current = none → manager.waiting = [] →
    manager.connectedCount = 0 ∧ ∀ link ∈ manager.links, link.IsSettled
  /-- So it is when a shutdown returns that was called while no other one waited, unless a start in
  the meantime has begun a run with connections of its own. -/
  left : ∀ (before during : List Event) (called : Manager) (number : Nat) (after : Manager),
    events = before ++ .shutdown :: during → new.run? before = some called →
    called.waiting = [] → .start ∉ during → manager.step? (.returns number) = some after →
      after.connectedCount = 0 ∧ ∀ link ∈ after.links, link.IsSettled

/-- What settles a request is an event of the connect attempt or of the end of its run. -/
theorem mem_fates {index : Nat} {result : Except LinkError Unit} :
    result ∈ fates events index ↔ ∃ event ∈ events, event.settles? index = some result :=
  List.mem_filterMap

/-- Only a connect attempt that succeeds settles a request with a success. -/
theorem eq_connect_of_settles? {index : Nat} (h : event.settles? index = some (.ok ())) :
    ∃ uses, event = .connect index (.connected uses) := by
  cases event with
  | connect other outcome =>
    obtain ⟨rfl, hresult⟩ := ite_none_eq_some h
    cases outcome with
    | connected uses => exact ⟨uses, rfl⟩
    | refused => cases hresult
    | timedOut => cases hresult
  | abandon other =>
    obtain ⟨-, hresult⟩ := ite_none_eq_some h
    cases hresult
  | drain other =>
    obtain ⟨-, hresult⟩ := ite_none_eq_some h
    cases hresult
  | start | request | closeConnections | use | shutdown | returns | leave | joined | stop | takeUp
  | turn => cases h

/-- In whatever order a manager, its reactors and its connections proceed, every requested
connection has an orderly lifecycle. -/
theorem orderly_run (h : new.run? events = some manager) : manager.Orderly events := by
  have hsound := sound_run h
  have htold (link : Link) (hlink : link ∈ manager.links) : ∃ settled, Told link settled := by
    obtain ⟨index, hindex⟩ := List.mem_iff_getElem?.1 hlink
    exact ⟨_, (hsound.onCourse.course index link hindex).told⟩
  constructor
  case resolved =>
    intro link hlink
    obtain ⟨settled, htold⟩ := htold link hlink
    exact htold.length_results_le
  case handed =>
    rintro before later maxMessageSize reached rfl hreached
    obtain ⟨next, hrequest, hlater⟩ := run?_append_cons_eq_some h hreached
    obtain rfl := Option.some.inj hrequest
    exact link_kept_of_run? hlater List.getElem?_concat_length
  case refused =>
    intro link hlink hrun
    obtain ⟨settled, htold⟩ := htold link hlink
    exact (htold.refused_of_run hrun).2
  case ended =>
    intro link hlink
    obtain ⟨settled, htold⟩ := htold link hlink
    exact htold.ended_last
  case opened =>
    intro index link hlink hopened
    obtain ⟨hsettled, hhistory⟩ := (hsound.onCourse.course index link hlink).told.opened hopened
    have hmem : .ok () ∈ fates events index := by
      rw [hsettled]
      exact List.mem_cons_self
    obtain ⟨event, hevent, hsettles⟩ := mem_fates.1 hmem
    obtain ⟨uses, rfl⟩ := eq_connect_of_settles? hsettles
    exact ⟨⟨uses, hevent⟩, hhistory⟩
  case unopened =>
    intro link hlink hopened
    obtain ⟨settled, htold⟩ := htold link hlink
    exact htold.unopened hopened
  case failed =>
    intro event hevent index error hsettles
    have hmem := mem_fates.2 ⟨event, hevent, hsettles⟩
    cases hlink : manager.links[index]? with
    | none =>
      rw [hsound.onCourse.unborn index (List.getElem?_eq_none_iff.1 hlink)] at hmem
      cases hmem
    | some link =>
      exact ⟨link, rfl, (hsound.onCourse.course index link hlink).told.failed_of_mem hmem⟩
  case counted => exact hsound.connectedCount_eq
  case returned =>
    intro number after hreturns link hlink hnumber
    obtain ⟨run, -, hrun, hover, rfl⟩ := step?_returns_eq_some hreturns
    exact hsound.isSettled hrun hover hlink hnumber
  case idle => exact hsound.idle
  case left =>
    rintro before during called number after rfl hcalled hwaiting hstart hreturns
    obtain ⟨signalled, hsignal, hduring⟩ := run?_append_cons_eq_some h hcalled
    obtain rfl := Option.some.inj hsignal
    have hhushed := (hushed_signal hwaiting).run hduring hstart
    obtain ⟨hcurrent, hnone⟩ := hhushed.waiting_of_returns hreturns
    exact (hsound.step hreturns).idle hcurrent hnone

/-- A run with requests in every place that a shutdown may find them in, and with a second run that
begins before the first shutdown has returned. -/
def overlappingRuns : List Event :=
  [.request 0, .start, .request 5, .request 0, .request 1000, .request 0, .request 7,
    .takeUp 1, .takeUp 2, .takeUp 3, .takeUp 4,
    .connect 1 (.connected [.write [1, 2, 3]]), .connect 2 .timedOut, .connect 4 (.connected []),
    .turn 1 false ⟨[], .ok 1⟩ (.bytes [9]) (some [.accepts 3]),
    .turn 4 false ⟨[.requestClose], .ok 2⟩ (.bytes [7, 8]) none,
    .shutdown, .start, .request 0, .leave 0, .takeUp 6, .abandon 3,
    .turn 1 true ⟨[], .ok 0⟩ .nothing none, .turn 4 false ⟨[], .ok 0⟩ .ended none,
    .connect 6 (.connected []), .joined 0, .drain 5, .stop 0, .returns 0,
    .closeConnections [6], .shutdown, .leave 1, .turn 6 false ⟨[], .ok 0⟩ .nothing none,
    .joined 1, .stop 1, .returns 1]

/-- The lifecycles of this run are orderly. -/
theorem orderly_run_overlappingRuns :
    ∃ manager, new.run? overlappingRuns = some manager ∧ manager.Orderly overlappingRuns ∧
      manager.connectedCount = 0 ∧
      manager.links.map Link.callbacks =
        [[], [.attached, .opened, .received, .ended], [.ended], [.ended],
          [.attached, .opened, .received, .ended], [.ended], [.attached, .opened, .ended]] ∧
      manager.links.map Link.results =
        [[.error .notRunning], [.ok ()], [.error .connectTimeout], [.error .notRunning], [.ok ()],
          [.error .notRunning], [.ok ()]] :=
  ⟨_, rfl, orderly_run rfl, rfl, rfl, rfl⟩

end Manager

end PeerProtocol
