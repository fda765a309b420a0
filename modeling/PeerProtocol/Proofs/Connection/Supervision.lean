import PeerProtocol.Proofs.Connection.Course

/-!
# Runs and their links

Whatever is possible for a manager is one of few steps (`Stepped`): of one of its callers, of the
reactor of a run, or of one link. A manager is supervised if the run that takes requests serves, if
every other run is over or its shutdown waits, and if no link has been left behind by its run; and
it is registered if its registry holds the open links, each once. Every step keeps both
(`Supervised.step`, `Registered.step`). So a reactor that is over has left nothing open and nothing
waiting, however many runs are under way.
-/

namespace PeerProtocol

/-- An element of a list with one more at its end is one of the list, or the last one. -/
theorem getElem?_concat_eq_some {α : Type} {list : List α} {last value : α} {index : Nat}
    (h : (list ++ [last])[index]? = some value) :
    list[index]? = some value ∨ index = list.length ∧ value = last := by
  by_cases hindex : index < list.length
  · rw [List.getElem?_append_left hindex] at h
    exact Or.inl h
  · obtain ⟨hbound, -⟩ := List.getElem?_eq_some_iff.1 h
    rw [List.length_append, List.length_singleton] at hbound
    obtain rfl : index = list.length := by omega
    rw [List.getElem?_concat_length] at h
    exact Or.inr ⟨rfl, (Option.some.inj h).symm⟩

/-- An element of a list stays where it is when one more comes to the end. -/
theorem getElem?_concat_of_some {α : Type} {list : List α} {value : α} {index : Nat}
    (h : list[index]? = some value) (last : α) : (list ++ [last])[index]? = some value := by
  obtain ⟨hindex, -⟩ := List.getElem?_eq_some_iff.1 h
  rwa [List.getElem?_append_left hindex]

/-- How far a link may have come given how far its run has come: a run that drains has no tasks
left, and one that is over has no request left either. -/
structure Run.Permits (run : Run) (state : LinkState) : Prop where
  joined : run.stage = .draining ∨ run.stage = .stopped → state.isTask = false
  drained : run.stage = .stopped → state.isQueued = false

namespace Manager

/-! ## What a step does -/

/-- The steps of the link at a position, given the run that it belongs to. -/
inductive Moves (run : Run) (index : Nat) : LinkState → Event → LinkState → Prop where
  | takesUp (puppet : Puppet) (hstage : run.stage = .serving) :
      Moves run index (.queued puppet) (.takeUp index) (.connecting puppet)
  | opens (puppet : Puppet) (uses : List Outbox.Use) :
      Moves run index (.connecting puppet) (.connect index (.connected uses)) (.opened puppet uses)
  | isRefused (puppet : Puppet) :
      Moves run index (.connecting puppet) (.connect index .refused)
        (.failed puppet .connectFailed)
  | timesOut (puppet : Puppet) :
      Moves run index (.connecting puppet) (.connect index .timedOut)
        (.failed puppet .connectTimeout)
  | isAbandoned (puppet : Puppet) (hsignal : run.signalled = true) :
      Moves run index (.connecting puppet) (.abandon index) (.failed puppet .notRunning)
  | isDrained (puppet : Puppet) (hstage : run.stage = .draining) :
      Moves run index (.queued puppet) (.drain index) (.failed puppet .notRunning)
  | turns {connection : Connection Puppet} {after : LinkState} (shutdown : Bool)
      (reaction : Reaction) (read : Connection.SocketRead)
      (writes : Option (List Outbox.SocketWrite))
      (hturn : (LinkState.live connection).turn? shutdown reaction read writes = some after) :
      Moves run index (.live connection) (.turn index shutdown reaction read writes) after

/-- The steps of the reactor of a run. -/
inductive Advances (manager : Manager) (number : Nat) (run : Run) : Event → Stage → Prop where
  | leaves (hstage : run.stage = .serving) (hsignal : run.signalled = true) :
      Advances manager number run (.leave number) .joining
  | joins (hstage : run.stage = .joining)
      (hnone : manager.hasLink number LinkState.isTask = false) :
      Advances manager number run (.joined number) .draining
  | stops (hstage : run.stage = .draining)
      (hnone : manager.hasLink number LinkState.isQueued = false) :
      Advances manager number run (.stop number) .stopped

/-- What a step may do to a manager. -/
inductive Stepped (manager : Manager) : Event → Manager → Prop where
  | starts : Stepped manager .start manager.start
  | requests (maxMessageSize : Nat) :
      Stepped manager (.request maxMessageSize) (manager.request maxMessageSize).2
  | asks (chosen : List Nat) :
      Stepped manager (.closeConnections chosen) (manager.askToClose chosen)
  | uses (index : Nat) (use : Outbox.Use) :
      Stepped manager (.use index use) (manager.use index use)
  | signals : Stepped manager .shutdown manager.signal
  | returns {number : Nat} {run : Run} (hwaiting : number ∈ manager.waiting)
      (hrun : manager.runs[number]? = some run) (hover : run.stage = .stopped) :
      Stepped manager (.returns number) { manager with waiting := manager.waiting.erase number }
  | advances {event : Event} {number : Nat} {run : Run} {stage : Stage}
      (hrun : manager.runs[number]? = some run)
      (hadvances : Advances manager number run event stage) :
      Stepped manager event
        { manager with runs := manager.runs.set number { run with stage := stage } }
  | moves {event : Event} {index number : Nat} {link : Link} {run : Run} {state : LinkState}
      (hlink : manager.links[index]? = some link) (hnumber : link.run = some number)
      (hrun : manager.runs[number]? = some run)
      (hmoves : Moves run index link.state event state) :
      Stepped manager event { manager with
        links := manager.links.set index { link with state := state }
        registry := registryAfter manager.registry index link.state state }

variable {manager after : Manager} {event : Event}

/-- What is possible only under a condition was possible under it. -/
theorem ite_none_eq_some {α : Type} {condition : Prop} [Decidable condition] {value : Option α}
    {result : α} (h : (if condition then value else none) = some result) :
    condition ∧ value = some result := by
  split at h
  next hcondition => exact ⟨hcondition, h⟩
  next => cases h

/-- A shutdown returns that waits for a run that is over. -/
theorem step?_returns_eq_some {number : Nat} (h : manager.step? (.returns number) = some after) :
    ∃ run, number ∈ manager.waiting ∧ manager.runs[number]? = some run ∧ run.stage = .stopped ∧
      after = { manager with waiting := manager.waiting.erase number } := by
  obtain ⟨hpossible, hreturned⟩ := ite_none_eq_some h
  rw [Bool.and_eq_true, List.contains_iff_mem, Option.any_eq_true] at hpossible
  obtain ⟨hwaiting, run, hrun, hover⟩ := hpossible
  exact ⟨run, hwaiting, hrun, of_decide_eq_true hover, (Option.some.inj hreturned).symm⟩

/-- A reactor that advances as it may takes a step. -/
theorem stepped_of_stepRun? {number : Nat} {step? : Run → Option Stage}
    (h : manager.stepRun? number step? = some after)
    (hadvances : ∀ run stage, step? run = some stage → Advances manager number run event stage) :
    Stepped manager event after := by
  obtain ⟨run, hrun, h⟩ := Option.bind_eq_some_iff.1 h
  obtain ⟨stage, hstage, h⟩ := Option.bind_eq_some_iff.1 h
  obtain rfl := Option.some.inj h
  exact .advances hrun (hadvances run stage hstage)

/-- A link that moves as it may takes a step. -/
theorem stepped_of_stepLink? {index : Nat} {step? : Run → LinkState → Option LinkState}
    (h : manager.stepLink? index step? = some after)
    (hmoves : ∀ run before state, step? run before = some state →
      Moves run index before event state) :
    Stepped manager event after := by
  obtain ⟨link, hlink, h⟩ := Option.bind_eq_some_iff.1 h
  obtain ⟨number, hnumber, h⟩ := Option.bind_eq_some_iff.1 h
  obtain ⟨run, hrun, h⟩ := Option.bind_eq_some_iff.1 h
  obtain ⟨state, hstate, h⟩ := Option.bind_eq_some_iff.1 h
  obtain rfl := Option.some.inj h
  exact .moves hlink hnumber hrun (hmoves run link.state state hstate)

/-- What comes of an event that is possible is a step. -/
theorem stepped_of_step? (h : manager.step? event = some after) : Stepped manager event after := by
  cases event with
  | start =>
    obtain rfl := Option.some.inj h
    exact .starts
  | request maxMessageSize =>
    obtain rfl := Option.some.inj h
    exact .requests maxMessageSize
  | closeConnections chosen =>
    obtain ⟨-, hasked⟩ := ite_none_eq_some h
    obtain rfl := Option.some.inj hasked
    exact .asks chosen
  | use index use =>
    obtain rfl := Option.some.inj h
    exact .uses index use
  | shutdown =>
    obtain rfl := Option.some.inj h
    exact .signals
  | returns number =>
    obtain ⟨run, hwaiting, hrun, hover, rfl⟩ := step?_returns_eq_some h
    exact .returns hwaiting hrun hover
  | leave number =>
    refine stepped_of_stepRun? h fun run stage hstage => ?_
    obtain ⟨⟨hserving, hsignal⟩, hleft⟩ := ite_none_eq_some hstage
    obtain rfl := Option.some.inj hleft
    exact .leaves hserving hsignal
  | joined number =>
    refine stepped_of_stepRun? h fun run stage hstage => ?_
    obtain ⟨⟨hjoining, hnone⟩, hjoined⟩ := ite_none_eq_some hstage
    obtain rfl := Option.some.inj hjoined
    exact .joins hjoining (Bool.not_eq_true' _ ▸ hnone)
  | stop number =>
    refine stepped_of_stepRun? h fun run stage hstage => ?_
    obtain ⟨⟨hdraining, hnone⟩, hstopped⟩ := ite_none_eq_some hstage
    obtain rfl := Option.some.inj hstopped
    exact .stops hdraining (Bool.not_eq_true' _ ▸ hnone)
  | takeUp index =>
    rw [step?] at h
    refine stepped_of_stepLink? h fun run before state hstate => ?_
    obtain ⟨hserving, htaken⟩ := ite_none_eq_some hstate
    obtain ⟨puppet, rfl, rfl⟩ := LinkState.takeUp?_eq_some htaken
    exact .takesUp puppet hserving
  | connect index outcome =>
    rw [step?] at h
    refine stepped_of_stepLink? h fun run before state hstate => ?_
    obtain ⟨puppet, rfl, hconnected⟩ := LinkState.connect?_eq_some hstate
    cases outcome with
    | connected uses =>
      obtain rfl := Option.some.inj hconnected
      exact .opens puppet uses
    | refused =>
      obtain rfl := Option.some.inj hconnected
      exact .isRefused puppet
    | timedOut =>
      obtain rfl := Option.some.inj hconnected
      exact .timesOut puppet
  | abandon index =>
    rw [step?] at h
    refine stepped_of_stepLink? h fun run before state hstate => ?_
    obtain ⟨hsignal, habandoned⟩ := ite_none_eq_some hstate
    obtain ⟨puppet, rfl, rfl⟩ := LinkState.abandon?_eq_some habandoned
    exact .isAbandoned puppet hsignal
  | drain index =>
    rw [step?] at h
    refine stepped_of_stepLink? h fun run before state hstate => ?_
    obtain ⟨hdraining, hdrained⟩ := ite_none_eq_some hstate
    obtain ⟨puppet, rfl, rfl⟩ := LinkState.drain?_eq_some hdrained
    exact .isDrained puppet hdraining
  | turn index shutdown reaction read writes =>
    rw [step?] at h
    refine stepped_of_stepLink? h fun run before state hstate => ?_
    obtain ⟨-, hturned⟩ := ite_none_eq_some hstate
    obtain ⟨connection, rfl, -⟩ := LinkState.turn?_eq_some hturned
    exact .turns shutdown reaction read writes hturned

/-! ## Links and the registry -/

/-- A start changes neither links nor the registry. -/
theorem links_start (manager : Manager) :
    manager.start.links = manager.links ∧ manager.start.registry = manager.registry := by
  unfold start
  split
  next => exact ⟨rfl, rfl⟩
  next => exact ⟨rfl, rfl⟩

/-- The call of a shutdown changes neither links nor the registry. -/
theorem links_signal (manager : Manager) :
    manager.signal.links = manager.links ∧ manager.signal.registry = manager.registry := by
  unfold signal
  split
  next => exact ⟨rfl, rfl⟩
  next => exact ⟨rfl, rfl⟩

/-- Using an outbox changes the state of one link. -/
theorem getElem?_use (manager : Manager) (index : Nat) (use : Outbox.Use) (other : Nat) :
    (manager.use index use).links[other]? = (manager.links[other]?).map fun link =>
      if index = other then { link with state := link.state.use use } else link :=
  List.getElem?_modify _ _ _ _

/-- A link after the use of an outbox is one from before, with its outbox used or as it was. -/
theorem getElem?_use_eq_some {index other : Nat} {use : Outbox.Use} {link : Link}
    (h : (manager.use index use).links[other]? = some link) :
    ∃ before, manager.links[other]? = some before ∧
      (link = { before with state := before.state.use use } ∨ link = before) := by
  rw [getElem?_use] at h
  obtain ⟨before, hbefore, rfl⟩ := Option.map_eq_some_iff.1 h
  refine ⟨before, hbefore, ?_⟩
  split
  next => exact Or.inl rfl
  next => exact Or.inr rfl

/-- What the use of an outbox keeps is kept when connections are asked to close. -/
theorem askToClose_of_use {kept : Manager → Prop}
    (huse : ∀ manager index, kept manager → kept (manager.use index .requestClose))
    {manager : Manager} (h : kept manager) (chosen : List Nat) :
    kept (manager.askToClose chosen) := by
  induction chosen generalizing manager with
  | nil => exact h
  | cons index chosen ih => exact ih (huse manager index h)

/-- Using its outbox does not bring a link any further. -/
theorem phase_use (state : LinkState) (use : Outbox.Use) :
    (state.use use).isQueued = state.isQueued ∧ (state.use use).isTask = state.isTask ∧
      (state.use use).isLive = state.isLive := by
  cases state with
  | queued puppet => exact ⟨rfl, rfl, rfl⟩
  | connecting puppet => exact ⟨rfl, rfl, rfl⟩
  | live connection => exact ⟨rfl, rfl, rfl⟩
  | finished puppet => exact ⟨rfl, rfl, rfl⟩

/-! ## Runs -/

/-- The run that takes requests serves and has not been signalled; every other run is over, or its
shutdown waits; and every link is as its run permits. -/
structure Supervised (manager : Manager) : Prop where
  serving : ∀ number, manager.current = some number → manager.runs[number]? = some ⟨false, .serving⟩
  underWay : ∀ (number : Nat) (run : Run), manager.runs[number]? = some run →
    manager.current = some number ∨ number ∈ manager.waiting ∨ run.stage = .stopped
  permitted : ∀ (index : Nat) (link : Link) (number : Nat), manager.links[index]? = some link →
    link.run = some number → ∃ run : Run, manager.runs[number]? = some run ∧ run.Permits link.state

/-- A new manager has no runs. -/
theorem supervised_new : Supervised new where
  serving _ hcurrent := by cases hcurrent
  underWay _ _ hrun := by cases hrun
  permitted _ _ _ hlink := by cases hlink

/-- A run that serves permits everything. -/
theorem permits_of_serving {run : Run} (h : run.stage = .serving) (state : LinkState) :
    run.Permits state where
  joined hstage := by
    rw [h] at hstage
    rcases hstage with hstage | hstage <;> cases hstage
  drained hstage := by
    rw [h] at hstage
    cases hstage

/-- A link moves as its run permits. -/
theorem Moves.permits {run : Run} {index : Nat} {before state : LinkState}
    (h : Moves run index before event state) (hbefore : run.Permits before) :
    run.Permits state := by
  -- A run that has a task left neither drains nor is over.
  have htask (hisTask : before.isTask = true) : run.Permits state := by
    have hstage : ¬ (run.stage = .draining ∨ run.stage = .stopped) := by
      intro hstage
      rw [hbefore.joined hstage] at hisTask
      cases hisTask
    exact ⟨fun hstage' => absurd hstage' hstage, fun hstage' => absurd (Or.inr hstage') hstage⟩
  cases h with
  | takesUp puppet hstage => exact permits_of_serving hstage _
  | opens puppet uses => exact htask rfl
  | isRefused puppet => exact htask rfl
  | timesOut puppet => exact htask rfl
  | isAbandoned puppet hsignal => exact htask rfl
  | isDrained puppet hstage => exact ⟨fun _ => rfl, fun _ => rfl⟩
  | turns shutdown reaction read writes hturn => exact htask rfl

/-- A start keeps a manager supervised. -/
theorem Supervised.start (h : manager.Supervised) : manager.start.Supervised := by
  unfold Manager.start
  split
  next => exact h
  next hnone =>
    refine ⟨fun number hcurrent => ?_, fun number run hrun => ?_,
      fun index link number hlink hnumber => ?_⟩
    · obtain rfl := Option.some.inj hcurrent
      exact List.getElem?_concat_length
    · rcases getElem?_concat_eq_some hrun with hbefore | ⟨rfl, -⟩
      · refine Or.inr ((h.underWay number run hbefore).resolve_left ?_)
        rw [hnone]
        nofun
      · exact Or.inl rfl
    · obtain ⟨run, hrun, hpermits⟩ := h.permitted index link number hlink hnumber
      exact ⟨run, getElem?_concat_of_some hrun _, hpermits⟩

/-- A request keeps a manager supervised. -/
theorem Supervised.request (h : manager.Supervised) (maxMessageSize : Nat) :
    (manager.request maxMessageSize).2.Supervised := by
  refine ⟨h.serving, h.underWay, fun index link number hlink hnumber => ?_⟩
  rcases getElem?_concat_eq_some hlink with hbefore | ⟨-, rfl⟩
  · exact h.permitted index link number hbefore hnumber
  · exact ⟨_, h.serving number hnumber, permits_of_serving rfl _⟩

/-- The use of an outbox keeps a manager supervised. -/
theorem Supervised.use (h : manager.Supervised) (index : Nat) (use : Outbox.Use) :
    (manager.use index use).Supervised := by
  refine ⟨h.serving, h.underWay, fun other link number hlink hnumber => ?_⟩
  obtain ⟨before, hbefore, rfl | rfl⟩ := getElem?_use_eq_some hlink
  · obtain ⟨run, hrun, hjoined, hdrained⟩ := h.permitted other before number hbefore hnumber
    obtain ⟨hqueued, htask, -⟩ := phase_use before.state use
    exact ⟨run, hrun, fun hstage => htask.trans (hjoined hstage),
      fun hstage => hqueued.trans (hdrained hstage)⟩
  · exact h.permitted other link number hbefore hnumber

/-- The call of a shutdown keeps a manager supervised. -/
theorem Supervised.signal (h : manager.Supervised) : manager.signal.Supervised := by
  unfold Manager.signal
  split
  next => exact h
  next number hcurrent =>
    refine ⟨nofun, fun other run hrun => Or.inr ?_, fun index link other hlink hother => ?_⟩
    · rw [List.getElem?_modify] at hrun
      obtain ⟨before, hbefore, hrun⟩ := Option.map_eq_some_iff.1 hrun
      rcases h.underWay other before hbefore with hsame | hwaiting | hover
      · obtain rfl : number = other := Option.some.inj (hcurrent.symm.trans hsame)
        exact Or.inl (List.mem_append_right _ List.mem_cons_self)
      · exact Or.inl (List.mem_append_left _ hwaiting)
      · refine Or.inr ?_
        subst hrun
        split
        next => exact hover
        next => exact hover
    · obtain ⟨run, hrun, hjoined, hdrained⟩ := h.permitted index link other hlink hother
      refine ⟨if number = other then { run with signalled := true } else run, ?_, ?_⟩
      · rw [List.getElem?_modify, hrun]
        rfl
      · split
        next => exact ⟨hjoined, hdrained⟩
        next => exact ⟨hjoined, hdrained⟩

/-- The return of a shutdown keeps a manager supervised. -/
theorem Supervised.returned (h : manager.Supervised) {number : Nat} {run : Run}
    (hrun : manager.runs[number]? = some run) (hover : run.stage = .stopped) :
    Supervised { manager with waiting := manager.waiting.erase number } := by
  refine ⟨h.serving, fun other otherRun hother => ?_, h.permitted⟩
  rcases h.underWay other otherRun hother with hcurrent | hwaiting | hend
  · exact Or.inl hcurrent
  · by_cases hsame : other = number
    · subst hsame
      obtain rfl := Option.some.inj (hrun.symm.trans hother)
      exact Or.inr (Or.inr hover)
    · exact Or.inr (Or.inl ((List.mem_erase_of_ne hsame).2 hwaiting))
  · exact Or.inr (Or.inr hend)

/-- A link of a run that is in no such state is not in it. -/
theorem eq_false_of_hasLink {number index : Nat} {isSuch : LinkState → Bool} {link : Link}
    (h : manager.hasLink number isSuch = false) (hlink : manager.links[index]? = some link)
    (hnumber : link.run = some number) : isSuch link.state = false := by
  have hnone := List.any_eq_false.1 h link (List.mem_of_getElem? hlink)
  rw [hnumber, decide_eq_true rfl, Bool.true_and, Bool.not_eq_true] at hnone
  exact hnone

/-- A step of a reactor keeps a manager supervised. -/
theorem Supervised.advance (h : manager.Supervised) {number : Nat} {run : Run} {stage : Stage}
    (hrun : manager.runs[number]? = some run)
    (hadvances : Advances manager number run event stage) :
    Supervised { manager with runs := manager.runs.set number { run with stage := stage } } := by
  obtain ⟨hbound, -⟩ := List.getElem?_eq_some_iff.1 hrun
  have hset : (manager.runs.set number { run with stage := stage })[number]? =
      some { run with stage := stage } := List.getElem?_set_self hbound
  refine ⟨fun other hcurrent => ?_, fun other otherRun hother => ?_,
    fun index link other hlink hother => ?_⟩
  · -- The run that takes requests has not been signalled, so it does not advance.
    by_cases hsame : number = other
    · subst hsame
      obtain rfl := Option.some.inj (hrun.symm.trans (h.serving number hcurrent))
      cases hadvances with
      | leaves _ hsignal => cases hsignal
      | joins hstage _ => cases hstage
      | stops hstage _ => cases hstage
    · rw [List.getElem?_set_ne hsame]
      exact h.serving other hcurrent
  · by_cases hsame : number = other
    · subst hsame
      rcases h.underWay number run hrun with hcurrent | hwaiting | hover
      · exact Or.inl hcurrent
      · exact Or.inr (Or.inl hwaiting)
      · cases hadvances with
        | leaves hstage _ => rw [hover] at hstage; cases hstage
        | joins hstage _ => rw [hover] at hstage; cases hstage
        | stops hstage _ => rw [hover] at hstage; cases hstage
    · rw [List.getElem?_set_ne hsame] at hother
      exact h.underWay other otherRun hother
  · obtain ⟨before, hbefore, hpermits⟩ := h.permitted index link other hlink hother
    by_cases hsame : number = other
    · subst hsame
      obtain rfl := Option.some.inj (hrun.symm.trans hbefore)
      refine ⟨_, hset, ?_⟩
      cases hadvances with
      | leaves _ _ =>
        refine ⟨fun hjoined => ?_, nofun⟩
        rcases hjoined with hjoined | hjoined <;> cases hjoined
      | joins _ hnone => exact ⟨fun _ => eq_false_of_hasLink hnone hlink hother, nofun⟩
      | stops hstage hnone =>
        exact ⟨fun _ => hpermits.joined (Or.inl hstage),
          fun _ => eq_false_of_hasLink hnone hlink hother⟩
    · rw [List.getElem?_set_ne hsame]
      exact ⟨before, hbefore, hpermits⟩

/-- A step of a link keeps a manager supervised. -/
theorem Supervised.move (h : manager.Supervised) {index number : Nat} {link : Link} {run : Run}
    {state : LinkState} (hlink : manager.links[index]? = some link)
    (hnumber : link.run = some number) (hrun : manager.runs[number]? = some run)
    (hmoves : Moves run index link.state event state) (registry : List Nat) :
    Supervised { manager with
      links := manager.links.set index { link with state := state }, registry := registry } := by
  -- No run changes, and no link but the one that moves.
  refine ⟨h.serving, h.underWay, fun other otherLink otherNumber hother hotherNumber => ?_⟩
  by_cases hsame : index = other
  · subst hsame
    obtain ⟨hbound, -⟩ := List.getElem?_eq_some_iff.1 hlink
    obtain rfl := Option.some.inj ((List.getElem?_set_self hbound).symm.trans hother)
    obtain ⟨before, hbefore, hpermits⟩ := h.permitted index link otherNumber hlink hotherNumber
    obtain rfl : number = otherNumber := Option.some.inj (hnumber.symm.trans hotherNumber)
    obtain rfl := Option.some.inj (hrun.symm.trans hbefore)
    exact ⟨run, hrun, hmoves.permits hpermits⟩
  · rw [List.getElem?_set_ne hsame] at hother
    exact h.permitted other otherLink otherNumber hother hotherNumber

/-- Every step keeps a manager supervised. -/
theorem Supervised.step (h : manager.Supervised) (hstepped : Stepped manager event after) :
    after.Supervised := by
  cases hstepped with
  | starts => exact h.start
  | requests maxMessageSize => exact h.request maxMessageSize
  | asks chosen => exact askToClose_of_use (fun _ index h => h.use index _) h chosen
  | uses index use => exact h.use index use
  | signals => exact h.signal
  | returns _ hrun hover => exact h.returned hrun hover
  | advances hrun hadvances => exact h.advance hrun hadvances
  | moves hlink hnumber hrun hmoves => exact h.move hlink hnumber hrun hmoves _

/-! ## Shutdowns -/

/-- Every shutdown that waits has signalled its run. -/
def Awaited (manager : Manager) : Prop :=
  ∀ number ∈ manager.waiting, ∃ run : Run,
    manager.runs[number]? = some run ∧ run.signalled = true

/-- Every step keeps the shutdowns that wait to runs that they have signalled. -/
theorem Awaited.step (h : manager.Awaited) (hsupervised : manager.Supervised)
    (hstepped : Stepped manager event after) : after.Awaited := by
  cases hstepped with
  | starts =>
    unfold Manager.start
    split
    next => exact h
    next =>
      intro number hwaiting
      obtain ⟨run, hrun, hsignalled⟩ := h number hwaiting
      exact ⟨run, getElem?_concat_of_some hrun _, hsignalled⟩
  | requests maxMessageSize => exact h
  | asks chosen =>
    have huse (reached : Manager) (index : Nat) (h : reached.Awaited) :
        (reached.use index .requestClose).Awaited := h
    exact askToClose_of_use huse h chosen
  | uses index use => exact h
  | signals =>
    unfold Manager.signal
    split
    next => exact h
    next number hcurrent =>
      intro other hother
      show ∃ run, (manager.runs.modify number _)[other]? = some run ∧ _
      rw [List.getElem?_modify]
      by_cases hsame : number = other
      · subst hsame
        rw [hsupervised.serving number hcurrent]
        refine ⟨_, rfl, ?_⟩
        show (if number = number then _ else _ : Run).signalled = true
        rw [if_pos rfl]
      · rcases List.mem_append.1 hother with hwaiting | hlast
        · obtain ⟨run, hrun, hsignalled⟩ := h other hwaiting
          rw [hrun]
          refine ⟨_, rfl, ?_⟩
          show (if number = other then _ else run : Run).signalled = true
          rwa [if_neg hsame]
        · exact absurd (List.mem_singleton.1 hlast).symm hsame
  | returns => exact fun number hwaiting => h number (List.mem_of_mem_erase hwaiting)
  | @advances _ number run stage hrun hadvances =>
    intro other hwaiting
    obtain ⟨before, hbefore, hsignalled⟩ := h other hwaiting
    show ∃ run, (manager.runs.set number _)[other]? = some run ∧ _
    by_cases hsame : number = other
    · subst hsame
      obtain ⟨hbound, -⟩ := List.getElem?_eq_some_iff.1 hrun
      obtain rfl := Option.some.inj (hrun.symm.trans hbefore)
      exact ⟨_, List.getElem?_set_self hbound, hsignalled⟩
    · rw [List.getElem?_set_ne hsame]
      exact ⟨before, hbefore, hsignalled⟩
  | moves => exact h

/-! ## The registry -/

/-- The registry holds the links that are live, each once. -/
structure Registered (manager : Manager) : Prop where
  nodup : manager.registry.Nodup
  live : ∀ index, index ∈ manager.registry ↔
    ∃ link, manager.links[index]? = some link ∧ link.state.isLive = true

/-- The registry of a new manager is empty. -/
theorem registered_new : Registered new where
  nodup := List.nodup_nil
  live index := by
    refine iff_of_false List.not_mem_nil ?_
    rintro ⟨link, hlink, -⟩
    cases hlink

/-- Of a link whose state has changed the registry holds what it must, and of the others what it
did. -/
theorem mem_registryAfter {registry : List Nat} (hnodup : registry.Nodup) {index : Nat}
    {before state : LinkState} (hbefore : index ∈ registry ↔ before.isLive = true) (other : Nat) :
    other ∈ registryAfter registry index before state ↔
      if index = other then state.isLive = true else other ∈ registry := by
  unfold registryAfter
  by_cases hsame : index = other
  · subst hsame
    rw [if_pos rfl]
    cases hwas : before.isLive with
    | true =>
      rw [hwas] at hbefore
      cases hstate : state.isLive with
      | true => exact iff_of_true (hbefore.2 rfl) rfl
      | false => exact iff_of_false hnodup.not_mem_erase Bool.false_ne_true
    | false =>
      rw [hwas] at hbefore
      cases hstate : state.isLive with
      | true => exact iff_of_true (List.mem_append_right _ List.mem_cons_self) rfl
      | false => exact iff_of_false (fun hmem => Bool.false_ne_true (hbefore.1 hmem)) nofun
  · rw [if_neg hsame]
    have hother : other ≠ index := fun h => hsame h.symm
    split
    next =>
      rw [List.mem_append, List.mem_singleton]
      exact or_iff_left hother
    next => exact List.mem_erase_of_ne hother
    next => exact Iff.rfl

/-- The registry holds no link twice. -/
theorem nodup_registryAfter {registry : List Nat} (hnodup : registry.Nodup) {index : Nat}
    {before state : LinkState} (hbefore : index ∈ registry ↔ before.isLive = true) :
    (registryAfter registry index before state).Nodup := by
  unfold registryAfter
  split
  next hwas _ =>
    rw [hwas] at hbefore
    refine List.nodup_append.2 ⟨hnodup, List.nodup_cons.2 ⟨List.not_mem_nil, List.nodup_nil⟩, ?_⟩
    rintro other hother _ hlast rfl
    rw [List.mem_singleton.1 hlast] at hother
    exact Bool.false_ne_true (hbefore.1 hother)
  next => exact hnodup.erase index
  next => exact hnodup

/-- No request is live at once. -/
theorem isLive_requested (manager : Manager) (puppet : Puppet) :
    (manager.requested puppet).isLive = false := by
  unfold requested
  split
  next => rfl
  next =>
    split
    next => rfl
    next => rfl

/-- The registry depends on the links only. -/
theorem Registered.congr (h : manager.Registered) (hlinks : after.links = manager.links)
    (hregistry : after.registry = manager.registry) : after.Registered := by
  refine ⟨?_, fun index => ?_⟩
  · rw [hregistry]
    exact h.nodup
  · rw [hregistry, hlinks]
    exact h.live index

/-- Every step keeps the registry. -/
theorem Registered.step (h : manager.Registered) (hstepped : Stepped manager event after) :
    after.Registered := by
  have huse (manager : Manager) (index : Nat) (use : Outbox.Use) (h : manager.Registered) :
      (manager.use index use).Registered := by
    refine ⟨h.nodup, fun other => (h.live other).trans ?_⟩
    constructor
    · rintro ⟨link, hlink, hlive⟩
      refine ⟨_, by rw [getElem?_use, hlink]; rfl, ?_⟩
      split
      next => rwa [(phase_use link.state use).2.2]
      next => exact hlive
    · rintro ⟨link, hlink, hlive⟩
      obtain ⟨before, hbefore, rfl | rfl⟩ := getElem?_use_eq_some hlink
      · exact ⟨before, hbefore, (phase_use before.state use).2.2.symm.trans hlive⟩
      · exact ⟨link, hbefore, hlive⟩
  cases hstepped with
  | starts => exact h.congr manager.links_start.1 manager.links_start.2
  | requests maxMessageSize =>
    refine ⟨h.nodup, fun index => (h.live index).trans ?_⟩
    constructor
    · rintro ⟨link, hlink, hlive⟩
      exact ⟨link, getElem?_concat_of_some hlink _, hlive⟩
    · rintro ⟨link, hlink, hlive⟩
      rcases getElem?_concat_eq_some hlink with hbefore | ⟨-, rfl⟩
      · exact ⟨link, hbefore, hlive⟩
      · rw [isLive_requested] at hlive
        cases hlive
  | asks chosen => exact askToClose_of_use (fun manager index h => huse manager index _ h) h chosen
  | uses index use => exact huse manager index use h
  | signals => exact h.congr manager.links_signal.1 manager.links_signal.2
  | returns => exact h.congr rfl rfl
  | advances => exact h.congr rfl rfl
  | @moves _ index number link run state hlink hnumber hrun hmoves =>
    have hbefore : index ∈ manager.registry ↔ link.state.isLive = true := by
      rw [h.live]
      constructor
      · rintro ⟨other, hother, hlive⟩
        obtain rfl := Option.some.inj (hlink.symm.trans hother)
        exact hlive
      · exact fun hlive => ⟨link, hlink, hlive⟩
    refine ⟨nodup_registryAfter h.nodup hbefore, fun other => ?_⟩
    rw [mem_registryAfter h.nodup hbefore]
    by_cases hsame : index = other
    · subst hsame
      obtain ⟨hbound, -⟩ := List.getElem?_eq_some_iff.1 hlink
      rw [if_pos rfl, List.getElem?_set_self hbound]
      constructor
      · exact fun hlive => ⟨_, rfl, hlive⟩
      · rintro ⟨_, hset, hlive⟩
        obtain rfl := Option.some.inj hset
        exact hlive
    · rw [if_neg hsame, List.getElem?_set_ne hsame]
      exact h.live other

end Manager

end PeerProtocol
