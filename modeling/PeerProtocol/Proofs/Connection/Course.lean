import PeerProtocol.Connection.Manager
import PeerProtocol.Proofs.Connection.Turn

/-!
# The course of a requested connection

What is noticed of a requested connection takes one of few courses: nothing as long as the request
is pending, the result alone where it was not taken, the end and then the error where no connection
was made, and otherwise the opening, the bytes that arrive, and in the end the end (`Course`). A
turn of an open connection of a puppet notes bytes at most, and the end if and only if it ends the
connection (`turn_puppet`), and so whatever a link may do keeps it on its course (`Course.fail`,
`Course.open`, `Course.turn`, `Course.use`). What the requester and the collaborator are told is
read off the course (`Course.told`).
-/

namespace PeerProtocol

namespace Outbox

/-- No use of an outbox opens or closes it. -/
theorem closed_use (outbox : Outbox) (use : Use) : (outbox.use use).closed = outbox.closed := by
  cases use with
  | write bytes => exact outbox.closed_write bytes
  | requestClose => rfl

/-- No uses of an outbox open or close it. -/
theorem closed_foldl_use (uses : List Use) (outbox : Outbox) :
    (uses.foldl use outbox).closed = outbox.closed := by
  induction uses generalizing outbox with
  | nil => rfl
  | cons use uses ih => rw [List.foldl_cons, ih, closed_use]

end Outbox

/-! ## Connections of puppets -/

namespace Connection

/-- A connection of a puppet starts open, and the puppet notes that it was attached and then that
the connection was opened. -/
theorem start_puppet (puppet : Puppet) :
    (start puppet).isClosed = false ∧ (start puppet).collaborator.history =
      puppet.history ++ [.call .attached, .call .opened] := by
  refine ⟨?_, ?_⟩
  · show (puppet.reaction.uses.foldl Outbox.use (Outbox.new puppet.maxMessageSize)).closed = false
    rw [Outbox.closed_foldl_use]
    rfl
  · show puppet.history ++ [.call .attached] ++ [.call .opened] = _
    rw [List.append_assoc]
    rfl

/-- Ending an open connection, its puppet notes the end. -/
theorem close_puppet {connection : Connection Puppet} (hopen : connection.isClosed = false) :
    connection.close.isClosed = true ∧
      connection.close.collaborator.history =
        connection.collaborator.history ++ [.call .ended] := by
  refine ⟨connection.close_kept.2.1, ?_⟩
  unfold close
  rw [if_neg (by rw [hopen]; exact Bool.false_ne_true)]
  rfl

/-- Offering bytes, a puppet notes that it received some. -/
theorem offer_puppet (connection : Connection Puppet) (chunk : Bytes) :
    (connection.offer chunk).2.isClosed = connection.isClosed ∧
      (connection.offer chunk).2.collaborator.history =
        connection.collaborator.history ++ [.call .received] := by
  obtain ⟨hpuppet, houtbox, -⟩ := connection.offer_kept chunk
  refine ⟨?_, congrArg Puppet.history hpuppet⟩
  show (connection.offer chunk).2.outbox.closed = connection.outbox.closed
  rw [houtbox]
  exact Outbox.closed_foldl_use connection.collaborator.reaction.uses connection.outbox

/-- Reading, a puppet notes at most that it received bytes. -/
theorem read_puppet (connection : Connection Puppet) (read : SocketRead) :
    (connection.read read).2.isClosed = connection.isClosed ∧
      ∃ count, (connection.read read).2.collaborator.history =
        connection.collaborator.history ++ List.replicate count (.call .received) := by
  have hnothing : ∃ count, connection.collaborator.history =
      connection.collaborator.history ++ List.replicate count (.call .received) :=
    ⟨0, (List.append_nil _).symm⟩
  cases read with
  | nothing => exact ⟨rfl, hnothing⟩
  | ended => exact ⟨rfl, hnothing⟩
  | fails => exact ⟨rfl, hnothing⟩
  | bytes chunk =>
    obtain ⟨hclosed, hhistory⟩ := connection.offer_puppet chunk
    exact ⟨hclosed, 1, hhistory⟩

/-- How an open connection of a puppet may be after something was done to it: still open, and the
puppet has noted nothing but bytes, or ended, and the puppet has noted the end after them. -/
inductive Later (connection after : Connection Puppet) : Prop where
  | goesOn (count : Nat) (hopen : after.isClosed = false)
      (hhistory : after.collaborator.history =
        connection.collaborator.history ++ List.replicate count (.call .received))
  | ends (count : Nat) (hclosed : after.isClosed = true)
      (hhistory : after.collaborator.history =
        connection.collaborator.history ++ List.replicate count (.call .received) ++
          [.call .ended])

/-- An open connection that has noted nothing but bytes may be ended. -/
theorem later_close {connection reached : Connection Puppet} {count : Nat}
    (hopen : reached.isClosed = false)
    (hhistory : reached.collaborator.history =
      connection.collaborator.history ++ List.replicate count (.call .received)) :
    connection.Later reached.close := by
  obtain ⟨hclosed, hend⟩ := close_puppet hopen
  exact .ends count hclosed (by rw [hend, hhistory])

/-- A turn ends an open connection of a puppet, or leaves it open. -/
theorem turn_puppet (connection : Connection Puppet) (hopen : connection.isClosed = false)
    (shutdown : Bool) (read : SocketRead) (writes : Option (List Outbox.SocketWrite)) :
    connection.Later (connection.turn shutdown read writes).1 := by
  have hturned := connection.turn_turned shutdown read writes
  generalize (connection.turn shutdown read writes).1 = after at hturned ⊢
  generalize (connection.turn shutdown read writes).2 = sent at hturned
  have hreached {result : Except LinkError Bool} {reached : Connection Puppet}
      (hreading : connection.reading shutdown read = some (result, reached)) :
      reached.isClosed = false ∧ ∃ count, reached.collaborator.history =
        connection.collaborator.history ++ List.replicate count (.call .received) := by
    obtain ⟨-, hresult⟩ := isClosed_of_reading hreading
    obtain ⟨hclosed, hhistory⟩ := connection.read_puppet read
    rw [hresult] at hclosed hhistory
    exact ⟨hclosed.trans hopen, hhistory⟩
  cases hturned with
  | idle hclosed hreading =>
    rw [hopen] at hclosed
    cases hclosed
  | ends _ hreading =>
    have hnothing : connection.collaborator.history =
        connection.collaborator.history ++ List.replicate 0 (.call .received) :=
      (List.append_nil _).symm
    exact later_close hopen hnothing
  | @stops result reached hreading =>
    obtain ⟨hopen, count, hhistory⟩ := hreached hreading
    exact later_close hopen hhistory
  | reads hreading =>
    obtain ⟨hopen, count, hhistory⟩ := hreached hreading
    exact .goesOn count hopen hhistory
  | @writes reached attempts hreading =>
    obtain ⟨hopen, count, hhistory⟩ := hreached hreading
    have hflushed : (reached.outbox.flush attempts).outbox.closed = false := by
      rw [(Outbox.flush_spec reached.outbox attempts).2.1]
      exact hopen
    unfold written
    simp only
    split
    next => exact later_close hflushed hhistory
    next => exact .goesOn count hflushed hhistory

end Connection

/-! ## States of links -/

namespace LinkState

/-- Whether nothing will become of the link any more. -/
def isOver (state : LinkState) : Bool :=
  !state.isQueued && !state.isTask

/-- Only a queued request is taken up. -/
theorem takeUp?_eq_some {state after : LinkState} (h : state.takeUp? = some after) :
    ∃ puppet, state = .queued puppet ∧ after = .connecting puppet := by
  cases state with
  | queued puppet => exact ⟨puppet, rfl, (Option.some.inj h).symm⟩
  | connecting puppet => cases h
  | live connection => cases h
  | finished puppet => cases h

/-- Only a connect attempt that is on its way comes to its end. -/
theorem connect?_eq_some {state after : LinkState} {outcome : ConnectOutcome}
    (h : state.connect? outcome = some after) :
    ∃ puppet, state = .connecting puppet ∧
      (LinkState.connecting puppet).connect? outcome = some after := by
  cases state with
  | connecting puppet => exact ⟨puppet, rfl, h⟩
  | queued puppet => cases h
  | live connection => cases h
  | finished puppet => cases h

/-- Only a connect attempt that is on its way is given up. -/
theorem abandon?_eq_some {state after : LinkState} (h : state.abandon? = some after) :
    ∃ puppet, state = .connecting puppet ∧ after = .failed puppet .notRunning := by
  cases state with
  | connecting puppet => exact ⟨puppet, rfl, (Option.some.inj h).symm⟩
  | queued puppet => cases h
  | live connection => cases h
  | finished puppet => cases h

/-- Only a queued request fails without having been taken up. -/
theorem drain?_eq_some {state after : LinkState} (h : state.drain? = some after) :
    ∃ puppet, state = .queued puppet ∧ after = .failed puppet .notRunning := by
  cases state with
  | queued puppet => exact ⟨puppet, rfl, (Option.some.inj h).symm⟩
  | connecting puppet => cases h
  | live connection => cases h
  | finished puppet => cases h

/-- Only an open connection takes turns, and it stays open or is over. -/
theorem turn?_eq_some {state after : LinkState} {shutdown : Bool} {reaction : Reaction}
    {read : Connection.SocketRead} {writes : Option (List Outbox.SocketWrite)}
    (h : state.turn? shutdown reaction read writes = some after) :
    ∃ connection, state = .live connection ∧ after.isQueued = false := by
  cases state with
  | live connection =>
    refine ⟨connection, rfl, ?_⟩
    obtain rfl := Option.some.inj h
    split
    next => rfl
    next => rfl
  | queued puppet => cases h
  | connecting puppet => cases h
  | finished puppet => cases h

end LinkState

/-! ## Courses -/

/-- What is noticed until a connection is open and the requester knows. -/
def opening : List Notice :=
  [.call .attached, .call .opened, .resolved (.ok ())]

/-- The courses that a link may take, given how the connect attempt was settled, if it was: what has
been noticed so far, according to how far the link has come. -/
inductive Course : Link → List (Except LinkError Unit) → Prop where
  | refused {puppet : Puppet} (hhistory : puppet.history = [.resolved (.error .notRunning)]) :
      Course ⟨none, .finished puppet⟩ []
  | queued {number : Nat} {puppet : Puppet} (hhistory : puppet.history = []) :
      Course ⟨some number, .queued puppet⟩ []
  | connecting {number : Nat} {puppet : Puppet} (hhistory : puppet.history = []) :
      Course ⟨some number, .connecting puppet⟩ []
  | failed {number : Nat} {puppet : Puppet} {error : LinkError}
      (hhistory : puppet.history = [.call .ended, .resolved (.error error)]) :
      Course ⟨some number, .finished puppet⟩ [.error error]
  | live {number : Nat} {connection : Connection Puppet} (count : Nat)
      (hopen : connection.isClosed = false)
      (hhistory : connection.collaborator.history =
        opening ++ List.replicate count (.call .received)) :
      Course ⟨some number, .live connection⟩ [.ok ()]
  | closed {number : Nat} {puppet : Puppet} (count : Nat)
      (hhistory : puppet.history =
        opening ++ List.replicate count (.call .received) ++ [.call .ended]) :
      Course ⟨some number, .finished puppet⟩ [.ok ()]

namespace Course

variable {number : Nat}

/-- A request of which nothing was noticed may fail. -/
theorem fail {puppet : Puppet} (hhistory : puppet.history = []) (error : LinkError) :
    Course ⟨some number, .failed puppet error⟩ [.error error] := by
  refine .failed ?_
  show puppet.history ++ [.call .ended] ++ [.resolved (.error error)] = _
  rw [hhistory]
  rfl

/-- A request of which nothing was noticed may succeed. -/
theorem «open» {puppet : Puppet} (hhistory : puppet.history = []) (uses : List Outbox.Use) :
    Course ⟨some number, .opened puppet uses⟩ [.ok ()] := by
  obtain ⟨hopen, hstart⟩ := Connection.start_puppet (puppet.told ⟨uses, .ok 0⟩)
  refine .live 0 hopen ?_
  show (Connection.start (puppet.told ⟨uses, .ok 0⟩)).collaborator.history ++
    [.resolved (.ok ())] = opening ++ []
  rw [hstart]
  show puppet.history ++ [.call .attached, .call .opened] ++ [.resolved (.ok ())] = _
  rw [hhistory]
  rfl

/-- The connection of a link that is live is open, and may take a turn. -/
theorem turn {fates : List (Except LinkError Unit)} {connection : Connection Puppet}
    (h : Course ⟨some number, .live connection⟩ fates) (shutdown : Bool) (reaction : Reaction)
    (read : Connection.SocketRead) (writes : Option (List Outbox.SocketWrite)) {after : LinkState}
    (hturn : (LinkState.live connection).turn? shutdown reaction read writes = some after) :
    Course ⟨some number, after⟩ fates := by
  cases h with
  | live count hopen hhistory =>
    obtain rfl := Option.some.inj hturn
    -- To be told how to react is not noticed.
    have hlater := Connection.turn_puppet
      { connection with collaborator := connection.collaborator.told reaction }
      hopen shutdown read writes
    cases hlater with
    | goesOn more hafter hmore =>
      rw [hafter]
      refine .live (count + more) hafter ?_
      rw [hmore]
      show connection.collaborator.history ++ _ = _
      rw [hhistory, List.append_assoc, List.replicate_append_replicate]
    | ends more hafter hmore =>
      rw [hafter]
      refine .closed (count + more) ?_
      rw [hmore]
      show connection.collaborator.history ++ _ ++ _ = _
      rw [hhistory, List.append_assoc opening, List.replicate_append_replicate]

/-- Using an outbox is not noticed. -/
theorem use {link : Link} {fates : List (Except LinkError Unit)} (h : Course link fates)
    (use : Outbox.Use) : Course { link with state := link.state.use use } fates := by
  cases h with
  | refused hhistory => exact .refused hhistory
  | queued hhistory => exact .queued hhistory
  | connecting hhistory => exact .connecting hhistory
  | failed hhistory => exact .failed hhistory
  | live count hopen hhistory =>
    exact .live count ((Outbox.closed_use _ use).trans hopen) hhistory
  | closed count hhistory => exact .closed count hhistory

end Course

/-! ## What a course tells -/

/-- The callbacks of a connection that was opened. -/
theorem callbacks_opening (count : Nat) (tail : List Notice) :
    (opening ++ List.replicate count (Notice.call .received) ++ tail).filterMap Notice.callback? =
      [.attached, .opened] ++ List.replicate count .received ++
        tail.filterMap Notice.callback? := by
  have hreceived : (List.replicate count (Notice.call .received)).filterMap Notice.callback? =
      List.replicate count .received := List.filterMap_replicate_of_some rfl
  rw [List.filterMap_append, List.filterMap_append, hreceived]
  rfl

/-- The result of a connection that was opened. -/
theorem results_opening (count : Nat) (tail : List Notice) :
    (opening ++ List.replicate count (Notice.call .received) ++ tail).filterMap Notice.result? =
      [.ok ()] ++ tail.filterMap Notice.result? := by
  have hreceived : (List.replicate count (Notice.call .received)).filterMap Notice.result? = [] :=
    List.filterMap_replicate_of_none rfl
  rw [List.filterMap_append, List.filterMap_append, hreceived, List.append_nil]
  rfl

/-- What is told of a link on its course: the callbacks and the results, how far it has come, and
how its request was settled. -/
inductive Told (link : Link) : List (Except LinkError Unit) → Prop where
  | refused (hrun : link.run = none) (hover : link.state.isOver = true)
      (hcallbacks : link.callbacks = []) (hresults : link.results = [.error .notRunning]) :
      Told link []
  | pending (hrun : link.run ≠ none) (hover : link.state.isOver = false)
      (hlive : link.state.isLive = false)
      (hcallbacks : link.callbacks = []) (hresults : link.results = []) :
      Told link []
  | failed (error : LinkError) (hrun : link.run ≠ none) (hover : link.state.isOver = true)
      (hcallbacks : link.callbacks = [.ended]) (hresults : link.results = [.error error]) :
      Told link [.error error]
  | live (count : Nat) (hrun : link.run ≠ none) (hlive : link.state.isLive = true)
      (hhistory : link.history = opening ++ List.replicate count (.call .received))
      (hcallbacks : link.callbacks = [.attached, .opened] ++ List.replicate count .received)
      (hresults : link.results = [.ok ()]) :
      Told link [.ok ()]
  | closed (count : Nat) (hrun : link.run ≠ none) (hover : link.state.isOver = true)
      (hhistory : link.history =
        opening ++ List.replicate count (.call .received) ++ [.call .ended])
      (hcallbacks : link.callbacks =
        [.attached, .opened] ++ List.replicate count .received ++ [.ended])
      (hresults : link.results = [.ok ()]) :
      Told link [.ok ()]

/-- Every course tells one of these. -/
theorem Course.told {link : Link} {fates : List (Except LinkError Unit)} (h : Course link fates) :
    Told link fates := by
  cases h with
  | refused hhistory =>
    exact .refused rfl rfl (congrArg (List.filterMap _) hhistory)
      (congrArg (List.filterMap _) hhistory)
  | queued hhistory =>
    exact .pending nofun rfl rfl (congrArg (List.filterMap _) hhistory)
      (congrArg (List.filterMap _) hhistory)
  | connecting hhistory =>
    exact .pending nofun rfl rfl (congrArg (List.filterMap _) hhistory)
      (congrArg (List.filterMap _) hhistory)
  | failed hhistory =>
    exact .failed _ nofun rfl (congrArg (List.filterMap _) hhistory)
      (congrArg (List.filterMap _) hhistory)
  | live count _ hhistory =>
    have htail := hhistory.trans (List.append_nil _).symm
    refine .live count nofun rfl hhistory ?_ ?_
    · rw [← List.append_nil (_ ++ List.replicate count _)]
      exact (congrArg (List.filterMap _) htail).trans (callbacks_opening count [])
    · exact (congrArg (List.filterMap _) htail).trans (results_opening count [])
  | closed count hhistory =>
    exact .closed count nofun rfl hhistory
      ((congrArg (List.filterMap _) hhistory).trans (callbacks_opening count [.call .ended]))
      ((congrArg (List.filterMap _) hhistory).trans (results_opening count [.call .ended]))

namespace Link

/-- Whether the collaborator has heard that the connection was opened, and not that it has ended. -/
def isConnected (link : Link) : Bool :=
  link.callbacks.contains .opened && !link.callbacks.contains .ended

/-- The requester knows how the request turned out, and if it was taken the collaborator knows, and
was told once, that the connection has ended. -/
structure IsSettled (link : Link) : Prop where
  resolved : link.results.length = 1
  ended : link.run ≠ none → link.callbacks.count .ended = 1

end Link

/-- A link that is over is not open. -/
theorem LinkState.isLive_of_isOver {state : LinkState} (h : state.isOver = true) :
    state.isLive = false := by
  cases state with
  | live connection => cases h
  | queued puppet => rfl
  | connecting puppet => rfl
  | finished puppet => rfl

/-- Bytes are not the end. -/
theorem ended_not_mem_received (count : Nat) :
    Callback.ended ∉ [.attached, .opened] ++ List.replicate count .received := by
  intro hmem
  rcases List.mem_append.1 hmem with hmem | hmem
  · exact absurd hmem (by decide)
  · cases List.eq_of_mem_replicate hmem

namespace Told

variable {link : Link} {fates : List (Except LinkError Unit)}

/-- The collaborators that have heard of the opening and not of the end are those of the links that
are open. -/
theorem isConnected_eq (h : Told link fates) : link.isConnected = link.state.isLive := by
  unfold Link.isConnected
  cases h with
  | refused _ hover hcallbacks _ =>
    rw [hcallbacks, LinkState.isLive_of_isOver hover]
    rfl
  | pending _ _ hlive hcallbacks _ =>
    rw [hcallbacks, hlive]
    rfl
  | failed _ _ hover hcallbacks _ =>
    rw [hcallbacks, LinkState.isLive_of_isOver hover]
    rfl
  | live count _ hlive _ hcallbacks _ =>
    have hended : link.callbacks.contains .ended = false := by
      rw [hcallbacks, List.contains_eq_mem]
      exact decide_eq_false (ended_not_mem_received count)
    rw [hended, hlive, hcallbacks]
    rfl
  | closed count _ hover _ hcallbacks _ =>
    have hended : link.callbacks.contains .ended = true := by
      rw [hcallbacks, List.contains_iff_mem]
      exact List.mem_append_right _ List.mem_cons_self
    rw [hended, LinkState.isLive_of_isOver hover, Bool.not_true, Bool.and_false]

/-- A completion is resolved at most once. -/
theorem length_results_le (h : Told link fates) : link.results.length ≤ 1 := by
  cases h with
  | refused _ _ _ hresults => rw [hresults]; exact Nat.le_refl 1
  | pending _ _ _ _ hresults => rw [hresults]; exact Nat.zero_le 1
  | failed _ _ _ _ hresults => rw [hresults]; exact Nat.le_refl 1
  | live _ _ _ _ _ hresults => rw [hresults]; exact Nat.le_refl 1
  | closed _ _ _ _ _ hresults => rw [hresults]; exact Nat.le_refl 1

/-- The end comes at most once, and last. -/
theorem ended_last (h : Told link fates) :
    link.callbacks.count .ended ≤ 1 ∧
      (.ended ∈ link.callbacks → link.callbacks.getLast? = some .ended) := by
  cases h with
  | refused _ _ hcallbacks _ =>
    rw [hcallbacks]
    exact ⟨Nat.zero_le 1, nofun⟩
  | pending _ _ _ hcallbacks _ =>
    rw [hcallbacks]
    exact ⟨Nat.zero_le 1, nofun⟩
  | failed _ _ _ hcallbacks _ =>
    rw [hcallbacks]
    exact ⟨Nat.le_refl 1, fun _ => rfl⟩
  | live count _ _ _ hcallbacks _ =>
    have hnone := ended_not_mem_received count
    rw [hcallbacks, List.count_eq_zero_of_not_mem hnone]
    exact ⟨Nat.zero_le 1, fun hmem => absurd hmem hnone⟩
  | closed count _ _ _ hcallbacks _ =>
    rw [hcallbacks, List.count_append, List.count_eq_zero_of_not_mem (ended_not_mem_received count)]
    exact ⟨Nat.le_refl 1, fun _ => List.getLast?_concat⟩

/-- A link that is over is settled. -/
theorem isSettled (h : Told link fates) (hover : link.state.isOver = true) : link.IsSettled := by
  cases h with
  | refused hrun _ _ hresults =>
    refine ⟨by rw [hresults]; rfl, fun htaken => absurd hrun htaken⟩
  | pending _ hpending _ _ _ =>
    rw [hpending] at hover
    cases hover
  | failed _ _ _ hcallbacks hresults =>
    exact ⟨by rw [hresults]; rfl, fun _ => by rw [hcallbacks]; rfl⟩
  | live _ _ hlive _ _ _ =>
    rw [LinkState.isLive_of_isOver hover] at hlive
    cases hlive
  | closed count _ _ _ hcallbacks hresults =>
    refine ⟨by rw [hresults]; rfl, fun _ => ?_⟩
    rw [hcallbacks, List.count_append, List.count_eq_zero_of_not_mem (ended_not_mem_received count)]
    rfl

/-- A request that no run took is over, and has failed without a callback. -/
theorem refused_of_run (h : Told link fates) (hrun : link.run = none) :
    link.state.isOver = true ∧ link.callbacks = [] ∧ link.results = [.error .notRunning] := by
  cases h with
  | refused _ hover hcallbacks hresults => exact ⟨hover, hcallbacks, hresults⟩
  | pending htaken => exact absurd hrun htaken
  | failed _ htaken => exact absurd hrun htaken
  | live _ htaken => exact absurd hrun htaken
  | closed _ htaken => exact absurd hrun htaken

/-- A connection that was opened was attached before, and then the request succeeded, before any
bytes were received; and the request was settled so. -/
theorem opened (h : Told link fates) (hopened : .opened ∈ link.callbacks) :
    fates = [.ok ()] ∧ ∃ later, link.history = opening ++ later ∧
      ∀ notice ∈ later, notice = .call .received ∨ notice = .call .ended := by
  cases h with
  | refused _ _ hcallbacks _ =>
    rw [hcallbacks] at hopened
    cases hopened
  | pending _ _ _ hcallbacks _ =>
    rw [hcallbacks] at hopened
    cases hopened
  | failed _ _ _ hcallbacks _ =>
    rw [hcallbacks] at hopened
    exact absurd hopened (by decide)
  | live count _ _ hhistory _ _ =>
    exact ⟨rfl, _, hhistory, fun notice hnotice => Or.inl (List.eq_of_mem_replicate hnotice)⟩
  | closed count _ _ hhistory _ _ =>
    refine ⟨rfl, _, hhistory.trans (List.append_assoc _ _ _), fun notice hnotice => ?_⟩
    rcases List.mem_append.1 hnotice with hnotice | hnotice
    · exact Or.inl (List.eq_of_mem_replicate hnotice)
    · exact Or.inr (List.mem_singleton.1 hnotice)

/-- Without an opening there are no bytes, and the request has not succeeded. -/
theorem unopened (h : Told link fates) (hopened : .opened ∉ link.callbacks) :
    .received ∉ link.callbacks ∧ .ok () ∉ link.results := by
  cases h with
  | refused _ _ hcallbacks hresults =>
    rw [hcallbacks, hresults]
    refine ⟨List.not_mem_nil, fun hmem => ?_⟩
    cases List.mem_singleton.1 hmem
  | pending _ _ _ hcallbacks hresults =>
    rw [hcallbacks, hresults]
    exact ⟨List.not_mem_nil, List.not_mem_nil⟩
  | failed _ _ _ hcallbacks hresults =>
    rw [hcallbacks, hresults]
    refine ⟨fun hmem => ?_, fun hmem => ?_⟩
    · cases List.mem_singleton.1 hmem
    · cases List.mem_singleton.1 hmem
  | live count _ _ _ hcallbacks _ =>
    rw [hcallbacks] at hopened
    exact absurd (List.mem_append_left _ (List.mem_cons_of_mem _ List.mem_cons_self)) hopened
  | closed count _ _ _ hcallbacks _ =>
    rw [hcallbacks] at hopened
    exact absurd (List.mem_append_left _ (List.mem_append_left _
      (List.mem_cons_of_mem _ List.mem_cons_self))) hopened

/-- A request that was settled with an error has failed, and its connection was never opened. -/
theorem failed_of_mem (h : Told link fates) {error : LinkError} (hmem : .error error ∈ fates) :
    link.callbacks = [.ended] ∧ link.results = [.error error] := by
  cases h with
  | refused => cases hmem
  | pending => cases hmem
  | failed other _ _ hcallbacks hresults =>
    obtain rfl : error = other := Except.error.inj (List.mem_singleton.1 hmem)
    exact ⟨hcallbacks, hresults⟩
  | live => cases List.mem_singleton.1 hmem
  | closed => cases List.mem_singleton.1 hmem

end Told

end PeerProtocol
