import Transport.Proofs.Machine.Trail

/-!
# Notices

Who is told of what, in which order, and what the run state is then. Any listeners can be
made to keep a log of it beside what they know. They do the same as without the log, and
see nothing of it.

What is in the log follows from the trail: commands of listeners make further notices, but
execution listeners are told of arrivals and of starts and stops only, so where no start
and no stop is in the trail, none of these further notices is theirs.

## Main definitions

* `Notice`: A listener is told of an event.
* `Audience.logging`: Listeners with a log of what they are told.
* `Session.withLog`, `Session.bare`: A session with a log, and without.
* `Session.Alongside`: The same is done with a log as without.

## Theorems

* `alongside_run`, `alongside_tell`, `alongside_performWith`: Reactions, notifications and
  commands, if those inside them go alongside.
* `alongside_notify`: What is logged of a notification.
-/

namespace Transport

/-- A listener is told of an event, while the run state is this. -/
structure Notice where
  id : ListenerId
  event : Event
  control : RunState
  deriving DecidableEq

/-- Whether it is execution listeners that are told of the event. -/
def Event.isExecution : Event → Bool
  | .arrival | .status => true
  | .store .. => false

/-- The notices of execution listeners. -/
def executionNotices (log : List Notice) : List Notice :=
  log.filter fun notice => notice.event.isExecution

theorem executionNotices_append (log more : List Notice) :
    executionNotices (log ++ more) = executionNotices log ++ executionNotices more :=
  List.filter_append ..

theorem executionNotices_cons (notice : Notice) {log : List Notice}
    (others : executionNotices log = []) :
    executionNotices (notice :: log) = if notice.event.isExecution then [notice] else [] := by
  unfold executionNotices at others ⊢
  rw [List.filter_cons, others]

variable {ω : Type}

namespace Session

/-- A session without its log. -/
def bare (s : Session (ω × List Notice)) : Session ω := ⟨s.machine, s.audience.1⟩

/-- A session with a log. -/
def withLog (s : Session ω) (log : List Notice) : Session (ω × List Notice) :=
  ⟨s.machine, s.audience, log⟩

end Session

/-- What a listener does that keeps a log, which is this. -/
def Reaction.logged {depth : Nat} (log : List Notice) :
    Reaction ω depth → Reaction (ω × List Notice) depth
  | .accept => .accept
  | .refuse reason => .refuse reason
  | .note audience next => .note (audience, log) (next.logged log)
  | .give command next =>
    -- Commands make notices, so the log is looked up behind each.
    .give command fun result s => (next result s.bare).logged s.audience.2

/-- Listeners with a log of what they are told, each notice being put down before the
    listener does anything. -/
def Audience.logging (a : Audience ω) : Audience (ω × List Notice) where
  respond depth id event s :=
    let log := s.audience.2 ++ [⟨id, event, s.machine.control⟩]
    .note (s.audience.1, log) ((a.respond depth id event s.bare).logged log)
  nesting := a.nesting

namespace Session

/-- The same comes of something with a log as without; and if its trail is empty, the
    notices of execution listeners that were added to the log are as told. -/
structure Alongside {ε : Type} (told : List Notice → Prop) (trail : List Deed)
    (s : Session (ω × List Notice)) (x : ε × Session (ω × List Notice)) (y : ε × Session ω) :
    Prop where
  result : x.1 = y.1
  bare : x.2.bare = y.2
  log : trail = [] → ∃ new, x.2.audience.2 = s.audience.2 ++ new ∧ told (executionNotices new)

/-- Nothing is added to the log. -/
theorem alongside_silent {ε : Type} {trail : List Deed} {s : Session (ω × List Notice)}
    {x : ε × Session (ω × List Notice)} {y : ε × Session ω} (result : x.1 = y.1)
    (bare : x.2.bare = y.2) (silent : x.2.audience.2 = s.audience.2) :
    Alongside (· = []) trail s x y :=
  ⟨result, bare, fun _ => ⟨[], by rw [silent, List.append_nil], rfl⟩⟩

variable {perform' : Perform (ω × List Notice)} {perform : Perform ω} {done : PerformDeeds ω}

/-- Commands go alongside, without notices of execution listeners. -/
def PerformAlongside (perform' : Perform (ω × List Notice)) (perform : Perform ω)
    (done : PerformDeeds ω) : Prop :=
  ∀ command s, Alongside (· = []) (done command s.bare) s (perform' command s)
    (perform command s.bare)

theorem alongside_run (h : PerformAlongside perform' perform done) {depth : Nat}
    (reaction : Reaction ω depth) : ∀ s : Session (ω × List Notice),
      Alongside (· = []) (reaction.deeds perform done s.bare) s
        ((reaction.logged s.audience.2).run perform' s) (reaction.run perform s.bare) := by
  induction reaction with
  | accept => exact fun s => alongside_silent rfl rfl rfl
  | refuse reason => exact fun s => alongside_silent rfl rfl rfl
  | note audience next ih =>
      intro s
      have hnext := ih { s with audience := (audience, s.audience.2) }
      exact ⟨hnext.result, hnext.bare, hnext.log⟩
  | give command next ih =>
      intro s
      have hcommand := h command s
      have hnext := ih (perform' command s).1 (perform' command s).2.bare (perform' command s).2
      rw [hcommand.result, hcommand.bare] at hnext
      unfold Reaction.logged Reaction.run Reaction.deeds
      dsimp only
      rw [hcommand.result, hcommand.bare]
      refine ⟨hnext.result, hnext.bare, fun nothing => ?_⟩
      -- Neither the command nor what comes behind it is in the trail.
      rcases List.append_eq_nil_iff.mp nothing with ⟨before, behind⟩
      rcases hcommand.log before with ⟨new, hnew, htold⟩
      rcases hnext.log behind with ⟨more, hmore, htold'⟩
      refine ⟨new ++ more, ?_, ?_⟩
      · rw [hmore, hnew, List.append_assoc]
      · rw [executionNotices_append, htold, htold', List.append_nil]

/-- What execution listeners are told by a notification: nothing of a store; and of another
    event, if all accept, each of them is told once, in their order. -/
def Told (event : Event) (ids : List ListenerId) (control : RunState)
    (result : Except String Unit) (notices : List Notice) : Prop :=
  (event.isExecution = false → notices = []) ∧
    (event.isExecution = true → result = .ok () →
      notices = ids.map fun id => ⟨id, event, control⟩)

theorem alongside_tell (h : PerformAlongside perform' perform done)
    (records : PerformRecords perform done) (a : Audience ω) (depth : Nat) (event : Event)
    (ids : List ListenerId) : ∀ s : Session (ω × List Notice),
      Alongside (Told event ids s.machine.control (a.tell depth perform event ids s.bare).1)
        (a.tellDeeds depth perform done event ids s.bare) s (a.logging.tell depth perform' event ids s)
        (a.tell depth perform event ids s.bare) := by
  induction ids with
  | nil =>
      intro s
      exact ⟨rfl, rfl, fun _ => ⟨[], (List.append_nil _).symm, fun _ => rfl, fun _ _ => rfl⟩⟩
  | cons id later ih =>
      intro s
      let notice : Notice := ⟨id, event, s.machine.control⟩
      let s₁ : Session (ω × List Notice) :=
        { s with audience := (s.audience.1, s.audience.2 ++ [notice]) }
      have hrun := alongside_run h (a.respond depth id event s.bare) s₁
      have hrecords := records_run records (a.respond depth id event s.bare) s.bare
      change Alongside _ ((a.respond depth id event s.bare).deeds perform done s.bare) s₁
        (((a.respond depth id event s.bare).logged (s.audience.2 ++ [notice])).run perform' s₁)
        ((a.respond depth id event s.bare).run perform s.bare) at hrun
      have hrespond : (a.logging.respond depth id event s).run perform' s =
        ((a.respond depth id event s.bare).logged (s.audience.2 ++ [notice])).run perform' s₁ := rfl
      unfold Audience.tell Audience.tellDeeds
      rw [hrespond]
      generalize ((a.respond depth id event s.bare).logged (s.audience.2 ++ [notice])).run perform' s₁ =
        x at hrun ⊢
      generalize (a.respond depth id event s.bare).run perform s.bare = y at hrun hrecords ⊢
      generalize (a.respond depth id event s.bare).deeds perform done s.bare = trail at hrun hrecords ⊢
      rcases x with ⟨result, s₂⟩
      rcases y with ⟨result', s₂'⟩
      rcases hrun with ⟨hresult, hbare, hlog⟩
      dsimp only at hresult hbare hlog hrecords
      subst hresult hbare
      -- The listener's own notice comes first, and then those that its commands made.
      have hnotices : ∀ new, executionNotices new = [] →
          executionNotices (notice :: new) = if event.isExecution then [notice] else [] :=
        fun _ others => executionNotices_cons notice others
      cases result with
      | error reason =>
          dsimp only
          refine ⟨rfl, rfl, fun nothing => ?_⟩
          rw [List.append_nil] at nothing
          rcases hlog nothing with ⟨new, hnew, htold⟩
          refine ⟨notice :: new, ?_, fun store => ?_, fun _ accepted => ?_⟩
          · rw [hnew, List.append_assoc]
            rfl
          · rw [hnotices new htold, store]
            rfl
          · contradiction
      | ok _ =>
          -- The others are told of the run state as this listener left it.
          have hlater := ih s₂
          dsimp only
          refine ⟨hlater.result, hlater.bare, fun nothing => ?_⟩
          rcases List.append_eq_nil_iff.mp nothing with ⟨before, behind⟩
          rcases hlog before with ⟨new, hnew, htold⟩
          rcases hlater.log behind with ⟨more, hmore, hstores, hothers⟩
          have hcontrol : s₂.machine.control = s.machine.control := by
            rw [before] at hrecords
            exact hrecords.control
          refine ⟨notice :: new ++ more, ?_, fun store => ?_, fun execution accepted => ?_⟩
          · rw [hmore, hnew]
            change s.audience.2 ++ [notice] ++ new ++ more = _
            rw [List.append_assoc, List.append_assoc]
            rfl
          · rw [executionNotices_append, hnotices new htold, hstores store, store]
            rfl
          · rw [executionNotices_append, hnotices new htold, hothers execution accepted, execution,
              hcontrol]
            rfl

section Activities

variable {notify' : Notify (ω × List Notice)} {notify : Notify ω} {told : NotifyDeeds ω}
  (h : ∀ event ids s, Alongside (Told event ids s.machine.control (notify event ids s.bare).1)
    (told event ids s.bare) s (notify' event ids s) (notify event ids s.bare))

include h

theorem alongside_storeWith (s : Session (ω × List Notice)) (offset value : Word) :
    Alongside (· = []) (s.bare.storeDeeds told offset value) s (s.storeWith notify' offset value)
      (s.bare.storeWith notify offset value) := by
  have hmachine : s.bare.machine = s.machine := rfl
  unfold storeWith storeDeeds
  rw [hmachine]
  cases s.machine.checkStore offset 4 with
  | error trap => exact alongside_silent rfl rfl rfl
  | ok _ =>
      have htold := h (.store offset value) s.machine.memoryListeners s
      dsimp only
      -- Memory listeners are told of the store, and execution listeners are not.
      generalize notify' (.store offset value) s.machine.memoryListeners s = x at htold ⊢
      generalize notify (.store offset value) s.machine.memoryListeners s.bare = y at htold ⊢
      rcases x with ⟨result, s'⟩
      rcases y with ⟨result', s''⟩
      rcases htold with ⟨hresult, hbare, hlog⟩
      dsimp only at hresult hbare hlog
      subst hresult hbare
      have hnotices : told (.store offset value) s.machine.memoryListeners s.bare = [] →
          ∃ new, s'.audience.2 = s.audience.2 ++ new ∧ executionNotices new = [] := by
        intro nothing
        rcases hlog nothing with ⟨new, hnew, hstores, _⟩
        exact ⟨new, hnew, hstores rfl⟩
      cases result with
      | error reason => exact ⟨rfl, rfl, hnotices⟩
      | ok _ =>
          have hmachine' : s'.bare.machine = s'.machine := rfl
          dsimp only
          rw [hmachine']
          split
          · exact ⟨rfl, rfl, hnotices⟩
          · exact ⟨rfl, rfl, hnotices⟩

/-- A start or a stop is in the trail, and tells execution listeners. -/
theorem alongside_switchWith (s : Session (ω × List Notice)) (running : Bool) :
    Alongside (· = []) (s.bare.switchDeeds told running) s (s.switchWith notify' running)
      (s.bare.switchWith notify running) := by
  have hswitch := h .status s.machine.executionListeners
    (s.modify fun m => m.modifyControl fun state => state.switch running)
  exact ⟨hswitch.result, hswitch.bare, fun nothing => by contradiction⟩

theorem alongside_performWith :
    PerformAlongside (performWith notify') (performWith notify) (performDeedsWith told) := by
  intro command s
  -- Stores and switches notify; no other call is heard of by a listener.
  cases command with
  | store offset value =>
      have hstore := alongside_storeWith h s offset value
      exact ⟨congrArg (Except.mapError CommandError.trapped) hstore.result, hstore.bare,
        hstore.log⟩
  | start =>
      have hswitch := alongside_switchWith h s true
      exact ⟨congrArg (Except.mapError CommandError.refused) hswitch.result, hswitch.bare,
        hswitch.log⟩
  | stop =>
      have hswitch := alongside_switchWith h s false
      exact ⟨congrArg (Except.mapError CommandError.refused) hswitch.result, hswitch.bare,
        hswitch.log⟩
  | copy offset data =>
      have hmachine : s.bare.machine = s.machine := rfl
      unfold performWith
      dsimp only
      rw [hmachine]
      cases s.machine.copy offset data with
      | ok machine => exact alongside_silent rfl rfl rfl
      | error trap => exact alongside_silent rfl rfl rfl
  | execute =>
      have hmachine : s.bare.machine = s.machine := rfl
      unfold performWith execute
      dsimp only
      rw [hmachine]
      cases s.machine.thread.isExecuting with
      | true => exact alongside_silent rfl rfl rfl
      | false => exact alongside_silent rfl rfl rfl
  | step | addBreakpoint | removeBreakpoint | clearBreakpoints | addMemoryListener
  | removeMemoryListener | addExecutionListener | removeExecutionListener | attach | detach
  | setSink => exact alongside_silent rfl rfl rfl

end Activities

theorem alongside_perform (a : Audience ω) (depth : Nat) :
    PerformAlongside (Session.perform a.logging depth) (Session.perform a depth)
      (performDeeds a depth) := by
  induction depth with
  | zero => exact fun command s => alongside_silent rfl rfl rfl
  | succ depth ih => exact alongside_performWith (alongside_tell ih (records_perform a depth) a depth)

/-- What is logged of a notification. -/
theorem alongside_notify (a : Audience ω) (event : Event) (ids : List ListenerId)
    (s : Session (ω × List Notice)) :
    Alongside (Told event ids s.machine.control (a.notify event ids s.bare).1)
      (a.notifyDeeds event ids s.bare) s (a.logging.notify event ids s)
      (a.notify event ids s.bare) :=
  alongside_tell (alongside_perform a a.nesting) (records_perform a a.nesting) a a.nesting event ids s

end Session

end Transport
