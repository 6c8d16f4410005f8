import Transport.Proofs.Machine.Guards
import Transport.Proofs.Machine.Runs

/-!
# Trails of a Session

What happened to the run state of a machine, in the order in which it happened. Starts,
stops and steps come from the one in control or from listeners, whose commands can be
nested in each other; a breakpoint stops the machine in the middle of an arrival; and
only the compute thread leaves a suspension point. A trail lists all of them, so that
an argument about their order need not look at who did what inside of whose
notification.

Trails are told by functions of the same shape as the activities that they are of.
That a trail misses nothing is what `control_play` says: played back, it gives the run
state that the session has.

## Main definitions

* `Deed`: What can happen to a run state.
* `RunState.replay`: The run state after a trail.
* `Session.arriveDeeds`, `Session.commandDeeds`, `Session.advanceDeeds`: The trails of
  activities.
* `Act`, `Session.play`, `Session.trail`: Anything that can be done to a session, and
  the trail of it.

## Theorems

* `records_tell`, `records_performWith`: Notifications and commands, if those inside
  them are recorded.
* `control_play`, `control_playAll`: A trail gives the run state, and a suspension point
  is left only if it does not block.
-/

namespace Transport

/-- What can happen to a run state. -/
inductive Deed where
  /-- The machine is started. -/
  | start
  /-- The machine is stopped. -/
  | stop
  /-- A step permit is given. -/
  | step
  /-- A suspension point is reached. -/
  | arrive (offset : Word)
  /-- A suspension point is left. -/
  | leave
  deriving DecidableEq

/-- The run state after a deed. -/
def Deed.apply (state : RunState) : Deed → RunState
  | .start => state.switch true
  | .stop => state.switch false
  | .step => { state with stepPermit := true }
  | .arrive offset => { state with pc := offset }
  | .leave => { state with stepPermit := false }

namespace RunState

/-- The run state after a trail. -/
def replay (state : RunState) (trail : List Deed) : RunState := trail.foldl Deed.apply state

theorem replay_append (state : RunState) (trail more : List Deed) :
    state.replay (trail ++ more) = (state.replay trail).replay more := List.foldl_append

/-- A suspension point is left only while the run state does not block. -/
def Lawful : RunState → List Deed → Prop
  | _, [] => True
  | state, deed :: trail =>
    (deed = .leave → state.blocks = false) ∧ Lawful (deed.apply state) trail

theorem lawful_append_iff (trail more : List Deed) : ∀ state : RunState,
    state.Lawful (trail ++ more) ↔ state.Lawful trail ∧ (state.replay trail).Lawful more := by
  induction trail with
  | nil => intro state; simp [Lawful, replay]
  | cons deed trail ih => intro state; simp [Lawful, replay, ih, and_assoc]

theorem lawful_of_stays {trail : List Deed} (stays : .leave ∉ trail) : ∀ state : RunState,
    state.Lawful trail := by
  induction trail with
  | nil => intro state; trivial
  | cons deed trail ih =>
      intro state
      rw [List.mem_cons, not_or] at stays
      exact ⟨fun h => absurd h.symm stays.1, ih stays.2 _⟩

end RunState

/-! ## The trails of activities -/

variable {ω : Type}

/-- The trail of a way to carry out commands. -/
abbrev PerformDeeds (ω : Type) := Command → Session ω → List Deed

/-- The trail of a way to tell listeners. -/
abbrev NotifyDeeds (ω : Type) := Event → List ListenerId → Session ω → List Deed

/-- The trail of a reaction. -/
def Reaction.deeds {depth : Nat} (perform : Perform ω) (done : PerformDeeds ω) :
    Reaction ω depth → Session ω → List Deed
  | .accept, _ => []
  | .refuse _, _ => []
  | .note audience next, s => next.deeds perform done { s with audience }
  | .give command next, s =>
    let (result, s') := perform command s
    done command s ++ (next result s').deeds perform done s'

/-- The trail of telling listeners of an event, up to the first that refuses. -/
def Audience.tellDeeds (a : Audience ω) (depth : Nat) (perform : Perform ω)
    (done : PerformDeeds ω) : NotifyDeeds ω
  | _, [], _ => []
  | event, id :: later, s =>
    (a.respond depth id event s).deeds perform done s ++
      match (a.respond depth id event s).run perform s with
      | (.ok (), s) => a.tellDeeds depth perform done event later s
      | (.error _, _) => []

namespace Session

/-- The trail of a store. -/
def storeDeeds (told : NotifyDeeds ω) (s : Session ω) (offset value : Word) : List Deed :=
  match s.machine.checkStore offset 4 with
  | .error _ => []
  | .ok () => told (.store offset value) s.machine.memoryListeners s

/-- The trail of a start or a stop: the change comes before anyone is told of it. -/
def switchDeeds (told : NotifyDeeds ω) (s : Session ω) (running : Bool) : List Deed :=
  let s := s.modify fun m => m.modifyControl fun state => state.switch running
  (if running then .start else .stop) :: told .status s.machine.executionListeners s

/-- The trail of an arrival at a suspension point, with the stop that a breakpoint
    makes. -/
def arriveDeeds (notify : Notify ω) (told : NotifyDeeds ω) (s : Session ω) (offset : Word) :
    List Deed :=
  let s := s.modify fun m => m.modifyControl fun state => { state with pc := offset }
  .arrive offset :: told .arrival s.machine.executionListeners s ++
    match notify .arrival s.machine.executionListeners s with
    | (.error _, _) => []
    | (.ok (), s) =>
      if s.machine.control.running && s.machine.hitsBreakpoint offset then
        s.switchDeeds told false
      else []

/-- The trail of a command, given a way to tell listeners. -/
def performDeedsWith (told : NotifyDeeds ω) : PerformDeeds ω
  | .store offset value, s => s.storeDeeds told offset value
  | .start, s => s.switchDeeds told true
  | .stop, s => s.switchDeeds told false
  | .step, _ => [.step]
  | _, _ => []

/-- The trail of a command of a reaction of a depth. -/
def performDeeds (a : Audience ω) : Nat → PerformDeeds ω
  | 0 => fun _ _ => []
  | depth + 1 => performDeedsWith (a.tellDeeds depth (perform a depth) (performDeeds a depth))

end Session

/-- The trail of telling listeners of an event that did not come from a listener. -/
def Audience.notifyDeeds (a : Audience ω) : NotifyDeeds ω :=
  a.tellDeeds a.nesting (Session.perform a a.nesting) (Session.performDeeds a a.nesting)

namespace Session

/-- The trail of a command of the one in control. -/
def commandDeeds (a : Audience ω) : PerformDeeds ω := performDeedsWith a.notifyDeeds

/-- The trail of answering a request. -/
def answerDeeds (a : Audience ω) (s : Session ω) : Request → List Deed
  | .suspend offset => s.arriveDeeds a.notify a.notifyDeeds offset
  | .storeWord offset value => s.storeDeeds a.notifyDeeds offset value
  | _ => []

/-- The trail of leaving a suspension point, unless it blocks. -/
def leaveDeeds (s : Session ω) : List Deed := if s.machine.control.blocks then [] else [.leave]

/-- The trail of a small step of the compute thread. -/
def advanceDeeds (a : Audience ω) (s : Session ω) : List Deed :=
  match s.machine.thread with
  | .attaching _ (.ask r _) => s.answerDeeds a r
  | .working _ (.ask r _) => s.answerDeeds a r
  | .detained _ _ => s.leaveDeeds
  | .waiting _ _ => s.leaveDeeds
  | _ => []

end Session

/-- Anything that can be done to a session. -/
inductive Act (ω : Type) where
  /-- The compute thread takes a small step. -/
  | advance
  /-- The one in control gives a command. -/
  | command (command : Command)
  /-- An execution begins, unless the compute thread is at something. -/
  | execute
  /-- Someone goes to a suspension point outside of any execution. -/
  | visit (offset : Word)
  /-- Someone who waits at such a suspension point leaves it, unless it blocks. -/
  | depart
  /-- Devices are attached and detached and do as they like, printed values go
      elsewhere, and the audience learns of other things. -/
  | rewire (peripherals : DeviceTable) (rack : Rack) (console : Console) (audience : ω)

namespace Session

/-- The session after an act. -/
def play (a : Audience ω) (s : Session ω) : Act ω → Session ω
  | .advance => (s.advance a).2
  | .command command => (s.command a command).2
  | .execute => s.execute.toOption.getD s
  | .visit offset => (s.visit a offset).2
  | .depart => s.depart.getD s
  | .rewire peripherals rack console audience =>
    ⟨{ s.machine with peripherals, rack, console }, audience⟩

/-- The session after acts. -/
def playAll (a : Audience ω) (s : Session ω) (acts : List (Act ω)) : Session ω :=
  acts.foldl (play a) s

/-- The trail of an act. -/
def deeds (a : Audience ω) (s : Session ω) : Act ω → List Deed
  | .advance => s.advanceDeeds a
  | .command command => commandDeeds a command s
  | .visit offset => s.arriveDeeds a.notify a.notifyDeeds offset
  | .depart => if s.machine.visitors = 0 then [] else s.leaveDeeds
  | .execute | .rewire .. => []

/-- The trail of acts. -/
def trail (a : Audience ω) (s : Session ω) : List (Act ω) → List Deed
  | [] => []
  | act :: acts => s.deeds a act ++ (s.play a act).trail a acts

end Session

/-! ## Trails miss nothing -/

namespace Session

/-- A trail accounts for what became of the run state, and no suspension point is left. -/
structure Records (before : Session ω) (trail : List Deed) (after : Session ω) : Prop where
  control : after.machine.control = before.machine.control.replay trail
  stays : .leave ∉ trail

variable {s s' s'' : Session ω} {trail more : List Deed}

/-- Nothing happens to the run state. -/
theorem records_nil (h : s'.machine.control = s.machine.control) : Records s [] s' :=
  ⟨h, by simp⟩

theorem records_append (h : Records s trail s') (h' : Records s' more s'') :
    Records s (trail ++ more) s'' where
  control := by rw [h'.control, h.control, RunState.replay_append]
  stays := by
    rw [List.mem_append, not_or]
    exact ⟨h.stays, h'.stays⟩

/-- Telling listeners is recorded. -/
def NotifyRecords (notify : Notify ω) (told : NotifyDeeds ω) : Prop :=
  ∀ event ids s, Records s (told event ids s) (notify event ids s).2

/-- Carrying out a command is recorded. -/
def PerformRecords (perform : Perform ω) (done : PerformDeeds ω) : Prop :=
  ∀ command s, Records s (done command s) (perform command s).2

theorem records_run {perform : Perform ω} {done : PerformDeeds ω}
    (h : PerformRecords perform done) {depth : Nat} (reaction : Reaction ω depth) :
    ∀ s, Records s (reaction.deeds perform done s) (reaction.run perform s).2 := by
  induction reaction with
  | accept => intro s; exact records_nil rfl
  | refuse reason => intro s; exact records_nil rfl
  | note audience next ih =>
      intro s
      have hnext := ih { s with audience }
      exact ⟨hnext.control, hnext.stays⟩
  | give command next ih =>
      intro s
      exact records_append (h command s) (ih _ _ _)

theorem records_tell {perform : Perform ω} {done : PerformDeeds ω}
    (h : PerformRecords perform done) (a : Audience ω) (depth : Nat) :
    NotifyRecords (a.tell depth perform) (a.tellDeeds depth perform done) := by
  intro event ids
  -- Induction on those still to be told. Whatever one of them does is recorded by `h`.
  induction ids with
  | nil => intro s; exact records_nil rfl
  | cons id later ih =>
      intro s
      have hrun := records_run h (a.respond depth id event s) s
      unfold Audience.tell Audience.tellDeeds
      generalize (a.respond depth id event s).run perform s = ran at hrun ⊢
      rcases ran with ⟨_ | _, s'⟩
      · rw [List.append_nil]
        exact hrun
      · exact records_append hrun (ih s')

theorem control_execute (h : s.execute = .ok s') : s'.machine.control = s.machine.control := by
  unfold execute at h
  split at h
  · contradiction
  · rw [← Except.ok.inj h]
    rfl

section Activities

variable {notify : Notify ω} {told : NotifyDeeds ω} (h : NotifyRecords notify told)

include h

theorem records_storeWith (s : Session ω) (offset value : Word) :
    Records s (s.storeDeeds told offset value) (s.storeWith notify offset value).2 := by
  unfold storeWith storeDeeds
  cases hcheck : s.machine.checkStore offset 4 with
  | error trap => exact records_nil rfl
  | ok _ =>
      have htold := h (.store offset value) s.machine.memoryListeners s
      dsimp only
      generalize notify (.store offset value) s.machine.memoryListeners s = ran at htold ⊢
      rcases ran with ⟨_ | _, s'⟩
      · exact htold
      · -- The store itself does not touch the run state.
        have hstored : ∀ ram, Records s (told (.store offset value) s.machine.memoryListeners s)
            (s'.modify fun m => { m with ram }) := fun _ => ⟨htold.control, htold.stays⟩
        dsimp only
        split
        · exact hstored _
        · exact htold

theorem records_switchWith (s : Session ω) (running : Bool) :
    Records s (s.switchDeeds told running) (s.switchWith notify running).2 := by
  have hswitch : Records s [if running then .start else .stop]
      (s.modify fun m => m.modifyControl fun state => state.switch running) := by
    cases running <;> exact ⟨rfl, by simp⟩
  exact records_append hswitch (h .status _ _)

theorem records_arriveWith (s : Session ω) (offset : Word) :
    Records s (s.arriveDeeds notify told offset) (s.arriveWith notify offset).2 := by
  -- The arrival is noted before anyone is told of it.
  have hset : Records s [.arrive offset]
      (s.modify fun m => m.modifyControl fun state => { state with pc := offset }) :=
    ⟨rfl, by simp⟩
  unfold arriveWith arriveDeeds
  dsimp only
  generalize (s.modify fun m => m.modifyControl fun state => { state with pc := offset }) = s₁
    at hset ⊢
  have htold := records_append hset (h .arrival s₁.machine.executionListeners s₁)
  generalize notify .arrival s₁.machine.executionListeners s₁ = ran at htold ⊢
  rcases ran with ⟨_ | _, s₂⟩
  · rw [List.append_nil]
    exact htold
  · dsimp only
    -- A breakpoint stops the machine, which is noted behind what the listeners did.
    split
    · exact records_append htold (records_switchWith h s₂ false)
    · rw [List.append_nil]
      exact htold

theorem records_performWith : PerformRecords (performWith notify) (performDeedsWith told) := by
  intro command s
  -- Only the two switches, a step permit and listeners that are told leave deeds.
  cases command with
  | store offset value => exact records_storeWith h s offset value
  | copy offset data =>
      unfold performWith
      dsimp only
      cases hcopy : s.machine.copy offset data with
      | error trap => exact records_nil rfl
      | ok m =>
          rcases Machine.copy_eq_ok_iff.mp hcopy with ⟨_, _, rfl⟩
          exact records_nil rfl
  | start => exact records_switchWith h s true
  | stop => exact records_switchWith h s false
  | step => exact ⟨rfl, fun member => by cases List.mem_singleton.mp member⟩
  | addBreakpoint breakpoint =>
      refine records_nil ?_
      change (s.machine.addBreakpoint breakpoint).control = _
      unfold Machine.addBreakpoint
      split <;> rfl
  | attach port device =>
      refine records_nil ?_
      change ((s.machine.attach? port device).getD s.machine).control = _
      unfold Machine.attach?
      cases s.machine.peripherals.insert? port device <;> rfl
  | execute =>
      refine records_nil ?_
      unfold performWith
      dsimp only
      cases hexecute : s.execute with
      | error error => rfl
      | ok s' => exact control_execute hexecute
  | removeBreakpoint | clearBreakpoints | addMemoryListener | removeMemoryListener
  | addExecutionListener | removeExecutionListener | detach | setSink => exact records_nil rfl

end Activities

theorem records_perform (a : Audience ω) (depth : Nat) :
    PerformRecords (perform a depth) (performDeeds a depth) := by
  induction depth with
  | zero => intro command s; exact records_nil rfl
  | succ depth ih => exact records_performWith (records_tell ih a depth)

theorem records_notify (a : Audience ω) : NotifyRecords a.notify a.notifyDeeds :=
  records_tell (records_perform a a.nesting) a a.nesting

/-! ## Trails of acts -/

theorem control_enter (s : Session ω) (segment : Segment) (entry : Nat) (context : Context) :
    (s.enter segment entry context).2.machine.control = s.machine.control := by
  unfold enter
  split <;> rfl

theorem control_leave (s : Session ω) (target : Word) (context : Context) :
    (s.leave target context).2.machine.control = s.machine.control := by
  unfold leave
  split
  · split <;> rfl
  · rfl

theorem records_answer (a : Audience ω) (s : Session ω) (r : Request) :
    Records s (s.answerDeeds a r) (s.answer a r).2 := by
  cases r with
  | suspend offset => exact records_arriveWith (records_notify a) s offset
  | storeWord offset value => exact records_storeWith (records_notify a) s offset value
  | readWord | print | sendByte | takeByte | hasByte | offered => exact records_nil rfl

/-- What the thread does next is nothing to the run state. -/
theorem records_setThread (h : Records s trail s') (thread : Thread) :
    Records s trail (s'.modify (·.setThread thread)) := ⟨h.control, h.stays⟩

theorem advanceDeeds_of_asks (a : Audience ω) {r : Request} {next : r.Answer → Thread}
    (h : s.machine.thread.Asks r next) : s.advanceDeeds a = s.answerDeeds a r := by
  generalize hthread : s.machine.thread = thread at h
  cases h <;> simp only [advanceDeeds, hthread]

theorem advanceDeeds_of_waits (a : Audience ω) {next : Thread}
    (h : s.machine.thread.Waits next) : s.advanceDeeds a = s.leaveDeeds := by
  generalize hthread : s.machine.thread = thread at h
  cases h <;> simp only [advanceDeeds, hthread]

/-- A suspension point that does not block is left, and nothing else happens then. -/
def Leaves (a : Audience ω) (s : Session ω) : Prop :=
  s.machine.control.blocks = false ∧ s.advanceDeeds a = [.leave] ∧
    (s.advance a).2.machine.control = Deed.leave.apply s.machine.control

theorem leaves_or_records_of_waits (a : Audience ω) {next : Thread}
    (h : s.machine.thread.Waits next) :
    Leaves a s ∨ Records s (s.advanceDeeds a) (s.advance a).2 := by
  unfold Leaves
  rw [advanceDeeds_of_waits a h, advance_waits a h, leaveDeeds, resume]
  cases hblocks : s.machine.control.blocks with
  | true => exact Or.inr (records_nil rfl)
  | false => exact Or.inl ⟨rfl, rfl, rfl⟩

theorem records_of_asks (a : Audience ω) {r : Request} {next : r.Answer → Thread}
    (h : s.machine.thread.Asks r next) : Records s (s.advanceDeeds a) (s.advance a).2 := by
  rw [advanceDeeds_of_asks a h, advance_asks a h]
  exact records_setThread (records_answer a s r) _

/-- A small step of the compute thread is recorded, unless it leaves a suspension point. -/
theorem records_advance (a : Audience ω) (s : Session ω) :
    Leaves a s ∨ Records s (s.advanceDeeds a) (s.advance a).2 := by
  -- Most steps leave the run state alone and are no deed.
  have hquiet : ∀ {s' : Session ω}, s.advanceDeeds a = [] →
      s'.machine.control = s.machine.control → Leaves a s ∨ Records s (s.advanceDeeds a) s' := by
    intro s' hdeeds hcontrol
    rw [hdeeds]
    exact Or.inr (records_nil hcontrol)
  have h := smallStep_advance a s
  generalize hadvance : s.advance a = result at h ⊢
  cases h with
  | asks asks => exact Or.inr (hadvance ▸ records_of_asks a asks)
  | waits waits => exact hadvance ▸ leaves_or_records_of_waits a waits
  | idle idle => exact hquiet (by simp only [advanceDeeds, idle]) rfl
  | whole starting =>
      refine hquiet (by simp only [advanceDeeds, starting]) ?_
      unfold startWhole
      split <;> rfl
  | windowed starting =>
      refine hquiet (by simp only [advanceDeeds, starting]) ?_
      rw [startWindowed_eq]
      split <;> rfl
  | @embarks outset _ attached =>
      refine hquiet (by simp only [advanceDeeds, attached]) ?_
      cases outset with
      | whole segment => exact control_enter _ _ _ _
      | windowed => rfl
  | enters entering =>
      refine hquiet (by simp only [advanceDeeds, entering]) ?_
      unfold enterWindow
      dsimp only
      split
      · rfl
      · exact control_enter _ _ _ _
  | traps trapped => exact hquiet (by simp only [advanceDeeds, trapped]) rfl
  | begins standing => exact hquiet (by simp only [advanceDeeds, standing]) rfl
  | completes completed => exact hquiet (by simp only [advanceDeeds, completed]) rfl
  | leaves left =>
      exact hquiet (by simp only [advanceDeeds, left]) (control_leave s _ _)

/-- A suspension point outside of any execution is left like any other. -/
theorem depart_eq_some_iff : s.depart = some s' ↔ s.machine.visitors ≠ 0 ∧
    s.machine.control.blocks = false ∧
      s' = s.modify fun m => { m.pass with visitors := s.machine.visitors - 1 } := by
  unfold depart
  cases hvisitors : s.machine.visitors with
  | zero => simp
  | succ left => cases s.machine.control.blocks <;> simp [eq_comm]

/-- The run state after an act is that after its trail, and a suspension point is left
    only if it does not block. -/
theorem control_play (a : Audience ω) (s : Session ω) (act : Act ω) :
    (s.play a act).machine.control = s.machine.control.replay (s.deeds a act) ∧
      s.machine.control.Lawful (s.deeds a act) := by
  have hrecords : ∀ {trail : List Deed} {s' : Session ω}, Records s trail s' →
      s'.machine.control = s.machine.control.replay trail ∧ s.machine.control.Lawful trail :=
    fun h => ⟨h.control, RunState.lawful_of_stays h.stays _⟩
  cases act with
  | advance =>
      rcases records_advance a s with ⟨passes, hdeeds, hcontrol⟩ | h
      · change (s.advance a).2.machine.control = s.machine.control.replay (s.advanceDeeds a) ∧
          s.machine.control.Lawful (s.advanceDeeds a)
        rw [hdeeds]
        exact ⟨hcontrol, fun _ => passes, trivial⟩
      · exact hrecords h
  | command command => exact hrecords (records_performWith (records_notify a) command s)
  | execute =>
      refine hrecords (records_nil ?_)
      unfold play
      cases hexecute : s.execute with
      | error error => rfl
      | ok s' => exact control_execute hexecute
  | visit offset =>
      have harrive := records_arriveWith (records_notify a) s offset
      refine hrecords ?_
      simp only [play, deeds, visit, arrive]
      generalize s.arriveWith a.notify offset = arrived at harrive ⊢
      rcases arrived with ⟨_ | _, s'⟩ <;> exact ⟨harrive.control, harrive.stays⟩
  | depart =>
      simp only [play, deeds, leaveDeeds]
      cases hdepart : s.depart with
      | none =>
          -- Nobody is there, or the suspension point blocks.
          have hdeeds : (if s.machine.visitors = 0 then []
              else if s.machine.control.blocks = true then [] else [Deed.leave]) = [] := by
            split
            · rfl
            · next some_one =>
              split
              · rfl
              · next passes =>
                have hsome := depart_eq_some_iff.mpr ⟨some_one, by simpa using passes, rfl⟩
                rw [hdepart] at hsome
                contradiction
          rw [hdeeds]
          exact ⟨rfl, trivial⟩
      | some s' =>
          rcases depart_eq_some_iff.mp hdepart with ⟨some_one, passes, rfl⟩
          simp only [if_neg some_one, passes, Bool.false_eq_true, if_false]
          exact ⟨rfl, fun _ => passes, trivial⟩
  | rewire peripherals rack console audience => exact hrecords (records_nil rfl)

/-- The run state after acts is that after their trail, and suspension points are left
    only if they do not block. -/
theorem control_playAll (a : Audience ω) (acts : List (Act ω)) : ∀ s : Session ω,
    (s.playAll a acts).machine.control = s.machine.control.replay (s.trail a acts) ∧
      s.machine.control.Lawful (s.trail a acts) := by
  induction acts with
  | nil => intro s; exact ⟨rfl, trivial⟩
  | cons act acts ih =>
      intro s
      have hact := control_play a s act
      have hacts := ih (s.play a act)
      rw [hact.1] at hacts
      rw [trail, RunState.replay_append, RunState.lawful_append_iff]
      exact ⟨hacts.1, hact.2, hacts.2⟩

end Session

end Transport
