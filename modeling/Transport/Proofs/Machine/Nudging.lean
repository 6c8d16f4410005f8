import Transport.Proofs.Machine.Happenings

/-!
# Steps of a Stopped Machine

A machine that is stopped is held at each of its suspension points. It goes on under
a control that gives a step whenever the compute thread is held, and then takes the
same steps as a machine that runs: the two differ in nothing but that.

## Main definitions

* `Session.nudge`, `Session.nudged`: A small step, behind a step permit if the thread is
  held, and a number of them.
* `Machine.Going`, `Machine.halted`: A machine that runs, and the same if it was not
  started.
* `Session.Halts`: A step of both.

## Theorems

* `halts_nudge`: A nudge does what a step of a started machine does.
* `halts_nudged`: So do a number of them.
* `logs_nudged`: What nudges add to the log.
-/

namespace Transport

namespace Machine

/-- The machine as it would be if it had not been started. -/
def halted (m : Machine) : Machine := m.modifyControl fun state => { state with running := false }

/-- The machine runs without a step permit, and no breakpoint stops it. -/
structure Going (m : Machine) : Prop where
  running : m.control.running = true
  permitless : m.control.stepPermit = false
  unbroken : m.breakpoints = []

theorem stored_halted (m : Machine) (offset value : Word) :
    m.halted.stored offset value = (m.stored offset value).halted := by
  have hcheck : m.halted.checkStore offset 4 = m.checkStore offset 4 := rfl
  unfold stored
  rw [hcheck]
  cases m.checkStore offset 4 <;> rfl

end Machine

namespace Session

variable {ω : Type} {o : Observer ω} {m : Machine}

/-- A small step under a control that gives a step if the thread is held at a
    suspension point. -/
def nudge (a : Audience ω) (s : Session ω) : Advance × Session ω :=
  match s.machine.thread with
  | .detained _ _ | .waiting _ _ =>
    if s.machine.control.blocks then (s.command a .step).2.advance a else s.advance a
  | _ => s.advance a

/-- A session after a number of small steps under such a control. -/
def nudged (a : Audience ω) : Nat → Session ω → Session ω
  | 0, s => s
  | count + 1, s => nudged a count (s.nudge a).2

/-- The same step, of a machine that runs and of one that was not started. -/
structure Halts (p q : Advance × Session ω) : Prop where
  amount : q.1 = p.1
  machine : q.2.machine = p.2.machine.halted
  going : p.2.machine.Going

/-- A step that leaves the run state and the breakpoints alone. -/
theorem halts_of_eq {p q : Advance × Session ω} (going : m.Going) (amount : q.1 = p.1)
    (machine : q.2.machine = p.2.machine.halted) (control : p.2.machine.control = m.control)
    (breakpoints : p.2.machine.breakpoints = m.breakpoints) : Halts p q := by
  refine ⟨amount, machine, ?_, ?_, breakpoints.trans going.unbroken⟩
  · rw [control]; exact going.running
  · rw [control]; exact going.permitless

theorem halts_enter (going : m.Going) (notes notes' : ω) (segment : Segment) (entry : Nat)
    (context : Context) :
    Halts (enter ⟨m.setLive segment, notes⟩ segment entry context)
      (enter ⟨m.halted.setLive segment, notes'⟩ segment entry context) := by
  unfold enter
  cases segment.enter entry with
  | error trap => exact halts_of_eq going rfl rfl rfl rfl
  | ok op => exact halts_of_eq going rfl rfl rfl rfl

theorem halts_enterWindow (going : m.Going) (notes notes' : ω) (size offset : Word)
    (context : Context) : Halts (enterWindow ⟨m, notes⟩ size offset context)
      (enterWindow ⟨m.halted, notes'⟩ size offset context) := by
  have hwindow : m.halted.windowOf size offset = m.windowOf size offset := rfl
  have hcompile : ∀ start stop, m.halted.compile start stop = m.compile start stop :=
    fun _ _ => rfl
  simp only [enterWindow, hwindow, hcompile]
  cases m.compile (m.windowOf size offset).1 (m.windowOf size offset).2 with
  | error error => exact halts_of_eq going rfl rfl rfl rfl
  | ok segment => exact halts_enter going notes notes' segment _ context

theorem halts_startWhole (going : m.Going) (notes notes' : ω) :
    Halts (startWhole ⟨m, notes⟩) (startWhole ⟨m.halted, notes'⟩) := by
  have hcompile : m.halted.compile 0 m.halted.codeEnd = m.compile 0 m.codeEnd := rfl
  simp only [startWhole, hcompile]
  cases m.compile 0 m.codeEnd with
  | error error => exact halts_of_eq going rfl rfl rfl rfl
  | ok segment => exact halts_of_eq going rfl rfl rfl rfl

theorem halts_startWindowed (going : m.Going) (notes notes' : ω) (size : Word) :
    Halts (startWindowed ⟨m, notes⟩ size) (startWindowed ⟨m.halted, notes'⟩ size) := by
  rw [startWindowed_eq, startWindowed_eq]
  change Halts (if m.config.entry < m.slotCount then _ else _)
    (if m.config.entry < m.slotCount then _ else _)
  split <;> exact halts_of_eq going rfl rfl rfl rfl

theorem halts_leave (going : m.Going) (notes notes' : ω) (target : Word) (context : Context) :
    Halts (leave ⟨m, notes⟩ target context) (leave ⟨m.halted, notes'⟩ target context) := by
  have hsize : m.halted.config.segmentSize = m.config.segmentSize := rfl
  unfold leave
  dsimp only
  rw [hsize]
  cases m.config.segmentSize with
  | none => exact halts_of_eq going rfl rfl rfl rfl
  | some size =>
      change Halts (if target < m.codeEnd then _ else _) (if target < m.codeEnd then _ else _)
      split <;> exact halts_of_eq going rfl rfl rfl rfl

/-- A request is answered alike, and nothing but what is asked for is done. -/
theorem halts_answer (quiet : o.Quiet) (going : m.Going) (notes notes' : ω) (r : Request) :
    (answer o.audience ⟨m.halted, notes'⟩ r).1 = (answer o.audience ⟨m, notes⟩ r).1 ∧
      (answer o.audience ⟨m.halted, notes'⟩ r).2.machine =
        (answer o.audience ⟨m, notes⟩ r).2.machine.halted ∧
      (answer o.audience ⟨m, notes⟩ r).2.machine.Going := by
  -- Nothing is answered differently because the machine is halted.
  cases r with
  | suspend offset =>
      rcases o.exists_arrive_eq quiet (s := ⟨m, notes⟩) going.unbroken offset with ⟨told, h⟩
      rcases o.exists_arrive_eq quiet (s := ⟨m.halted, notes'⟩) going.unbroken offset with
        ⟨told', h'⟩
      simp only [answer, h, h', true_and]
      exact ⟨rfl, going.running, going.permitless, going.unbroken⟩
  | storeWord offset value =>
      rcases o.exists_store_eq quiet ⟨m, notes⟩ offset value with ⟨told, h⟩
      rcases o.exists_store_eq quiet ⟨m.halted, notes'⟩ offset value with ⟨told', h'⟩
      rcases m.stored_eq offset value with ⟨ram, hstored⟩
      simp only [answer, h, h', Machine.stored_halted, hstored]
      exact ⟨rfl, trivial, going.running, going.permitless, going.unbroken⟩
  | readWord | print | sendByte | takeByte | hasByte | offered =>
      exact ⟨rfl, rfl, going.running, going.permitless, going.unbroken⟩

/-- What a request makes of both. -/
theorem halts_of_asks (quiet : o.Quiet) (going : m.Going) (notes notes' : ω) {r : Request}
    {next : r.Answer → Thread} (asks : m.thread.Asks r next) :
    Halts (advance o.audience ⟨m, notes⟩) (advance o.audience ⟨m.halted, notes'⟩) := by
  rcases halts_answer quiet going notes notes' r with ⟨hanswer, hmachine, hgoing⟩
  -- Halting leaves the thread alone, so both sides ask the same.
  have asks' : m.halted.thread.Asks r next := asks
  rw [advance_asks (s := ⟨m, notes⟩) _ asks, advance_asks (s := ⟨m.halted, notes'⟩) _ asks',
    hanswer]
  refine ⟨rfl, ?_, hgoing.running, hgoing.permitless, hgoing.unbroken⟩
  simp only [modify, hmachine]
  rfl

/-- Under nudges a machine that was not started is not held at a suspension point. -/
theorem halts_of_waits (going : m.Going) (notes notes' : ω) (a : Audience ω) {next : Thread}
    (waits : m.thread.Waits next) :
    Halts (advance a ⟨m, notes⟩) (nudge a ⟨m.halted, notes'⟩) := by
  have hpasses : m.control.blocks = false := by simp [RunState.blocks, going.running]
  have hholds : m.halted.control.blocks = true := by
    simp [RunState.blocks, Machine.halted, Machine.modifyControl, going.permitless]
  -- The permit frees the thread, and passing uses it up.
  have hnudge : nudge a ⟨m.halted, notes'⟩ = advance a ⟨m.halted.step, notes'⟩ := by
    have hthread : m.halted.thread = m.thread := rfl
    unfold nudge
    generalize m.thread = thread at waits hthread
    cases waits <;> simp only [hthread, hholds, if_true] <;> rfl
  have waits' : m.halted.step.thread.Waits next := waits
  have hfree : m.halted.step.control.blocks = false := rfl
  rw [hnudge, advance_waits (s := ⟨m, notes⟩) a waits,
    advance_waits (s := ⟨m.halted.step, notes'⟩) a waits']
  simp only [resume, hpasses, hfree, Bool.false_eq_true, if_false]
  exact ⟨rfl, rfl, going.running, rfl, going.unbroken⟩

/-- Where the thread is not held, a nudge is a step. -/
theorem nudge_of_not_waits (a : Audience ω) {s : Session ω}
    (busy : ∀ next, ¬s.machine.thread.Waits next) : s.nudge a = s.advance a := by
  unfold nudge
  split
  · next outset resume h => exact absurd (h ▸ Thread.Waits.attaching outset resume) (busy _)
  · next segment resume h => exact absurd (h ▸ Thread.Waits.working segment resume) (busy _)
  · rfl

/-- Under nudges a machine that was not started takes the steps that it would take if
    it had been. -/
theorem halts_nudge (quiet : o.Quiet) (going : m.Going) (notes notes' : ω) :
    Halts (advance o.audience ⟨m, notes⟩) (nudge o.audience ⟨m.halted, notes'⟩) := by
  by_cases held : ∃ next, m.thread.Waits next
  · rcases held with ⟨next, waits⟩
    exact halts_of_waits going notes notes' o.audience waits
  rw [nudge_of_not_waits o.audience (s := ⟨m.halted, notes'⟩) fun next waits => held ⟨next, waits⟩]
  -- The other thread is at the same, so its step is of the same kind.
  have h := smallStep_advance o.audience ⟨m, notes⟩
  have hsame : ∀ result, SmallStep o.audience ⟨m.halted, notes'⟩ result →
      advance o.audience ⟨m.halted, notes'⟩ = result := fun _ => eq_of_smallStep
  generalize hadvance : advance o.audience ⟨m, notes⟩ = result at h ⊢
  cases h with
  | waits waits => exact absurd ⟨_, waits⟩ held
  | asks asks => exact hadvance ▸ halts_of_asks quiet going notes notes' asks
  | idle idle =>
      rw [hsame _ (.idle idle)]
      exact halts_of_eq going rfl rfl rfl rfl
  | whole starting whole =>
      rw [hsame _ (.whole starting whole)]
      exact halts_startWhole going notes notes'
  | windowed starting windowed =>
      rw [hsame _ (.windowed starting windowed)]
      exact halts_startWindowed going notes notes' _
  | @embarks outset context attached =>
      rw [hsame _ (.embarks attached)]
      cases outset with
      | whole segment => exact halts_enter going notes notes' segment _ context
      | windowed => exact halts_of_eq going rfl rfl rfl rfl
  | enters entering =>
      rw [hsame _ (.enters entering)]
      exact halts_enterWindow going notes notes' _ _ _
  | traps trapped =>
      rw [hsame _ (.traps trapped)]
      exact halts_of_eq going rfl rfl rfl rfl
  | begins standing =>
      rw [hsame _ (.begins standing)]
      exact halts_of_eq going rfl rfl rfl rfl
  | completes completed =>
      rw [hsame _ (.completes completed)]
      exact halts_of_eq going rfl rfl rfl rfl
  | leaves left =>
      rw [hsame _ (.leaves left)]
      exact halts_leave going notes notes' _ _

/-- A machine that was not started goes the same way under nudges. -/
theorem halts_nudged (quiet : o.Quiet) (count : Nat) : ∀ s t : Session ω, s.machine.Going →
    t.machine = s.machine.halted →
    Halts ((s.after o.audience count).advance o.audience)
        ((t.nudged o.audience count).nudge o.audience) ∧
      (t.nudged o.audience count).machine = (s.after o.audience count).machine.halted ∧
      t.happenings (nudge o.audience) count = s.happenings (advance o.audience) count := by
  induction count with
  | zero =>
      rintro ⟨m, notes⟩ ⟨_, notes'⟩ going rfl
      exact ⟨halts_nudge quiet going notes notes', rfl, rfl⟩
  | succ count ih =>
      rintro ⟨m, notes⟩ ⟨_, notes'⟩ going rfl
      have hnudge := halts_nudge quiet going notes notes'
      rcases ih _ _ hnudge.going hnudge.machine with ⟨hhalts, hmachine, hhappenings⟩
      refine ⟨hhalts, hmachine, ?_⟩
      rw [happenings, happenings, hhappenings]
      rfl

/-! ## Logs -/

/-- A nudge is a small step, behind a step permit or not. -/
theorem nudge_eq_or (a : Audience ω) (s : Session ω) :
    s.nudge a = s.advance a ∨ s.nudge a = advance a ⟨s.machine.step, s.audience⟩ := by
  unfold nudge
  split
  iterate 2
    split
    · exact Or.inr rfl
    · exact Or.inl rfl
  · exact Or.inl rfl

/-- Nudges add to the log what happens with them. -/
theorem logs_nudged (quiet : o.Quiet) (count : Nat) :
    ∀ s : Session (ω × List (ListenerId × Word)), s.machine.breakpoints = [] →
      Logs s (s.nudged o.logging.audience count)
        (s.happenings (nudge o.logging.audience) count) := by
  induction count with
  | zero => exact fun s _ => logs_silent rfl rfl rfl rfl
  | succ count ih =>
      intro s unbroken
      have hstep : Logs s (s.nudge o.logging.audience).2 s.machine.happening?.toList := by
        rcases nudge_eq_or o.logging.audience s with h | h <;> rw [h]
        · exact logs_advance quiet unbroken
        · -- The nudge has first stepped the machine, of which no listener is told.
          have hadvance := logs_advance quiet (s := ⟨s.machine.step, s.audience⟩) unbroken
          exact ⟨hadvance.log, hadvance.listeners, hadvance.breakpoints⟩
      exact logs_append hstep (ih _ (hstep.breakpoints.trans unbroken))

end Session

end Transport
