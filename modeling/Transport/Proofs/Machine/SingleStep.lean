import Transport.Proofs.Machine.Breakpoints
import Transport.Proofs.Machine.Pacing
import Transport.Proofs.Machine.Trail

/-!
# Single-Stepping Is Transparent

A program does the same whether there are suspension points in front of its
instructions or not, and whether it passes them because the machine runs or because it
is given a step at each. Of the suspension points that single-stepping adds nothing is
left in the end but that listeners were told of them.

## Main definitions

* `Unison`: A machine that runs, and one that is given steps.
* `Abreast`: Runs without and with suspension points have come equally far.
* `Alike`: Two such runs keep up with each other, and end alike.

## Theorems

* `unison_of_going`: A machine that was not started does the same under nudges.
* `alike_of_sim`: Runs from matching points are alike.
* `single_stepping_is_transparent`: Three executions of a program.
* `single_stepping_can_show`: What other handlers and other hands make of it.
-/

namespace Transport

deriving instance DecidableEq for Advance

namespace Session

variable {ω : Type} {o : Observer ω} {s t : Session ω}

/-- A run of a started machine, and one of a machine that was not started and is given a
    step whenever it is held. -/
structure Unison (a : Audience (ω × List (ListenerId × Word)))
    (s t : Session (ω × List (ListenerId × Word))) : Prop where
  machine : ∀ n, (t.nudged a n).machine = (s.after a n).machine.halted
  happenings : ∀ n, t.happenings (nudge a) n = s.happenings (advance a) n
  log : ∀ n, (t.nudged a n).audience.2 = (s.after a n).audience.2
  amount : ∀ n, ((t.nudged a n).nudge a).1 = ((s.after a n).advance a).1

/-- Runs without suspension points in front of instructions and with them have come
    equally far. -/
structure Abreast (a : Audience ω) (s t : Session ω) (n m : Nat) : Prop where
  machine : (t.after a m).machine =
    (s.after a n).machine.stepping (t.after a m).machine.control (t.after a m).machine.thread
  happenings : t.happenings (advance a) m =
    (s.happenings (advance a) n).flatMap Happening.stepped

/-- A run comes to an end after a number of steps. -/
def EndsAfter (a : Audience ω) (s : Session ω) (n : Nat) (result : Except ExecutionError Unit) : Prop :=
  ((s.after a n).advance a).1 = .finished result

/-- A run without suspension points in front of instructions, and one with them. -/
structure Alike (a : Audience ω) (s t : Session ω) : Prop where
  follows : ∀ n, ∃ m, Abreast a s t n m
  leads : ∀ m, ∃ n m', m ≤ m' ∧ Abreast a s t n m'
  ends : ∀ n result, EndsAfter a s n result →
    ∃ m, EndsAfter a t m result ∧ Abreast a s t (n + 1) (m + 1)
  ends' : ∀ m result, EndsAfter a t m result →
    ∃ n, EndsAfter a s n result ∧ Abreast a s t (n + 1) (m + 1)

theorem idle_of_endsAfter {n : Nat} {result : Except ExecutionError Unit} (a : Audience ω)
    (ends : EndsAfter a s n result) : (s.after a (n + 1)).machine.thread = .idle := by
  rw [after_succ]
  rcases hadvance : (s.after a n).advance a with ⟨amount, s'⟩
  unfold EndsAfter at ends
  rw [hadvance] at ends
  -- Only a step that finished can end an execution.
  cases ends
  exact idle_of_finished hadvance

/-- Runs that come to their end together have come equally far. -/
theorem abreast_of_endsAfter (quiet : o.Quiet) {n m : Nat} {result : Except ExecutionError Unit}
    (sim : Sim (s.after o.audience n).machine (t.after o.audience m).machine [] 0)
    (hhappenings : t.happenings (advance o.audience) m =
      (s.happenings (advance o.audience) n).flatMap Happening.stepped)
    (ends : EndsAfter o.audience s n result) :
    EndsAfter o.audience t m result ∧ Abreast o.audience s t (n + 1) (m + 1) := by
  rcases (sim_both quiet sim).2 with ⟨hamount, pending, alone, hpending, hsim⟩
  rw [← after_succ, ← after_succ] at hsim
  refine ⟨hamount.trans ends, hsim.stepping, ?_⟩
  -- An idle thread has no suspension point in front of it.
  have hnone : pending = [] := by
    have hpaced := hsim.paced
    rw [idle_of_endsAfter o.audience ends] at hpaced
    generalize (t.after o.audience (m + 1)).machine.thread = thread at hpaced
    cases hpaced
    rfl
  rw [happenings_succ, happenings_succ, List.flatMap_append, hpending, hnone, hhappenings,
    List.append_nil]

theorem alike_of_sim (quiet : o.Quiet) (sim : Sim s.machine t.machine [] 0) :
    Alike o.audience s t where
  follows n := by
    rcases exists_sim_of_plain quiet n s t sim with ⟨m, hsim, hhappenings⟩
    exact ⟨m, hsim.stepping, hhappenings⟩
  leads m := by
    rcases exists_sim_of_stepping quiet m s t [] 0 sim with ⟨n, pending, alone, hsim, hhappenings⟩
    rcases sim_after_alone quiet alone _ _ hsim with ⟨halone, hsim'⟩
    rw [← after_add] at hsim'
    refine ⟨n, m + alone, Nat.le_add_right _ _, hsim'.stepping, ?_⟩
    rw [happenings_add, halone, ← hhappenings, List.nil_append]
  ends n result ends := by
    rcases exists_sim_of_plain quiet n s t sim with ⟨m, hsim, hhappenings⟩
    exact ⟨m, abreast_of_endsAfter quiet hsim hhappenings ends⟩
  ends' m result ends := by
    rcases exists_sim_of_stepping quiet m s t [] 0 sim with ⟨n, pending, alone, hsim, hhappenings⟩
    -- An end is that of both runs, so the second is not ahead on its own there.
    cases alone with
    | succ alone =>
        have hmoved := (sim_alone quiet hsim).1
        rw [EndsAfter, hmoved] at ends
        cases ends
    | zero =>
        rcases sim_both quiet hsim with ⟨rfl, hboth⟩
        rw [List.nil_append, List.append_nil] at hhappenings
        have hends : EndsAfter o.audience s n result := hboth.amount.symm.trans ends
        exact ⟨n, hends, (abreast_of_endsAfter quiet hsim hhappenings.symm hends).2⟩

theorem unison_of_going (quiet : o.Quiet) {s t : Session (ω × List (ListenerId × Word))}
    (going : s.machine.Going) (machine : t.machine = s.machine.halted)
    (log : t.audience.2 = s.audience.2) : Unison o.logging.audience s t := by
  have hnudged := fun n => halts_nudged (o.quiet_logging quiet) n s t going machine
  refine ⟨fun n => (hnudged n).2.1, fun n => (hnudged n).2.2, fun n => ?_,
    fun n => (hnudged n).1.amount⟩
  have hunbroken : t.machine.breakpoints = [] := by
    rw [machine]
    exact going.unbroken
  rw [(logs_nudged quiet n t hunbroken).log, (logs_after quiet n s going.unbroken).log,
    (hnudged n).2.2, log, machine]
  rfl

/-- Starting a machine in front of quiet listeners does nothing else, and tells nobody
    where the program counter is. -/
theorem exists_start_eq (quiet : o.Quiet) (s : Session (ω × List (ListenerId × Word))) :
    ∃ notes, s.play o.logging.audience (.command .start) =
      ⟨s.machine.modifyControl fun state => state.switch true, (notes, s.audience.2)⟩ := by
  let m := s.machine.modifyControl fun state => state.switch true
  have htold := o.log_told quiet .status m.bare m.executionListeners s.audience
  -- A status notification is not logged, as it tells of no instruction.
  have hnothing : m.executionListeners.flatMap (Observer.logged .status m.bare) = [] := by
    simp [Observer.logged]
  rw [hnothing, List.append_nil] at htold
  refine ⟨(o.logging.told .status m.bare m.executionListeners s.audience).2.1, ?_⟩
  change (o.logging.audience.notify .status m.executionListeners ⟨m, s.audience⟩).2 = _
  rw [o.logging.notify_eq, ← htold]

theorem play_execute (a : Audience ω) (idle : s.machine.thread = .idle) :
    s.play a .execute = s.modify (·.setThread .starting) := by
  unfold play execute
  rw [idle]
  rfl

/-- For listeners that look and never refuse, single-stepping is transparent. A program
    that is begun on an idle machine without breakpoints does the same

    * compiled for single-stepping on a started machine,
    * compiled for single-stepping on a stopped machine that is given a step whenever
      the compute thread is held, and
    * not compiled for single-stepping, on a started machine,

    except that with the third, no suspension points are in front of instructions. What
    it suspends at are the instructions that move a value to `sys.breakpoint`, if no
    other handler suspends, and these make the same arrivals in the other two. -/
theorem single_stepping_is_transparent (quiet : o.Quiet)
    {s : Session (ω × List (ListenerId × Word))} (idle : s.machine.thread = .idle)
    (unbroken : s.machine.breakpoints = []) (stopped : s.machine.control.running = false)
    (permitless : s.machine.control.stepPermit = false) :
    let a := o.logging.audience
    let started := fun singleStep =>
      (s.modify (·.singleStep singleStep)).playAll a [.command .start, .execute]
    let halted := (s.modify (·.singleStep true)).playAll a [.execute]
    (∀ singleStep n, Logs s ((started singleStep).after a n)
        ((started singleStep).happenings (advance a) n)) ∧
      Unison a (started true) halted ∧ Alike a (started false) (started true) ∧
      (s.machine.registry.Breaks → ∀ n offset,
        ((started false).after a n).machine.happening? = some (.asks (.suspend offset)) →
        ∃ segment rest, ((started false).after a n).machine.thread = .working segment rest ∧
          segment.Breaks s.machine.registry.slotIds offset) := by
  intro a started halted
  have hstarted : ∀ singleStep, ∃ notes, started singleStep =
      ⟨((s.machine.singleStep singleStep).modifyControl fun state =>
        state.switch true).setThread .starting, (notes, s.audience.2)⟩ := by
    intro singleStep
    rcases exists_start_eq quiet (s.modify (·.singleStep singleStep)) with ⟨notes, h⟩
    refine ⟨notes, ?_⟩
    change (play a (s.modify (·.singleStep singleStep)) (.command .start)).play a .execute = _
    rw [h]
    exact play_execute a (s := ⟨_, _⟩) idle
  have hhalted : halted = (s.modify (·.singleStep true)).modify (·.setThread .starting) :=
    play_execute a idle
  -- What is logged, the halted machine, the two paces, and where suspensions come from.
  refine ⟨fun singleStep n => ?_, ?_, ?_, fun breaks n offset happens => ?_⟩
  · rcases hstarted singleStep with ⟨notes, h⟩
    have hlogs := logs_after (o := o) quiet n (started singleStep) (by rw [h]; exact unbroken)
    have hbegun : Logs s (started singleStep) [] := by
      rw [h]
      exact logs_silent rfl rfl rfl rfl
    exact logs_append hbegun hlogs
  · rcases hstarted true with ⟨notes, h⟩
    refine unison_of_going quiet ?_ ?_ ?_
    · rw [h]
      exact ⟨rfl, rfl, unbroken⟩
    · -- A machine that was never started is as one is before it is started.
      have hcontrol : s.machine.control =
          { s.machine.control.switch true with running := false } := by
        generalize s.machine.control = state at stopped permitless
        rcases state with ⟨running, pc, stepPermit⟩
        cases stopped
        cases permitless
        rfl
      rw [h, hhalted]
      exact congrArg (fun control =>
        { (s.machine.singleStep true).setThread .starting with control }) hcontrol
    · rw [h, hhalted]
      rfl
  · rcases hstarted false with ⟨notes, h⟩
    rcases hstarted true with ⟨notes', h'⟩
    refine alike_of_sim (o.quiet_logging quiet) ?_
    rw [h, h']
    exact ⟨⟨rfl, rfl, rfl, unbroken⟩, rfl, Paced.starting⟩
  · rcases hstarted false with ⟨notes, h⟩
    have hbegun : (started false).Breaks s.machine.registry.slotIds := by
      rw [h]
      exact ⟨breaks, rfl, rfl, trivial⟩
    exact exists_breaks (breaks_after a hbegun n) happens

/-- A stopped session with one listener, whose RAM holds a print, a breakpoint and a
    shutdown. -/
def printSession : Session (Unit × List (ListenerId × Word)) where
  machine :=
    { registry := Registry.standard, config := { ramSize := 24 }, executionListeners := [3],
      ram := ⟨#[0x11, 0, 0, 5, 0x02, 0, 0, 0x11, 0x11, 0, 0, 0, 0x01, 0, 0, 1,
        0x11, 0, 0, 0, 0x01, 0, 0, 0]⟩ }
  audience := ((), [])

-- The listener is told once of the breakpoint, and if the program is compiled for
-- single-stepping also at each of its three instructions.
theorem single_stepping_is_transparent_print :
    let a := Observer.idle.logging.audience
    let started := fun singleStep =>
      (printSession.modify (·.singleStep singleStep)).playAll a [.command .start, .execute]
    Observer.idle.Quiet ∧ printSession.machine.thread = .idle ∧
      printSession.machine.breakpoints = [] ∧ printSession.machine.control.running = false ∧
      printSession.machine.control.stepPermit = false ∧ printSession.machine.registry.Breaks ∧
      EndsAfter a (started false) 8 (.ok ()) ∧
      ((started false).after a 9).audience.2 = [(3, 8)] ∧
      ((started true).after a 18).audience.2 = [(3, 0), (3, 8), (3, 8), (3, 16)] ∧
      ∃ m, EndsAfter a (started true) m (.ok ()) ∧
        Abreast a (started false) (started true) 9 (m + 1) := by
  intro a started
  have quiet : Observer.idle.Quiet := fun _ _ _ _ => rfl
  have transparent := single_stepping_is_transparent quiet (s := printSession) rfl rfl rfl rfl
  have hends : EndsAfter a (started false) 8 (.ok ()) := by
    unfold EndsAfter
    decide +kernel
  have hplain : ((started false).after a 9).audience.2 = [(3, 8)] := by decide +kernel
  have hstepped : ((started true).after a 18).audience.2 = [(3, 0), (3, 8), (3, 8), (3, 16)] := by
    decide +kernel
  exact ⟨quiet, rfl, rfl, rfl, rfl, breaks_standard, hends, hplain, hstepped,
    transparent.2.2.1.ends 8 _ hends⟩

/-! ## What shows through -/

/-- A module with one port, where every value written suspends. -/
def pauseDecl : ModuleDecl where
  id := 0x30
  stem := "pause"
  cells := 0
  ports := [{ name := "wait", position := .fixed 0, capability := .write, accessor := .handler 0 }]
  kind := .dispatched
    { fresh := {}
      write := fun _ _ access => do
        Handler.suspend access.offset
        return .proceed }

/-- A stopped session with one listener, whose RAM holds a move to that port and a
    shutdown. -/
def pauseSession : Session (Unit × List (ListenerId × Word)) where
  machine :=
    { registry := ⟨Registry.standard.modules ++ [⟨pauseDecl, pauseDecl.ports.map pauseDecl.port⟩]⟩
      config := { ramSize := 16 }, executionListeners := [3],
      ram := ⟨#[0x11, 0, 0, 0, 0x30, 0, 0, 0, 0x11, 0, 0, 0, 0x01, 0, 0, 0]⟩ }
  audience := ((), [])

/-- A stopped session whose RAM holds a poll of a device that is printed, and a shutdown. -/
def pollSession : Session (Unit × List (ListenerId × Word)) where
  machine :=
    { registry := Registry.standard, config := { ramSize := 16 }, console := { sink := .buffer }
      peripherals := ⟨[(0, 0)]⟩, rack := ⟨#[.buffered [] #[]]⟩,
      ram := ⟨#[0x14, 0, 0, 4, 0x02, 0, 0, 0x11, 0x11, 0, 0, 0, 0x01, 0, 0, 0]⟩ }
  audience := ((), [])

/-- Handlers of other modules suspend as well: listeners are told where no instruction
    addresses `sys.breakpoint`. And whoever steps through a program has the time to push a
    byte into a device before it is polled, which the program sees. -/
theorem single_stepping_can_show :
    let a := Observer.idle.logging.audience
    let started := fun (s : Session (Unit × List (ListenerId × Word))) singleStep =>
      (s.modify (·.singleStep singleStep)).playAll a [.command .start, .execute]
    let held := (pollSession.modify (·.singleStep true)).playAll a
      (.execute :: List.replicate 4 .advance)
    let fed := held.play a (.rewire held.machine.peripherals
      (held.machine.rack.feed 0 [7]) held.machine.console held.audience)
    (Registry.standard.register pauseDecl = .ok pauseSession.machine.registry ∧
      (∀ index < 2, (Segment.instructionAt pauseSession.machine.ram
        (Segment.offsetOf 0 index)).destination ≠ .port ⟨0x01000001⟩) ∧
      EndsAfter a (started pauseSession false) 6 (.ok ()) ∧
      ((started pauseSession false).after a 7).audience.2 = [(3, 0)]) ∧
    (held.advance a).1 = .blocked ∧
      EndsAfter a (started pollSession true) 12 (.ok ()) ∧
      ((started pollSession true).after a 13).machine.console.values = #[2] ∧
      ((fed.nudged a 8).nudge a).1 = .finished (.ok ()) ∧
      (fed.nudged a 9).machine.console.values = #[1] := by
  unfold EndsAfter
  refine ⟨⟨rfl, ?_, ?_, ?_⟩, ?_, ?_, ?_, ?_, ?_⟩
  all_goals decide +kernel

end Session

end Transport
