import Transport.Proofs.Machine.Trail
import Transport.Registry.Standard

/-!
# Suspension Points Hold

A stopped machine waits at its suspension points, and a step lets one of them pass. In
whatever order starts, stops and steps come, from whomever, a step is good for at most
one suspension point, namely the first that is left behind it, and only as long as the
machine is neither started nor stopped in between.

The run state has a single bit for this. What the bit stands for is a matter of the
whole trail: that somewhere in it there is a step which nothing has used up or
withdrawn. The trail is looked at from its first deed on, since that is how the run
state comes to be; the step that is meant is the last one.

## Main definitions

* `Unused`: A trail has a step that is still good.
* `runsAfter`: Whether the last start or stop of a trail is a start.

## Theorems

* `running_replay`, `stepPermit_replay`: What the run state says of the trail.
* `unused_of_leave`: A stopped machine leaves a suspension point by an unused step.
* `count_leave_le_of_boundary`, `count_leave_le_one`: How many it leaves by steps.
* `suspension_is_safe`: When suspension points are left, in every run.
-/

namespace Transport

/-- Neither a start nor a stop nor a leaving, which all use up or withdraw steps. -/
def Deed.KeepsSteps (deed : Deed) : Prop := deed ≠ .start ∧ deed ≠ .stop ∧ deed ≠ .leave

/-- There is a step with no start, no stop and no leaving behind it. -/
def Unused (trail : List Deed) : Prop :=
  ∃ earlier later, trail = earlier ++ .step :: later ∧ ∀ deed ∈ later, deed.KeepsSteps

theorem unused_cons_iff {deed : Deed} {trail : List Deed} : Unused (deed :: trail) ↔
    Unused trail ∨ deed = .step ∧ ∀ other ∈ trail, other.KeepsSteps := by
  constructor
  · rintro ⟨earlier, later, h, keeps⟩
    -- Either the step is the first deed, or it is further on.
    cases earlier with
    | nil =>
        rw [List.nil_append, List.cons.injEq] at h
        rw [h.2]
        exact Or.inr ⟨h.1, keeps⟩
    | cons first earlier =>
        rw [List.cons_append, List.cons.injEq] at h
        exact Or.inl ⟨earlier, later, h.2, keeps⟩
  · rintro (⟨earlier, later, rfl, keeps⟩ | ⟨rfl, keeps⟩)
    · exact ⟨deed :: earlier, later, rfl, keeps⟩
    · exact ⟨[], trail, rfl, keeps⟩

/-- No step is unused right behind a start or a stop. -/
theorem not_unused_of_getLast? {trail : List Deed} {deed : Deed}
    (last : trail.getLast? = some deed) (switches : deed = .start ∨ deed = .stop) :
    ¬Unused trail := by
  rintro ⟨earlier, later, rfl, keeps⟩
  rw [List.getLast?_append, List.getLast?_cons] at last
  -- The last deed is the step itself or stands behind it, and a switch can be neither.
  cases hlater : later.getLast? with
  | none =>
      rw [hlater] at last
      cases last
      rcases switches with h | h <;> contradiction
  | some other =>
      have hsame : other = deed := by simpa [hlater] using last
      have hkeeps := keeps deed (hsame ▸ List.mem_of_getLast? hlater)
      rcases switches with h | h
      · exact hkeeps.1 h
      · exact hkeeps.2.1 h

/-- What a deed makes of whether the machine runs. -/
def Deed.switched? : Deed → Option Bool
  | .start => some true
  | .stop => some false
  | .step | .arrive _ | .leave => none

/-- Whether the last start or stop is a start, or, where there is none, what was
    before. -/
def runsAfter (started : Bool) (trail : List Deed) : Bool :=
  (trail.filterMap Deed.switched?).getLast?.getD started

theorem runsAfter_cons (started : Bool) (deed : Deed) (trail : List Deed) :
    runsAfter started (deed :: trail) = runsAfter (deed.switched?.getD started) trail := by
  unfold runsAfter
  cases hswitched : deed.switched? with
  | none => rw [List.filterMap_cons_none hswitched, Option.getD_none]
  | some running =>
      rw [List.filterMap_cons_some hswitched, List.getLast?_cons, Option.getD_some,
        Option.getD_some]

theorem runsAfter_append_of_unswitched {started : Bool} {trail more : List Deed}
    (unswitched : ∀ deed ∈ more, deed ≠ .start ∧ deed ≠ .stop) :
    runsAfter started (trail ++ more) = runsAfter started trail := by
  have hnone : more.filterMap Deed.switched? = [] := by
    rw [List.filterMap_eq_nil_iff]
    intro deed member
    have hdeed := unswitched deed member
    cases deed <;> simp [Deed.switched?] at hdeed ⊢
  rw [runsAfter, List.filterMap_append, hnone, List.append_nil, runsAfter]

namespace RunState

/-- A machine runs if its last switch was a start. -/
theorem running_replay (trail : List Deed) : ∀ state : RunState,
    (state.replay trail).running = runsAfter state.running trail := by
  induction trail with
  | nil => intro state; rfl
  | cons deed trail ih =>
      intro state
      rw [runsAfter_cons]
      exact (ih (deed.apply state)).trans (by cases deed <;> rfl)

/-- There is a permit if a step is unused, or if there was one that nothing used. -/
theorem stepPermit_replay (trail : List Deed) : ∀ state : RunState,
    (state.replay trail).stepPermit = true ↔
      Unused trail ∨ state.stepPermit = true ∧ ∀ deed ∈ trail, deed.KeepsSteps := by
  -- Induction on the trail; only a step can turn the permit on.
  induction trail with
  | nil =>
      intro state
      have hnone : ¬Unused [] := by rintro ⟨earlier, later, h, _⟩; simp at h
      simp [hnone, replay]
  | cons deed trail ih =>
      intro state
      have htail := ih (deed.apply state)
      rw [unused_cons_iff, List.forall_mem_cons]
      refine htail.trans ?_
      cases deed with
      | step =>
          simp only [Deed.apply, true_and]
          constructor
          · exact Or.inl
          · rintro (good | ⟨_, _, keeps⟩)
            · exact good
            · exact Or.inr keeps
      | start | stop | arrive | leave => simp [Deed.apply, Deed.KeepsSteps, switch]

/-- While a machine stays stopped, there are no more leavings than steps, but one more
    where it begins with a permit. -/
theorem count_leave_le (trail : List Deed) : ∀ state : RunState, state.Lawful trail →
    state.running = false → (∀ deed ∈ trail, deed ≠ .start ∧ deed ≠ .stop) →
    trail.count .leave ≤ trail.count .step + if state.stepPermit then 1 else 0 := by
  induction trail with
  | nil => intro state _ _ _; simp
  | cons deed trail ih =>
      intro state lawful stopped unswitched
      rw [List.forall_mem_cons] at unswitched
      cases deed with
      | start => exact absurd rfl unswitched.1.1
      | stop => exact absurd rfl unswitched.1.2
      | arrive offset =>
          rw [List.count_cons_of_ne (by simp), List.count_cons_of_ne (by simp)]
          exact ih { state with pc := offset } lawful.2 stopped unswitched.2
      | step =>
          have hlater := ih _ lawful.2 stopped unswitched.2
          simp only [Deed.apply, if_true] at hlater
          simp
          omega
      | leave =>
          -- It did not block, so there was a permit, which is then gone.
          have hpermit : state.stepPermit = true := by
            have passes := lawful.1 rfl
            simpa [blocks, stopped] using passes
          have hlater := ih _ lawful.2 stopped unswitched.2
          simp only [Deed.apply] at hlater
          simp [hpermit] at hlater ⊢
          omega

/-! ### Trails from a run state without a permit -/

variable {state : RunState} {before stretch after : List Deed}

/-- Where there is no permit at first, there is one exactly if a step is unused. -/
theorem stepPermit_replay_iff (fresh : state.stepPermit = false) (trail : List Deed) :
    (state.replay trail).stepPermit = true ↔ Unused trail := by
  rw [stepPermit_replay, fresh]
  simp

/-- A stopped machine leaves a suspension point by an unused step. -/
theorem unused_of_leave (fresh : state.stepPermit = false)
    (lawful : state.Lawful (before ++ .leave :: after))
    (stopped : runsAfter state.running before = false) : Unused before := by
  rw [lawful_append_iff] at lawful
  have passes := lawful.2.1 rfl
  rw [blocks, running_replay, stopped] at passes
  exact (stepPermit_replay_iff fresh before).mp (by simpa using passes)

theorem count_leave_le_of_stopped (lawful : state.Lawful (before ++ stretch ++ after))
    (unswitched : ∀ deed ∈ stretch, deed ≠ .start ∧ deed ≠ .stop)
    (stopped : runsAfter state.running before = false) :
    stretch.count .leave ≤
      stretch.count .step + if (state.replay before).stepPermit then 1 else 0 := by
  rw [lawful_append_iff, lawful_append_iff] at lawful
  refine count_leave_le stretch _ lawful.1.2 ?_ unswitched
  rw [running_replay]
  exact stopped

/-- Behind a start or a stop, or from the beginning, no suspension point is left without a
    step. -/
theorem count_leave_le_of_boundary (fresh : state.stepPermit = false)
    (lawful : state.Lawful (before ++ stretch ++ after))
    (boundary : before = [] ∨ before.getLast? = some .start ∨ before.getLast? = some .stop)
    (unswitched : ∀ deed ∈ stretch, deed ≠ .start ∧ deed ≠ .stop)
    (stopped : runsAfter state.running before = false) :
    stretch.count .leave ≤ stretch.count .step := by
  have hcount := count_leave_le_of_stopped lawful unswitched stopped
  -- A trail that ends in a switch has no step left over.
  have hnone : ¬Unused before := by
    rcases boundary with rfl | hlast | hlast
    · rintro ⟨earlier, later, h, _⟩
      simp at h
    · exact not_unused_of_getLast? hlast (Or.inl rfl)
    · exact not_unused_of_getLast? hlast (Or.inr rfl)
  rw [← stepPermit_replay_iff fresh] at hnone
  simpa [hnone] using hcount

/-- However many steps are in the first part, the rest leaves one suspension point at
    most, if there are no steps in it. -/
theorem count_leave_le_one {burst rest : List Deed}
    (lawful : state.Lawful (before ++ burst ++ rest ++ after))
    (unswitched : ∀ deed ∈ burst ++ rest, deed ≠ .start ∧ deed ≠ .stop)
    (nosteps : .step ∉ rest) (stopped : runsAfter state.running before = false) :
    rest.count .leave ≤ 1 := by
  rw [List.forall_mem_append] at unswitched
  have hstopped : runsAfter state.running (before ++ burst) = false := by
    rw [runsAfter_append_of_unswitched unswitched.1]
    exact stopped
  have hcount := count_leave_le_of_stopped lawful unswitched.2 hstopped
  rw [List.count_eq_zero.mpr nosteps] at hcount
  split at hcount <;> omega

end RunState

/-- Whether the thread waits at a suspension point, everyone having been told. -/
def Thread.isSuspended : Thread → Bool
  | .detained _ _ => true
  | .waiting _ _ => true
  | _ => false

theorem Thread.exists_waits {thread : Thread} (suspended : thread.isSuspended = true) :
    ∃ next, thread.Waits next ∧ next.isSuspended = false := by
  unfold isSuspended at suspended
  split at suspended
  · exact ⟨_, .attaching _ _, rfl⟩
  · exact ⟨_, .working _ _, rfl⟩
  · contradiction

namespace Session

variable {ω : Type}

/-- A suspension point holds the thread exactly as long as the run state blocks. -/
theorem advance_of_isSuspended (a : Audience ω) {s : Session ω}
    (suspended : s.machine.thread.isSuspended = true) :
    (s.machine.control.blocks = true → s.advance a = (.blocked, s)) ∧
    (s.machine.control.blocks = false → s.advanceDeeds a = [.leave] ∧
      (s.advance a).1 ≠ .blocked ∧ (s.advance a).2.machine.thread.isSuspended = false) := by
  rcases Thread.exists_waits suspended with ⟨next, waits, goes⟩
  rw [advanceDeeds_of_waits a waits, advance_waits a waits, leaveDeeds, resume]
  constructor <;> intro hblocks <;>
    simp only [hblocks, if_true, Bool.false_eq_true, if_false, true_and]
  exact ⟨by simp, goes⟩

/-- It holds those outside of executions just as long. -/
theorem depart_of_visitors {s : Session ω} (waiting : s.machine.visitors ≠ 0) (a : Audience ω) :
    (s.machine.control.blocks = true → s.depart = none) ∧
    (s.machine.control.blocks = false → s.deeds a .depart = [.leave] ∧
      ∃ s', s.depart = some s' ∧ s'.machine.visitors + 1 = s.machine.visitors) := by
  constructor
  · intro hblocks
    cases hdepart : s.depart with
    | none => rfl
    | some s' =>
        rw [(depart_eq_some_iff.mp hdepart).2.1] at hblocks
        contradiction
  · intro hblocks
    refine ⟨?_, _, depart_eq_some_iff.mpr ⟨waiting, hblocks, rfl⟩, ?_⟩
    · simp only [deeds, leaveDeeds, hblocks, if_neg waiting, Bool.false_eq_true, if_false]
    · exact Nat.sub_add_cancel (Nat.one_le_iff_ne_zero.mpr waiting)

/-- Suspension is safe. In every run from a session without a step permit, whatever is
    done by the one in control, by listeners and by breakpoints:

    a suspension point is left by a stopped machine only if there was a step behind the
    last start, the last stop and the last suspension point left; between starts and
    stops a stopped machine leaves no more suspension points than there are steps; and
    however many steps come one after the other, it leaves at most one for them;

    and at a suspension point where everyone has been told, the compute thread is
    blocked as long as the machine is stopped and there is no such step, and leaves it
    otherwise, and so does everyone who came to one outside of an execution. The machine
    runs if its last start or stop was a start. -/
theorem suspension_is_safe (a : Audience ω) (s : Session ω)
    (fresh : s.machine.control.stepPermit = false) (acts : List (Act ω)) :
    let started := s.machine.control.running
    let trail := s.trail a acts
    let t := s.playAll a acts
    (∀ before after, trail = before ++ .leave :: after → runsAfter started before = false →
      Unused before) ∧
    (∀ before stretch after, trail = before ++ stretch ++ after →
      before = [] ∨ before.getLast? = some .start ∨ before.getLast? = some .stop →
      (∀ deed ∈ stretch, deed ≠ .start ∧ deed ≠ .stop) → runsAfter started before = false →
      stretch.count .leave ≤ stretch.count .step) ∧
    (∀ before burst rest after, trail = before ++ burst ++ rest ++ after →
      (∀ deed ∈ burst ++ rest, deed ≠ .start ∧ deed ≠ .stop) → .step ∉ rest →
      runsAfter started before = false → rest.count .leave ≤ 1) ∧
    t.machine.control.running = runsAfter started trail ∧
    (t.machine.thread.isSuspended = true →
      (t.machine.control.running = false ∧ ¬Unused trail → t.advance a = (.blocked, t)) ∧
      (t.machine.control.running = true ∨ Unused trail →
        t.deeds a .advance = [.leave] ∧ (t.advance a).1 ≠ .blocked ∧
          (t.advance a).2.machine.thread.isSuspended = false)) ∧
    (t.machine.visitors ≠ 0 →
      (t.machine.control.running = false ∧ ¬Unused trail → t.depart = none) ∧
      (t.machine.control.running = true ∨ Unused trail → t.deeds a .depart = [.leave] ∧
        ∃ t', t.depart = some t' ∧ t'.machine.visitors + 1 = t.machine.visitors)) := by
  intro started trail t
  rcases control_playAll a acts s with ⟨hcontrol, lawful⟩
  change s.machine.control.Lawful trail at lawful
  -- The run state is the trail replayed, so whether anyone is held up can be read off the trail.
  have hblocks : t.machine.control.blocks = true ↔
      t.machine.control.running = false ∧ ¬Unused trail := by
    rw [← RunState.stepPermit_replay_iff fresh, ← hcontrol, RunState.blocks, Bool.and_eq_true,
      Bool.not_eq_true', Bool.not_eq_true', Bool.not_eq_true]
  have hpasses : t.machine.control.running = true ∨ Unused trail →
      t.machine.control.blocks = false := by
    intro h
    rw [← Bool.not_eq_true, hblocks]
    rintro ⟨stopped, spent⟩
    rcases h with running | unused
    · rw [stopped] at running
      contradiction
    · exact spent unused
  refine ⟨?_, ?_, ?_, ?_, ?_, ?_⟩
  · intro before after htrail
    rw [htrail] at lawful
    exact RunState.unused_of_leave fresh lawful
  · intro before stretch after htrail
    rw [htrail] at lawful
    exact RunState.count_leave_le_of_boundary fresh lawful
  · intro before burst rest after htrail
    rw [htrail] at lawful
    exact RunState.count_leave_le_one lawful
  · exact (congrArg RunState.running hcontrol).trans (RunState.running_replay trail _)
  · intro suspended
    have hadvance := advance_of_isSuspended a suspended
    exact ⟨fun h => hadvance.1 (hblocks.mpr h), fun h => hadvance.2 (hpasses h)⟩
  · intro waiting
    have hdepart := depart_of_visitors waiting a
    exact ⟨fun h => hdepart.1 (hblocks.mpr h), fun h => hdepart.2 (hpasses h)⟩

/-- A stopped session without listeners whose RAM holds a test and a shutdown. -/
def testSession : Session Unit where
  machine :=
    { registry := Registry.standard, config := { ramSize := 16 },
      ram := ⟨#[0x11, 0, 0, 0, 0x90, 0, 0, 2, 0x11, 0, 0, 0, 0x01, 0, 0, 0]⟩ }
  audience := ()

-- Two steps before an execution let one suspension point pass, and the second holds.
theorem suspension_is_safe_two_steps :
    let a : Audience Unit := ⟨fun _ _ _ _ => .accept, 0⟩
    let acts : List (Act Unit) :=
      [.command .step, .command .step, .execute] ++ List.replicate 9 .advance
    let t := testSession.playAll a acts
    testSession.machine.control.stepPermit = false ∧
    testSession.trail a acts = [.step, .step, .arrive 0, .leave, .arrive 8] ∧
    t.machine.thread.isSuspended = true ∧ t.machine.control.running = false ∧
    t.advance a = (.blocked, t) := by
  intro a acts t
  have fresh : testSession.machine.control.stepPermit = false := rfl
  have htrail : testSession.trail a acts = [.step, .step, .arrive 0, .leave, .arrive 8] := by
    decide +kernel
  have suspended : t.machine.thread.isSuspended = true := by decide +kernel
  have stopped : t.machine.control.running = false := by decide +kernel
  -- The second step was asked for before the first arrival, and there is one permit at most.
  have hnone : ¬Unused (testSession.trail a acts) := by
    intro unused
    rw [htrail] at unused
    have hpermit := (RunState.stepPermit_replay _ {}).mpr (Or.inl unused)
    contradiction
  exact ⟨fresh, htrail, suspended, stopped,
    ((suspension_is_safe a testSession fresh acts).2.2.2.2.1 suspended).1 ⟨stopped, hnone⟩⟩

end Session

end Transport
