import Mathlib.Data.List.Nodup
import Transport.Proofs.Machine.Breakpoints
import Transport.Proofs.Machine.Chronicle
import Transport.Proofs.Machine.Notices
import Transport.Proofs.Machine.Suspension

/-!
# Breakpoints Stop a Running Machine

At a suspension point the execution listeners are told, and then a running machine looks
for breakpoints, as they are at that moment and in RAM as it is at that moment. If one of
them matches, the machine stops, for which the listeners are told once more; if none does,
and likewise if the machine was not running, nothing else happens. Whoever arrived waits
at the point, be it the compute thread or a caller outside of executions, and a machine
that was stopped keeps them waiting until there is a start or a step.

This is about listeners that succeed and make no control calls, at the points in question.
What they do otherwise is open: they may store words, change breakpoints, and add and remove
each other.

## Main definitions

* `Comparator.Admits`, `Machine.Hit`: When a breakpoint matches, in terms of numbers.
* `Arriver`: Who comes to a suspension point.
* `Session.facing`, `Session.met`, `Session.halted`: The stages of an arrival.
* `Session.Complies`: Listeners succeed and make no control calls.
* `Session.Hears`: What execution listeners are told of an arrival.
* `Machine.Orderly`: Listeners stay listed once, and nobody comes or goes.

## Theorems

* `hitsBreakpoint_iff`: What the machine looks for.
* `play_hit`, `play_missed`: What an arrival comes to.
* `hears_hit`, `hears_missed`: Who is told of it.
* `nodup_playAll`: Listeners stay listed once.
* `stays_of_blocked`: A stopped machine keeps everyone where they are.
* `breakpoints_stop`: All suspension points that are reached, in every run.
-/

namespace Transport

namespace Comparator

/-- Whether a number passes the comparison. -/
def Admits (value : Int) : Comparator → Prop
  | .never => False
  | .lt bound => value < bound.toInt
  | .eq bound => value = bound.toInt
  | .le bound => value ≤ bound.toInt
  | .gt bound => bound.toInt < value
  | .ne bound => value ≠ bound.toInt
  | .ge bound => bound.toInt ≤ value
  | .always => True

theorem holds_iff (comparator : Comparator) (word : Word) :
    comparator.holds word = true ↔ comparator.Admits (Word.signed word) := by
  have hsigned : word.toInt32.toInt = Word.signed word := rfl
  -- Comparisons are of signed words, which is what the integers are compared as.
  cases comparator with
  | never | always => simp only [holds, Admits, Bool.false_eq_true]
  | eq bound => simp only [holds, Admits, decide_eq_true_eq, ← Int32.toInt_inj, hsigned]
  | ne bound =>
      simp only [holds, Admits, decide_not, Bool.not_eq_true', decide_eq_false_iff_not, ne_eq,
        ← Int32.toInt_inj, hsigned]
  | lt bound | gt bound =>
      simp only [holds, Admits, decide_eq_true_eq, Int32.lt_iff_toInt_lt, hsigned]
  | le bound | ge bound =>
      simp only [holds, Admits, decide_eq_true_eq, Int32.le_iff_toInt_le, hsigned]

end Comparator

namespace Machine

/-- A breakpoint of the machine matches at the suspension point of an offset: one at this
    offset, or one for a word that is in RAM as a whole and whose number passes. -/
def Hit (m : Machine) (offset : Word) : Prop :=
  .pc offset ∈ m.breakpoints ∨ ∃ address comparator word, .mem address comparator ∈ m.breakpoints ∧
    address.toNat + 4 ≤ m.ram.size ∧ m.ram.word? address = some word ∧
    comparator.Admits (Word.signed word)

theorem hitsBreakpoint_iff {m : Machine} {offset : Word} :
    m.hitsBreakpoint offset = true ↔ m.Hit offset := by
  unfold hitsBreakpoint
  rw [List.any_eq_true]
  constructor
  · rintro ⟨breakpoint, member, hits⟩
    -- Only a data breakpoint reads RAM, which there has to be at its address.
    cases breakpoint with
    | pc here =>
        rw [Breakpoint.hits, decide_eq_true_eq] at hits
        rw [hits] at member
        exact Or.inl member
    | mem address comparator =>
        rw [Breakpoint.hits, Option.any_eq_true] at hits
        rcases hits with ⟨word, hword, holds⟩
        refine Or.inr ⟨address, comparator, word, member, ?_, hword,
          (comparator.holds_iff word).mp holds⟩
        unfold Ram.word? at hword
        dsimp only at hword
        split at hword
        · assumption
        · contradiction
  · rintro (member | ⟨address, comparator, word, member, _, hword, admits⟩)
    · exact ⟨_, member, decide_eq_true rfl⟩
    · refine ⟨_, member, ?_⟩
      rw [Breakpoint.hits, hword]
      exact (comparator.holds_iff word).mpr admits

/-! ### Breakpoints are a set -/

theorem mem_addBreakpoint_iff {m : Machine} {breakpoint other : Breakpoint} :
    other ∈ (m.addBreakpoint breakpoint).breakpoints ↔
      other = breakpoint ∨ other ∈ m.breakpoints := by
  unfold addBreakpoint
  -- A breakpoint that is there already is not added again.
  split
  · next there =>
    rw [List.contains_iff_mem] at there
    constructor
    · exact Or.inr
    · rintro (rfl | member)
      · exact there
      · exact member
  · change other ∈ m.breakpoints ++ [breakpoint] ↔ _
    rw [List.mem_append, List.mem_singleton, or_comm]

theorem mem_removeBreakpoint_iff {m : Machine} {breakpoint other : Breakpoint} :
    other ∈ (m.removeBreakpoint breakpoint).breakpoints ↔
      other ∈ m.breakpoints ∧ other ≠ breakpoint := by
  change other ∈ m.breakpoints.filter (· != breakpoint) ↔ _
  rw [List.mem_filter, bne_iff_ne]

end Machine

/-- The thread at the suspension point that it asks to pass. -/
def Thread.arrived : Thread → Thread
  | .attaching outset (.ask (.suspend _) next) => .detained outset next
  | .working segment (.ask (.suspend _) next) => .waiting segment next
  | thread => thread

theorem Thread.arrived_of_asks {thread : Thread} {offset : Word}
    {next : (Request.suspend offset).Answer → Thread} (asks : thread.Asks (.suspend offset) next) :
    next (.ok ()) = thread.arrived ∧ thread.arrived.isSuspended = true := by
  cases asks <;> exact ⟨rfl, rfl⟩

/-- Who comes to a suspension point: the compute thread, or a caller outside of
    executions. -/
inductive Arriver where
  | program
  | visitor

namespace Arriver

/-- How they come there. -/
def act {ω : Type} (offset : Word) : Arriver → Act ω
  | .program => .advance
  | .visitor => .visit offset

/-- How they wait there, the compute thread with what it was at. -/
def wait (thread : Thread) (m : Machine) : Arriver → Machine
  | .program => m.setThread thread.arrived
  | .visitor => { m with visitors := m.visitors + 1 }

end Arriver

variable {ω : Type}

namespace Session

/-! ## Arrivals -/

/-- Someone comes to the suspension point of an offset now. A caller may do so at any time. -/
def Arrives (s : Session ω) (offset : Word) : Arriver → Prop
  | .program => s.machine.happening? = some (.asks (.suspend offset))
  | .visitor => True

/-- The suspension point of an offset is reached, and nobody has been told. -/
def facing (s : Session ω) (offset : Word) : Session ω :=
  s.modify fun m => m.modifyControl fun state => { state with pc := offset }

/-- The execution listeners have been told of the suspension point. -/
def met (a : Audience ω) (s : Session ω) (offset : Word) : Session ω :=
  (a.notify .arrival s.machine.executionListeners (s.facing offset)).2

/-- The machine is stopped, and nobody has been told. -/
def halted (s : Session ω) : Session ω :=
  s.modify fun m => m.modifyControl fun state => state.switch false

/-- All execution listeners succeed when they are told of an event now, and make no control
    calls, neither themselves nor through others. -/
structure Complies (a : Audience ω) (event : Event) (s : Session ω) : Prop where
  succeed : (a.notify event s.machine.executionListeners s).1 = .ok ()
  calls : a.notifyDeeds event s.machine.executionListeners s = []

/-- Every execution listener is told of an event now. -/
def notices (event : Event) (s : Session ω) : List Notice :=
  s.machine.executionListeners.map fun id => ⟨id, event, s.machine.control⟩

/-- Execution listeners are told this of an arrival, in this order. -/
def Hears (a : Audience ω) (s : Session ω) (offset : Word) (who : Arriver)
    (notices : List Notice) : Prop :=
  ∃ log, (s.withLog []).play a.logging (who.act offset) =
    (s.play a (who.act offset)).withLog log ∧ executionNotices log = notices

variable {a : Audience ω} {s : Session ω} {offset : Word} {who : Arriver}

/-- The step of the compute thread, where nobody objects. -/
theorem advance_of_arrival (arriving : s.machine.happening? = some (.asks (.suspend offset)))
    (succeeds : (s.arrive a offset).1 = .ok ()) :
    s.advance a =
      (.moved, (s.arrive a offset).2.modify (·.setThread s.machine.thread.arrived)) := by
  rcases happening?_of_ask arriving with ⟨next, asks⟩
  have hanswer : s.answer a (.suspend offset) =
      ((s.arrive a offset).1.mapError .listener, (s.arrive a offset).2) := rfl
  rw [advance_asks a asks, hanswer, succeeds, ← (Thread.arrived_of_asks asks).1]
  rfl

/-- The call of someone else, where nobody objects. -/
theorem visit_of_arrival (succeeds : (s.arrive a offset).1 = .ok ()) :
    s.visit a offset =
      (.ok (), (s.arrive a offset).2.modify fun m => { m with visitors := m.visitors + 1 }) := by
  unfold visit
  generalize s.arrive a offset = arrived at succeeds ⊢
  rcases arrived with ⟨_, s'⟩
  cases succeeds
  rfl

/-- An arrival that succeeds leaves whoever arrived at the suspension point. -/
theorem play_of_arrival (arrives : s.Arrives offset who)
    (succeeds : (s.arrive a offset).1 = .ok ()) :
    s.play a (who.act offset) =
      (s.arrive a offset).2.modify fun m => who.wait s.machine.thread m := by
  cases who with
  | program => exact congrArg Prod.snd (advance_of_arrival arrives succeeds)
  | visitor => exact congrArg Prod.snd (visit_of_arrival succeeds)

theorem control_wait (thread : Thread) (m : Machine) :
    (who.wait thread m).control = m.control := by
  cases who <;> rfl

/-- Listeners that make no control calls leave the run state alone. -/
theorem control_of_complies {event : Event} (complies : s.Complies a event) :
    (a.notify event s.machine.executionListeners s).2.machine.control = s.machine.control := by
  have hrecords := records_notify a event s.machine.executionListeners s
  rw [complies.calls] at hrecords
  exact hrecords.control

theorem control_met (heard : (s.facing offset).Complies a .arrival) :
    (s.met a offset).machine.control = { s.machine.control with pc := offset } :=
  control_of_complies heard

/-- What an arrival comes to, if nobody who is told of it refuses. -/
theorem arrive_of_notify {met : Session ω}
    (told : a.notify .arrival s.machine.executionListeners (s.facing offset) = (.ok (), met)) :
    s.arrive a offset =
      if met.machine.control.running && met.machine.hitsBreakpoint offset then
        a.notify .status met.machine.executionListeners met.halted
      else (.ok (), met) := by
  change a.notify .arrival (s.facing offset).machine.executionListeners (s.facing offset) = _
    at told
  unfold arrive arriveWith
  unfold facing at told
  dsimp only
  rw [told]
  rfl

theorem notify_met (heard : (s.facing offset).Complies a .arrival) :
    a.notify .arrival s.machine.executionListeners (s.facing offset) = (.ok (), s.met a offset) :=
  Prod.ext heard.succeed rfl

/-- A running machine stops at a breakpoint. -/
theorem arrive_hit (heard : (s.facing offset).Complies a .arrival)
    (running : s.machine.control.running = true) (hit : (s.met a offset).machine.Hit offset) :
    s.arrive a offset = a.notify .status (s.met a offset).machine.executionListeners
      (s.met a offset).halted := by
  rw [arrive_of_notify (notify_met heard), control_met heard, Machine.hitsBreakpoint_iff.mpr hit,
    running]
  rfl

/-- Without a breakpoint, and without running, a machine does not. -/
theorem arrive_missed (heard : (s.facing offset).Complies a .arrival)
    (missed : s.machine.control.running = true → ¬(s.met a offset).machine.Hit offset) :
    s.arrive a offset = (.ok (), s.met a offset) := by
  rw [arrive_of_notify (notify_met heard), control_met heard, if_neg]
  rw [Bool.and_eq_true, Machine.hitsBreakpoint_iff]
  exact fun h => missed h.1 h.2

section Stages

variable (arrives : s.Arrives offset who) (heard : (s.facing offset).Complies a .arrival)

include heard

theorem control_halted_met : (s.met a offset).halted.machine.control = ⟨false, offset, false⟩ := by
  change (s.met a offset).machine.control.switch false = _
  rw [control_met heard]
  rfl

/-- Nobody objects, whether the machine stops or not. -/
theorem arrive_of_complies (heard' : s.machine.control.running = true →
      (s.met a offset).machine.Hit offset → (s.met a offset).halted.Complies a .status) :
    (s.arrive a offset).1 = .ok () := by
  by_cases hits : s.machine.control.running = true ∧ (s.met a offset).machine.Hit offset
  · rw [arrive_hit heard hits.1 hits.2]
    exact (heard' hits.1 hits.2).succeed
  · rw [arrive_missed heard fun running hit => hits ⟨running, hit⟩]

include arrives

/-- An arrival where the machine does not stop. -/
theorem play_missed
    (missed : s.machine.control.running = true → ¬(s.met a offset).machine.Hit offset) :
    s.play a (who.act offset) =
      (s.met a offset).modify fun m => who.wait s.machine.thread m := by
  rw [play_of_arrival arrives (by rw [arrive_missed heard missed]), arrive_missed heard missed]

theorem control_play_missed
    (missed : s.machine.control.running = true → ¬(s.met a offset).machine.Hit offset) :
    (s.play a (who.act offset)).machine.control = { s.machine.control with pc := offset } := by
  rw [play_missed arrives heard missed]
  exact (control_wait _ _).trans (control_met heard)

/-- An arrival where it does. -/
theorem play_hit (heard' : (s.met a offset).halted.Complies a .status)
    (running : s.machine.control.running = true) (hit : (s.met a offset).machine.Hit offset) :
    s.play a (who.act offset) = (a.notify .status (s.met a offset).machine.executionListeners
      (s.met a offset).halted).2.modify fun m => who.wait s.machine.thread m := by
  have harrive := arrive_hit heard running hit
  have succeeds : (s.arrive a offset).1 = .ok () := by
    rw [harrive]
    exact heard'.succeed
  rw [play_of_arrival arrives succeeds, harrive]

theorem control_play_hit (heard' : (s.met a offset).halted.Complies a .status)
    (running : s.machine.control.running = true) (hit : (s.met a offset).machine.Hit offset) :
    (s.play a (who.act offset)).machine.control = ⟨false, offset, false⟩ := by
  rw [play_hit arrives heard heard' running hit]
  exact (control_wait _ _).trans
    ((control_of_complies heard').trans (control_halted_met heard))

end Stages

/-! ## Who is told -/

/-- Listeners with a log that comply do what they do without, and each of them puts its
    notice down. -/
theorem exists_notify_withLog {event : Event} (complies : s.Complies a event)
    (execution : event.isExecution = true) (log : List Notice) :
    ∃ new, a.logging.notify event s.machine.executionListeners (s.withLog log) =
        (.ok (), (a.notify event s.machine.executionListeners s).2.withLog (log ++ new)) ∧
      executionNotices new = s.notices event := by
  rcases alongside_notify a event s.machine.executionListeners (s.withLog log) with
    ⟨hresult, hbare, hlog⟩
  -- The log says nothing of what happens in the session.
  change _ = (a.notify event s.machine.executionListeners s).1 at hresult
  change _ = (a.notify event s.machine.executionListeners s).2 at hbare
  rcases hlog complies.calls with ⟨new, hnew, _, htold⟩
  refine ⟨new, ?_, htold execution complies.succeed⟩
  rw [complies.succeed] at hresult
  rw [← hbare]
  change _ = log ++ new at hnew
  rw [← hnew]
  exact Prod.ext hresult rfl

theorem arrives_withLog (arrives : s.Arrives offset who) (log : List Notice) :
    (s.withLog log).Arrives offset who := by
  cases who <;> exact arrives

/-- What execution listeners are told at a suspension point where the machine does not
    stop. -/
theorem hears_missed (arrives : s.Arrives offset who)
    (heard : (s.facing offset).Complies a .arrival)
    (missed : s.machine.control.running = true → ¬(s.met a offset).machine.Hit offset) :
    s.Hears a offset who ((s.facing offset).notices .arrival) := by
  rcases exists_notify_withLog heard rfl [] with ⟨log, hnotify, hlog⟩
  have harrive : (s.withLog []).arrive a.logging offset =
      (.ok (), (s.met a offset).withLog log) := by
    rw [arrive_of_notify (s := s.withLog []) hnotify]
    -- Breakpoints are looked for in the machine, which is the same with the log.
    change (if (s.met a offset).machine.control.running &&
      (s.met a offset).machine.hitsBreakpoint offset then _ else _) = _
    rw [control_met heard, if_neg]
    · rfl
    · rw [Bool.and_eq_true, Machine.hitsBreakpoint_iff]
      exact fun h => missed h.1 h.2
  refine ⟨log, ?_, hlog⟩
  rw [play_missed arrives heard missed,
    play_of_arrival (s := s.withLog []) (arrives_withLog arrives []) (by rw [harrive]), harrive]
  rfl

/-- What they are told where it stops. -/
theorem hears_hit (arrives : s.Arrives offset who)
    (heard : (s.facing offset).Complies a .arrival)
    (heard' : (s.met a offset).halted.Complies a .status)
    (running : s.machine.control.running = true) (hit : (s.met a offset).machine.Hit offset) :
    s.Hears a offset who
      ((s.facing offset).notices .arrival ++ (s.met a offset).halted.notices .status) := by
  -- Two notifications, and what they log is concatenated.
  rcases exists_notify_withLog heard rfl [] with ⟨log, hnotify, hlog⟩
  rcases exists_notify_withLog heard' rfl log with ⟨more, hnotify', hmore⟩
  have harrive : (s.withLog []).arrive a.logging offset =
      (.ok (), (a.notify .status (s.met a offset).machine.executionListeners
        (s.met a offset).halted).2.withLog (log ++ more)) := by
    rw [arrive_of_notify (s := s.withLog []) hnotify]
    change (if (s.met a offset).machine.control.running &&
      (s.met a offset).machine.hitsBreakpoint offset then _ else _) = _
    rw [control_met heard, Machine.hitsBreakpoint_iff.mpr hit, running]
    exact hnotify'
  refine ⟨log ++ more, ?_, ?_⟩
  · rw [play_hit arrives heard heard' running hit,
      play_of_arrival (s := s.withLog []) (arrives_withLog arrives []) (by rw [harrive]), harrive]
    rfl
  · rw [executionNotices_append, hlog, hmore]

/-! ## Listeners are listed once -/

end Session

namespace Machine

/-- Execution listeners stay listed once, and nobody outside of executions comes to a
    suspension point or leaves one. -/
structure Orderly (before after : Machine) : Prop where
  once : before.executionListeners.Nodup → after.executionListeners.Nodup
  visitors : after.visitors = before.visitors

variable {m m' m'' : Machine}

theorem orderly_of_eq (listeners : m'.executionListeners = m.executionListeners)
    (visitors : m'.visitors = m.visitors) : m.Orderly m' :=
  ⟨fun once => by rw [listeners]; exact once, visitors⟩

theorem orderly_refl (m : Machine) : m.Orderly m := orderly_of_eq rfl rfl

theorem orderly_trans (h : m.Orderly m') (h' : m'.Orderly m'') : m.Orderly m'' :=
  ⟨fun once => h'.once (h.once once), h'.visitors.trans h.visitors⟩

theorem nodup_addListener {listeners : List ListenerId} (once : listeners.Nodup) (id : ListenerId) :
    (addListener id listeners).Nodup := by
  unfold addListener
  split
  · exact once
  · next absent =>
    rw [List.contains_iff_mem] at absent
    rw [List.nodup_append]
    -- A listener that is not listed yet stays the only one of its kind.
    refine ⟨once, List.nodup_singleton id, fun other member new hnew same => ?_⟩
    rw [List.mem_singleton.mp hnew] at same
    exact absent (same ▸ member)

end Machine

namespace Session

variable {a : Audience ω} {s : Session ω} {offset : Word} {who : Arriver}

/-- Telling listeners does so. -/
def NotifyOrderly (notify : Notify ω) : Prop :=
  ∀ event ids (s : Session ω), s.machine.Orderly (notify event ids s).2.machine

/-- Carrying out a command does. -/
def PerformOrderly (perform : Perform ω) : Prop :=
  ∀ command (s : Session ω), s.machine.Orderly (perform command s).2.machine

theorem orderly_run {perform : Perform ω} (h : PerformOrderly perform) {depth : Nat}
    (reaction : Reaction ω depth) :
    ∀ s : Session ω, s.machine.Orderly (reaction.run perform s).2.machine := by
  induction reaction with
  | accept => exact fun s => Machine.orderly_refl _
  | refuse reason => exact fun s => Machine.orderly_refl _
  | note audience next ih => exact fun s => ih { s with audience }
  | give command next ih => exact fun s => Machine.orderly_trans (h command s) (ih _ _ _)

theorem orderly_tell {perform : Perform ω} (h : PerformOrderly perform) (a : Audience ω)
    (depth : Nat) : NotifyOrderly (a.tell depth perform) := by
  intro event ids
  -- Along those still to be told, each reaction by what its commands do.
  induction ids with
  | nil => exact fun s => Machine.orderly_refl _
  | cons id later ih =>
      intro s
      have hrun := orderly_run h (a.respond depth id event s) s
      unfold Audience.tell
      generalize (a.respond depth id event s).run perform s = ran at hrun ⊢
      rcases ran with ⟨_ | _, s'⟩
      · exact hrun
      · exact Machine.orderly_trans hrun (ih s')

section Activities

variable {notify : Notify ω} (h : NotifyOrderly notify)

include h

theorem orderly_storeWith (s : Session ω) (offset value : Word) :
    s.machine.Orderly (s.storeWith notify offset value).2.machine := by
  unfold storeWith
  cases s.machine.checkStore offset 4 with
  | error trap => exact Machine.orderly_refl _
  | ok _ =>
      -- Whatever the listeners made of the machine, the store changes its RAM and nothing else.
      have htold := h (.store offset value) s.machine.memoryListeners s
      dsimp only
      generalize notify (.store offset value) s.machine.memoryListeners s = told at htold ⊢
      rcases told with ⟨_ | _, s'⟩
      · exact htold
      · have hstored : ∀ change : Machine → Ram,
            s.machine.Orderly (s'.modify fun m => { m with ram := change m }).machine := fun _ =>
          Machine.orderly_trans htold (Machine.orderly_of_eq rfl rfl)
        dsimp only
        split
        · exact hstored fun m => m.ram.put offset (Word.bytes value)
        · exact htold

theorem orderly_switchWith (s : Session ω) (running : Bool) :
    s.machine.Orderly (s.switchWith notify running).2.machine := by
  have hswitched : s.machine.Orderly (s.modify fun m => m.modifyControl fun state =>
      state.switch running).machine := Machine.orderly_of_eq rfl rfl
  exact Machine.orderly_trans hswitched (h .status _ _)

theorem orderly_arriveWith (s : Session ω) (offset : Word) :
    s.machine.Orderly (s.arriveWith notify offset).2.machine := by
  -- Facing an offset is a change of the run state alone.
  have hfacing : s.machine.Orderly (s.modify fun m => m.modifyControl fun state =>
      { state with pc := offset }).machine := Machine.orderly_of_eq rfl rfl
  unfold arriveWith
  dsimp only
  generalize (s.modify fun m => m.modifyControl fun state => { state with pc := offset }) = s₁
    at hfacing ⊢
  have htold := Machine.orderly_trans hfacing (h .arrival s₁.machine.executionListeners s₁)
  generalize notify .arrival s₁.machine.executionListeners s₁ = told at htold ⊢
  rcases told with ⟨_ | _, s'⟩
  · exact htold
  · dsimp only
    split
    · exact Machine.orderly_trans htold (orderly_switchWith h s' false)
    · exact htold

theorem orderly_performWith : PerformOrderly (performWith notify) := by
  intro command s
  -- Enrolling and removing are the only commands that touch the list of listeners.
  cases command with
  | store offset value => exact orderly_storeWith h s offset value
  | start => exact orderly_switchWith h s true
  | stop => exact orderly_switchWith h s false
  | copy offset data =>
      unfold performWith
      dsimp only
      cases hcopy : s.machine.copy offset data with
      | error trap => exact Machine.orderly_refl _
      | ok m =>
          rcases Machine.copy_eq_ok_iff.mp hcopy with ⟨_, _, rfl⟩
          exact Machine.orderly_of_eq rfl rfl
  | addBreakpoint breakpoint =>
      change s.machine.Orderly (s.machine.addBreakpoint breakpoint)
      unfold Machine.addBreakpoint
      split
      · exact Machine.orderly_refl _
      · exact Machine.orderly_of_eq rfl rfl
  | addExecutionListener id => exact ⟨fun once => Machine.nodup_addListener once id, rfl⟩
  | removeExecutionListener id => exact ⟨fun once => once.filter _, rfl⟩
  | attach port device =>
      change s.machine.Orderly ((s.machine.attach? port device).getD s.machine)
      unfold Machine.attach?
      cases s.machine.peripherals.insert? port device with
      | none => exact Machine.orderly_refl _
      | some peripherals => exact Machine.orderly_of_eq rfl rfl
  | execute =>
      unfold performWith execute
      cases s.machine.thread.isExecuting with
      | true => exact Machine.orderly_refl _
      | false => exact Machine.orderly_of_eq rfl rfl
  | step | removeBreakpoint | clearBreakpoints | addMemoryListener | removeMemoryListener
  | detach | setSink => exact Machine.orderly_of_eq rfl rfl

end Activities

theorem orderly_perform (a : Audience ω) (depth : Nat) : PerformOrderly (perform a depth) := by
  induction depth with
  | zero => exact fun _ _ => Machine.orderly_refl _
  | succ depth ih => exact orderly_performWith (orderly_tell ih a depth)

theorem orderly_notify (a : Audience ω) : NotifyOrderly a.notify :=
  orderly_tell (orderly_perform a a.nesting) a a.nesting

theorem orderly_answer (a : Audience ω) (s : Session ω) (r : Request) :
    s.machine.Orderly (s.answer a r).2.machine := by
  cases r with
  | storeWord offset value => exact orderly_storeWith (orderly_notify a) s offset value
  | suspend offset => exact orderly_arriveWith (orderly_notify a) s offset
  | readWord | print | sendByte | takeByte | hasByte | offered => exact Machine.orderly_of_eq rfl rfl

/-- A small step of the compute thread does. -/
theorem orderly_advance (a : Audience ω) (s : Session ω) :
    s.machine.Orderly (s.advance a).2.machine := by
  have hchange := change_advance a s
  generalize s.advance a = result at hchange ⊢
  cases hchange with
  | answers =>
      exact Machine.orderly_trans (orderly_answer a s _) (Machine.orderly_of_eq rfl rfl)
  | stays | passes | boards | turns | enters | continues | ends =>
      exact Machine.orderly_of_eq rfl rfl

theorem orderly_execute (s : Session ω) :
    s.machine.Orderly (s.execute.toOption.getD s).machine := by
  unfold execute
  cases s.machine.thread.isExecuting with
  | true => exact Machine.orderly_refl _
  | false => exact Machine.orderly_of_eq rfl rfl

/-- A call from outside of executions, if nobody objects, makes one more visitor. -/
theorem orderly_visit (a : Audience ω) (s : Session ω) (offset : Word) :
    (s.machine.executionListeners.Nodup →
      (s.visit a offset).2.machine.executionListeners.Nodup) ∧
    s.machine.visitors ≤ (s.visit a offset).2.machine.visitors := by
  have harrive := orderly_arriveWith (orderly_notify a) s offset
  unfold visit arrive
  generalize s.arriveWith a.notify offset = arrived at harrive ⊢
  rcases arrived with ⟨_ | _, s'⟩
  · exact ⟨harrive.once, Nat.le_of_eq harrive.visitors.symm⟩
  · exact ⟨harrive.once, Nat.le_succ_of_le (Nat.le_of_eq harrive.visitors.symm)⟩

theorem nodup_play (once : s.machine.executionListeners.Nodup) (act : Act ω) :
    (s.play a act).machine.executionListeners.Nodup := by
  -- An act of the compute thread, a call, or the end of an execution that leaves the list alone.
  cases act with
  | advance => exact (orderly_advance a s).once once
  | command command => exact (orderly_performWith (orderly_notify a) command s).once once
  | execute => exact (orderly_execute s).once once
  | visit offset => exact (orderly_visit a s offset).1 once
  | depart =>
      unfold play
      cases hdepart : s.depart with
      | none => exact once
      | some s' =>
          rcases depart_eq_some_iff.mp hdepart with ⟨_, _, rfl⟩
          exact once
  | rewire => exact once

theorem nodup_playAll (acts : List (Act ω)) : ∀ s : Session ω,
    s.machine.executionListeners.Nodup → (s.playAll a acts).machine.executionListeners.Nodup := by
  induction acts with
  | nil => exact fun _ once => once
  | cons act acts ih => exact fun s once => ih _ (nodup_play once act)

/-! ## Stopped machines stay -/

/-- Where there was neither a start nor a step, a run state that blocks does so still. -/
theorem blocks_replay {trail : List Deed}
    (unprompted : ∀ deed ∈ trail, deed ≠ .start ∧ deed ≠ .step) :
    ∀ state : RunState, state.blocks = true → (state.replay trail).blocks = true := by
  induction trail with
  | nil => exact fun _ blocked => blocked
  | cons deed trail ih =>
      intro state blocked
      rw [List.forall_mem_cons] at unprompted
      refine ih unprompted.2 (deed.apply state) ?_
      -- Only a start makes the machine run, and only a step gives a permit.
      rw [RunState.blocks, Bool.and_eq_true, Bool.not_eq_true', Bool.not_eq_true'] at blocked
      cases deed with
      | start => exact absurd rfl unprompted.1.1
      | step => exact absurd rfl unprompted.1.2
      | stop => rfl
      | arrive offset => simp [Deed.apply, RunState.blocks, blocked]
      | leave => simp [Deed.apply, RunState.blocks, blocked]

theorem depart_of_blocks (blocked : s.machine.control.blocks = true) : s.depart = none := by
  rw [Option.eq_none_iff_forall_ne_some]
  intro s' hdepart
  rw [(depart_eq_some_iff.mp hdepart).2.1] at blocked
  contradiction

/-- Nobody leaves a suspension point that blocks. -/
theorem visitors_play (blocked : s.machine.control.blocks = true) (act : Act ω) :
    s.machine.visitors ≤ (s.play a act).machine.visitors := by
  cases act with
  | advance => exact Nat.le_of_eq (orderly_advance a s).visitors.symm
  | command command =>
      exact Nat.le_of_eq (orderly_performWith (orderly_notify a) command s).visitors.symm
  | execute => exact Nat.le_of_eq (orderly_execute s).visitors.symm
  | visit offset => exact (orderly_visit a s offset).2
  | depart =>
      unfold play
      rw [depart_of_blocks blocked]
      exact Nat.le_refl _
  | rewire => exact Nat.le_refl _

/-- Whoever is held at a suspension point stays there, until there is a start or a
    step. -/
theorem stays_of_blocked (acts : List (Act ω)) : ∀ s : Session ω,
    s.machine.control.blocks = true → (∀ deed ∈ s.trail a acts, deed ≠ .start ∧ deed ≠ .step) →
      (s.machine.thread.isSuspended = true →
        (s.playAll a acts).machine.thread = s.machine.thread ∧
          (s.playAll a acts).advance a = (.blocked, s.playAll a acts)) ∧
      s.machine.visitors ≤ (s.playAll a acts).machine.visitors ∧
      (s.playAll a acts).depart = none := by
  induction acts with
  | nil =>
      exact fun s blocked _ => ⟨fun suspended => ⟨rfl, (advance_of_isSuspended a suspended).1 blocked⟩,
        Nat.le_refl _, depart_of_blocks blocked⟩
  | cons act acts ih =>
      intro s blocked unprompted
      rw [trail, List.forall_mem_append] at unprompted
      have hcontrol : (s.play a act).machine.control.blocks = true := by
        rw [(control_play a s act).1]
        exact blocks_replay unprompted.1 _ blocked
      have hlater := ih (s.play a act) hcontrol unprompted.2
      refine ⟨fun suspended => ?_, Nat.le_trans (visitors_play blocked act) hlater.2.1, hlater.2.2⟩
      -- Nothing else gets the thread while it waits, and it does not go on by itself.
      have hthread : (s.play a act).machine.thread = s.machine.thread := by
        by_cases advances : act = .advance
        · rw [advances]
          change (s.advance a).2.machine.thread = _
          rw [(advance_of_isSuspended a suspended).1 blocked]
        · refine (guards_play a s advances).executing fun idle => ?_
          rw [idle] at suspended
          contradiction
      have hstays := hlater.1 (by rw [hthread]; exact suspended)
      exact ⟨hstays.1.trans hthread, hstays.2⟩

/-! ## Suspension points of runs -/

/-- Listeners that accept whatever they are told comply. -/
theorem complies_of_accept {event : Event}
    (accepts : ∀ depth id s, a.respond depth id event s = .accept) : s.Complies a event := by
  -- The trail stays empty for any list of listeners.
  have hids : ∀ ids, (a.notify event ids s).1 = .ok () ∧ a.notifyDeeds event ids s = [] := by
    intro ids
    induction ids with
    | nil => exact ⟨rfl, rfl⟩
    | cons id later ih =>
        unfold Audience.notify Audience.notifyDeeds Audience.tell Audience.tellDeeds
        rw [accepts a.nesting id s]
        exact ih
  exact ⟨(hids _).1, (hids _).2⟩

/-- What waits at a suspension point that was compiled is the instruction behind it, as a
    whole: the op is over, and the context is as it was. -/
theorem resume_of_suspend (context : Context) {segment : Segment} {op : Nat}
    (hop : segment.ops[op]? = some (.suspend offset)) :
    ∃ next, segment.step op context = .ask (.suspend offset) next ∧
      next (.ok ()) = .done (.ok (.standing (op + 1)), context) := by
  simp only [Segment.step, hop]
  exact ⟨_, rfl, rfl⟩

/-- A running machine passes no breakpoint. In every run, whatever was done before, at every
    suspension point where the execution listeners succeed and make no control calls: they
    are told that it was reached, each once. A running machine stops there exactly if a
    breakpoint matches then, in RAM as it is then. If so, it has neither a start nor a permit
    left, the listeners are told once more, each once, and the thread stays where it is until
    there is a start or a step, as does everyone outside of executions. If not, and at any
    point reached by a machine that was not running, this is all that happens. At a suspension
    point that was compiled, nothing of the instruction has been done. Breakpoints are a set,
    by the calls that made it.

    The listeners that are told of the stop are those that are listed then. One that another
    listener adds while it is told that the point was reached is told of the stop only, and
    one that is removed then is not told of the stop. -/
theorem breakpoints_stop (a : Audience ω) {s : Session ω}
    (once : s.machine.executionListeners.Nodup) (acts : List (Act ω)) {offset : Word}
    {who : Arriver} (arrives : (s.playAll a acts).Arrives offset who)
    (heard : ((s.playAll a acts).facing offset).Complies a .arrival)
    (heard' : (s.playAll a acts).machine.control.running = true →
      ((s.playAll a acts).met a offset).machine.Hit offset →
        ((s.playAll a acts).met a offset).halted.Complies a .status) :
    let t := s.playAll a acts
    let met := t.met a offset
    let after := t.play a (who.act offset)
    let arrivals := (t.facing offset).notices .arrival
    let statuses := met.halted.notices .status
    (t.machine.executionListeners.Nodup ∧ met.machine.executionListeners.Nodup ∧
      (∀ notice ∈ arrivals, notice.control = { t.machine.control with pc := offset }) ∧
      ∀ notice ∈ statuses, notice.control = ⟨false, offset, false⟩) ∧
    (t.machine.control.running = true →
      (after.machine.control.running = false ↔ met.machine.Hit offset) ∧
      (met.machine.Hit offset →
        after.machine.control = ⟨false, offset, false⟩ ∧
        t.Hears a offset who (arrivals ++ statuses) ∧
        ∀ more, (∀ deed ∈ after.trail a more, deed ≠ .start ∧ deed ≠ .step) →
          let later := after.playAll a more
          (who = .program → later.machine.thread = after.machine.thread ∧
            later.advance a = (.blocked, later)) ∧
          after.machine.visitors ≤ later.machine.visitors ∧ later.depart = none)) ∧
    (t.machine.control.running = false ∨ ¬met.machine.Hit offset →
      after = met.modify (fun m => who.wait t.machine.thread m) ∧
      after.machine.control = { t.machine.control with pc := offset } ∧
      t.Hears a offset who arrivals) ∧
    (who = .program → t.advance a = (.moved, after) ∧
      after.machine.thread = t.machine.thread.arrived ∧
      ∀ segment op context, segment.ops[op]? = some (.suspend offset) →
        t.machine.thread = .working segment (segment.step op context) →
          ∃ resume, after.machine.thread = .waiting segment resume ∧
            resume (.ok ()) = .done (.ok (.standing (op + 1)), context)) ∧
    (who = .visitor → t.visit a offset = (.ok (), after) ∧
      after.machine.visitors = t.machine.visitors + 1) ∧
    ∀ (m : Machine) (breakpoint other : Breakpoint),
      (other ∈ (m.addBreakpoint breakpoint).breakpoints ↔
        other = breakpoint ∨ other ∈ m.breakpoints) ∧
      (other ∈ (m.removeBreakpoint breakpoint).breakpoints ↔
        other ∈ m.breakpoints ∧ other ≠ breakpoint) ∧
      other ∉ m.clearBreakpoints.breakpoints := by
  intro t met after arrivals statuses
  have hstopped : t.machine.control.running = true → met.machine.Hit offset →
      after.machine.control = ⟨false, offset, false⟩ := fun running hit =>
    control_play_hit arrives heard (heard' running hit) running hit
  have succeeds := arrive_of_complies heard heard'
  have hafter : after = _ := play_of_arrival arrives succeeds
  refine ⟨⟨nodup_playAll acts s once, ?_, ?_, ?_⟩, fun running => ⟨⟨fun stopped => ?_, ?_⟩, ?_⟩,
    fun missed => ?_, ?_, ?_, ?_⟩
  · exact (orderly_notify a .arrival _ (t.facing offset)).once (nodup_playAll acts s once)
  · intro notice member
    rcases List.mem_map.mp member with ⟨id, _, rfl⟩
    rfl
  · intro notice member
    rcases List.mem_map.mp member with ⟨id, _, rfl⟩
    exact control_halted_met heard
  · -- Without a breakpoint the machine would run on.
    by_contra missed
    change (t.play a (who.act offset)).machine.control.running = false at stopped
    rw [control_play_missed arrives heard fun _ => missed] at stopped
    change t.machine.control.running = false at stopped
    rw [running] at stopped
    contradiction
  · intro hit
    rw [hstopped running hit]
  · intro hit
    refine ⟨hstopped running hit, hears_hit arrives heard (heard' running hit) running hit, ?_⟩
    intro more unprompted
    have hblocks : after.machine.control.blocks = true := by
      rw [hstopped running hit]
      rfl
    have hstays := stays_of_blocked more after hblocks unprompted
    refine ⟨fun program => hstays.1 ?_, hstays.2⟩
    subst program
    rcases happening?_of_ask arrives with ⟨next, asks⟩
    rw [hafter]
    exact (Thread.arrived_of_asks asks).2
  · have hnot : t.machine.control.running = true → ¬met.machine.Hit offset := by
      rcases missed with stopped | missed
      · intro running
        rw [stopped] at running
        contradiction
      · exact fun _ => missed
    exact ⟨play_missed arrives heard hnot, control_play_missed arrives heard hnot,
      hears_missed arrives heard hnot⟩
  · rintro rfl
    have hthread : after.machine.thread = t.machine.thread.arrived := by
      rw [hafter]
      rfl
    refine ⟨?_, hthread, ?_⟩
    · rw [advance_of_arrival arrives succeeds, hafter]
      rfl
    · intro segment op context hop working
      rcases resume_of_suspend context hop with ⟨next, hstep, hnext⟩
      refine ⟨next, ?_, hnext⟩
      -- What waits is what was left of the op when it asked.
      rw [hthread, working, hstep]
      rfl
  · rintro rfl
    have hvisitors := (orderly_arriveWith (orderly_notify a) t offset).visitors
    refine ⟨?_, ?_⟩
    · rw [visit_of_arrival succeeds, hafter]
      rfl
    · rw [hafter]
      exact congrArg (· + 1) hvisitors
  · exact fun m breakpoint other =>
      ⟨Machine.mem_addBreakpoint_iff, Machine.mem_removeBreakpoint_iff, List.not_mem_nil⟩

-- The machine runs past the first instruction and stops in front of the second.
theorem breakpoints_stop_second :
    let a : Audience Unit := ⟨fun _ _ _ _ => .accept, 0⟩
    let acts : List (Act Unit) := [.command (.addExecutionListener 1),
      .command (.addBreakpoint (.pc 8)), .command .start, .execute] ++ List.replicate 7 .advance
    let t := testSession.playAll a acts
    testSession.machine.executionListeners.Nodup ∧ t.Arrives 8 .program ∧
      (t.facing 8).Complies a .arrival ∧ t.machine.control.running = true ∧
      (t.met a 8).machine.Hit 8 ∧ (t.met a 8).halted.Complies a .status ∧
      (t.advance a).2.machine.control = ⟨false, 8, false⟩ ∧
      t.Hears a 8 .program [⟨1, .arrival, ⟨true, 8, false⟩⟩, ⟨1, .status, ⟨false, 8, false⟩⟩] := by
  intro a acts t
  have arrives : t.Arrives 8 .program := by
    unfold Arrives
    decide +kernel
  have running : t.machine.control.running = true := by decide +kernel
  have hit : (t.met a 8).machine.Hit 8 := Or.inl (by decide +kernel)
  have heard : (t.facing 8).Complies a .arrival := complies_of_accept fun _ _ _ => rfl
  have heard' : (t.met a 8).halted.Complies a .status := complies_of_accept fun _ _ _ => rfl
  have hnotices : (t.facing 8).notices .arrival ++ (t.met a 8).halted.notices .status =
      [⟨1, .arrival, ⟨true, 8, false⟩⟩, ⟨1, .status, ⟨false, 8, false⟩⟩] := by decide +kernel
  have hstops := breakpoints_stop a (s := testSession) List.nodup_nil acts arrives heard
    fun _ _ => heard'
  have hplay : testSession.playAll a acts = t := rfl
  rw [hplay] at hstops
  -- What the session is does not matter any more.
  clear_value t
  rcases (hstops.2.1 running).2 hit with ⟨hcontrol, hears, _⟩
  rw [← hnotices]
  exact ⟨List.nodup_nil, arrives, heard, running, hit, heard', hcontrol, hears⟩

end Session

end Transport
