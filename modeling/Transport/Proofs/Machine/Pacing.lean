import Transport.Proofs.Machine.Nudging
import Transport.Proofs.Segment.Stride

/-!
# Runs With and Without Suspension Points

With suspension points in front of its instructions a run takes three steps more for
each instruction: it arrives, it waits, and it passes. In between, what is left of an op
is the same in both segments up to the numbers of ops, so two runs are compared at the
points where the one with suspension points has no steps of its own to take. How many
these are, and what happens in them, is part of the relation.

## Main definitions

* `Machine.stepping`: A machine compiled for single-stepping.
* `PacedOutset`: Where executions go once the instances are attached.
* `Paced`: Threads at matching points, without and with suspension points.
* `Sim`: Machines at matching points.
* `Session.Both`: A step of both runs.

## Theorems

* `sim_alone`, `sim_both`: The run with suspension points takes a step of its own, or
  both take one.
* `sim_after_alone`: The run with suspension points catches up.
* `exists_sim_of_plain`, `exists_sim_of_stepping`: Each run keeps up with the other.
-/

namespace Transport

open Segment

namespace Machine

/-- The machine with programs compiled for single-stepping or not. -/
def singleStep (m : Machine) (on : Bool) : Machine :=
  { m with config := { m.config with options := { m.config.options with singleStep := on } } }

/-- The machine compiled for single-stepping, with another run state and at something
    else. -/
def stepping (m : Machine) (control : RunState) (thread : Thread) : Machine :=
  { m.singleStep true with control, thread }

theorem stored_stepping (m : Machine) (control : RunState) (thread : Thread)
    (offset value : Word) : (m.stepping control thread).stored offset value =
      (m.stored offset value).stepping control thread := by
  have hcheck : (m.stepping control thread).checkStore offset 4 = m.checkStore offset 4 := rfl
  unfold stored
  rw [hcheck]
  cases m.checkStore offset 4 <;> rfl

end Machine

/-- What executions do once their instances are attached, without and with suspension points
    in front of instructions. -/
inductive PacedOutset (registry : Registry) (strict : Bool) : Outset → Outset → Prop
  | whole (ram : Ram) (start stop : Word) : PacedOutset registry strict
      (.whole (plain registry strict ram start stop))
      (.whole (stepped registry strict ram start stop))
  | windowed (size offset : Word) :
      PacedOutset registry strict (.windowed size offset) (.windowed size offset)

/-- Threads at matching points, without and with suspension points in front of
    instructions: what happens before the second is as far as the first, and in how many
    steps. -/
inductive Paced (registry : Registry) (strict : Bool) :
    Thread → Thread → List Happening → Nat → Prop
  | idle : Paced registry strict .idle .idle [] 0
  | starting : Paced registry strict .starting .starting [] 0
  | attaching {outset outset' : Outset} (goes : PacedOutset registry strict outset outset')
      (rest : Dialogue Context) :
      Paced registry strict (.attaching outset rest) (.attaching outset' rest) [] 0
  | detained {outset outset' : Outset} (goes : PacedOutset registry strict outset outset')
      (resume : Except Trap Unit → Dialogue Context) :
      Paced registry strict (.detained outset resume) (.detained outset' resume) [] 0
  | entering (size offset : Word) (context : Context) :
      Paced registry strict (.entering size offset context) (.entering size offset context) [] 0
  | working (ram : Ram) (start stop : Word) (rest : Remainder) :
      Paced registry strict (.working (plain registry strict ram start stop) rest)
        (.working (stepped registry strict ram start stop) (doubledEnd <$> rest)) [] 0
  | waiting (ram : Ram) (start stop : Word) (resume : Except Trap Unit → Remainder) :
      Paced registry strict (.waiting (plain registry strict ram start stop) resume)
        (.waiting (stepped registry strict ram start stop) fun answer =>
          doubledEnd <$> resume answer) [] 0
  /-- An instruction has begun, and its suspension point is to be reached. -/
  | pausing (ram : Ram) (start stop : Word) (index : Nat) (context : Context)
      (inside : index < countOf start stop) :
      Paced registry strict (.working (plain registry strict ram start stop)
          ((plain registry strict ram start stop).step index context))
        (.working (stepped registry strict ram start stop)
          (.ask (.suspend (offsetOf start index)) (behindPoint index context)))
        [.asks (.suspend (offsetOf start index))] 3
  /-- The suspension point of an instruction is reached. -/
  | paused (ram : Ram) (start stop : Word) (index : Nat) (context : Context)
      (inside : index < countOf start stop) :
      Paced registry strict (.working (plain registry strict ram start stop)
          ((plain registry strict ram start stop).step index context))
        (.waiting (stepped registry strict ram start stop) (behindPoint index context)) [] 2
  /-- The suspension point of an instruction is behind. -/
  | passed (ram : Ram) (start stop : Word) (index : Nat) (context : Context)
      (inside : index < countOf start stop) :
      Paced registry strict (.working (plain registry strict ram start stop)
          ((plain registry strict ram start stop).step index context))
        (.working (stepped registry strict ram start stop) (behindPoint index context (.ok ())))
        [] 1

section Paced

variable {registry : Registry} {strict : Bool} {ram : Ram} {start stop : Word} {index : Nat}

/-- An instruction begins. -/
theorem paced_begun (inside : index < countOf start stop) (context : Context) :
    Paced registry strict (.working (plain registry strict ram start stop)
        ((plain registry strict ram start stop).step index context))
      (.working (stepped registry strict ram start stop)
        ((stepped registry strict ram start stop).step (2 * index) context))
      [.asks (.suspend (offsetOf start index))] 3 := by
  rw [step_stepped_even inside]
  exact Paced.pausing ram start stop index context inside

/-- A request of an attachment is answered. -/
theorem paced_attached {outset outset' : Outset} (goes : PacedOutset registry strict outset outset')
    (r : Request) (next : r.Answer → Dialogue Context) (answer : r.Answer) :
    Paced registry strict (Thread.onAnswer (.attaching outset) (.detained outset) r next answer)
      (Thread.onAnswer (.attaching outset') (.detained outset') r next answer) [] 0 := by
  -- Only a suspension that is granted leaves the thread waiting.
  cases r with
  | suspend offset =>
      cases answer with
      | ok _ => exact Paced.detained goes next
      | error trap => exact Paced.attaching goes _
  | readWord | storeWord | print | sendByte | takeByte | hasByte | offered =>
      exact Paced.attaching goes _

/-- A request of an op is answered. -/
theorem paced_answered (r : Request) (next : r.Answer → Remainder) (answer : r.Answer) :
    Paced registry strict
      (Thread.onAnswer (.working (plain registry strict ram start stop))
        (.waiting (plain registry strict ram start stop)) r next answer)
      (Thread.onAnswer (.working (stepped registry strict ram start stop))
        (.waiting (stepped registry strict ram start stop)) r
        (fun answer => doubledEnd <$> next answer) answer) [] 0 := by
  cases r with
  -- As for an attachment, only a granted suspension waits.
  | suspend offset =>
      cases answer with
      | ok _ => exact Paced.waiting ram start stop next
      | error trap => exact Paced.working ram start stop _
  | readWord | storeWord | print | sendByte | takeByte | hasByte | offered =>
      exact Paced.working ram start stop _

/-- The end of the range is reached. -/
theorem paced_behind (outside : countOf start stop ≤ index) (context : Context) :
    Paced registry strict (.working (plain registry strict ram start stop)
        ((plain registry strict ram start stop).step index context))
      (.working (stepped registry strict ram start stop)
        ((stepped registry strict ram start stop).step (2 * index) context)) [] 0 := by
  rw [step_stepped_of_le outside]
  exact Paced.working ram start stop _

end Paced

/-- A machine without suspension points in front of its instructions runs, also with
    another run state, and no breakpoint stops it. -/
def Ready (m : Machine) (control : RunState) : Prop :=
  m.config.options.singleStep = false ∧ m.control.running = true ∧ control.running = true ∧
    m.breakpoints = []

namespace Ready

variable {m : Machine} {control : RunState}

theorem plain (ready : Ready m control) : m.config.options.singleStep = false := ready.1

theorem running (ready : Ready m control) : m.control.running = true := ready.2.1

theorem running' (ready : Ready m control) : control.running = true := ready.2.2.1

theorem unbroken (ready : Ready m control) : m.breakpoints = [] := ready.2.2.2

end Ready

/-- Machines at matching points of runs, without and with suspension points in front of
    instructions. -/
structure Sim (m m' : Machine) (pending : List Happening) (alone : Nat) : Prop where
  ready : Ready m m'.control
  stepping : m' = m.stepping m'.control m'.thread
  paced : Paced m.registry m.config.options.strict m.thread m'.thread pending alone

namespace Session

variable {ω : Type} {o : Observer ω} {s t : Session ω} {m : Machine} {control : RunState}
  {pending : List Happening} {alone : Nat}

theorem happening_plain {registry : Registry} {strict : Bool} {ram : Ram} {start stop : Word}
    {index : Nat} {context : Context}
    (h : m.thread = .working (plain registry strict ram start stop)
      (.done (.ok (.standing index), context))) :
    m.happening? =
      if index < countOf start stop then some (.begins (offsetOf start index)) else none := by
  have hsize := @size_layout registry ⟨strict, false⟩ ram start stop
  simp only [Machine.happening?, h, plain, hsize]
  simp [layout, Options.stride, Nat.mod_one]

theorem happening_stepped {registry : Registry} {strict : Bool} {ram : Ram} {start stop : Word}
    {op : Nat} {context : Context}
    (h : m.thread = .working (stepped registry strict ram start stop)
      (.done (.ok (.standing op), context))) :
    m.happening? =
      if op % 2 = 0 ∧ op / 2 < countOf start stop then some (.begins (offsetOf start (op / 2)))
      else none := by
  have hsize := @size_layout registry ⟨strict, true⟩ ram start stop
  simp only [Machine.happening?, h, stepped, hsize]
  simp [layout, Options.stride]

/-! ## Steps of the run with suspension points -/

/-- The run with suspension points takes a step of its own. -/
theorem sim_alone (quiet : o.Quiet) (sim : Sim s.machine t.machine pending (alone + 1)) :
    (t.advance o.audience).1 = .moved ∧ ∃ pending',
      pending = t.machine.happening?.toList ++ pending' ∧
        Sim s.machine (t.advance o.audience).2.machine pending' alone := by
  rcases s with ⟨m, notes⟩
  rcases t with ⟨m', notes'⟩
  change Sim m m' pending (alone + 1) at sim
  rcases sim with ⟨ready, hstepping, hpaced⟩
  -- The machines differ in nothing but the thread and the run state.
  generalize m'.control = control at ready hstepping
  generalize m'.thread = thread at hstepping hpaced
  subst hstepping
  generalize hthread : m.thread = first at hpaced
  cases hpaced with
  | pausing ram start stop index context inside =>
      -- The listeners hear of the arrival, and none of them can break the run.
      rcases o.exists_arrive_eq quiet (s := ⟨m.stepping control _, notes'⟩) ready.unbroken
        (offsetOf start index) with ⟨told, harrive⟩
      rw [advance_suspend (s := ⟨m.stepping control _, notes'⟩) o.audience rfl, harrive]
      refine ⟨rfl, [], rfl, ready, rfl, ?_⟩
      rw [hthread]
      exact Paced.paused ram start stop index context inside
  | paused ram start stop index context inside =>
      -- The machine runs, so whoever waits goes on at once.
      rw [advance_of_waits (s := ⟨m.stepping control _, notes'⟩) o.audience
        ⟨ready.running', ready.unbroken⟩ (Thread.Waits.working _ _)]
      refine ⟨rfl, [], rfl, ready, rfl, ?_⟩
      rw [hthread]
      exact Paced.passed ram start stop index context inside
  | passed ram start stop index context inside =>
      -- The instruction behind the point begins: an odd op, which is no happening of its own.
      let t : Session ω := ⟨m.stepping control (.working
        (stepped m.registry m.config.options.strict ram start stop)
        (behindPoint index context (.ok ()))), notes'⟩
      have hadvance := advance_standing (s := t) o.audience rfl
      have hhappening := happening_stepped (m := t.machine) rfl
      rw [if_neg (by omega)] at hhappening
      rw [hadvance, step_stepped_odd inside, hhappening]
      refine ⟨rfl, [], rfl, ready, rfl, ?_⟩
      rw [hthread]
      exact Paced.working ram start stop _

/-! ## Steps of both runs -/

/-- A step of a run without suspension points and one of a run with them, and what
    happens with these. -/
structure Both (happened happened' : Option Happening) (p q : Advance × Session ω) : Prop where
  amount : q.1 = p.1
  sim : ∃ pending alone,
    happened.toList.flatMap Happening.stepped = happened'.toList ++ pending ∧
      Sim p.2.machine q.2.machine pending alone

/-- A machine compiled for single-stepping fails to compile what it would fail to compile
    otherwise. -/
theorem compile_stepping (ready : Ready m control) (thread : Thread) (start stop : Word) :
    (∃ error, m.compile start stop = .error error ∧
        (m.stepping control thread).compile start stop = .error error) ∨
      m.compile start stop =
          .ok (plain m.registry m.config.options.strict m.ram start stop) ∧
        (m.stepping control thread).compile start stop =
          .ok (stepped m.registry m.config.options.strict m.ram start stop) := by
  have hoptions : m.config.options = ⟨m.config.options.strict, false⟩ := by rw [← ready.plain]
  have hcompile : m.compile start stop =
      compile m.registry ⟨m.config.options.strict, false⟩ m.ram start stop := by
    rw [← hoptions]
    rfl
  rcases compile_singleStep m.registry m.config.options.strict m.ram start stop with
    ⟨error, hfails⟩ | hcompiled
  · exact Or.inl ⟨error, hcompile.trans (hfails false), hfails true⟩
  · exact Or.inr ⟨hcompile.trans (hcompiled false), hcompiled true⟩

/-- Both enter a segment, and the one with suspension points has one to reach first. -/
theorem both_enter (ready : Ready m control) (thread : Thread) (notes notes' : ω) (ram : Ram)
    (start stop : Word) (entry : Nat) (context : Context) {segment segment' : Segment}
    (hplain : segment = plain m.registry m.config.options.strict ram start stop)
    (hstepped : segment' = stepped m.registry m.config.options.strict ram start stop) :
    Both (segment.beginning? entry) (segment'.beginning? entry)
      (enter ⟨m.setLive segment, notes⟩ segment entry context)
      (enter ⟨(m.stepping control thread).setLive segment', notes'⟩ segment' entry context) := by
  have hsize : segment.size = countOf start stop := hplain ▸ size_layout _ _ _
  have hsize' : segment'.size = countOf start stop := hstepped ▸ size_layout _ _ _
  have hstart : segment.start = start ∧ segment'.start = start :=
    ⟨hplain ▸ rfl, hstepped ▸ rfl⟩
  have henters : segment'.enter entry = (segment.enter entry).map (2 * ·) := by
    rw [hplain, hstepped, enter_stepped]
  unfold Segment.beginning? enter
  rw [hsize, hsize', henters, hstart.1, hstart.2]
  rcases Nat.lt_or_ge entry (countOf start stop) with inside | outside
  · have henter : segment.enter entry = .ok entry := by
      rw [hplain, plain, enter_layout inside]
      simp [Options.stride]
    rw [henter, if_pos inside, hplain, hstepped]
    refine ⟨rfl, _, 3, rfl, ready, ?_,
      paced_begun inside context⟩
    -- Both code maps are the same.
    unfold Machine.setLive
    rw [codeMap_stepped]
    rfl
  · have henter : segment.enter entry = .error (.entryOutOfRange entry) := by
      rw [hplain, plain, enter_layout_of_le outside]
    rw [henter, if_neg (Nat.not_lt.mpr outside)]
    exact ⟨rfl, [], 0, rfl, ready, rfl, Paced.idle⟩

theorem both_startWhole (ready : Ready m control) (thread : Thread) (notes notes' : ω) :
    Both none none (startWhole ⟨m, notes⟩) (startWhole ⟨m.stepping control thread, notes'⟩) := by
  have hend : (m.stepping control thread).codeEnd = m.codeEnd := rfl
  simp only [startWhole, hend]
  rcases compile_stepping ready thread 0 m.codeEnd with
    ⟨error, hfails, hfails'⟩ | ⟨hcompiled, hcompiled'⟩
  · rw [hfails, hfails']
    exact ⟨rfl, [], 0, rfl, ready, rfl, Paced.idle⟩
  · rw [hcompiled, hcompiled']
    exact ⟨rfl, [], 0, rfl, ready, rfl, Paced.attaching (.whole m.ram 0 m.codeEnd) _⟩

theorem both_enterWindow (ready : Ready m control) (notes notes' : ω) (size offset : Word)
    (context : Context) (entering : m.thread = .entering size offset context) :
    let m' := m.stepping control (.entering size offset context)
    Both m.happening? m'.happening? (enterWindow ⟨m, notes⟩ size offset context)
      (enterWindow ⟨m', notes'⟩ size offset context) := by
  intro m'
  have hwindow : m'.windowOf size offset = m.windowOf size offset := rfl
  have hthread : m'.thread = .entering size offset context := rfl
  simp only [enterWindow, Machine.happening?, hwindow, entering, hthread]
  -- Windows are the same, and compiled for the same slots, or refused alike.
  rcases compile_stepping ready (.entering size offset context) (m.windowOf size offset).1
    (m.windowOf size offset).2 with ⟨error, hfails, hfails'⟩ | ⟨hcompiled, hcompiled'⟩
  · rw [hfails, hfails']
    exact ⟨rfl, [], 0, rfl, ready, rfl, Paced.idle⟩
  · rw [hcompiled, hcompiled']
    exact both_enter ready _ notes notes' m.ram _ _ _ context rfl rfl

theorem both_embark (ready : Ready m control) (notes notes' : ω) {outset outset' : Outset}
    (goes : PacedOutset m.registry m.config.options.strict outset outset') (context : Context)
    (attached : m.thread = .attaching outset (.done context)) :
    let m' := m.stepping control (.attaching outset' (.done context))
    Both m.happening? m'.happening? (embark ⟨m, notes⟩ context outset)
      (embark ⟨m', notes'⟩ context outset') := by
  intro m'
  have hthread : m'.thread = .attaching outset' (.done context) := rfl
  have hentry : m'.config.entry = m.config.entry := rfl
  cases goes with
  | whole ram start stop =>
      simp only [Machine.happening?, attached, hthread, hentry]
      exact both_enter ready _ notes notes' ram start stop m.config.entry context rfl rfl
  | windowed size offset =>
      simp only [Machine.happening?, attached, hthread]
      exact ⟨rfl, [], 0, rfl, ready, rfl, Paced.entering size offset context⟩

theorem both_leave (ready : Ready m control) (thread : Thread) (notes notes' : ω) (target : Word)
    (context : Context) : Both none none (leave ⟨m, notes⟩ target context)
      (leave ⟨m.stepping control thread, notes'⟩ target context) := by
  have hsize : (m.stepping control thread).config.segmentSize = m.config.segmentSize := rfl
  unfold leave
  dsimp only
  rw [hsize]
  cases m.config.segmentSize with
  | none => exact ⟨rfl, [], 0, rfl, ready, rfl, Paced.idle⟩
  -- Where the next window begins does not depend on how instructions are paced.
  | some size =>
      change Both none none (if target < m.codeEnd then _ else _)
        (if target < m.codeEnd then _ else _)
      split
      · exact ⟨rfl, [], 0, rfl, ready, rfl, Paced.entering size target context⟩
      · exact ⟨rfl, [], 0, rfl, ready, rfl, Paced.idle⟩

theorem both_startWindowed (ready : Ready m control) (thread : Thread) (notes notes' : ω)
    (size : Word) : Both none none (startWindowed ⟨m, notes⟩ size)
      (startWindowed ⟨m.stepping control thread, notes'⟩ size) := by
  rw [startWindowed_eq, startWindowed_eq]
  change Both none none (if m.config.entry < m.slotCount then _ else _)
    (if m.config.entry < m.slotCount then _ else _)
  split
  · exact ⟨rfl, [], 0, rfl, ready, rfl, Paced.attaching (.windowed size _) _⟩
  · exact ⟨rfl, [], 0, rfl, ready, rfl, Paced.idle⟩

/-- A request is answered alike. -/
theorem answer_stepping (quiet : o.Quiet) (ready : Ready m control) (thread : Thread)
    (notes notes' : ω) (r : Request) :
    let p := answer o.audience ⟨m, notes⟩ r
    let q := answer o.audience ⟨m.stepping control thread, notes'⟩ r
    q.1 = p.1 ∧ q.2.machine = p.2.machine.stepping q.2.machine.control thread ∧
      Ready p.2.machine q.2.machine.control ∧ p.2.machine.registry = m.registry ∧
      p.2.machine.config = m.config := by
  cases r with
  | suspend offset =>
      -- Listeners that do not act change nothing but their notes, on both sides.
      rcases o.exists_arrive_eq quiet (s := ⟨m, notes⟩) ready.unbroken offset with ⟨told, h⟩
      rcases o.exists_arrive_eq quiet (s := ⟨m.stepping control thread, notes'⟩) ready.unbroken
        offset with ⟨told', h'⟩
      simp only [answer, h, h', true_and]
      exact ⟨rfl, ready, rfl, rfl⟩
  | storeWord offset value =>
      rcases o.exists_store_eq quiet ⟨m, notes⟩ offset value with ⟨told, h⟩
      rcases o.exists_store_eq quiet ⟨m.stepping control thread, notes'⟩ offset value with
        ⟨told', h'⟩
      rcases m.stored_eq offset value with ⟨ram, hstored⟩
      have hcheck : (m.stepping control thread).checkStore offset 4 = m.checkStore offset 4 := rfl
      simp only [answer, h, h', m.stored_stepping, hstored, hcheck, true_and, and_true]
      exact ⟨rfl, ready⟩
  | readWord | print | sendByte | takeByte | hasByte | offered =>
      exact ⟨rfl, rfl, ready, rfl, rfl⟩

/-- Both ask the same, and are at matching points behind the answer. -/
theorem both_of_asks (quiet : o.Quiet) (ready : Ready m control) {thread : Thread}
    (notes notes' : ω) {r : Request} {next next' : r.Answer → Thread}
    (asks : m.thread.Asks r next) (asks' : thread.Asks r next')
    (paced : ∀ answer, Paced m.registry m.config.options.strict (next answer) (next' answer) [] 0) :
    Both m.happening? (m.stepping control thread).happening? (advance o.audience ⟨m, notes⟩)
      (advance o.audience ⟨m.stepping control thread, notes'⟩) := by
  rcases answer_stepping quiet ready thread notes notes' r with
    ⟨hanswer, hmachine, hready, hregistry, hconfig⟩
  -- Both threads ask the same and are answered the same, so the simulation goes on behind it.
  have asks'' : (m.stepping control thread).thread.Asks r next' := asks'
  rw [Machine.happening?_of_asks asks, Machine.happening?_of_asks asks'',
    advance_asks (s := ⟨m, notes⟩) _ asks,
    advance_asks (s := ⟨m.stepping control thread, notes'⟩) _ asks'', hanswer]
  refine ⟨rfl, [], 0, rfl, hready, ?_, ?_⟩
  · simp only [modify]
    rw [hmachine]
    rfl
  · have hpaced := paced (answer o.audience ⟨m, notes⟩ r).1
    rw [← hregistry, ← hconfig] at hpaced
    exact hpaced

/-- Neither is held up where it waits. -/
theorem both_of_waits (a : Audience ω) (ready : Ready m control) {thread : Thread}
    (notes notes' : ω) {next next' : Thread} (waits : m.thread.Waits next)
    (waits' : thread.Waits next')
    (paced : Paced m.registry m.config.options.strict next next' [] 0) :
    Both m.happening? (m.stepping control thread).happening? (advance a ⟨m, notes⟩)
      (advance a ⟨m.stepping control thread, notes'⟩) := by
  have waits'' : (m.stepping control thread).thread.Waits next' := waits'
  rw [Machine.happening?_of_waits waits, Machine.happening?_of_waits waits'',
    advance_of_waits (s := ⟨m, notes⟩) a ⟨ready.running, ready.unbroken⟩ waits,
    advance_of_waits (s := ⟨m.stepping control thread, notes'⟩) a
      ⟨ready.running', ready.unbroken⟩ waits'']
  exact ⟨rfl, [], 0, rfl, ready, rfl, paced⟩

theorem both_advanceWork (quiet : o.Quiet) (ready : Ready m control) (notes notes' : ω)
    (ram : Ram) (start stop : Word) (rest : Remainder)
    (working : m.thread =
      .working (plain m.registry m.config.options.strict ram start stop) rest) :
    let segment := stepped m.registry m.config.options.strict ram start stop
    let m' := m.stepping control (.working segment (doubledEnd <$> rest))
    Both m.happening? m'.happening? (advance o.audience ⟨m, notes⟩)
      (advance o.audience ⟨m', notes'⟩) := by
  intro segment m'
  have hthread : m'.thread = .working segment (doubledEnd <$> rest) := rfl
  rcases rest with ⟨⟨trap | op | _ | target, context⟩⟩ | ⟨request, next⟩
  · rw [advance_error (s := ⟨m, notes⟩) _ working, advance_error (s := ⟨m', notes'⟩) _ hthread,
      show m.happening? = none by simp only [Machine.happening?, working]]
    exact ⟨rfl, [], 0, rfl, ready, rfl, Paced.idle⟩
  · rw [advance_standing (s := ⟨m, notes⟩) _ working,
      advance_standing (s := ⟨m', notes'⟩) _ hthread, happening_plain working,
      happening_stepped (m := m') rfl]
    -- An op that stands for an instruction comes with a suspension point when single-stepping.
    have hop : 2 * op / 2 = op := by omega
    rcases Nat.lt_or_ge op (countOf start stop) with inside | outside
    · rw [if_pos inside, if_pos ⟨by omega, by rwa [hop]⟩, hop]
      exact ⟨rfl, _, 3, rfl, ready, rfl, paced_begun inside context⟩
    · rw [if_neg (by omega), if_neg (by omega)]
      exact ⟨rfl, [], 0, rfl, ready, rfl, paced_behind outside context⟩
  · rw [advance_completed (s := ⟨m, notes⟩) _ working,
      advance_completed (s := ⟨m', notes'⟩) _ hthread,
      show m.happening? = none by simp only [Machine.happening?, working]]
    exact ⟨rfl, [], 0, rfl, ready, rfl, Paced.idle⟩
  · rw [eq_of_smallStep (s := ⟨m, notes⟩) (.leaves working),
      eq_of_smallStep (s := ⟨m', notes'⟩) (.leaves hthread),
      show m.happening? = none by simp only [Machine.happening?, working]]
    exact both_leave ready _ notes notes' target context
  · exact both_of_asks quiet ready notes notes'
      (working ▸ Thread.Asks.working _ request next)
      (Thread.Asks.working _ request fun answer => doubledEnd <$> next answer)
      (paced_answered request next)

/-- Where the run with suspension points has no steps of its own to take, both take
    one. -/
theorem sim_both (quiet : o.Quiet) (sim : Sim s.machine t.machine pending 0) :
    pending = [] ∧ Both s.machine.happening? t.machine.happening? (s.advance o.audience)
      (t.advance o.audience) := by
  rcases s with ⟨m, notes⟩
  rcases t with ⟨m', notes'⟩
  change Sim m m' pending 0 at sim
  rcases sim with ⟨ready, hstepping, hpaced⟩
  generalize m'.control = control at ready hstepping
  generalize m'.thread = thread at hstepping hpaced
  subst hstepping
  -- What remains is by how the two threads are paced. In the three cases of a suspension point
  -- the second run is ahead on its own, and `alone` is not zero.
  generalize hthread : m.thread = first at hpaced
  cases hpaced with
  | idle =>
      refine ⟨rfl, ?_⟩
      rw [advance_idle (s := ⟨m, notes⟩) hthread,
        show m.happening? = none by simp only [Machine.happening?, hthread]]
      have hidle : Paced m.registry m.config.options.strict m.thread .idle [] 0 := by
        rw [hthread]
        exact Paced.idle
      exact ⟨rfl, [], 0, rfl, ready, rfl, hidle⟩
  | starting =>
      refine ⟨rfl, ?_⟩
      have hthread' : (m.stepping control .starting).thread = .starting := rfl
      simp only [Machine.happening?, hthread, hthread']
      cases hsize : m.config.segmentSize with
      | none =>
          rw [eq_of_smallStep (s := ⟨m, notes⟩) (.whole hthread hsize),
            eq_of_smallStep (s := ⟨m.stepping control .starting, notes'⟩) (.whole rfl hsize)]
          exact both_startWhole ready .starting notes notes'
      | some size =>
          rw [eq_of_smallStep (s := ⟨m, notes⟩) (.windowed hthread hsize),
            eq_of_smallStep (s := ⟨m.stepping control .starting, notes'⟩) (.windowed rfl hsize)]
          exact both_startWindowed ready .starting notes notes' size
  | attaching goes rest =>
      refine ⟨rfl, ?_⟩
      cases rest with
      | done context =>
          rw [eq_of_smallStep (s := ⟨m, notes⟩) (.embarks hthread),
            eq_of_smallStep (s := ⟨m.stepping control _, notes'⟩) (.embarks rfl)]
          exact both_embark ready notes notes' goes context hthread
      | ask request next =>
          exact both_of_asks quiet ready notes notes'
            (hthread ▸ Thread.Asks.attaching _ request next)
            (Thread.Asks.attaching _ request next) (paced_attached goes request next)
  | detained goes resume =>
      exact ⟨rfl, both_of_waits _ ready notes notes' (hthread ▸ Thread.Waits.attaching _ resume)
        (Thread.Waits.attaching _ resume) (Paced.attaching goes _)⟩
  | entering size offset context =>
      refine ⟨rfl, ?_⟩
      rw [eq_of_smallStep (s := ⟨m, notes⟩) (.enters hthread),
        eq_of_smallStep (s := ⟨m.stepping control _, notes'⟩) (.enters rfl)]
      exact both_enterWindow ready notes notes' size offset context hthread
  | working ram start stop rest =>
      exact ⟨rfl, both_advanceWork quiet ready notes notes' ram start stop rest hthread⟩
  | waiting ram start stop resume =>
      exact ⟨rfl, both_of_waits _ ready notes notes' (hthread ▸ Thread.Waits.working _ resume)
        (Thread.Waits.working _ _) (Paced.working ram start stop _)⟩

/-! ## Runs -/

/-- The run with suspension points takes its own steps. -/
theorem sim_after_alone (quiet : o.Quiet) (alone : Nat) : ∀ (t : Session ω) (pending),
    Sim s.machine t.machine pending alone →
      t.happenings (advance o.audience) alone = pending ∧
        Sim s.machine (t.after o.audience alone).machine [] 0 := by
  -- Induction on the steps the second run takes alone.
  induction alone with
  | zero =>
      intro t pending sim
      rcases sim_both quiet sim with ⟨rfl, _⟩
      exact ⟨rfl, sim⟩
  | succ alone ih =>
      intro t pending sim
      rcases sim_alone quiet sim with ⟨_, pending', rfl, sim'⟩
      rcases ih _ _ sim' with ⟨hhappenings, hsim⟩
      exact ⟨by rw [happenings, hhappenings], hsim⟩

/-- The run with suspension points keeps up with the other. -/
theorem exists_sim_of_plain (quiet : o.Quiet) (n : Nat) : ∀ s t : Session ω,
    Sim s.machine t.machine [] 0 → ∃ m,
      Sim (s.after o.audience n).machine (t.after o.audience m).machine [] 0 ∧
        t.happenings (advance o.audience) m =
          (s.happenings (advance o.audience) n).flatMap Happening.stepped := by
  -- Induction on the plain run: one step of both, then those the other takes alone.
  induction n with
  | zero => exact fun s t sim => ⟨0, sim, rfl⟩
  | succ n ih =>
      intro s t sim
      rcases (sim_both quiet sim).2.sim with ⟨pending, alone, hpending, sim'⟩
      rcases sim_after_alone quiet alone _ _ sim' with ⟨halone, hsim⟩
      rcases ih _ _ hsim with ⟨m, hsim', hhappenings⟩
      refine ⟨alone + m + 1, ?_, ?_⟩
      · rw [after, after, after_add]
        exact hsim'
      · rw [happenings, happenings, happenings_add, halone, hhappenings, List.flatMap_append,
          hpending, List.append_assoc]

/-- The run without suspension points keeps up with the other. -/
theorem exists_sim_of_stepping (quiet : o.Quiet) (m : Nat) : ∀ (s t : Session ω) (pending alone),
    Sim s.machine t.machine pending alone → ∃ n pending' alone',
      Sim (s.after o.audience n).machine (t.after o.audience m).machine pending' alone' ∧
        pending ++ (s.happenings (advance o.audience) n).flatMap Happening.stepped =
          t.happenings (advance o.audience) m ++ pending' := by
  -- Conversely, a step of the stepping run is one of both if nothing is left to do alone.
  induction m with
  | zero => exact fun s t pending alone sim => ⟨0, pending, alone, sim, List.append_nil _⟩
  | succ m ih =>
      intro s t pending alone sim
      cases alone with
      | zero =>
          rcases sim_both quiet sim with ⟨rfl, _, pending₁, alone₁, hpending, sim₁⟩
          rcases ih _ _ _ _ sim₁ with ⟨n, pending', alone', hsim, hhappenings⟩
          refine ⟨n + 1, pending', alone', hsim, ?_⟩
          rw [happenings, happenings, List.flatMap_append, hpending, List.append_assoc,
            hhappenings, List.nil_append, List.append_assoc]
      | succ alone =>
          rcases sim_alone quiet sim with ⟨_, pending₁, rfl, sim₁⟩
          rcases ih _ _ _ _ sim₁ with ⟨n, pending', alone', hsim, hhappenings⟩
          refine ⟨n, pending', alone', hsim, ?_⟩
          rw [happenings, List.append_assoc, hhappenings, List.append_assoc]

end Session

end Transport
