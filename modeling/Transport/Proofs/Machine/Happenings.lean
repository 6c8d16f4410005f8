import Transport.Proofs.Machine.Endings

/-!
# What Happens in a Run

The instructions that a run begins and what it asks of the machine, in their order:
loads and stores, prints, the traffic of devices, and suspension points. The instances
that are attached first may ask for the same things. Listeners are
told of the arrivals at suspension points, and of the beginning of an instruction they
only learn if there is a suspension point in front of it.

Listeners that never refuse and give no commands do not matter to a run: whatever
they note down, a store is made if it passes the check, and an arrival succeeds. A log
of who was told where the program counter is can be kept beside their own notes, and
follows from what happened.

## Main definitions

* `Happening`, `Machine.happening?`: What the next small step does.
* `Session.happenings`: What happens in a number of small steps.
* `Observer.Quiet`: Listeners that look and never refuse.
* `Observer.logging`: Listeners with a log of the program counters they are told.
* `Machine.stored`: What a store makes of a machine.
* `Segment.beginning?`: The instruction that begins as a segment is entered.

## Theorems

* `happenings_add`: What happens in a run that is split.
* `exists_store_eq`, `exists_arrive_eq`: Stores and arrivals that quiet listeners are
  told of.
* `logs_advance`, `logs_after`: What a run adds to the log.
-/

namespace Transport

/-- What happens in a run. -/
inductive Happening where
  /-- The instruction at an offset begins. -/
  | begins (offset : Word)
  /-- Something is asked of the machine; to pass a suspension point, among others. -/
  | asks (request : Request)
  deriving DecidableEq

namespace Happening

/-- What happens in the place of it where every instruction has a suspension point in
    front: an instruction begins by asking to pass. -/
def stepped : Happening → List Happening
  | .begins offset => [.begins offset, .asks (.suspend offset)]
  | .asks request => [.asks request]

/-- Whom it is told where the program counter is, if these are the listeners. -/
def told (ids : List ListenerId) : Happening → List (ListenerId × Word)
  | .asks (.suspend offset) => ids.map fun id => (id, offset)
  | _ => []

end Happening

namespace Machine

/-- The machine after a store of a word, which is made if it passes the check. -/
def stored (m : Machine) (offset value : Word) : Machine :=
  match m.checkStore offset 4 with
  | .ok () => m.putBytes offset (Word.bytes value)
  | .error _ => m

/-- A store changes RAM alone. -/
theorem stored_eq (m : Machine) (offset value : Word) :
    ∃ ram, m.stored offset value = { m with ram } := by
  unfold stored
  cases m.checkStore offset 4 with
  | error trap => exact ⟨m.ram, rfl⟩
  | ok _ => exact ⟨_, rfl⟩

end Machine

/-- The beginning of an instruction, as a segment is entered there. -/
def Segment.beginning? (segment : Segment) (entry : Nat) : Option Happening :=
  if entry < segment.size then some (.begins (Segment.offsetOf segment.start entry)) else none

namespace Machine

/-- What happens with the next small step. An instruction begins with its first op. -/
def happening? (m : Machine) : Option Happening :=
  match m.thread with
  | .attaching (.whole segment) (.done _) => segment.beginning? m.config.entry
  | .attaching _ (.ask request _) => some (.asks request)
  | .entering size offset _ =>
    let (start, stop) := m.windowOf size offset
    match m.compile start stop with
    | .ok segment => segment.beginning? ((offset - start) / 8).toNat
    | .error _ => none
  | .working segment (.done (.ok (.standing op), _)) =>
    if op % segment.options.stride = 0 ∧ op / segment.options.stride < segment.size then
      some (.begins (Segment.offsetOf segment.start (op / segment.options.stride)))
    else none
  | .working _ (.ask request _) => some (.asks request)
  | _ => none

theorem happening?_of_asks {m : Machine} {r : Request} {next : r.Answer → Thread}
    (h : m.thread.Asks r next) : m.happening? = some (.asks r) := by
  generalize hthread : m.thread = thread at h
  cases h <;> simp only [happening?, hthread]

theorem happening?_of_waits {m : Machine} {next : Thread} (h : m.thread.Waits next) :
    m.happening? = none := by
  generalize hthread : m.thread = thread at h
  cases h <;> simp only [happening?, hthread]

end Machine

namespace Session

variable {ω : Type}

/-- What happens in a number of small steps, taken in some way. -/
def happenings (go : Session ω → Advance × Session ω) : Nat → Session ω → List Happening
  | 0, _ => []
  | count + 1, s => s.machine.happening?.toList ++ happenings go count (go s).2

theorem happenings_add (a : Audience ω) (m n : Nat) : ∀ s : Session ω,
    s.happenings (advance a) (m + n) =
      s.happenings (advance a) m ++ (s.after a m).happenings (advance a) n := by
  induction m with
  | zero => intro s; simp [happenings, after]
  | succ m ih =>
      intro s
      rw [Nat.succ_add, happenings, ih, happenings, after, List.append_assoc]

theorem happenings_succ (a : Audience ω) (n : Nat) (s : Session ω) :
    s.happenings (advance a) (n + 1) =
      s.happenings (advance a) n ++ (s.after a n).machine.happening?.toList := by
  rw [happenings_add, happenings, happenings, List.append_nil]

end Session

namespace Observer

variable {ω : Type} {o : Observer ω}

/-- Listeners that look and never refuse. -/
def Quiet (o : Observer ω) : Prop := ∀ id event shown notes, (o.see id event shown notes).2 = none

theorem exists_told_eq (quiet : o.Quiet) (event : Event) (shown : Machine)
    (ids : List ListenerId) : ∀ notes, ∃ notes', o.told event shown ids notes = (.ok (), notes') := by
  induction ids with
  | nil => intro notes; exact ⟨notes, rfl⟩
  | cons id later ih =>
      intro notes
      have hsee := quiet id event shown notes
      unfold told
      -- A quiet listener accepts, so the next one is told.
      generalize o.see id event shown notes = seen at hsee
      rcases seen with ⟨notes', _ | reason⟩
      · exact ih notes'
      · contradiction

/-- A store that quiet listeners are told of is made if it passes the check. -/
theorem exists_store_eq (quiet : o.Quiet) (s : Session ω) (offset value : Word) :
    ∃ notes, s.store o.audience offset value =
      (s.machine.checkStore offset 4, ⟨s.machine.stored offset value, notes⟩) := by
  rcases o.exists_told_eq quiet (.store offset value) s.machine.bare s.machine.memoryListeners
    s.audience with ⟨notes, htold⟩
  rw [store_eq, Machine.stored]
  cases s.machine.checkStore offset 4 with
  | error trap => exact ⟨s.audience, rfl⟩
  | ok _ => exact ⟨notes, by simp only [htold]⟩

/-- An arrival that quiet listeners are told of succeeds. -/
theorem exists_arrive_eq (quiet : o.Quiet) {s : Session ω} (unbroken : s.machine.breakpoints = [])
    (offset : Word) :
    ∃ notes, s.arrive o.audience offset =
      (.ok (), ⟨s.machine.modifyControl fun state => { state with pc := offset }, notes⟩) := by
  let m := s.machine.modifyControl fun state => { state with pc := offset }
  rcases o.exists_told_eq quiet .arrival m.bare m.executionListeners s.audience with
    ⟨notes, htold⟩
  refine ⟨notes, (arrive_eq o unbroken offset).trans ?_⟩
  dsimp only
  rw [htold]

/-! ## Logs -/

/-- What is logged of an event that a listener is told of: the listener and the program
    counter, if it is an arrival. -/
def logged (event : Event) (shown : Machine) (id : ListenerId) : List (ListenerId × Word) :=
  match event with
  | .arrival => [(id, shown.control.pc)]
  | .store .. | .status => []

/-- Listeners with a log of the program counters they are told. -/
def logging (o : Observer ω) : Observer (ω × List (ListenerId × Word)) where
  see id event shown notes :=
    (((o.see id event shown notes.1).1, notes.2 ++ logged event shown id),
      (o.see id event shown notes.1).2)

theorem quiet_logging (quiet : o.Quiet) : o.logging.Quiet :=
  fun id event shown notes => quiet id event shown notes.1

theorem log_told (quiet : o.Quiet) (event : Event) (shown : Machine) (ids : List ListenerId) :
    ∀ notes, (o.logging.told event shown ids notes).2.2 =
      notes.2 ++ ids.flatMap (logged event shown) := by
  -- Induction on those still to be told; a quiet observer never refuses.
  induction ids with
  | nil => intro notes; exact (List.append_nil _).symm
  | cons id later ih =>
      intro notes
      have hsee := o.quiet_logging quiet id event shown notes
      unfold told
      generalize hseen : o.logging.see id event shown notes = seen at hsee
      rcases seen with ⟨notes', _ | reason⟩
      · have hnotes : notes'.2 = notes.2 ++ logged event shown id := by
          rw [logging, Prod.mk.injEq] at hseen
          rw [← hseen.1]
        rw [List.flatMap_cons, ← List.append_assoc, ← hnotes]
        exact ih notes'
      · contradiction

end Observer

namespace Session

variable {ω : Type} {o : Observer ω}

/-- The log of one session is that of another behind what happened, and neither the
    listeners nor the breakpoints changed. -/
structure Logs (s s' : Session (ω × List (ListenerId × Word))) (happened : List Happening) :
    Prop where
  log : s'.audience.2 =
    s.audience.2 ++ happened.flatMap (Happening.told s.machine.executionListeners)
  listeners : s'.machine.executionListeners = s.machine.executionListeners
  breakpoints : s'.machine.breakpoints = s.machine.breakpoints

variable {s s' s'' : Session (ω × List (ListenerId × Word))} {happened more : List Happening}

theorem logs_append (h : Logs s s' happened) (h' : Logs s' s'' more) :
    Logs s s'' (happened ++ more) where
  log := by rw [h'.log, h.log, h.listeners, List.flatMap_append, List.append_assoc]
  listeners := h'.listeners.trans h.listeners
  breakpoints := h'.breakpoints.trans h.breakpoints

/-- Nobody is told where the program counter is. -/
theorem logs_silent (silent : happened.flatMap (Happening.told s.machine.executionListeners) = [])
    (log : s'.audience.2 = s.audience.2)
    (listeners : s'.machine.executionListeners = s.machine.executionListeners)
    (breakpoints : s'.machine.breakpoints = s.machine.breakpoints) : Logs s s' happened :=
  ⟨by rw [silent, log, List.append_nil], listeners, breakpoints⟩

/-- Entering a segment tells nobody where the program counter is. -/
theorem logs_enter (segment : Segment) (entry : Nat) (context : Context) :
    Logs s ((s.modify (·.setLive segment)).enter segment entry context).2
      (segment.beginning? entry).toList := by
  unfold enter Segment.beginning?
  split <;> split <;> exact logs_silent rfl rfl rfl rfl

theorem logs_leave (target : Word) (context : Context) :
    Logs s (s.leave target context).2 [] := by
  unfold leave
  split
  · split <;> exact logs_silent rfl rfl rfl rfl
  · exact logs_silent rfl rfl rfl rfl

theorem logs_store (quiet : o.Quiet) (offset value : Word) :
    Logs s (s.store o.logging.audience offset value).2 [] := by
  have htold := o.log_told quiet (.store offset value) s.machine.bare s.machine.memoryListeners
    s.audience
  have hnothing : s.machine.memoryListeners.flatMap
      (Observer.logged (.store offset value) s.machine.bare) = [] := by simp [Observer.logged]
  rw [hnothing, List.append_nil] at htold
  rw [o.logging.store_eq]
  generalize o.logging.told (.store offset value) s.machine.bare s.machine.memoryListeners
    -- A store happens before no execution listener, whatever becomes of it.
    s.audience = told at htold
  cases s.machine.checkStore offset 4 with
  | error trap => exact logs_silent rfl rfl rfl rfl
  | ok _ =>
      rcases told with ⟨_ | _, notes⟩
      · exact logs_silent rfl htold rfl rfl
      · have hstored : ∀ ram, Logs s ⟨{ s.machine with ram }, notes⟩ [] :=
          fun _ => logs_silent rfl htold rfl rfl
        exact hstored _

theorem logs_arrive (quiet : o.Quiet) (unbroken : s.machine.breakpoints = []) (offset : Word) :
    Logs s (s.arrive o.logging.audience offset).2 [.asks (.suspend offset)] := by
  let m := s.machine.modifyControl fun state => { state with pc := offset }
  have htold := o.log_told quiet .arrival m.bare m.executionListeners s.audience
  rw [o.logging.arrive_eq unbroken]
  refine ⟨htold.trans ?_, rfl, rfl⟩
  rw [List.flatMap_singleton]
  exact congrArg (s.audience.2 ++ ·) List.map_eq_flatMap.symm

theorem logs_answer (quiet : o.Quiet) (unbroken : s.machine.breakpoints = []) (r : Request) :
    Logs s (s.answer o.logging.audience r).2 [.asks r] := by
  cases r with
  | suspend offset => exact logs_arrive quiet unbroken offset
  | storeWord offset value =>
      have hstore := logs_store (s := s) quiet offset value
      exact ⟨hstore.log, hstore.listeners, hstore.breakpoints⟩
  | readWord | print | sendByte | takeByte | hasByte | offered => exact logs_silent rfl rfl rfl rfl

/-- A step adds to the log what happens with it. -/
theorem logs_advance (quiet : o.Quiet) (unbroken : s.machine.breakpoints = []) :
    Logs s (s.advance o.logging.audience).2 s.machine.happening?.toList := by
  have h := smallStep_advance o.logging.audience s
  generalize s.advance o.logging.audience = result at h ⊢
  -- A step is a happening where an instruction begins or an op asks, and is silent everywhere else.
  cases h with
  | @asks r _ asks =>
      have hanswer := logs_answer (s := s) quiet unbroken r
      rw [Machine.happening?_of_asks asks]
      exact ⟨hanswer.log, hanswer.listeners, hanswer.breakpoints⟩
  | waits waits =>
      rw [Machine.happening?_of_waits waits]
      unfold resume
      split <;> exact logs_silent rfl rfl rfl rfl
  | whole starting =>
      simp only [Machine.happening?, starting]
      unfold startWhole
      split <;> exact logs_silent rfl rfl rfl rfl
  | windowed starting =>
      simp only [Machine.happening?, starting, startWindowed_eq]
      split <;> exact logs_silent rfl rfl rfl rfl
  | @embarks outset _ attached =>
      cases outset with
      | whole segment =>
          simp only [Machine.happening?, attached]
          exact logs_enter segment _ _
      | windowed =>
          simp only [Machine.happening?, attached]
          exact logs_silent rfl rfl rfl rfl
  | @enters size offset context entering =>
      simp only [Machine.happening?, entering, enterWindow]
      cases s.machine.compile (s.machine.windowOf size offset).1
        (s.machine.windowOf size offset).2 with
      | error error => exact logs_silent rfl rfl rfl rfl
      | ok segment => exact logs_enter segment _ context
  | begins standing =>
      simp only [Machine.happening?, standing]
      refine logs_silent ?_ rfl rfl rfl
      split <;> rfl
  | leaves left =>
      simp only [Machine.happening?, left]
      exact logs_leave _ _
  | idle idle =>
      simp only [Machine.happening?, idle]
      exact logs_silent rfl rfl rfl rfl
  | traps trapped =>
      simp only [Machine.happening?, trapped]
      exact logs_silent rfl rfl rfl rfl
  | completes completed =>
      simp only [Machine.happening?, completed]
      exact logs_silent rfl rfl rfl rfl

/-- A run adds to the log what happens in it. -/
theorem logs_after (quiet : o.Quiet) (count : Nat) :
    ∀ s : Session (ω × List (ListenerId × Word)), s.machine.breakpoints = [] →
      Logs s (s.after o.logging.audience count)
        (s.happenings (advance o.logging.audience) count) := by
  induction count with
  | zero => exact fun s _ => logs_silent rfl rfl rfl rfl
  | succ count ih =>
      intro s unbroken
      have hstep := logs_advance quiet unbroken
      exact logs_append hstep (ih _ (hstep.breakpoints.trans unbroken))

end Session

end Transport
