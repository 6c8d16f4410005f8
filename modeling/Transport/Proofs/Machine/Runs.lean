import Transport.Proofs.Machine.Extent

/-!
# Runs of the Compute Thread

The small steps of the compute thread with nothing between them. A run is looked
at after any number of its steps, and measured in instructions: the steps with
which it begins to carry one out are known from the state before them. Settling
comes to an end exactly if some step of the run does.

## Main definitions

* `Thread.Asks`, `Thread.Waits`: What the thread asks of the machine, and where it waits.
* `Session.after`: A session after a number of small steps.
* `Session.reaches?`: The slot that the next small step begins to carry out.
* `Session.storing?`, `Session.stamping?`: The store that the next small step attempts, one of
  the program or one of an instance that is attached.
* `Session.begun`: The number of instructions begun in a number of small steps.
* `Session.SmallStep`: What a small step is, by where the thread is.
* `Session.Change`: What a small step changes, whichever it is.
* `Session.Kept`: What it makes of an execution.

## Theorems

* `smallStep_advance`, `eq_of_smallStep`: Every small step is one of these, and no other.
* `change_advance`: What it changes.
* `advance_asks`, `advance_waits`: The steps that answer a request or leave a suspension
  point, be it of the program or of an attachment.
* `kept_advance`: A step goes on with an execution, or waits, or clears it.
* `after_of_idle`: A run stays as it is once its thread is idle.
* `settle_iff`: Settling comes to the end that the run has.
-/

namespace Transport

instance decidableEqExcept {ε α : Type} [DecidableEq ε] [DecidableEq α] :
    DecidableEq (Except ε α)
  | .ok a, .ok b => decidable_of_iff (a = b) ⟨congrArg Except.ok, Except.ok.inj⟩
  | .error e, .error e' => decidable_of_iff (e = e') ⟨congrArg Except.error, Except.error.inj⟩
  | .ok _, .error _ => isFalse (by simp only [reduceCtorEq, not_false_eq_true])
  | .error _, .ok _ => isFalse (by simp only [reduceCtorEq, not_false_eq_true])

/-! ## Requests -/

/-- The thread asks something of the machine, and `next` says what it does about the
    answer. -/
inductive Thread.Asks : Thread → (r : Request) → (r.Answer → Thread) → Prop
  | attaching (outset : Outset) (r : Request) (next : r.Answer → Dialogue Context) :
      Asks (.attaching outset (.ask r next)) r
        (Thread.onAnswer (.attaching outset) (.detained outset) r next)
  | working (segment : Segment) (r : Request) (next : r.Answer → Remainder) :
      Asks (.working segment (.ask r next)) r
        (Thread.onAnswer (.working segment) (.waiting segment) r next)

/-- The thread waits at a suspension point, and is `next` once it goes on. -/
inductive Thread.Waits : Thread → Thread → Prop
  | attaching (outset : Outset) (resume : Except Trap Unit → Dialogue Context) :
      Waits (.detained outset resume) (.attaching outset (resume (.ok ())))
  | working (segment : Segment) (resume : Except Trap Unit → Remainder) :
      Waits (.waiting segment resume) (.working segment (resume (.ok ())))

/-- The thread has a context that nothing is being done with: its instances are attached, or
    the last op is done, or a window is about to be compiled for it. -/
inductive Thread.Hands : Thread → Context → Prop
  | attached (outset : Outset) (context : Context) :
      Hands (.attaching outset (.done context)) context
  | entering (size offset : Word) (context : Context) :
      Hands (.entering size offset context) context
  | done (segment : Segment) (progress : Progress) (context : Context) :
      Hands (.working segment (.done (.ok progress, context))) context

namespace Session

variable {ω : Type}

/-- A session after a number of small steps of the compute thread. -/
def after (a : Audience ω) : Nat → Session ω → Session ω
  | 0, s => s
  | count + 1, s => after a count (s.advance a).2

/-- The index of the slot that the next small step begins to carry out: of the
    entry when a segment of all of RAM is entered, of the target when a window is
    entered, and else of the slot whose first op is next. -/
def reaches? (s : Session ω) : Option Nat :=
  match s.machine.thread with
  | .attaching (.whole segment) (.done _) =>
    if s.machine.config.entry < segment.size then some s.machine.config.entry else none
  | .entering _ offset _ => some (offset.toNat / instructionSize)
  | .working segment (.done (.ok (.standing op), _)) =>
    if op % segment.options.stride = 0 ∧ op / segment.options.stride < segment.size then
      some (segment.start.toNat / instructionSize + op / segment.options.stride)
    else none
  | _ => none

/-- The store that the program attempts with the next small step. -/
def storing? (s : Session ω) : Option (Word × Word) :=
  match s.machine.thread with
  | .working _ (.ask (.storeWord offset value) _) => some (offset, value)
  | _ => none

/-- The store that an instance attempts with the next small step, while it is attached. -/
def stamping? (s : Session ω) : Option (Word × Word) :=
  match s.machine.thread with
  | .attaching _ (.ask (.storeWord offset value) _) => some (offset, value)
  | _ => none

/-- The number of instructions begun in a number of small steps. -/
def begun (a : Audience ω) : Nat → Session ω → Nat
  | 0, _ => 0
  | count + 1, s => begun a count (s.advance a).2 + if s.reaches?.isSome then 1 else 0

variable {a : Audience ω} {s s' : Session ω}

theorem after_add (m n : Nat) : ∀ s : Session ω, s.after a (m + n) = (s.after a m).after a n := by
  induction m with
  | zero =>
      intro s
      rw [Nat.zero_add]
      rfl
  | succ m ih =>
      intro s
      rw [Nat.succ_add]
      exact ih _

theorem after_succ (count : Nat) (s : Session ω) :
    s.after a (count + 1) = ((s.after a count).advance a).2 :=
  after_add count 1 s

theorem begun_add (m n : Nat) :
    ∀ s : Session ω, s.begun a (m + n) = s.begun a m + (s.after a m).begun a n := by
  induction m with
  | zero =>
      intro s
      simp only [Nat.zero_add, begun, after]
  | succ m ih =>
      intro s
      rw [Nat.succ_add, begun, ih, begun, after]
      omega

theorem begun_succ (count : Nat) (s : Session ω) :
    s.begun a (count + 1) =
      s.begun a count + if (s.after a count).reaches?.isSome then 1 else 0 := by
  rw [begun_add, begun, begun, Nat.zero_add]

/-- Nothing is reached while something is asked. -/
theorem reaches?_of_asks {r : Request} {next : r.Answer → Thread}
    (h : s.machine.thread.Asks r next) : s.reaches? = none := by
  generalize hthread : s.machine.thread = thread at h
  cases h with
  | attaching outset => cases outset <;> simp only [reaches?, hthread]
  | working => simp only [reaches?, hthread]

theorem reaches?_of_waits {next : Thread} (h : s.machine.thread.Waits next) :
    s.reaches? = none := by
  generalize hthread : s.machine.thread = thread at h
  cases h <;> simp only [reaches?, hthread]

/-! ## Steps at work -/

theorem advance_working (a : Audience ω) {segment : Segment} {rest : Remainder}
    (h : s.machine.thread = .working segment rest) :
    s.advance a = s.advanceWork a segment rest := by
  simp only [advance, h]

theorem advance_standing (a : Audience ω) {segment : Segment} {op : Nat} {context : Context}
    (h : s.machine.thread = .working segment (.done (.ok (.standing op), context))) :
    s.advance a =
      (.moved, s.modify (·.setThread (.working segment (segment.step op context)))) :=
  advance_working a h

theorem advance_error (a : Audience ω) {segment : Segment} {trap : Trap} {context : Context}
    (h : s.machine.thread = .working segment (.done (.error trap, context))) :
    s.advance a = s.finish (.error (.trap trap)) :=
  advance_working a h

theorem advance_completed (a : Audience ω) {segment : Segment} {context : Context}
    (h : s.machine.thread = .working segment (.done (.ok (.ended .completed), context))) :
    s.advance a = s.finish (.ok ()) :=
  advance_working a h

/-- A request is answered, and the thread goes on behind the answer. -/
theorem advance_asks (a : Audience ω) {r : Request} {next : r.Answer → Thread}
    (h : s.machine.thread.Asks r next) :
    s.advance a = (.moved, (s.answer a r).2.modify (·.setThread (next (s.answer a r).1))) := by
  generalize hthread : s.machine.thread = thread at h
  cases h <;> simp only [advance, hthread, advanceAttachment, advanceWork, serve]

/-- A suspension point is left unless it blocks. -/
theorem advance_waits (a : Audience ω) {next : Thread} (h : s.machine.thread.Waits next) :
    s.advance a = s.resume next := by
  generalize hthread : s.machine.thread = thread at h
  cases h <;> simp only [advance, hthread]

theorem advance_suspend (a : Audience ω) {segment : Segment} {offset : Word}
    {next : Except Trap Unit → Remainder}
    (h : s.machine.thread = .working segment (.ask (.suspend offset) next)) :
    s.advance a =
      match s.arrive a offset with
      | (.error reason, s) => s.work segment (next (.error (.listener reason)))
      | (.ok (), s) => (.moved, s.modify (·.setThread (.waiting segment next))) := by
  rw [advance_asks a (h ▸ Thread.Asks.working segment (.suspend offset) next)]
  simp only [answer]
  rcases s.arrive a offset with ⟨_ | _, s'⟩ <;> rfl

theorem advance_storeWord (a : Audience ω) {segment : Segment} {offset value : Word}
    {next : Except Trap Unit → Remainder}
    (h : s.machine.thread = .working segment (.ask (.storeWord offset value) next)) :
    s.advance a = (s.store a offset value).2.work segment (next (s.store a offset value).1) :=
  advance_asks a (h ▸ Thread.Asks.working segment (.storeWord offset value) next)

/-- What a small step is, by where the thread is. -/
inductive SmallStep (a : Audience ω) (s : Session ω) : Advance × Session ω → Prop
  | idle (idle : s.machine.thread = .idle) : SmallStep a s (.blocked, s)
  /-- A request is answered. -/
  | asks {r : Request} {next : r.Answer → Thread} (asks : s.machine.thread.Asks r next) :
      SmallStep a s (.moved, (s.answer a r).2.modify (·.setThread (next (s.answer a r).1)))
  /-- A suspension point is left, unless it blocks. -/
  | waits {next : Thread} (waits : s.machine.thread.Waits next) : SmallStep a s (s.resume next)
  /-- All of RAM is compiled. -/
  | whole (starting : s.machine.thread = .starting)
      (whole : s.machine.config.segmentSize = none) : SmallStep a s s.startWhole
  /-- The first window is looked for. -/
  | windowed {size : Word} (starting : s.machine.thread = .starting)
      (windowed : s.machine.config.segmentSize = some size) :
      SmallStep a s (s.startWindowed size)
  /-- The instances are attached. -/
  | embarks {outset : Outset} {context : Context}
      (attached : s.machine.thread = .attaching outset (.done context)) :
      SmallStep a s (s.embark context outset)
  /-- A window is compiled. -/
  | enters {size offset : Word} {context : Context}
      (entering : s.machine.thread = .entering size offset context) :
      SmallStep a s (s.enterWindow size offset context)
  /-- An op trapped. -/
  | traps {segment : Segment} {trap : Trap} {context : Context}
      (trapped : s.machine.thread = .working segment (.done (.error trap, context))) :
      SmallStep a s (s.finish (.error (.trap trap)))
  /-- An op is begun behind another. -/
  | begins {segment : Segment} {op : Nat} {context : Context}
      (standing : s.machine.thread = .working segment (.done (.ok (.standing op), context))) :
      SmallStep a s (s.work segment (segment.step op context))
  /-- The program has ended. -/
  | completes {segment : Segment} {context : Context}
      (completed : s.machine.thread = .working segment (.done (.ok (.ended .completed), context))) :
      SmallStep a s (s.finish (.ok ()))
  /-- Control leaves the segment. -/
  | leaves {segment : Segment} {target : Word} {context : Context}
      (left : s.machine.thread = .working segment (.done (.ok (.ended (.left target)), context))) :
      SmallStep a s (s.leave target context)

/-- Every small step is one of these. -/
theorem smallStep_advance (a : Audience ω) (s : Session ω) : SmallStep a s (s.advance a) := by
  -- By what the thread is at, and then by what is left of the attachment or of the op.
  cases hthread : s.machine.thread with
  | idle =>
      simp only [advance, hthread]
      exact .idle hthread
  | starting =>
      cases hsize : s.machine.config.segmentSize with
      | none =>
          simp only [advance, hthread, hsize]
          exact .whole hthread hsize
      | some size =>
          simp only [advance, hthread, hsize]
          exact .windowed hthread hsize
  | attaching outset rest =>
      cases rest with
      | done context =>
          simp only [advance, hthread, advanceAttachment]
          exact .embarks hthread
      | ask r next =>
          have asks := hthread ▸ Thread.Asks.attaching outset r next
          exact advance_asks a asks ▸ .asks asks
  | detained outset resume =>
      have waits := hthread ▸ Thread.Waits.attaching outset resume
      exact advance_waits a waits ▸ .waits waits
  | entering size offset context =>
      simp only [advance, hthread]
      exact .enters hthread
  | working segment rest =>
      rcases rest with ⟨⟨trap | op | _ | target, context⟩⟩ | ⟨r, next⟩
      · exact advance_error a hthread ▸ .traps hthread
      · exact advance_standing a hthread ▸ .begins hthread
      · exact advance_completed a hthread ▸ .completes hthread
      · exact advance_working a hthread ▸ .leaves hthread
      · have asks := hthread ▸ Thread.Asks.working segment r next
        exact advance_asks a asks ▸ .asks asks
  | waiting segment resume =>
      have waits := hthread ▸ Thread.Waits.working segment resume
      exact advance_waits a waits ▸ .waits waits

/-- A small step is the only one of its kind. -/
theorem eq_of_smallStep {result : Advance × Session ω} (h : SmallStep a s result) :
    s.advance a = result := by
  cases h with
  | asks asks => exact advance_asks a asks
  | waits waits => exact advance_waits a waits
  | idle h => simp only [advance, h]
  | whole starting whole => simp only [advance, starting, whole]
  | windowed starting windowed => simp only [advance, starting, windowed]
  | embarks attached => simp only [advance, attached, advanceAttachment]
  | enters entering => simp only [advance, entering]
  | traps h => exact advance_error a h
  | begins h => exact advance_standing a h
  | completes h => exact advance_completed a h
  | leaves h => exact advance_working a h

/-! ## What a step changes -/

/-- A segment that the thread was at, or else one compiled from RAM as it is. -/
inductive Offers (s : Session ω) : Segment → Prop
  | aboard {segment : Segment} {rest : Dialogue Context}
      (attaching : s.machine.thread = .attaching (.whole segment) rest) : Offers s segment
  | working {segment : Segment} {rest : Remainder}
      (working : s.machine.thread = .working segment rest) : Offers s segment
  | compiled {segment : Segment} {start stop : Word}
      (compiled : s.machine.compile start stop = .ok segment) : Offers s segment

/-- What a small step changes, whichever it is: what the answer to a request does, and else
    no more than the thread, the step permit and what is live. -/
inductive Change (a : Audience ω) (s : Session ω) : Advance × Session ω → Prop
  | stays : Change a s (.blocked, s)
  | answers {r : Request} {next : r.Answer → Thread} (asks : s.machine.thread.Asks r next) :
      Change a s (.moved, (s.answer a r).2.modify (·.setThread (next (s.answer a r).1)))
  | passes {next : Thread} (waits : s.machine.thread.Waits next) :
      Change a s (.moved, s.modify fun m => m.pass.setThread next)
  /-- Fresh instances begin to be attached, in all of RAM behind its compilation. -/
  | boards {outset : Outset}
      (compiled : ∀ segment, outset = .whole segment →
        s.machine.compile 0 s.machine.codeEnd = .ok segment ∧
          s.machine.config.segmentSize = none)
      (starting : s.machine.thread = .starting) : Change a s (s.board outset)
  /-- The window of an offset is to be compiled next. -/
  | turns {context : Context} (hands : s.machine.thread.Hands context) (size offset : Word) :
      Change a s (.moved, s.modify (·.setThread (.entering size offset context)))
  /-- A segment becomes live, and one of its ops is begun. -/
  | enters {segment : Segment} {context : Context} (offers : s.Offers segment)
      (hands : s.machine.thread.Hands context) (op : Nat) :
      Change a s (.moved, s.modify fun m =>
        (m.setLive segment).setThread (.working segment (segment.step op context)))
  /-- Another op of the segment is begun. -/
  | continues {segment : Segment} {op : Nat} {context : Context}
      (standing : s.machine.thread = .working segment (.done (.ok (.standing op), context))) :
      Change a s (.moved, s.modify (·.setThread (.working segment (segment.step op context))))
  | ends (result : Except ExecutionError Unit) :
      Change a s (.finished result, s.modify Machine.clear)

theorem change_enter (a : Audience ω) {segment : Segment} {context : Context}
    (offers : s.Offers segment) (hands : s.machine.thread.Hands context) (entry : Nat) :
    Change a s ((s.modify (·.setLive segment)).enter segment entry context) := by
  unfold enter
  split
  · exact .ends _
  · exact .enters offers hands _

/-- Every small step changes one of these. -/
theorem change_advance (a : Audience ω) (s : Session ω) : Change a s (s.advance a) := by
  have h := smallStep_advance a s
  generalize s.advance a = result at h ⊢
  -- A step that may fail either ends the execution or does what it is for.
  cases h with
  | idle => exact .stays
  | asks asks => exact .answers asks
  | waits waits =>
      unfold resume
      split
      · exact .stays
      · exact .passes waits
  | whole starting whole =>
      unfold startWhole
      split
      · exact .ends _
      · next segment compiled =>
        refine .boards (fun other same => ?_) starting
        cases same
        exact ⟨compiled, whole⟩
  | windowed starting windowed =>
      rw [startWindowed_eq]
      split
      · exact .boards (fun _ same => by cases same) starting
      · exact .ends _
  | @embarks outset context attached =>
      have hands := attached ▸ Thread.Hands.attached outset context
      cases outset with
      | whole segment => exact change_enter a (.aboard attached) hands _
      | windowed => exact .turns hands _ _
  | @enters size offset context entering =>
      unfold enterWindow
      dsimp only
      split
      · exact .ends _
      · next segment compiled =>
        exact change_enter a (.compiled compiled)
          (entering ▸ Thread.Hands.entering size offset context) _
  | traps | completes => exact .ends _
  | begins standing => exact .continues standing
  | leaves left =>
      have hands := left ▸ Thread.Hands.done _ _ _
      unfold leave
      split
      · split
        · exact .turns hands _ _
        · exact .ends _
      · exact .ends _

/-! ## Ends -/

/-- What a step makes of an execution: it goes on, or it waits, or all that there was of it
    is cleared. -/
inductive Kept (s : Session ω) : Advance × Session ω → Prop
  | goesOn {s' : Session ω} (executing : s'.machine.thread.isExecuting = true) :
      Kept s (.moved, s')
  | waits : Kept s (.blocked, s)
  | ends (result : Except ExecutionError Unit) :
      Kept s (.finished result, s.modify Machine.clear)

/-- A thread that asks or waits is in an execution, and so it is afterwards. -/
theorem executing_of_asks {thread : Thread} {r : Request} {next : r.Answer → Thread}
    (asks : thread.Asks r next) (answer : r.Answer) : (next answer).isExecuting = true := by
  cases asks <;> unfold Thread.onAnswer <;> split <;> rfl

theorem executing_of_waits {thread next : Thread} (waits : thread.Waits next) :
    next.isExecuting = true := by
  cases waits <;> rfl

/-- Every step is of one of the three kinds. -/
theorem kept_advance (a : Audience ω) (s : Session ω) : s.Kept (s.advance a) := by
  have hchange := change_advance a s
  generalize s.advance a = result at hchange ⊢
  cases hchange with
  | stays => exact .waits
  | answers asks => exact .goesOn (executing_of_asks asks _)
  | passes waits => exact .goesOn (executing_of_waits waits)
  | boards | turns | enters | continues => exact .goesOn rfl
  | ends => exact .ends _

/-- A step that ends an execution leaves no thread behind. -/
theorem idle_of_finished {result : Except ExecutionError Unit}
    (finished : s.advance a = (.finished result, s')) : s'.machine.thread = .idle := by
  have hkept := kept_advance a s
  rw [finished] at hkept
  cases hkept with
  | ends => rfl

theorem advance_idle (idle : s.machine.thread = .idle) : s.advance a = (.blocked, s) := by
  simp only [advance, idle]

/-- Nothing happens behind a step that is blocked. -/
theorem after_of_blocked (blocked : s.advance a = (.blocked, s)) (count : Nat) :
    s.after a count = s := by
  induction count with
  | zero => rfl
  | succ count ih =>
      rw [after, blocked]
      exact ih

/-- A run whose thread comes to be idle stays as it is then. -/
theorem after_of_idle {m n : Nat} (idle : (s.after a m).machine.thread = .idle) (later : m ≤ n) :
    s.after a n = s.after a m := by
  have hadd := after_add (a := a) m (n - m) s
  rw [Nat.add_sub_cancel' later] at hadd
  rw [hadd, after_of_blocked (advance_idle idle)]

/-- Settling comes to the end that some step of the run comes to. -/
theorem settle_iff {result : Except ExecutionError Unit} :
    (∃ fuel, s.settle a fuel = (some result, s')) ↔
      ∃ count, (s.after a count).advance a = (.finished result, s') := by
  constructor
  · rintro ⟨fuel, settled⟩
    -- As long as steps are taken, settling is a run; the last step is the end.
    induction fuel generalizing s with
    | zero => cases congrArg Prod.fst settled
    | succ fuel ih =>
        have hkept := kept_advance a s
        unfold settle at settled
        rcases hadvance : s.advance a with ⟨amount, next⟩
        rw [hadvance] at settled hkept
        cases hkept with
        | goesOn =>
            rcases ih settled with ⟨count, ended⟩
            refine ⟨count + 1, ?_⟩
            rw [after, hadvance]
            exact ended
        | waits => cases settled
        | ends =>
            cases settled
            exact ⟨0, hadvance⟩
  · rintro ⟨count, ended⟩
    induction count generalizing s with
    | zero =>
        refine ⟨1, ?_⟩
        rw [settle]
        rw [after] at ended
        rw [ended]
    | succ count ih =>
        have hkept := kept_advance a s
        rcases hadvance : s.advance a with ⟨amount, next⟩
        rw [after, hadvance] at ended
        rw [hadvance] at hkept
        rcases ih ended with ⟨fuel, settled⟩
        cases hkept with
        | goesOn =>
            refine ⟨fuel + 1, ?_⟩
            rw [settle, hadvance]
            exact settled
        | waits => exact ⟨fuel, settled⟩
        | ends =>
            -- An earlier end would have left the thread idle for good.
            have idle := idle_of_finished hadvance
            rw [after_of_blocked (advance_idle idle), advance_idle idle] at ended
            cases ended

end Session

end Transport
