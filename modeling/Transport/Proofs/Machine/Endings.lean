import Transport.Proofs.Machine.LiveCode
import Transport.Proofs.Machine.Observation
import Transport.Proofs.Machine.Runs
import Transport.Proofs.Segment.Attachment
import Transport.Proofs.Segment.Window
import Transport.Proofs.Refusals

/-!
# How Executions End

A machine that runs, without breakpoints, and with listeners that only look, never
waits for good. What is left of an op comes to its end in a number of steps, so
what is bound to fail whatever is answered does fail. Two things are: a run that
gets to an instruction without a translation, and a run that is refused a store, if
the handlers of its modules heed refusals. As a run has one end, one that ends well
has met neither.

## Main definitions

* `Session.Free`: The machine runs, and no breakpoint stops it.
* `Session.Comes`: A run comes to an end with a result.
* `Session.Heeds`: What the thread has left to do heeds refusals.

## Theorems

* `free_after`: Nothing stops such a machine.
* `exists_done`: What is left of an op comes to its end.
* `comes_unique`: A run has one end.
* `comes_of_untranslated`: Getting to an instruction without a translation fails.
* `heeds_after`: All states of a run heed refusals.
* `comes_of_refused`: A refused store ends the run with its trap.
-/

namespace Transport

namespace Session

variable {ω : Type} {s : Session ω}

/-! ## Free runs -/

/-- The machine runs, and there is no breakpoint that stops it. -/
structure Free (s : Session ω) : Prop where
  running : s.machine.control.running = true
  unbroken : s.machine.breakpoints = []

theorem free_store (o : Observer ω) (free : s.Free) (offset value : Word) :
    (s.store o.audience offset value).2.Free := by
  rw [o.store_eq]
  split
  · exact free
  · split <;> exact ⟨free.running, free.unbroken⟩

theorem free_arrive (o : Observer ω) (free : s.Free) (offset : Word) :
    (s.arrive o.audience offset).2.Free := by
  rw [o.arrive_eq free.unbroken]
  exact ⟨free.running, free.unbroken⟩

theorem free_answer (o : Observer ω) (free : s.Free) (r : Request) :
    (s.answer o.audience r).2.Free := by
  cases r with
  | storeWord offset value => exact free_store o free offset value
  | suspend offset => exact free_arrive o free offset
  | readWord | print | sendByte | takeByte | hasByte | offered =>
      exact ⟨free.running, free.unbroken⟩

/-- Listeners that only look do not stop a machine that nothing else stops. -/
theorem free_advance (o : Observer ω) (free : s.Free) : (s.advance o.audience).2.Free := by
  have h := change_advance o.audience s
  generalize s.advance o.audience = result at h ⊢
  cases h with
  | @answers r _ _ =>
      have hfree := free_answer o free r
      exact ⟨hfree.running, hfree.unbroken⟩
  | stays | passes | boards | turns | enters | continues | ends =>
      exact ⟨free.running, free.unbroken⟩

theorem free_after (o : Observer ω) (free : s.Free) (n : Nat) : (s.after o.audience n).Free := by
  induction n with
  | zero => exact free
  | succ n ih =>
      rw [after_succ]
      exact free_advance o ih

/-- What waits goes on: nothing stops the machine. -/
theorem advance_of_waits (a : Audience ω) (free : s.Free) {next : Thread}
    (h : s.machine.thread.Waits next) :
    s.advance a = (.moved, s.modify fun m => m.pass.setThread next) := by
  have hpasses : s.machine.control.blocks = false := by
    simp only [RunState.blocks, free.running, Bool.not_true, Bool.false_and]
  simp only [advance_waits a h, resume, hpasses, Bool.false_eq_true, if_false]

end Session

/-! ## Dialogues come to their end -/

/-- Where a dialogue is held: its instances are attached, or an op is carried out. While
    something of the dialogue is left the thread is `going`, and at a suspension point it
    is `held`. -/
inductive Thread.Holds : {α : Type} → (Dialogue α → Thread) →
    ((Except Trap Unit → Dialogue α) → Thread) → Prop
  | attaching (outset : Outset) : Holds (.attaching outset) (.detained outset)
  | working (segment : Segment) : Holds (.working segment) (.waiting segment)

namespace Thread

variable {α : Type} {going : Dialogue α → Thread} {held : (Except Trap Unit → Dialogue α) → Thread}

theorem asks_of_holds (holds : Holds going held) (r : Request) (next : r.Answer → Dialogue α) :
    Asks (going (.ask r next)) r (onAnswer going held r next) := by
  cases holds with
  | attaching outset => exact .attaching outset r next
  | working segment => exact .working segment r next

theorem waits_of_holds (holds : Holds going held) (resume : Except Trap Unit → Dialogue α) :
    Waits (held resume) (going (resume (.ok ()))) := by
  cases holds with
  | attaching outset => exact .attaching outset resume
  | working segment => exact .working segment resume

variable (going held) in
/-- Behind an answer the thread goes on, or waits with it at a suspension point. -/
theorem onAnswer_cases (r : Request) (next : r.Answer → Dialogue α) (answer : r.Answer) :
    onAnswer going held r next answer = going (next answer) ∨
      ∃ resume, onAnswer going held r next answer = held resume ∧
        resume (.ok ()) = next answer := by
  unfold onAnswer
  split
  · exact Or.inr ⟨_, rfl, rfl⟩
  · exact Or.inl rfl

end Thread

namespace Session

variable {ω : Type} {s : Session ω} {α : Type} {going : Dialogue α → Thread}
  {held : (Except Trap Unit → Dialogue α) → Thread}

/-- Every request is answered, a suspension point in one step or two. -/
theorem exists_answered (o : Observer ω) (free : s.Free) (holds : Thread.Holds going held)
    {r : Request} {next : r.Answer → Dialogue α} (h : s.machine.thread = going (.ask r next)) :
    ∃ n answer, (s.after o.audience n).machine.thread = going (next answer) := by
  have hadvance := advance_asks o.audience (h ▸ Thread.asks_of_holds holds r next)
  have hfree := free_advance o free
  rw [hadvance] at hfree
  rcases Thread.onAnswer_cases going held r next (s.answer o.audience r).1 with
    goes | ⟨resume, waits, hresume⟩
  · refine ⟨1, (s.answer o.audience r).1, ?_⟩
    rw [after, hadvance]
    exact goes
  · -- The thread waits a step, and is not held up.
    refine ⟨2, (s.answer o.audience r).1, ?_⟩
    rw [after, hadvance, after, advance_of_waits o.audience hfree
      (waits ▸ Thread.waits_of_holds holds resume), hresume]
    rfl

/-- A dialogue comes to its end. The induction is on the dialogue, along the answers that
    are given. -/
theorem exists_done (o : Observer ω) (holds : Thread.Holds going held) {P : α → Prop}
    {rest : Dialogue α} (ends : rest.Ends P) :
    ∀ s : Session ω, s.Free → s.machine.thread = going rest →
      ∃ n p, P p ∧ (s.after o.audience n).machine.thread = going (.done p) := by
  induction ends with
  | done here => exact fun s _ working => ⟨0, _, here, working⟩
  | ask r _ ih =>
      intro s free working
      rcases exists_answered o free holds working with ⟨n, answer, hworking⟩
      rcases ih answer _ (free_after o free n) hworking with ⟨n', p, hp, hdone⟩
      rw [← after_add] at hdone
      exact ⟨n + n', p, hp, hdone⟩

/-! ## Ends -/

/-- A run comes to an end with a result. -/
def Comes (a : Audience ω) (s : Session ω) (result : Except ExecutionError Unit)
    (ended : Session ω) : Prop :=
  ∃ n, (s.after a n).advance a = (.finished result, ended)

theorem comes_iff {a : Audience ω} {result : Except ExecutionError Unit} {ended : Session ω} :
    s.Comes a result ended ↔ ∃ fuel, s.settle a fuel = (some result, ended) :=
  settle_iff.symm

theorem comes_of_after {a : Audience ω} {result : Except ExecutionError Unit}
    {ended : Session ω} {n : Nat} (h : (s.after a n).Comes a result ended) :
    s.Comes a result ended := by
  rcases h with ⟨n', h⟩
  rw [← after_add] at h
  exact ⟨n + n', h⟩

/-- A run has one end. -/
theorem comes_unique {a : Audience ω} {result result' : Except ExecutionError Unit}
    {ended ended' : Session ω} (h : s.Comes a result ended) (h' : s.Comes a result' ended') :
    result = result' ∧ ended = ended' := by
  -- Behind the earlier of two ends the thread is idle, and does not end again.
  have hfirst : ∀ {n n' : Nat} {outcome outcome' : Except ExecutionError Unit} {e e' : Session ω},
      n < n' → (s.after a n).advance a = (.finished outcome, e) →
      (s.after a n').advance a ≠ (.finished outcome', e') := by
    intro n n' outcome outcome' e e' hlt hended hended'
    have hidle : (s.after a (n + 1)).machine.thread = .idle := by
      rw [after_succ, hended]
      exact idle_of_finished hended
    rw [after_of_idle hidle hlt, advance_idle hidle] at hended'
    cases hended'
  rcases h with ⟨n, h⟩
  rcases h' with ⟨n', h'⟩
  rcases Nat.lt_trichotomy n n' with hlt | rfl | hlt
  · exact absurd h' (hfirst hlt h)
  · rw [h] at h'
    cases h'
    exact ⟨rfl, rfl⟩
  · exact absurd h (hfirst hlt h')

/-! ## Failures -/

/-- If what is left of an op fails whatever the answers are, the run fails. -/
theorem comes_of_ends (o : Observer ω) {P : Trap → Prop} {segment : Segment} {rest : Remainder}
    (free : s.Free) (working : s.machine.thread = .working segment rest)
    (ends : rest.Ends fun p => ∃ trap, p.1 = .error trap ∧ P trap) :
    ∃ trap ended, P trap ∧ s.Comes o.audience (.error (.trap trap)) ended := by
  rcases exists_done o (.working segment) ends s free working with
    ⟨n, ⟨_, context⟩, ⟨trap, rfl, htrap⟩, hdone⟩
  exact ⟨trap, _, htrap, n, advance_error o.audience hdone⟩

/-- Whatever is answered, a trap op fails. -/
theorem ends_trap {segment : Segment} {op : Nat} {context : Context} {current : Op}
    (hop : segment.ops[op]? = some current) (trapped : current.isTrap = true) :
    (segment.step op context).Ends fun p => ∃ trap, p.1 = .error trap ∧ True := by
  -- A trap reads both words again before it is raised, and either reading may fail.
  cases current with
  | trap offset cause source destination =>
      rw [Segment.step_trap hop]
      refine Dialogue.Ends.ask _ fun answer => ?_
      cases answer with
      | error trap => exact Dialogue.Ends.done ⟨trap, rfl, trivial⟩
      | ok currentSource =>
          refine Dialogue.Ends.ask _ fun answer => ?_
          cases answer with
          | error trap => exact Dialogue.Ends.done ⟨trap, rfl, trivial⟩
          | ok currentDestination => exact Dialogue.Ends.done ⟨_, rfl, trivial⟩
  | suspend | move | test | branch => cases trapped

/-- The dialogue of a suspension op. -/
theorem step_suspension {segment : Segment} {op : Nat} {offset : Word}
    (hop : segment.ops[op]? = some (.suspend offset)) (context : Context) :
    segment.step op context = .ask (.suspend offset) fun answer =>
      match answer with
      | .ok () => .done (.ok (.standing (op + 1)), context)
      | .error trap => .done (.error trap, context) := by
  simp only [Segment.step, hop]
  refine congrArg (Dialogue.ask (.suspend offset)) (funext fun answer => ?_)
  cases answer <;> rfl

/-- A suspension op fails, or the next op is next. -/
theorem ends_suspend {segment : Segment} {op : Nat} {context : Context} {offset : Word}
    (hop : segment.ops[op]? = some (.suspend offset)) :
    (segment.step op context).Ends fun p =>
      (∃ trap, p.1 = .error trap) ∨ p = (.ok (.standing (op + 1)), context) := by
  rw [step_suspension hop]
  refine Dialogue.Ends.ask _ fun answer => ?_
  cases answer with
  | error trap => exact Dialogue.Ends.done (Or.inl ⟨trap, rfl⟩)
  | ok _ => exact Dialogue.Ends.done (Or.inr rfl)

/-- A run that begins to carry out an instruction without a translation fails. -/
theorem comes_of_untranslated (o : Observer ω) (free : s.Free) {registry : Registry}
    {options : Options} {image : Ram} {first last index : Nat} {context : Context}
    (reach : 8 * last < 0x100000000) (low : first ≤ index) (high : index < last)
    (untranslated : Segment.Untranslated registry image (Segment.offsetOf 0 index))
    (working : s.machine.thread = .working (Segment.part registry options image first last)
      ((Segment.part registry options image first last).step
        ((index - first) * options.stride) context)) :
    ∃ trap ended, s.Comes o.audience (.error (.trap trap)) ended := by
  have hop := fun j => @Segment.getElem?_ops_part registry options image first last reach
    (Nat.le_of_lt (Nat.lt_of_le_of_lt low high)) j
  -- The slot was compiled into a trap op, which is its only op or its second.
  have htrap : (Segment.partOp registry options image first last index).isTrap = true := by
    have hfor := @Segment.isTrap_opFor_iff registry options image (Segment.offsetOf 0 first)
      (Segment.offsetOf 0 last) (index - first)
    rw [Segment.opFor, Segment.offsetOf_offsetOf, Nat.add_sub_cancel' low] at hfor
    exact hfor.mpr untranslated
  cases hstep : options.singleStep with
  | false =>
      have hstride := Options.stride_of_not_singleStep hstep
      have hhere := hop (index - first) (by rw [hstride]; omega)
      rw [hstep, hstride, Nat.div_one, Nat.add_sub_cancel' low] at hhere
      rw [hstride, Nat.mul_one] at working
      rcases comes_of_ends o free working (ends_trap hhere htrap) with ⟨trap, ended, _, comes⟩
      exact ⟨trap, ended, comes⟩
  | true =>
      have hstride := Options.stride_of_singleStep hstep
      have hhere := hop ((index - first) * 2) (by rw [hstride]; omega)
      have hnext := hop ((index - first) * 2 + 1) (by rw [hstride]; omega)
      rw [hstep, if_pos (by simp only [Nat.mul_mod_left, decide_true, Bool.and_self])] at hhere
      rw [hstep, hstride, if_neg (by simp only [Bool.true_and, decide_eq_true_eq]; omega)] at hnext
      rw [show first + ((index - first) * 2 + 1) / 2 = index by omega] at hnext
      rw [hstride] at working
      -- The suspension point is refused, or the trap op is next.
      rcases exists_done o (.working _) (ends_suspend hhere) s free working with
        ⟨n, ⟨p, _⟩, ⟨trap, failed⟩ | passed, hdone⟩
      · cases failed
        exact ⟨trap, _, n, advance_error o.audience hdone⟩
      · cases passed
        have hstanding := advance_standing o.audience hdone
        have hworking : (s.after o.audience (n + 1)).machine.thread =
            .working (Segment.part registry options image first last)
              ((Segment.part registry options image first last).step
                ((index - first) * 2 + 1) context) := by
          rw [after_succ, hstanding]
          rfl
        rcases comes_of_ends o (free_after o free _) hworking (ends_trap hnext htrap) with
          ⟨trap, ended, _, comes⟩
        exact ⟨trap, ended, comes_of_after comes⟩

/-! ## Refusals -/

end Session

namespace Thread

/-- What the thread has left to do heeds refusals. -/
def Heeds : Thread → Prop
  | .attaching _ rest => rest.Ends Context.Heeds
  | .detained _ resume => ∀ answer, (resume answer).Ends Context.Heeds
  | .entering _ _ context => context.Heeds
  | .working _ rest => Dialogue.Heeds Context.Heeds rest
  | .waiting _ resume => ∀ answer, Dialogue.Heeds Context.Heeds (resume answer)
  | _ => True

end Thread

namespace Session

variable {ω : Type} {s : Session ω}

/-- The modules of the machine heed refusals, and so does what is left to do. -/
structure Heeds (s : Session ω) : Prop where
  registry : s.machine.registry.Heeds
  thread : s.machine.thread.Heeds

/-- Whatever a request is answered, what is left heeds refusals. -/
theorem heeds_of_asks {thread : Thread} {r : Request} {next : r.Answer → Thread}
    (asks : thread.Asks r next) (h : thread.Heeds) (answer : r.Answer) : (next answer).Heeds := by
  cases asks with
  | attaching outset _ next =>
      cases h with
      | ask _ rest =>
          -- The answer is handed to what is left, at once or behind a suspension.
          unfold Thread.onAnswer
          split
          · exact rest
          · exact rest _
  | working segment _ next =>
      cases h with
      | ask _ heard _ =>
          unfold Thread.onAnswer
          split
          · exact heard
          · exact heard _

theorem heeds_of_waits {thread next : Thread} (waits : thread.Waits next) (h : thread.Heeds) :
    next.Heeds := by
  cases waits with
  | attaching => exact h _
  | working => exact h _

theorem heeds_of_hands {thread : Thread} {context : Context} (hands : thread.Hands context)
    (h : thread.Heeds) : context.Heeds := by
  cases hands with
  | attached =>
      cases h with
      | done hcontext => exact hcontext
  | entering => exact h
  | done =>
      cases h with
      | done _ hcontext => exact hcontext

/-- A step of the compute thread keeps to heeding refusals. -/
theorem heeds_advance (a : Audience ω) (h : s.Heeds) : (s.advance a).2.Heeds := by
  -- What heeds is the registry, the context and what the thread has left.
  have hthread := h.thread
  have hchange := change_advance a s
  generalize s.advance a = result at hchange ⊢
  cases hchange with
  | stays => exact h
  | @answers r _ asks =>
      exact ⟨(guards_answer a s r).registry ▸ h.registry, heeds_of_asks asks hthread _⟩
  | passes waits => exact ⟨h.registry, heeds_of_waits waits hthread⟩
  | boards =>
      -- The instances that are attached heed refusals behind it as before.
      exact ⟨h.registry, Dialogue.ends_mono
        (fun _ => Context.heeds_attached (Context.heeds_fresh h.registry))
        (Context.ends_bind_context _)⟩
  | turns hands => exact ⟨h.registry, heeds_of_hands hands hthread⟩
  | enters _ hands =>
      exact ⟨h.registry, Segment.heeds_step _ _ _ (heeds_of_hands hands hthread)⟩
  | continues standing =>
      rw [standing] at hthread
      exact ⟨h.registry, Segment.heeds_step _ _ _ (heeds_of_hands (.done _ _ _) hthread)⟩
  | ends => exact ⟨h.registry, trivial⟩

theorem heeds_after (a : Audience ω) (h : s.Heeds) (n : Nat) : (s.after a n).Heeds := by
  induction n with
  | zero => exact h
  | succ n ih =>
      rw [after_succ]
      exact heeds_advance a ih

/-- A run that heeds refusals comes to the end that the first refused store gives
    it. -/
theorem comes_of_refused (o : Observer ω) (free : s.Free) (heeds : s.Heeds)
    {offset value : Word} {trap : Trap} (storing : s.storing? = some (offset, value))
    (refused : (s.store o.audience offset value).1 = .error trap) :
    ∃ ended, s.Comes o.audience (.error (.trap trap)) ended := by
  have hthread := heeds.thread
  unfold storing? at storing
  split at storing
  · rename_i segment offset' value' next working
    cases storing
    rw [working] at hthread
    -- The dialogue heeds the refusal that the next step answers with.
    have hends : (next (s.store o.audience offset value).1).Ends
        fun p => ∃ trap', p.1 = .error trap' ∧ trap' = trap := by
      rw [refused]
      cases hthread with
      | ask _ _ passed =>
          exact Dialogue.ends_mono (fun p failed => ⟨trap, failed, rfl⟩)
            (passed (.error trap) trap rfl)
    have hworking : (s.advance o.audience).2.machine.thread =
        .working segment (next (s.store o.audience offset value).1) := by
      rw [advance_storeWord o.audience working]
      rfl
    rcases comes_of_ends o (free_advance o free) hworking hends with ⟨_, ended, rfl, comes⟩
    exact ⟨ended, comes_of_after (n := 1) comes⟩
  · cases storing

end Session

end Transport
