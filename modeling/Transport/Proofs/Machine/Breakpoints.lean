import Transport.Proofs.Machine.Nudging
import Transport.Proofs.Pauses

/-!
# Where Runs Suspend

On a machine that does not compile for single-stepping, and if no handler but that of
`sys.breakpoint` suspends, a run arrives at a suspension point only where an instruction
moves a value to `sys.breakpoint`.

## Main definitions

* `Thread.Breaks`: The thread has nothing left to do that suspends otherwise.
* `Session.Breaks`: Nor does the machine compile for single-stepping.

## Theorems

* `breaks_advance`, `breaks_after`: This holds on in a run.
* `exists_breaks`: Where a run suspends.
-/

namespace Transport

/-- An execution that runs a segment runs one without suspension points in front of its
    instructions. -/
def Outset.Pointless : Outset → Prop
  | .whole segment => segment.Pointless
  | .windowed _ _ => True

/-- What the thread has left to do suspends where a value is moved to `sys.breakpoint`. -/
def Thread.Breaks (ids : List UInt8) : Thread → Prop
  | .attaching outset rest =>
    outset.Pointless ∧ rest.Within Request.Passes ∧ rest.Ends (Context.Breaks ids)
  | .detained _ _ => False
  | .entering _ _ context => context.Breaks ids
  | .working segment rest =>
    segment.Pointless ∧ Dialogue.Pauses (segment.Breaks ids) (Context.Breaks ids) rest
  | .waiting segment resume =>
    segment.Pointless ∧ ∀ answer,
      Dialogue.Pauses (segment.Breaks ids) (Context.Breaks ids) (resume answer)
  | _ => True

namespace Session

variable {ω : Type} {s s' : Session ω}

/-- A machine that does not compile for single-stepping, and whose program suspends by
    `sys.breakpoint` alone. -/
structure Breaks (ids : List UInt8) (s : Session ω) : Prop where
  registry : s.machine.registry.Breaks
  slots : s.machine.registry.slotIds = ids
  plain : s.machine.config.options.singleStep = false
  thread : s.machine.thread.Breaks ids

theorem breaks_of_eq (h : s.Breaks ids) (registry : s'.machine.registry = s.machine.registry)
    (config : s'.machine.config = s.machine.config)
    (thread : s'.machine.thread.Breaks ids) : s'.Breaks ids := by
  refine ⟨?_, ?_, ?_, thread⟩
  · rw [registry]; exact h.registry
  · rw [registry]; exact h.slots
  · rw [config]; exact h.plain

theorem breaks_board (h : s.Breaks ids) (outset : Outset) (pointless : outset.Pointless) :
    (s.board outset).2.Breaks ids := by
  have hfresh := h.slots ▸ Context.breaks_fresh h.registry
  refine breaks_of_eq h rfl rfl ⟨pointless, Context.within_of_breaks hfresh, ?_⟩
  exact Dialogue.ends_mono (fun _ => Context.breaks_attached hfresh) (Context.ends_bind_context _)

theorem breaks_of_hands {thread : Thread} {context : Context} (hands : thread.Hands context)
    (h : thread.Breaks ids) : context.Breaks ids := by
  cases hands with
  | attached =>
      rcases h with ⟨_, _, ends⟩
      cases ends with
      | done hcontext => exact hcontext
  | entering => exact h
  | done =>
      rcases h with ⟨_, hrest⟩
      cases hrest with
      | done _ hcontext => exact hcontext

/-- No segment that is entered has suspension points of its own. -/
theorem pointless_of_offers (h : s.Breaks ids) {segment : Segment} (offers : s.Offers segment) :
    segment.Pointless := by
  have hthread := h.thread
  cases offers with
  | aboard attaching =>
      rw [attaching] at hthread
      exact hthread.1
  | working working =>
      rw [working] at hthread
      exact hthread.1
  | compiled compiled => exact Segment.pointless_of_compile h.plain compiled

/-- What is asked leads on to nothing that suspends otherwise. -/
theorem breaks_of_asks {thread : Thread} {r : Request} {next : r.Answer → Thread}
    (asks : thread.Asks r next) (h : thread.Breaks ids) (answer : r.Answer) :
    (next answer).Breaks ids := by
  -- A context is bound without suspending. An op that is answered goes on, perhaps after waiting.
  cases asks with
  | attaching outset _ next =>
      rcases h with ⟨pointless, within, ends⟩
      cases within with
      | ask passes hnext =>
          cases r with
          | suspend offset => exact absurd rfl (passes offset)
          | readWord | storeWord | print | sendByte | takeByte | hasByte | offered =>
              exact ⟨pointless, hnext answer, Dialogue.ends_answer ends answer⟩
  | working segment _ next =>
      rcases h with ⟨pointless, hrest⟩
      cases hrest with
      | ask _ _ hnext =>
          unfold Thread.onAnswer
          split
          · exact ⟨pointless, hnext⟩
          · exact ⟨pointless, hnext _⟩

theorem breaks_advance (a : Audience ω) (h : s.Breaks ids) : (s.advance a).2.Breaks ids := by
  have hthread := h.thread
  have hchange := change_advance a s
  generalize s.advance a = result at hchange ⊢
  -- The threads that a step leads to are in a segment without points of its own, or in none.
  cases hchange with
  | stays => exact h
  | @answers r _ asks =>
      have hguards := guards_answer a s r
      exact breaks_of_eq h hguards.registry hguards.config (breaks_of_asks asks hthread _)
  | passes waits =>
      refine breaks_of_eq h rfl rfl ?_
      generalize s.machine.thread = thread at waits hthread
      cases waits with
      | attaching => exact hthread.elim
      | working => exact ⟨hthread.1, hthread.2 _⟩
  | @boards outset compiled =>
      refine breaks_board h outset ?_
      cases outset with
      | whole segment => exact Segment.pointless_of_compile h.plain (compiled segment rfl).1
      | windowed => trivial
  | turns hands => exact breaks_of_eq h rfl rfl (breaks_of_hands hands hthread)
  | enters offers hands =>
      have pointless := pointless_of_offers h offers
      exact breaks_of_eq h rfl rfl
        ⟨pointless, Segment.pauses_step pointless _ _ (breaks_of_hands hands hthread)⟩
  | continues standing =>
      have pointless := pointless_of_offers h (.working standing)
      rw [standing] at hthread
      exact breaks_of_eq h rfl rfl
        ⟨pointless, Segment.pauses_step pointless _ _ (breaks_of_hands (.done _ _ _) hthread)⟩
  | ends => exact breaks_of_eq h rfl rfl trivial

theorem breaks_after (a : Audience ω) (h : s.Breaks ids) (n : Nat) : (s.after a n).Breaks ids := by
  induction n with
  | zero => exact h
  | succ n ih =>
      rw [after_succ]
      exact breaks_advance a ih

theorem happening?_of_ask {m : Machine} {r : Request} (happens : m.happening? = some (.asks r)) :
    ∃ next, m.thread.Asks r next := by
  have hbeginning : ∀ (segment : Segment) (entry : Nat),
      segment.beginning? entry ≠ some (.asks r) := by
    intro segment entry
    unfold Segment.beginning?
    split <;> simp
  unfold Machine.happening? at happens
  split at happens
  · exact absurd happens (hbeginning _ _)
  · next h =>
    cases happens
    exact ⟨_, h ▸ Thread.Asks.attaching _ _ _⟩
  · dsimp only at happens
    split at happens
    · exact absurd happens (hbeginning _ _)
    · cases happens
  · split at happens <;> cases happens
  · next h =>
    cases happens
    exact ⟨_, h ▸ Thread.Asks.working _ _ _⟩
  · cases happens

/-- Where a program asks to pass a suspension point, it moves a value to
    `sys.breakpoint`. -/
theorem exists_breaks (h : s.Breaks ids) {offset : Word}
    (happens : s.machine.happening? = some (.asks (.suspend offset))) :
    ∃ segment rest, s.machine.thread = .working segment rest ∧
      segment.Breaks ids offset := by
  have hthread := h.thread
  rcases happening?_of_ask happens with ⟨_, asks⟩
  generalize s.machine.thread = thread at asks hthread
  cases asks with
  | attaching =>
      -- Nothing suspends while it is attached.
      cases hthread.2.1 with
      | ask passes _ => exact absurd rfl (passes offset)
  | working segment _ next =>
      cases hthread.2 with
      | ask _ here _ => exact ⟨segment, _, rfl, here offset rfl⟩

end Session

end Transport
