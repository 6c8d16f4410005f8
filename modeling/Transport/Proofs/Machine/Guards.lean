import Transport.Machine.Control
import Transport.Proofs.Ram
import Transport.Proofs.Segment.Overlap

/-!
# Live Code Is Guarded

Whatever listeners and the one in control do to a machine, and in whatever
order, live code stays as it is. The stores that reach RAM were checked against
the code map; a check holds on while listeners are told of the store, because
nothing that they do changes the size of RAM or the map; and no command changes
what the compute thread is doing, except that an idle thread can be told to begin
an execution.

Commands of listeners can make further events, which other listeners answer with
commands of their own. The induction is on how deep they may nest.

## Main definitions

* `Thread.Awaits`: A thread goes on with what it does, or begins if it did nothing.
* `Machine.Guards`: What a command leaves alone.

## Theorems

* `guards_of_checkStore`: A store that was checked hits no live code.
* `checkStore_of_guards`: A check holds on.
* `guards_tell`, `guards_performWith`: Notifications and commands, if those inside
  them are guarded.
* `guards_perform`: Commands of any depth.
* `guards_store`, `guards_arrive`, `guards_command`: What a session can be told.
-/

namespace Transport

namespace Thread

theorem isExecuting_eq_false_iff {thread : Thread} :
    thread.isExecuting = false ↔ thread = .idle := by
  cases thread <;> simp only [isExecuting, reduceCtorEq]

/-- A thread is where it was, or was idle and has been told to begin. -/
def Awaits (before after : Thread) : Prop := after = before ∨ before = .idle ∧ after = .starting

theorem awaits_trans {t t' t'' : Thread} (h : Awaits t t') (h' : Awaits t' t'') :
    Awaits t t'' := by
  rcases h with rfl | ⟨idle, starting⟩
  · exact h'
  · rcases h' with rfl | ⟨idle', _⟩
    · exact Or.inr ⟨idle, starting⟩
    · rw [starting] at idle'
      contradiction

/-- An execution that is under way is not begun again. -/
theorem eq_of_awaits {before after : Thread} (h : Awaits before after)
    (executing : before ≠ .idle) : after = before :=
  h.resolve_right fun began => executing began.1

end Thread

namespace Machine

/-- One machine comes from another without a change of what executes: the
    registry, the configuration, the compute thread, unless it was idle, the live
    code and the bytes of its compiled slots are the same. -/
structure Guards (before after : Machine) : Prop where
  registry : after.registry = before.registry
  config : after.config = before.config
  thread : Thread.Awaits before.thread after.thread
  liveCode : after.liveCode = before.liveCode
  size : after.ram.size = before.ram.size
  code : ∀ map, before.liveCode = some map → ∀ index, map.compiled[index]? = some true →
    Ram.Same after.ram before.ram (map.slotStart index) instructionSize

variable {m m' m'' : Machine}

theorem guards_refl (m : Machine) : Guards m m :=
  ⟨rfl, rfl, Or.inl rfl, rfl, rfl, fun _ _ _ _ => Ram.same_refl _ _ _⟩

theorem guards_trans (h : Guards m m') (h' : Guards m' m'') : Guards m m'' where
  registry := h'.registry.trans h.registry
  config := h'.config.trans h.config
  thread := Thread.awaits_trans h.thread h'.thread
  liveCode := h'.liveCode.trans h.liveCode
  size := h'.size.trans h.size
  code map live index compiled :=
    Ram.same_trans (h'.code map (h.liveCode.trans live) index compiled)
      (h.code map live index compiled)

/-- What executes goes on. -/
theorem Guards.executing (h : Guards m m') (executing : m.thread ≠ .idle) :
    m'.thread = m.thread :=
  Thread.eq_of_awaits h.thread executing

/-- A change of listeners, breakpoints, devices, console or run state. -/
theorem guards_of_eq (registry : m'.registry = m.registry) (config : m'.config = m.config)
    (thread : m'.thread = m.thread) (liveCode : m'.liveCode = m.liveCode)
    (ram : m'.ram = m.ram) : Guards m m' := by
  refine ⟨registry, config, Or.inl thread, liveCode, by rw [ram], ?_⟩
  intro map _ index _
  rw [ram]
  exact Ram.same_refl _ _ _

/-- When a store passes the check. -/
theorem checkStore_eq_ok_iff {offset : Word} {length : Nat} :
    m.checkStore offset length = .ok () ↔ m.ram.holds offset length = true ∧
      ∀ map, m.liveCode = some map → map.overlap? offset length = none := by
  unfold checkStore
  -- A store has to fit first, and then to spare all translated slots.
  by_cases fits : m.ram.holds offset length = true
  · rw [if_pos fits]
    cases hlive : m.liveCode with
    | none => simp only [Option.bind_none, fits, reduceCtorEq, false_implies, implies_true,
        and_self]
    | some map =>
        cases hoverlap : map.overlap? offset length with
        | none => simp only [Option.bind_some, hoverlap, fits, Option.some.injEq, forall_eq',
            and_self]
        | some slot => simp only [Option.bind_some, hoverlap, reduceCtorEq, Option.some.injEq,
            forall_eq', and_false]
  · rw [if_neg fits]
    simp only [reduceCtorEq, fits, false_and]

/-- A store in RAM that is refused reaches into a slot of live code. -/
theorem exists_overlap_of_checkStore {offset : Word} {length : Nat}
    (fits : m.ram.holds offset length = true) (refused : m.checkStore offset length ≠ .ok ()) :
    ∃ map slot, m.liveCode = some map ∧ map.overlap? offset length = some slot ∧
      m.checkStore offset length = .error (.selfModifyingCode slot) := by
  unfold checkStore at refused ⊢
  rw [if_pos fits] at refused ⊢
  cases hlive : m.liveCode with
  | none =>
      rw [hlive] at refused
      exact absurd rfl refused
  | some map =>
      rw [hlive] at refused
      cases hoverlap : map.overlap? offset length with
      | none =>
          rw [Option.bind_some, hoverlap] at refused
          exact absurd rfl refused
      | some slot =>
          refine ⟨map, slot, rfl, hoverlap, ?_⟩
          rw [Option.bind_some, hoverlap]

/-- A check holds on as long as live code is guarded. -/
theorem checkStore_of_guards (h : Guards m m') (offset : Word) (length : Nat) :
    m'.checkStore offset length = m.checkStore offset length := by
  unfold checkStore
  rw [Ram.holds_of_size_eq h.size, h.liveCode]

/-- A store that passed the check hits no live code. -/
theorem guards_of_checkStore {offset : Word} {data : List UInt8}
    (checked : m.checkStore offset data.length = .ok ()) : Guards m (m.putBytes offset data) := by
  rcases checkStore_eq_ok_iff.mp checked with ⟨fits, clear⟩
  refine ⟨rfl, rfl, Or.inl rfl, rfl, Ram.size_put _ _ _, ?_⟩
  intro map live index compiled
  refine Ram.same_put fits ?_
  -- A slot that is not apart from the data would be hit, but the check found none.
  by_cases apart : map.slotStart index + instructionSize ≤ offset.toNat
  · exact Or.inl apart
  · refine Or.inr (Nat.not_lt.mp fun reached => ?_)
    exact CodeMap.overlap?_eq_none_iff.mp (clear map live) index
      ⟨compiled, reached, Nat.not_le.mp apart⟩

/-- When a copy is made. -/
theorem copy_eq_ok_iff {offset : Word} {data : List UInt8} :
    m.copy offset data = .ok m' ↔ data.length < 0x100000000 ∧
      m.checkStore offset data.length = .ok () ∧ m' = m.putBytes offset data := by
  unfold copy
  -- The length of the data must be a word, which is checked before anything else.
  cases hlength : Word.ofNat? data.length with
  | none =>
      have long := Word.ofNat?_eq_none_iff.mp hlength
      simp only [reduceCtorEq, Nat.not_lt.mpr long, false_and]
  | some length =>
      have short : data.length < 0x100000000 := by
        rw [← Word.ofNat?_eq_some_iff.mp hlength]
        exact length.toNat_lt
      cases hcheck : m.checkStore offset data.length with
      | error trap => simp only [reduceCtorEq, false_and, and_false]
      | ok _ => simp only [Except.ok.injEq, short, true_and, eq_comm]

/-- A copy that is made hits no live code. -/
theorem guards_copy {offset : Word} {data : List UInt8} (copied : m.copy offset data = .ok m') :
    Guards m m' := by
  rcases copy_eq_ok_iff.mp copied with ⟨_, hcheck, rfl⟩
  exact guards_of_checkStore hcheck

theorem guards_addBreakpoint (m : Machine) (breakpoint : Breakpoint) :
    Guards m (m.addBreakpoint breakpoint) := by
  unfold addBreakpoint
  split
  · exact guards_refl m
  · exact guards_of_eq rfl rfl rfl rfl rfl

theorem guards_attach (m : Machine) (port : UInt16) (device : DeviceId) :
    Guards m ((m.attach? port device).getD m) := by
  unfold attach?
  cases m.peripherals.insert? port device with
  | none => exact guards_refl m
  | some peripherals => exact guards_of_eq rfl rfl rfl rfl rfl

end Machine

namespace Session

variable {ω : Type} {s : Session ω}

/-- Telling listeners leaves live code alone. -/
def NotifyGuards (notify : Notify ω) : Prop :=
  ∀ event ids (s : Session ω), s.machine.Guards (notify event ids s).2.machine

/-- Carrying out a command leaves live code alone. -/
def PerformGuards (perform : Perform ω) : Prop :=
  ∀ command (s : Session ω), s.machine.Guards (perform command s).2.machine

/-- A reaction does nothing but give commands. -/
theorem guards_run {perform : Perform ω} (h : PerformGuards perform) {depth : Nat}
    (reaction : Reaction ω depth) :
    ∀ s : Session ω, s.machine.Guards (reaction.run perform s).2.machine := by
  induction reaction with
  | accept => intro s; exact Machine.guards_refl _
  | refuse reason => intro s; exact Machine.guards_refl _
  | note audience next ih => intro s; exact ih { s with audience }
  | give command next ih =>
      intro s
      exact Machine.guards_trans (h command s) (ih _ _ _)

/-- Listeners are told one after the other. -/
theorem guards_tell {perform : Perform ω} (h : PerformGuards perform) (a : Audience ω)
    (depth : Nat) : NotifyGuards (a.tell depth perform) := by
  intro event ids
  induction ids with
  | nil => intro s; exact Machine.guards_refl _
  | cons id later ih =>
      intro s
      -- Behind a refusal no one else is told, and otherwise the rest are.
      have hrun := guards_run h (a.respond depth id event s) s
      unfold Audience.tell
      generalize (a.respond depth id event s).run perform s = ran at hrun ⊢
      rcases ran with ⟨_ | _, s'⟩
      · exact hrun
      · exact Machine.guards_trans hrun (ih s')

/-- A store that is made passed the check. -/
theorem checkStore_of_storeWith {notify : Notify ω} {offset value : Word}
    (made : (s.storeWith notify offset value).1 = .ok ()) :
    s.machine.checkStore offset 4 = .ok () := by
  unfold storeWith at made
  cases hcheck : s.machine.checkStore offset 4 with
  | error trap =>
      rw [hcheck] at made
      exact absurd made (by simp only [reduceCtorEq, not_false_eq_true])
  | ok _ => rfl

/-- Only an idle thread is told to begin. -/
theorem guards_execute {s s' : Session ω} (h : s.execute = .ok s') :
    s.machine.Guards s'.machine := by
  unfold execute at h
  cases hthread : s.machine.thread with
  | idle =>
      simp only [hthread, Thread.isExecuting, Bool.false_eq_true, if_false, Except.ok.injEq] at h
      rw [← h]
      exact ⟨rfl, rfl, Or.inr ⟨hthread, rfl⟩, rfl, rfl, fun _ _ _ _ => Ram.same_refl _ _ _⟩
  | _ => simp only [hthread, Thread.isExecuting, if_true, reduceCtorEq] at h

section Activities

variable {notify : Notify ω} (h : NotifyGuards notify)

include h

theorem guards_storeWith (s : Session ω) (offset value : Word) :
    s.machine.Guards (s.storeWith notify offset value).2.machine := by
  unfold storeWith
  cases hcheck : s.machine.checkStore offset 4 with
  | error trap => exact Machine.guards_refl _
  | ok _ =>
      have htold := h (.store offset value) s.machine.memoryListeners s
      dsimp only
      generalize notify (.store offset value) s.machine.memoryListeners s = told at htold ⊢
      rcases told with ⟨_ | _, s'⟩
      · exact htold
      · dsimp only
        by_cases fits : s'.machine.ram.holds offset 4 = true
        · rw [if_pos fits]
          -- The check was made before the listeners were told, and holds on behind that.
          refine Machine.guards_trans htold (Machine.guards_of_checkStore ?_)
          rw [Word.length_bytes, Machine.checkStore_of_guards htold, hcheck]
        · rw [if_neg fits]
          exact htold

theorem guards_switchWith (s : Session ω) (running : Bool) :
    s.machine.Guards (s.switchWith notify running).2.machine := by
  unfold switchWith
  refine Machine.guards_trans ?_ (h .status _ _)
  exact Machine.guards_of_eq rfl rfl rfl rfl rfl

theorem guards_arriveWith (s : Session ω) (offset : Word) :
    s.machine.Guards (s.arriveWith notify offset).2.machine := by
  have hset : s.machine.Guards
      (s.modify fun m => m.modifyControl fun state => { state with pc := offset }).machine :=
    Machine.guards_of_eq rfl rfl rfl rfl rfl
  unfold arriveWith
  dsimp only
  generalize (s.modify fun m => m.modifyControl fun state => { state with pc := offset }) = s₁
    at hset ⊢
  have htold := Machine.guards_trans hset (h .arrival s₁.machine.executionListeners s₁)
  generalize notify .arrival s₁.machine.executionListeners s₁ = told at htold ⊢
  rcases told with ⟨_ | _, s₂⟩
  · exact htold
  · dsimp only
    split
    · exact Machine.guards_trans htold (guards_switchWith h s₂ false)
    · exact htold

/-- No command changes live code, however it ends. -/
theorem guards_performWith (command : Command) (s : Session ω) :
    s.machine.Guards (performWith notify command s).2.machine := by
  unfold performWith
  -- No call touches registry, configuration or the size of RAM.
  cases command with
  | store offset value => exact guards_storeWith h s offset value
  | copy offset data =>
      dsimp only
      cases hcopy : s.machine.copy offset data with
      | error trap => exact Machine.guards_refl _
      | ok m => exact Machine.guards_copy hcopy
  | start => exact guards_switchWith h s true
  | stop => exact guards_switchWith h s false
  | addBreakpoint breakpoint => exact Machine.guards_addBreakpoint _ breakpoint
  | attach port device => exact Machine.guards_attach _ port device
  | execute =>
      dsimp only
      cases hexecute : s.execute with
      | error error => exact Machine.guards_refl _
      | ok s' => exact guards_execute hexecute
  | step | removeBreakpoint | clearBreakpoints | addMemoryListener | removeMemoryListener
  | addExecutionListener | removeExecutionListener | detach | setSink =>
      exact Machine.guards_of_eq rfl rfl rfl rfl rfl

end Activities

/-- However deep the commands of listeners nest, they leave live code alone. -/
theorem guards_perform (a : Audience ω) (depth : Nat) : PerformGuards (perform a depth) := by
  induction depth with
  | zero => intro command s; exact Machine.guards_refl _
  | succ depth ih => exact guards_performWith (guards_tell ih a depth)

theorem guards_notify (a : Audience ω) : NotifyGuards a.notify :=
  guards_tell (guards_perform a a.nesting) a a.nesting

theorem guards_store (a : Audience ω) (s : Session ω) (offset value : Word) :
    s.machine.Guards (s.store a offset value).2.machine :=
  guards_storeWith (guards_notify a) s offset value

theorem guards_arrive (a : Audience ω) (s : Session ω) (offset : Word) :
    s.machine.Guards (s.arrive a offset).2.machine :=
  guards_arriveWith (guards_notify a) s offset

theorem guards_command (a : Audience ω) (command : Command) (s : Session ω) :
    s.machine.Guards (s.command a command).2.machine :=
  guards_performWith (guards_notify a) command s

end Session

end Transport
