import Transport.Proofs.Machine.Branching
import Transport.Proofs.Machine.Driver
import Transport.Proofs.Ram.History

/-!
# Executions Leave Nothing Behind

An execution has many ways to end, from the first compilation to a trap of the last op, and
in the middle of it the machine can be given commands by others, who may also try to begin
an execution of their own. A step of an execution goes on with it, or waits, or clears all
that there was of it; there is no fourth kind, so an execution is over exactly when nothing
of it is left.

Whoever tries to execute meanwhile is told so at once, and that is all. To leave such
attempts out of a history makes no difference to the session at the end of it, nor to what
anyone else was told on the way. So the attempts cannot be seen by the one who waits at a
suspension point, however many there are.

## Main definitions

* `Reply`, `Session.replies`: What the callers of acts are told.
* `Session.heeded`: A history without the attempts that were refused.

## Theorems

* `playAll_heeded`, `replies_heeded`: What was refused made no difference.
* `wrote_of_command_store`: What a store leaves in RAM.
* `fresh_of_begins`: What the first op of an execution begins with.
* `executions_are_cleared`: All of this together.
-/

namespace Transport

/-- What the caller of an act is told. -/
inductive Reply where
  /-- What a small step of the compute thread amounted to. -/
  | step (advance : Advance)
  /-- How a command ended. -/
  | command (result : Except CommandError Unit)
  /-- Whether an execution began. -/
  | beginning (result : Except ExecutionError Unit)
  /-- Whether the listeners let someone come to a suspension point. -/
  | arrival (result : Except String Unit)
  /-- Whether someone left a suspension point. -/
  | departure (left : Bool)
  /-- Nothing. -/
  | silence

/-- An execution is under way already. -/
def Reply.isBusy : Reply → Bool
  | .beginning (.error .busy) => true
  | .command (.error .busy) => true
  | _ => false

/-- Where no code is live, only the bounds of RAM are in the way of a store. -/
theorem Machine.checkStore_of_clear {m : Machine} (live : m.liveCode = none) {offset : Word}
    {length : Nat} (fits : m.ram.holds offset length = true) :
    m.checkStore offset length = .ok () := by
  rw [checkStore_eq_ok_iff, live]
  exact ⟨fits, fun _ none => by cases none⟩

namespace Session

variable {ω : Type}

/-- What the caller of an act is told. -/
def reply (a : Audience ω) (s : Session ω) : Act ω → Reply
  | .advance => .step (s.advance a).1
  | .command command => .command (s.command a command).1
  | .execute => .beginning (s.execute.map fun _ => ())
  | .visit offset => .arrival (s.visit a offset).1
  | .depart => .departure s.depart.isSome
  | .rewire .. => .silence

/-- What the callers of acts are told, in order. -/
def replies (a : Audience ω) : Session ω → List (Act ω) → List Reply
  | _, [] => []
  | s, act :: acts => s.reply a act :: replies a (s.play a act) acts

/-- The acts without those that were refused because an execution was under way. -/
def heeded (a : Audience ω) : Session ω → List (Act ω) → List (Act ω)
  | _, [] => []
  | s, act :: acts =>
    if (s.reply a act).isBusy then heeded a (s.play a act) acts
    else act :: heeded a (s.play a act) acts

variable {a : Audience ω} {s s' : Session ω}

/-! ## Attempts that are refused -/

theorem execute_of_executing (executing : s.machine.thread.isExecuting = true) :
    s.execute = .error .busy := by
  simp only [execute, executing, if_true]

theorem execute_of_idle (idle : s.machine.thread.isExecuting = false) :
    s.execute = .ok (s.modify (·.setThread .starting)) := by
  simp only [execute, idle, Bool.false_eq_true, if_false]

/-- Nothing but an execution under way makes a command busy. -/
theorem isBusy_command_iff {command : Command} :
    (Reply.command (s.command a command).1).isBusy = true ↔
      s.machine.thread.isExecuting = true ∧ command = .execute := by
  -- Neither a store nor a switch can answer that the machine is busy.
  have hstore : ∀ result : Except Trap Unit,
      (Reply.command (result.mapError .trapped)).isBusy = false := by
    intro result
    cases result <;> rfl
  have hswitch : ∀ result : Except String Unit,
      (Reply.command (result.mapError .refused)).isBusy = false := by
    intro result
    cases result <;> rfl
  cases command with
  | store offset value =>
      have h := hstore (s.storeWith a.notify offset value).1
      simp only [Session.command, performWith, h, reduceCtorEq, and_false]
  | copy offset data =>
      unfold Session.command performWith
      dsimp only
      split <;> simp only [Reply.isBusy, Bool.false_eq_true, reduceCtorEq, and_false]
  | start =>
      have h := hswitch (s.switchWith a.notify true).1
      simp only [Session.command, performWith, h, Bool.false_eq_true, reduceCtorEq, and_false]
  | stop =>
      have h := hswitch (s.switchWith a.notify false).1
      simp only [Session.command, performWith, h, Bool.false_eq_true, reduceCtorEq, and_false]
  | execute =>
      unfold Session.command performWith
      cases hthread : s.machine.thread.isExecuting with
      | true => simp only [execute_of_executing hthread, Reply.isBusy, and_self]
      | false => simp only [execute_of_idle hthread, Reply.isBusy, Bool.false_eq_true, false_and]
  | step | addBreakpoint | removeBreakpoint | clearBreakpoints | addMemoryListener
  | removeMemoryListener | addExecutionListener | removeExecutionListener | attach | detach
  | setSink =>
      simp only [Session.command, performWith, Reply.isBusy, Bool.false_eq_true, reduceCtorEq,
        and_false]

theorem isBusy_reply_iff {act : Act ω} :
    (s.reply a act).isBusy = true ↔ s.machine.thread.isExecuting = true ∧
      (act = .execute ∨ act = .command .execute) := by
  cases act with
  | command command =>
      rw [reply, isBusy_command_iff]
      simp only [reduceCtorEq, false_or, Act.command.injEq]
  -- The call is refused exactly while the thread executes.
  | execute =>
      cases hthread : s.machine.thread.isExecuting with
      | true => simp only [reply, execute_of_executing hthread, Except.map, Reply.isBusy,
          reduceCtorEq, or_false, and_self]
      | false => simp only [reply, execute_of_idle hthread, Except.map, Reply.isBusy,
          Bool.false_eq_true, false_and]
  | advance | visit | depart | rewire =>
      simp only [reply, Reply.isBusy, Bool.false_eq_true, reduceCtorEq, or_self, and_false]

/-- Who is refused has changed nothing. -/
theorem play_of_isBusy {act : Act ω} (busy : (s.reply a act).isBusy = true) : s.play a act = s := by
  rcases isBusy_reply_iff.mp busy with ⟨executing, rfl | rfl⟩
  · rw [play, execute_of_executing executing]
    rfl
  · simp only [play, command, performWith, execute_of_executing executing]

/-- What was refused makes no difference to the session. -/
theorem playAll_heeded (acts : List (Act ω)) : ∀ s : Session ω,
    s.playAll a (s.heeded a acts) = s.playAll a acts := by
  induction acts with
  | nil => exact fun _ => rfl
  | cons act acts ih =>
      intro s
      rw [heeded]
      split
      · next busy =>
        change s.playAll a ((s.play a act).heeded a acts) = (s.play a act).playAll a acts
        rw [play_of_isBusy busy]
        exact ih s
      · exact ih (s.play a act)

/-- What was refused makes no difference to what the others are told. -/
theorem replies_heeded (acts : List (Act ω)) : ∀ s : Session ω,
    s.replies a (s.heeded a acts) = (s.replies a acts).filter fun reply => !reply.isBusy := by
  induction acts with
  | nil => exact fun _ => rfl
  | cons act acts ih =>
      intro s
      -- A call that is refused for being busy changes nothing, so it can be left out.
      rw [heeded, replies]
      split
      · next busy =>
        rw [List.filter_cons_of_neg (by rw [busy]; exact Bool.false_ne_true),
          play_of_isBusy busy]
        exact ih s
      · next heard =>
        rw [Bool.not_eq_true] at heard
        rw [List.filter_cons_of_pos (by rw [heard]; rfl), replies, ih]

/-! ## The end of an execution -/

/-- An execution is over only when a step of it has cleared everything. -/
theorem finished_of_play (executing : s.machine.thread.isExecuting = true) {act : Act ω}
    (ended : (s.play a act).machine.thread.isExecuting = false) :
    act = .advance ∧ ∃ result, s.advance a = (.finished result, s.modify Machine.clear) := by
  by_cases advances : act = .advance
  · rw [advances] at ended
    change (s.advance a).2.machine.thread.isExecuting = false at ended
    have hkept := kept_advance a s
    generalize s.advance a = after at hkept ended ⊢
    cases hkept with
    | goesOn executing' =>
        rw [executing'] at ended
        contradiction
    | waits =>
        rw [executing] at ended
        contradiction
    | ends result => exact ⟨advances, result, rfl⟩
  · -- What is done beside the compute thread leaves it where it is.
    have same := (guards_play a s advances).executing fun idle => by
      rw [idle] at executing
      contradiction
    rw [same, executing] at ended
    contradiction

/-! ## After an execution -/

/-- A store is made if no code is live, it is in bounds, and whoever is told of it agrees. -/
theorem command_store_of_clear (live : s.machine.liveCode = none) {offset value : Word}
    (fits : s.machine.ram.holds offset 4 = true)
    (told : a.notify (.store offset value) s.machine.memoryListeners s = (.ok (), s')) :
    s.command a (.store offset value) =
      (.ok (), s'.modify fun m => m.putBytes offset (Word.bytes value)) := by
  have hcheck := Machine.checkStore_of_clear live fits
  -- The listeners may have stored something themselves, but RAM is as large as it was.
  have hsize := (guards_notify a (.store offset value) s.machine.memoryListeners s).size
  rw [told] at hsize
  rw [← Ram.holds_of_size_eq hsize] at fits
  simp only [command, performWith, storeWith, hcheck, told, fits, if_true]
  rfl

theorem command_copy_of_clear (live : s.machine.liveCode = none) {offset : Word}
    {data : List UInt8} (short : data.length < 0x100000000)
    (fits : s.machine.ram.holds offset data.length = true) :
    s.command a (.copy offset data) = (.ok (), s.modify (·.putBytes offset data)) := by
  have hcopy := Machine.copy_eq_ok_iff.mpr ⟨short, Machine.checkStore_of_clear live fits, rfl⟩
  simp only [command, performWith, hcopy]
  rfl

/-- What a store that is performed leaves in RAM: the four bytes of the word in its range,
    and else what the listeners have left. The word is read back. -/
theorem wrote_of_command_store (live : s.machine.liveCode = none) {offset value : Word}
    (fits : s.machine.ram.holds offset 4 = true)
    (told : a.notify (.store offset value) s.machine.memoryListeners s = (.ok (), s')) :
    s'.machine.ram.Wrote (s.command a (.store offset value)).2.machine.ram (.word offset value) ∧
      (s.command a (.store offset value)).2.machine.ram.word? offset = some value := by
  -- Listeners may have done anything but resize RAM.
  have hsize := (guards_notify a (.store offset value) s.machine.memoryListeners s).size
  rw [told] at hsize
  have hwrite : s'.machine.ram.write? (.word offset value) =
      some (s'.machine.ram.put offset (Word.bytes value)) := by
    rw [Ram.write?_eq]
    refine if_pos ?_
    rw [hsize]
    exact Ram.holds_iff.mp fits
  rw [command_store_of_clear live fits told]
  exact ⟨Ram.wrote_of_write? hwrite, Ram.word?_of_wrote hwrite⟩

/-- So it is with the bytes of a copy. -/
theorem wrote_of_command_copy (live : s.machine.liveCode = none) {offset : Word}
    {data : List UInt8} (short : data.length < 0x100000000)
    (fits : s.machine.ram.holds offset data.length = true) :
    s.machine.ram.Wrote (s.command a (.copy offset data)).2.machine.ram (.copy offset data) := by
  have hwrite : s.machine.ram.write? (.copy offset data) =
      some (s.machine.ram.put offset data) := by
    rw [Ram.write?_eq]
    exact if_pos (Ram.holds_iff.mp fits)
  rw [command_copy_of_clear live short fits]
  exact Ram.wrote_of_write? hwrite

/-- The first op of an execution begins in fresh instances that were attached to the machine,
    and with the condition set. -/
theorem handedOn_fresh (registry : Registry) :
    HandedOn registry fun chronicle context => chronicle = [] →
      (∃ answers, (Context.fresh registry).bind.Leads answers (.done context)) ∧
      (Context.fresh registry).Attached context ∧ context.condition = true where
  attached answers _ leads _ := by
    have attached := Dialogue.end_of_leads (Context.ends_bind_context _) leads
    exact ⟨⟨answers, leads⟩, attached, attached.condition⟩
  whole u earlier progress context _ _ empty := absurd empty (List.cons_ne_nil u earlier)

theorem fresh_of_begins (idle : s.machine.thread = .idle) (acts : List (Act ω))
    {segment : Segment} {op : Nat} {context : Context}
    (begun : (s.playAll a acts).machine.begins? = some (segment, op, context))
    (first : s.chronicle a acts = []) :
    (∃ answers, (Context.fresh s.machine.registry).bind.Leads answers (.done context)) ∧
      (Context.fresh s.machine.registry).Attached context ∧ context.condition = true :=
  context_of_begins (handedOn_fresh s.machine.registry)
    (follows_playAll (handedOn_fresh s.machine.registry) idle rfl acts)
    (fixed_playAll a acts s).registry begun first

/-- Executions leave nothing behind, and no second one disturbs them. Whatever is done to a
    machine that has nothing to do at first: code is live only during an execution. During
    one, an attempt to execute is refused and changes nothing; and to leave all such attempts
    out of what is done changes neither where it comes to nor what anyone else is told. When
    the thread comes to an end, it is for one of the reasons that there are, and everything
    else is as it was while the code and the execution are gone; and this is the only way for
    an execution to be over. Outside of executions every store in bounds that is agreed to is
    made and leaves its four bytes, every copy in bounds is made, and an execution does
    begin, whose first op finds fresh instances that were attached and a set condition. -/
theorem executions_are_cleared (a : Audience ω) {s : Session ω} (idle : s.machine.thread = .idle)
    (live : s.machine.liveCode = none) (acts : List (Act ω)) :
    let t := s.playAll a acts
    (∀ map, t.machine.liveCode = some map → t.machine.thread.isExecuting = true) ∧
    (t.machine.thread.isExecuting = true → t.execute = .error .busy ∧ t.play a .execute = t) ∧
    (s.playAll a (s.heeded a acts) = t ∧
      s.replies a (s.heeded a acts) = (s.replies a acts).filter fun reply => !reply.isBusy) ∧
    (∀ result t', t.advance a = (.finished result, t') →
      result ≠ .error .busy ∧ t.Ending result ∧ t' = t.modify Machine.clear) ∧
    (∀ act, t.machine.thread.isExecuting = true →
      (t.play a act).machine.thread.isExecuting = false →
        act = .advance ∧ ∃ result, t.advance a = (.finished result, t.modify Machine.clear)) ∧
    (t.machine.thread.isExecuting = false →
      t.machine.thread = .idle ∧ t.machine.liveCode = none ∧
      (∀ offset value t', t.machine.ram.holds offset 4 = true →
        a.notify (.store offset value) t.machine.memoryListeners t = (.ok (), t') →
          t.command a (.store offset value) =
            (.ok (), t'.modify fun m => m.putBytes offset (Word.bytes value)) ∧
          t'.machine.ram.Wrote (t.command a (.store offset value)).2.machine.ram
            (.word offset value) ∧
          (t.command a (.store offset value)).2.machine.ram.word? offset = some value) ∧
      (∀ offset data, data.length < 0x100000000 →
        t.machine.ram.holds offset data.length = true →
          t.command a (.copy offset data) = (.ok (), t.modify (·.putBytes offset data)) ∧
          t.machine.ram.Wrote (t.command a (.copy offset data)).2.machine.ram
            (.copy offset data)) ∧
      t.execute = .ok (t.modify (·.setThread .starting)) ∧
      ∀ more segment op context, t.chronicle a (.execute :: more) = [] →
        (t.playAll a (.execute :: more)).machine.begins? = some (segment, op, context) →
          (∃ answers, (Context.fresh s.machine.registry).bind.Leads answers (.done context)) ∧
          (Context.fresh s.machine.registry).Attached context ∧ context.condition = true) := by
  intro t
  have sound : t.Sound (s.origin? a acts) :=
    sound_originFrom a acts s none (sound_fresh idle live)
  -- When nothing executes, nothing is live: `Sound` says so of every reachable machine.
  have hlive : t.machine.thread.isExecuting = false → t.machine.liveCode = none := by
    intro outside
    refine sound.idle ?_
    rw [Thread.isExecuting_eq_false_iff.mp outside]
    rfl
  refine ⟨fun map hmap => ?_, fun executing => ?_, ⟨playAll_heeded acts s, replies_heeded acts s⟩,
    fun result t' hadvance => ?_, fun act executing ended => finished_of_play executing ended,
    fun outside => ?_⟩
  · by_contra outside
    rw [hlive (Bool.not_eq_true _ ▸ outside)] at hmap
    contradiction
  · exact ⟨execute_of_executing executing,
      play_of_isBusy (a := a) (isBusy_reply_iff.mpr ⟨executing, Or.inl rfl⟩)⟩
  · -- An end is one of the endings, and none of them is the error of being busy.
    have hkept := kept_advance a t
    rw [hadvance] at hkept
    cases hkept with
    | ends =>
        have ending := ending_of_advance hadvance
        refine ⟨?_, ending, rfl⟩
        cases ending <;> simp only [ne_eq, reduceCtorEq, Except.error.injEq,
          not_false_eq_true]
  · -- Idle and with no code live, calls are not held up by translated slots.
    have hidle := Thread.isExecuting_eq_false_iff.mp outside
    refine ⟨hidle, hlive outside, fun offset value t' fits told => ?_,
      fun offset data short fits => ?_, execute_of_idle outside,
      fun more segment op context first begun => ?_⟩
    · exact ⟨command_store_of_clear (hlive outside) fits told,
        wrote_of_command_store (hlive outside) fits told⟩
    · exact ⟨command_copy_of_clear (hlive outside) short fits,
        wrote_of_command_copy (hlive outside) short fits⟩
    · have hfresh := fresh_of_begins hidle (.execute :: more) begun first
      rwa [(fixed_playAll a acts s).registry] at hfresh

-- A second attempt while the first execution waits to be started; then the program halts.
theorem executions_are_cleared_halting :
    let a : Audience Unit := ⟨fun _ _ _ _ => .accept, 0⟩
    let acts := .execute :: List.replicate 4 .advance ++ [.execute]
    let waiting := shutdownSession.playAll a acts
    let halted := shutdownSession.playAll a (acts ++ .command .start :: List.replicate 3 .advance)
    waiting.execute = .error .busy ∧ waiting.play a .execute = waiting ∧
    halted.machine.liveCode = none ∧ halted.machine.thread = .idle ∧
    halted.command a (.store 0 7) =
      (.ok (), halted.modify fun m => m.putBytes 0 (Word.bytes 7)) ∧
    halted.execute = .ok (halted.modify (·.setThread .starting)) := by
  intro a acts waiting
  let after := acts ++ .command .start :: List.replicate 3 .advance
  have executing : waiting.machine.thread.isExecuting = true := by decide +kernel
  have outside : (shutdownSession.playAll a after).machine.thread.isExecuting = false := by
    decide +kernel
  have fits : (shutdownSession.playAll a after).machine.ram.holds 0 4 = true := by decide +kernel
  have unheard : (shutdownSession.playAll a after).machine.memoryListeners = [] := by
    decide +kernel
  rcases executions_are_cleared a (s := shutdownSession) rfl rfl acts with ⟨_, hbusy, _⟩
  have hcleared := executions_are_cleared a (s := shutdownSession) rfl rfl after
  -- What was done does not matter any more.
  change _ ∧ _ ∧ (shutdownSession.playAll a after).machine.liveCode = none ∧ _
  generalize shutdownSession.playAll a after = halted at outside fits unheard hcleared ⊢
  have told : a.notify (.store 0 7) halted.machine.memoryListeners halted = (.ok (), halted) := by
    rw [unheard]
    rfl
  rcases hcleared with ⟨_, _, _, _, _, hafter⟩
  rcases hafter outside with ⟨hidle, hlive, hstore, _, hexecute, _⟩
  exact ⟨(hbusy executing).1, (hbusy executing).2, hlive, hidle, (hstore 0 7 halted fits told).1,
    hexecute⟩

end Session

end Transport
