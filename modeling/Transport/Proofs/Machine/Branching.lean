import Transport.Proofs.Machine.Chronicle
import Transport.Proofs.Machine.LiveCode
import Transport.Proofs.Segment.Containment

/-!
# What Decides Jumps

A jump is decided by the tests since the last one. If there was none, the jump is taken; of
several, the last one counts. Nothing else has a say: no move, no suspension point, no change
of windows, and no test whose source delivered nothing.

The machine keeps a condition for this, which tests overwrite and jumps set again. What it
is comes from the chronicle of the execution, by looking back as far as the last jump. This
is shown for all contexts that ops were carried out in, one after the other, in any
segments, to whatever ends; the executions of a machine are among them.

## Main definitions

* `Undertaking.isBranch`, `Undertaking.tested?`: What ops have to do with jumps.
* `decision`: Whether a jump is to be taken, from what was done before.
* `Context.Carried`: A context has come through ops, and these are their undertakings.
* `Segment.Stems`: An op is what an instruction in RAM compiles to.

## Theorems

* `condition_of_step`: What an op makes of the condition.
* `condition_of_carried`: The condition is the decision.
* `stands_of_branch`: Where a jump leads.
* `stems_of_mem_chronicle`: Ops are begun that stem from what was compiled, and from RAM.
* `tests_decide_jumps`: Jumps of executions, of a machine in any run.
-/

namespace Transport

/-- The control operation of a test. -/
def Test.control : Test → Control
  | .nonneg => .nonneg
  | .zero => .zero

namespace Undertaking

/-- The op that was begun. Behind the last op of a segment there is none. -/
def op? (u : Undertaking) : Option Op := u.segment.ops[u.op]?

/-- Whether the op is a jump. -/
def isBranch (u : Undertaking) : Bool :=
  match u.op? with
  | some (.branch _) => true
  | _ => false

/-- Whether the value passed the test, if the op is one and its source delivered a value. -/
def tested? (u : Undertaking) : Option Bool :=
  match u.op? with
  | some (.test offset load kind) =>
    match (load.value offset u.context).after? u.answers with
    | some (.done (.ok value, _)) => some (kind.holds value)
    | _ => none
  | _ => none

end Undertaking

/-- Whether a jump is to be taken after a chronicle: the last test since the last jump
    decides, and if there is none, the jump is taken. -/
def decision (chronicle : List Undertaking) : Bool :=
  ((chronicle.takeWhile fun u => !u.isBranch).findSome? Undertaking.tested?).getD true

theorem decision_cons (u : Undertaking) (earlier : List Undertaking) :
    decision (u :: earlier) =
      if u.isBranch then true else u.tested?.getD (decision earlier) := by
  unfold decision
  rw [List.takeWhile_cons]
  -- A branch in front hides all that was tested before it.
  cases u.isBranch with
  | true => rfl
  | false =>
      simp only [Bool.not_false, if_true, List.findSome?_cons, Bool.false_eq_true, if_false]
      cases u.tested? <;> rfl

namespace Context

/-- A context has come through ops, the latest first: it was fresh, its instances were
    attached to a host, whatever that answered, and ops were begun in it and came to an end,
    which may have been a trap. -/
inductive Carried (registry : Registry) : List Undertaking → Context → Prop
  | fresh : Carried registry [] (Context.fresh registry)
  | bind {chronicle : List Undertaking} {context attached : Context} {answers : List Answered}
      (before : Carried registry chronicle context)
      (leads : context.bind.Leads answers (.done attached)) : Carried registry chronicle attached
  | op {u : Undertaking} {earlier : List Undertaking} {outcome : Except Trap Progress}
      {context : Context} (before : Carried registry earlier u.context)
      (comes : Talk.Comes (u.segment.step u.op) u.context u.answers outcome context) :
      Carried registry (u :: earlier) context

theorem steady_condition (condition : Bool) :
    Steady fun context => context.condition = condition := fun _ _ _ h => h

end Context

/-! ## The condition -/

section Condition

variable {u : Undertaking} {context context' : Context} {answers : List Answered}

/-- An op that neither tests nor jumps leaves the condition alone. -/
theorem Op.keeps_condition {op : Op} (condition : Bool)
    (untested : ∀ offset load kind, op ≠ .test offset load kind)
    (straight : ∀ target, op ≠ .branch target) :
    Talk.Keeps (fun context : Context => context.condition = condition) (fun _ => True)
      op.perform := by
  have steady := Context.steady_condition condition
  -- Tests and branches are excluded; the other ops talk of cells and devices only.
  cases op with
  | suspend offset =>
      refine Talk.keeps_bind (Talk.keeps_ask _) fun answer _ => ?_
      cases answer with
      | error reason => exact Talk.keeps_throw reason
      | ok _ => exact Talk.keeps_pure trivial
  | move offset load store =>
      refine Talk.keeps_bind (Load.keeps_value steady offset load) fun value _ => ?_
      refine Talk.keeps_bind (Store.keeps_put steady offset value store) fun effect _ => ?_
      cases effect <;> exact Talk.keeps_pure trivial
  | test offset load kind => exact absurd rfl (untested offset load kind)
  | branch target => exact absurd rfl (straight target)
  | trap offset cause source destination =>
      refine Talk.keeps_bind (Talk.keeps_ask _) fun answer _ => ?_
      cases answer with
      | error reason => exact Talk.keeps_throw reason
      | ok currentSource =>
          refine Talk.keeps_bind (Talk.keeps_ask _) fun answer _ => ?_
          cases answer with
          | error reason => exact Talk.keeps_throw reason
          | ok currentDestination => exact Talk.keeps_throw _

/-- A test makes the condition from the value, and leaves it alone if there is none. -/
theorem condition_of_test {offset : Word} {load : Load} {kind : Test} {outcome : Except Trap Flow}
    (hop : u.op? = some (.test offset load kind))
    (h : Talk.Comes (Op.test offset load kind).perform u.context u.answers outcome context) :
    context.condition = u.tested?.getD u.context.condition := by
  unfold Undertaking.tested?
  rw [hop]
  dsimp only
  rcases Talk.comes_bind_iff.mp h with
    ⟨value, context₁, before, after, hanswers, hload, hrest⟩ | ⟨trap, _, hload⟩
  · have hlast := Talk.comes_modify_bind_iff.mp hrest
    rcases Talk.comes_pure_iff.mp hlast with ⟨rfl, _, rfl⟩
    -- The source was given all of the answers.
    rw [hanswers, List.append_nil, Dialogue.after?_of_leads hload]
    rfl
  · -- The source trapped: there is no value, and the condition is as it was.
    rw [Dialogue.after?_of_leads hload]
    exact (Talk.comes_of_keeps (Load.keeps_value (Context.steady_condition _) offset load) rfl
      hload).1

theorem condition_of_branch {target : Target} {outcome : Except Trap Flow}
    (h : Talk.Comes (Op.branch target).perform context answers outcome context') :
    context'.condition = true := by
  have hrest := Talk.comes_modify_bind_iff.mp (Talk.comes_get_bind_iff.mp h)
  rw [(Talk.comes_pure_iff.mp hrest).2.2]

/-- What an op makes of the condition, so far as it has come to its end or a trap. -/
theorem condition_of_perform {op : Op} {outcome : Except Trap Flow} (hop : u.op? = some op)
    (h : Talk.Comes op.perform u.context u.answers outcome context) :
    context.condition =
      if u.isBranch then true else u.tested?.getD u.context.condition := by
  -- A test sets the condition, a branch resets it, and every other op keeps it.
  cases op with
  | test offset load kind =>
      rw [condition_of_test hop h, Undertaking.isBranch, hop]
      rfl
  | branch target =>
      rw [condition_of_branch h, Undertaking.isBranch, hop]
      rfl
  | suspend | move | trap =>
      have kept := (Talk.comes_of_keeps (Op.keeps_condition u.context.condition
        (fun _ _ _ => Op.noConfusion) fun _ => Op.noConfusion) rfl h).1
      rw [kept, Undertaking.isBranch, Undertaking.tested?, hop]
      rfl

theorem condition_of_step {outcome : Except Trap Progress}
    (h : Talk.Comes (u.segment.step u.op) u.context u.answers outcome context) :
    context.condition =
      if u.isBranch then true else u.tested?.getD u.context.condition := by
  unfold Segment.step at h
  cases hop : u.segment.ops[u.op]? with
  -- There is no op, so nothing is tested.
  | none =>
      rw [hop] at h
      rw [(Talk.comes_pure_iff.mp h).2.2, Undertaking.isBranch, Undertaking.tested?,
        Undertaking.op?, hop]
      rfl
  | some op =>
      rw [hop] at h
      -- The op itself may trap, or what it flows into is only looked up.
      rcases Talk.comes_bind_iff.mp h with
        ⟨flow, _, before, after, hanswers, hperform, hpure⟩ | ⟨trap, _, hperform⟩
      · rcases Talk.comes_pure_iff.mp hpure with ⟨rfl, _, rfl⟩
        rw [List.append_nil] at hanswers
        rw [← hanswers] at hperform
        exact condition_of_perform hop hperform
      · exact condition_of_perform hop hperform

variable {registry : Registry}

/-- The condition of a context that has come through ops is what they decide. -/
theorem condition_of_carried {chronicle : List Undertaking}
    (h : Context.Carried registry chronicle context) : context.condition = decision chronicle := by
  induction h with
  | fresh => rfl
  | bind _ leads ih =>
      -- The instances have no say in it.
      rw [(Dialogue.end_of_leads (Context.ends_bind_context _) leads).condition, ih]
  | op _ comes ih => rw [condition_of_step comes, decision_cons, ih]

end Condition

/-! ## Jumps and other ops of compiled segments -/

namespace Segment

variable {registry : Registry} {options : Options} {image : Ram} {start stop : Word}
  {segment : Segment}

/-- A jump is one step without a question. -/
theorem step_branch {op : Nat} {target : Target} (hop : segment.ops[op]? = some (.branch target))
    (context : Context) :
    segment.step op context =
      .done (.ok (follow op (if context.condition then .jump target else .next)),
        { context with condition := true }) := by
  simp only [step, hop]
  rfl

/-- Where a compiled jump leads: to the literal of its instruction if it is taken, and else
    to the next instruction. -/
theorem stands_of_branch (compiled : compile registry options image start stop = .ok segment)
    {op : Nat} {target : Target} (hop : segment.ops[op]? = some (.branch target)) :
    ∃ literal, instructionAt image (segment.offsetAt op) = ⟨.literal literal, .control .branch⟩ ∧
      ∀ taken : Bool, segment.Stands (follow op (if taken then .jump target else .next))
        (Interpreter.place segment.start segment.stop
          (.goto (if taken then literal else segment.offsetAt op + 8))) := by
  rcases compile_eq_ok_iff.mp compiled with ⟨valid, _, rfl⟩
  have hsize := (Array.getElem?_eq_some_iff.mp hop).1
  rw [size_ops_layout] at hsize
  have hget := hop
  rw [getElem?_ops_layout _ _ _ hsize, Option.some.injEq] at hget
  split at hget
  · contradiction
  · next last =>
    rcases branch_of_opFor hget with ⟨literal, hinstruction, aligned, rfl⟩
    have inside : op / options.stride < countOf start stop :=
      Nat.div_lt_of_lt_mul (Nat.lt_of_lt_of_eq hsize (Nat.mul_comm _ _))
    -- Of the ops of an instruction the jump is the last one.
    have hbehind : op + 1 = (op / options.stride + 1) * options.stride := by
      cases hstep : options.singleStep with
      | true =>
          rw [hstep, Bool.true_and, decide_eq_true_eq] at last
          rw [Options.stride_of_singleStep hstep]
          omega
      | false => rw [Options.stride_of_not_singleStep hstep, Nat.div_one, Nat.mul_one]
    refine ⟨literal, hinstruction, fun taken => ?_⟩
    cases taken with
    | true => exact stands_follow valid inside hbehind (.jump aligned)
    | false => exact stands_follow valid inside hbehind .next

/-- The op at an index of a segment is what the instruction in RAM compiles to, or belongs to
    an instruction that does not compile. -/
inductive Stems (registry : Registry) (ram : Ram) (segment : Segment) (j : Nat) : Op → Prop
  | suspend : Stems registry ram segment j (.suspend (segment.offsetAt j))
  | branch {literal : Word}
      (instruction : instructionAt ram (segment.offsetAt j) =
        ⟨.literal literal, .control .branch⟩) :
      Stems registry ram segment j
        (.branch (targetOf segment.start segment.stop segment.options.stride literal))
  | test (kind : Test) {source : Source} {load : Load}
      (instruction : instructionAt ram (segment.offsetAt j) = ⟨source, .control kind.control⟩)
      (loads : loadOf registry registry.slotIds source = .ok load) :
      Stems registry ram segment j (.test (segment.offsetAt j) load kind)
  | move {source : Source} {address : Address} {load : Load} {store : Store}
      (instruction : instructionAt ram (segment.offsetAt j) = ⟨source, .port address⟩)
      (loads : loadOf registry registry.slotIds source = .ok load)
      (stores : storeOf registry registry.slotIds address = .ok store) :
      Stems registry ram segment j (.move (segment.offsetAt j) load store)
  | trap {cause : Obstacle} {source destination : Word} :
      Stems registry ram segment j (.trap (segment.offsetAt j) cause source destination)

/-- The ops of a compiled segment stem from what it was compiled from. -/
theorem stems_of_compile (compiled : compile registry options image start stop = .ok segment)
    {j : Nat} {op : Op} (hop : segment.ops[j]? = some op) : segment.Stems registry image j op := by
  rcases range_of_compile compiled with ⟨_, rfl, rfl, rfl⟩
  rcases (op_of_compile compiled hop).2 with rfl | rfl
  · exact .suspend
  · change segment.Stems registry image j (opOf (targetOf segment.start segment.stop segment.options.stride)
      (slotAt registry registry.slotIds image (segment.offsetAt j)))
    have hoffset : (slotAt registry registry.slotIds image (segment.offsetAt j)).offset =
      segment.offsetAt j := rfl
    unfold opOf
    rw [hoffset]
    -- The cases are the ways in which an instruction compiles, and that it does not.
    rcases compiles_or_trap registry image (segment.offsetAt j) with compiles | ⟨cause, htrap⟩
    · generalize (slotAt registry registry.slotIds image (segment.offsetAt j)).shape = shape
        at compiles ⊢
      generalize hinstruction : instructionAt image (segment.offsetAt j) = i at compiles
      cases compiles with
      | branch _ => exact .branch hinstruction
      | nonneg loads => exact .test .nonneg hinstruction loads
      | zero loads => exact .test .zero hinstruction loads
      | move loads stores => exact .move hinstruction loads stores
    · rw [htrap]
      exact .trap

end Segment

namespace Session

open Segment

variable {ω : Type} {a : Audience ω} {s : Session ω} {origin : Option Origin}

/-- What begins is an op of a segment that was compiled. If it belongs to an instruction
    that compiled, and nothing was stored before the code became live, RAM still holds this
    instruction. -/
theorem image_of_begins (sound : s.Sound origin) {segment : Segment} {op : Nat}
    {context : Context} (begun : s.machine.begins? = some (segment, op, context)) :
    ∃ image, Segment.compile s.machine.registry s.machine.config.options image segment.start
        segment.stop = .ok segment ∧
      (s.Undisturbed origin → ∀ current, segment.ops[op]? = some current →
        current.isTrap = false → current = .suspend (segment.offsetAt op) ∨
          instructionAt s.machine.ram (segment.offsetAt op) =
            instructionAt image (segment.offsetAt op)) := by
  cases Machine.begins?_eq_some_iff.mp begun with
  | standing working =>
      rcases sound.executes segment (by rw [working]; rfl) with ⟨live, o, horigin, rfl⟩
      rcases sound.live _ live with ⟨o', horigin', _, faithful⟩
      cases horigin.symm.trans horigin'
      refine ⟨o.image, faithful.compiled, fun undisturbed current hop translated => ?_⟩
      rcases Machine.op_of_compiled faithful.toCompiled hop with ⟨inside, rfl | rfl⟩
      · exact Or.inl rfl
      · -- A slot that compiled holds what it held, however long ago that was.
        have hsame := (Machine.current_of_faithful faithful (undisturbed.entered o horigin) inside
          translated).1
        have reach := (Machine.fits_of_compiled faithful.toCompiled inside).1
        exact Or.inr (by simp only [instructionAt, offsetAt, wordsAt_of_same reach hsame])
  | whole attached _ =>
      have haboard : s.machine.thread.aboard? = some segment := by rw [attached]; rfl
      rcases sound.aboard segment haboard with ⟨_, o, horigin, rfl, compiled⟩
      refine ⟨o.image, compiled.compiled, fun undisturbed _ _ _ => Or.inr ?_⟩
      rw [undisturbed.aboard o.segment haboard o horigin]
  | window _ compiled _ =>
      -- The segment is compiled in this very step.
      rcases range_of_compile compiled with ⟨_, hstart, hstop, _⟩
      rw [← hstart, ← hstop] at compiled
      exact ⟨s.machine.ram, compiled, fun _ _ _ _ => Or.inr rfl⟩

/-- What begins stems from what RAM holds as it begins, if nothing was stored before the
    code became live. -/
theorem stems_of_begins (sound : s.Sound origin) (undisturbed : s.Undisturbed origin)
    {segment : Segment} {op : Nat} {context : Context}
    (begun : s.machine.begins? = some (segment, op, context)) {current : Op}
    (hop : segment.ops[op]? = some current) :
    segment.Stems s.machine.registry s.machine.ram op current := by
  rcases image_of_begins sound begun with ⟨image, compiled, same⟩
  -- What RAM holds now is the image, unless the op is a trap or a suspension point.
  have held := same undisturbed current hop
  cases stems_of_compile compiled hop with
  | suspend => exact .suspend
  | trap => exact .trap
  | branch instruction =>
      exact .branch (((held rfl).resolve_left Op.noConfusion).trans instruction)
  | test kind instruction loads =>
      exact .test kind (((held rfl).resolve_left Op.noConfusion).trans instruction) loads
  | move instruction loads stores =>
      exact .move (((held rfl).resolve_left Op.noConfusion).trans instruction) loads stores

theorem chronicleFrom_append (acts more : List (Act ω)) :
    ∀ (s : Session ω) (chronicle : List Undertaking),
      s.chronicleFrom a chronicle (acts ++ more) =
        (s.playAll a acts).chronicleFrom a (s.chronicleFrom a chronicle acts) more := by
  induction acts with
  | nil => exact fun _ _ => rfl
  | cons act acts ih => exact fun s chronicle => ih _ _

/-- Nothing is stored in a part of the acts either. -/
theorem quiet_of_append {acts more : List (Act ω)} :
    ∀ s : Session ω, s.Quiet a (acts ++ more) → s.Quiet a acts := by
  induction acts with
  | nil => exact fun _ _ => trivial
  | cons act acts ih => exact fun _ quiet => ⟨quiet.1, ih _ quiet.2⟩

/-- An act notes what begins, answers to the last one, or nothing. What every undertaking has
    as it begins, and keeps with its answers, it has for good. -/
theorem mem_noted {P : Undertaking → Prop}
    (answers : ∀ u more, P u → P { u with answers := u.answers ++ more })
    {chronicle : List Undertaking} (h : ∀ u ∈ chronicle, P u)
    (begins : ∀ segment op context, s.machine.begins? = some (segment, op, context) →
      P ⟨segment, op, context, s.machine.ram, []⟩) (act : Act ω) :
    ∀ u ∈ s.noted a chronicle act, P u := by
  -- An op that begins has its own answers still to come; any other step adds to the newest op's.
  unfold noted
  split
  · split
    · next segment op context begun =>
      intro u member
      rcases List.mem_cons.mp member with rfl | member
      · exact begins segment op context begun
      · exact h u member
    · split
      · next u earlier _ =>
        intro v member
        rcases List.mem_cons.mp member with rfl | member
        · exact answers u _ (h u List.mem_cons_self)
        · exact h v (List.mem_cons_of_mem _ member)
      · exact h
  · split
    · exact fun u member => absurd member List.not_mem_nil
    · exact h

/-- So it is with the chronicle of any acts, by induction along the acts. -/
theorem mem_chronicleFrom {P : Undertaking → Prop}
    (answers : ∀ u more, P u → P { u with answers := u.answers ++ more }) (acts : List (Act ω)) :
    ∀ (s : Session ω) (chronicle : List Undertaking), (∀ u ∈ chronicle, P u) →
      (∀ before after, acts = before ++ after → ∀ segment op context,
        (s.playAll a before).machine.begins? = some (segment, op, context) →
          P ⟨segment, op, context, (s.playAll a before).machine.ram, []⟩) →
      ∀ u ∈ s.chronicleFrom a chronicle acts, P u := by
  induction acts with
  | nil => exact fun _ _ h _ => h
  | cons act acts ih =>
      intro s chronicle h begins
      -- The session after `act` is the one that the acts so far lead to.
      refine ih _ _ (mem_noted answers h (begins [] (act :: acts) rfl) act) ?_
      intro before after split
      exact begins (act :: before) after (congrArg (List.cons act) split)

/-- The ops that were begun stem from what their segment was compiled from, and from RAM as
    it was as they began, if nothing was stored before the code became live. -/
theorem stems_of_mem_chronicle (idle : s.machine.thread = .idle) (live : s.machine.liveCode = none)
    (acts : List (Act ω)) : ∀ u ∈ s.chronicle a acts,
      (∃ image, Segment.compile s.machine.registry s.machine.config.options image u.segment.start
        u.segment.stop = .ok u.segment) ∧
      ((s.machine.config.segmentSize = none → s.Quiet a acts) → ∀ op, u.op? = some op →
        u.segment.Stems s.machine.registry u.image u.op op) := by
  refine mem_chronicleFrom (fun u _ h => h) acts s []
    (fun u member => absurd member List.not_mem_nil) ?_
  rintro before after rfl segment op context begun
  have fixed := fixed_playAll a before s
  have sound := sound_originFrom a before s none (sound_fresh idle live)
  -- Up to the first change of a slot the image is what is in RAM.
  rcases image_of_begins sound begun with ⟨image, compiled, _⟩
  rw [fixed.registry, fixed.config] at compiled
  refine ⟨⟨image, compiled⟩, fun quiet current hop => ?_⟩
  have undisturbed := undisturbed_of_quiet a idle live before
    fun whole => quiet_of_append s (quiet whole)
  have hstems := stems_of_begins sound undisturbed begun hop
  rwa [fixed.registry] at hstems

/-- Executions carry contexts on. -/
theorem handedOn_carried (registry : Registry) :
    HandedOn registry fun chronicle context => Context.Carried registry chronicle context where
  attached _ _ leads := .bind .fresh leads
  whole _ _ _ _ before comes := .op before comes

/-- What a jump does to a context that has come through ops. -/
theorem jump_of_carried {registry registry' : Registry} {options : Options} {image : Ram}
    {start stop : Word} {segment : Segment} {earlier : List Undertaking} {context : Context}
    {op : Nat} {target : Target}
    (compiled : Segment.compile registry options image start stop = .ok segment)
    (carried : Context.Carried registry' earlier context)
    (hop : segment.ops[op]? = some (.branch target)) :
    ∃ literal progress,
      instructionAt image (segment.offsetAt op) = ⟨.literal literal, .control .branch⟩ ∧
      segment.step op context = .done (.ok progress, { context with condition := true }) ∧
      segment.Stands progress (Interpreter.place segment.start segment.stop
        (.goto (if decision earlier then literal else segment.offsetAt op + 8))) := by
  -- The segment takes the branch by its condition, which is what the tests so far decided.
  rcases stands_of_branch compiled hop with ⟨literal, hinstruction, hstands⟩
  rw [← condition_of_carried carried]
  exact ⟨literal, _, hinstruction, step_branch hop context, hstands context.condition⟩

/-- Jumps are decided by the tests since the last one. Whoever carries a context through ops
    of any segments, to whatever ends, finds that the next jump goes to the literal of its
    instruction if these ops decide so, and to the next instruction if they do not. So it
    is in an execution, whose ops and jumps stem from what its segments were compiled from.
    This is what RAM held as the ops were begun, and holds as the jump is decided, in
    windows always, and else if nothing is stored while the instances are attached. A new
    execution has a chronicle of its own, and begins without a test. -/
theorem tests_decide_jumps (a : Audience ω) {s : Session ω} (idle : s.machine.thread = .idle)
    (live : s.machine.liveCode = none) (acts : List (Act ω)) :
    let t := s.playAll a acts
    let m := t.machine
    let chronicle := s.chronicle a acts
    (∀ registry options image start stop segment earlier context op target,
      Segment.compile registry options image start stop = .ok segment →
        Context.Carried registry earlier context → segment.ops[op]? = some (.branch target) →
        ∃ literal progress,
          instructionAt image (segment.offsetAt op) = ⟨.literal literal, .control .branch⟩ ∧
          segment.step op context = .done (.ok progress, { context with condition := true }) ∧
          segment.Stands progress (Interpreter.place segment.start segment.stop
            (.goto (if decision earlier then literal else segment.offsetAt op + 8)))) ∧
    (∀ u ∈ chronicle, ∃ image, Segment.compile m.registry m.config.options image u.segment.start
        u.segment.stop = .ok u.segment ∧
      ∀ op, u.op? = some op → u.segment.Stems m.registry image u.op op ∧
        ((s.machine.config.segmentSize = none → s.Quiet a acts) →
          u.segment.Stems m.registry u.image u.op op)) ∧
    (∀ segment op context, m.begins? = some (segment, op, context) →
      Context.Carried m.registry chronicle context ∧
      ∀ target, segment.ops[op]? = some (.branch target) → ∃ image literal progress,
        Segment.compile m.registry m.config.options image segment.start segment.stop =
          .ok segment ∧
        instructionAt image (segment.offsetAt op) = ⟨.literal literal, .control .branch⟩ ∧
        ((s.machine.config.segmentSize = none → s.Quiet a acts) →
          instructionAt m.ram (segment.offsetAt op) = ⟨.literal literal, .control .branch⟩) ∧
        (t.advance a).2.machine.thread =
          .working segment (.done (.ok progress, { context with condition := true })) ∧
        segment.Stands progress (Interpreter.place segment.start segment.stop
          (.goto (if decision chronicle then literal else segment.offsetAt op + 8)))) ∧
    (m.thread = .idle → ∀ more,
      s.chronicle a (acts ++ .execute :: more) = (t.play a .execute).chronicle a more) := by
  intro t m chronicle
  have fixed := fixed_playAll a acts s
  have hregistry : m.registry = s.machine.registry := fixed.registry
  have hconfig : m.config = s.machine.config := fixed.config
  have sound : t.Sound (s.origin? a acts) :=
    sound_originFrom a acts s none (sound_fresh idle live)
  refine ⟨?_, ?_, ?_, ?_⟩
  · intro registry options image start stop segment earlier context op target compiled carried hop
    exact jump_of_carried compiled carried hop
  · intro u member
    rcases stems_of_mem_chronicle idle live acts u member with ⟨⟨image, compiled⟩, hstems⟩
    rw [hregistry, hconfig]
    exact ⟨image, compiled, fun op hop =>
      ⟨stems_of_compile compiled hop, fun quiet => hstems quiet op hop⟩⟩
  · intro segment op context begun
    have carried : Context.Carried m.registry chronicle context := by
      rw [hregistry]
      exact context_of_begins (handedOn_carried s.machine.registry)
        (follows_playAll (handedOn_carried s.machine.registry) idle rfl acts) hregistry begun
    refine ⟨carried, fun target hop => ?_⟩
    -- A jump is code, and RAM holds what live code was compiled from.
    rcases image_of_begins sound begun with ⟨image, compiled, same⟩
    rcases jump_of_carried compiled carried hop with ⟨literal, progress, himage, hstep, hstands⟩
    refine ⟨image, literal, progress, compiled, himage, fun quiet => ?_, ?_, hstands⟩
    · have undisturbed := undisturbed_of_quiet a idle live acts quiet
      exact ((same undisturbed _ hop rfl).resolve_left Op.noConfusion).trans himage
    · rw [(advance_of_begins begun).2.1, hstep]
  · intro free more
    change s.chronicleFrom a [] (acts ++ .execute :: more) = _
    rw [chronicleFrom_append]
    change (t.play a .execute).chronicleFrom a (t.noted a chronicle .execute) more = _
    -- The thread is idle, so the execution does begin.
    have begins : (t.play a .execute).machine.thread = .starting := by
      have hidle : t.machine.thread.isExecuting = false :=
        Thread.isExecuting_eq_false_iff.mpr free
      simp only [play, execute, hidle, Bool.false_eq_true, if_false]
      rfl
    have beside : (.execute : Act ω) ≠ .advance := by simp only [ne_eq, reduceCtorEq, not_false_eq_true]
    rw [noted_of_starting beside chronicle begins]
    rfl

/-- A session with a test that fails and two jumps behind it. -/
def jumpSession : Session Unit where
  machine :=
    { registry := Registry.standard, config := { ramSize := 24, options := ⟨false, false⟩ },
      ram := ⟨#[0x11, 0, 0, 1, 0x90, 0, 0, 2, 0x11, 0, 0, 0, 0x90, 0, 0, 0,
        0x11, 0, 0, 0, 0x90, 0, 0, 0]⟩ }
  audience := ()

-- The first jump is about to be decided, and leads to the second.
theorem tests_decide_jumps_failing :
    let a : Audience Unit := ⟨fun _ _ _ _ => .accept, 0⟩
    let acts := .execute :: List.replicate 3 .advance
    let t := jumpSession.playAll a acts
    jumpSession.machine.thread = .idle ∧ jumpSession.machine.liveCode = none ∧
      decision (jumpSession.chronicle a acts) = false ∧
      ∃ segment op context target, t.machine.begins? = some (segment, op, context) ∧
        segment.ops[op]? = some (.branch target) ∧ ∃ literal progress,
          instructionAt t.machine.ram (segment.offsetAt op) = ⟨.literal literal, .control .branch⟩ ∧
          segment.Stands progress (Interpreter.place segment.start segment.stop
            (.goto (segment.offsetAt op + 8))) := by
  intro a acts t
  have hquiet : jumpSession.Quiet a acts := by decide +kernel
  have hdecision : decision (jumpSession.chronicle a acts) = false := by decide +kernel
  have hbranch : t.machine.begins?.bind (fun begun => begun.1.ops[begun.2.1]?) =
      some (.branch (.inside 0)) := by decide +kernel
  refine ⟨rfl, rfl, hdecision, ?_⟩
  rcases Option.bind_eq_some_iff.mp hbranch with ⟨⟨segment, op, context⟩, begun, hop⟩
  rcases ((tests_decide_jumps a (s := jumpSession) rfl rfl acts).2.2.1 segment op context begun).2
    _ hop with ⟨_, literal, progress, _, _, hinstruction, _, hstands⟩
  rw [hdecision] at hstands
  exact ⟨segment, op, context, _, begun, hop, literal, progress, hinstruction fun _ => hquiet,
    hstands⟩

end Session

end Transport
