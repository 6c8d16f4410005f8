import Transport.Proofs.Interpreter
import Transport.Proofs.Segment.Layout
import Transport.Registry.Standard

/-!
# Compiled Segments Refine Direct Interpretation

Compilation makes tables: it gives modules slots, resolves ports to cells and
handler keys of slots, turns jump targets into indices of ops, and puts
suspension points in front of instructions. None of this can be seen from the
outside. A run of a compiled segment asks the host exactly what direct
interpretation of the same RAM image asks, answer by answer, and comes to the
same place with the same instances and the same condition.

The proof follows the layers of the compiler. A slot of a context is an instance
of a bank; a resolved operand is a port of the interpreter; a shape mirrors the
action of its instruction; the ops of one slot mirror one step; and a run of
segment and interpreter stands at the same place after every instruction.

## Main definitions

* `Registry.Seats`: A slot belongs to the module of an id.
* `Context.bank`: The instances of a context by module id.
* `Segment.Leads`: What an op of an instruction leads to.
* `Segment.proceedFor`: A number of ops of a run, as a dialogue.
* `Segment.Stands`: Segment and interpreter stand at the same place.
* `Segment.view`: What the interpreter would say of where a run came to.

## Theorems

* `outcomes_shapeOf`: Classification mirrors the action of an instruction.
* `mirrors_perform`: The op of an instruction does what the instruction does.
* `mirrors_step`: The ops of an instruction are one step of the interpreter.
* `mirrors_run`: Runs stand at the same place after every instruction.
* `runFor_iff_run`: On a host, runs end alike or neither ends.
* `compile_refines_interpreter`: The compiler is correct.
-/

namespace Transport

universe u

/-! ## Slots and module ids -/

namespace Registry

/-- The modules with instances are those that lookup finds with a behaviour. -/
theorem mem_dispatched_iff {r : Registry} {id : UInt8} {behaviour : Behaviour} :
    (id, behaviour) ∈ r.dispatched ↔
      ∃ m, r.module? id = some m ∧ m.decl.kind = .dispatched behaviour := by
  simp only [dispatched, inIdOrder, List.mem_filterMap, List.mem_range]
  constructor
  · rintro ⟨m, ⟨n, _, hm⟩, hkind⟩
    -- Modules are in the slots of their ids, so what is found at `n` has the id `n`.
    have hid : m.decl.id = UInt8.ofNat n := by
      have := List.find?_some hm
      simpa only [decide_eq_true_eq] using this
    cases hk : m.decl.kind with
    | dispatched b =>
        simp only [hk, Option.some.injEq, Prod.mk.injEq] at hkind
        rcases hkind with ⟨rfl, rfl⟩
        exact ⟨m, hid ▸ hm, hk⟩
    | inline => simp only [hk, reduceCtorEq] at hkind
  · rintro ⟨m, hm, hkind⟩
    have hid : m.decl.id = id := by
      have := List.find?_some hm
      simpa only [decide_eq_true_eq] using this
    refine ⟨m, ⟨id.toNat, id.toNat_lt, ?_⟩, ?_⟩
    · rw [UInt8.ofNat_toNat]
      exact hm
    · simp only [hkind, hid]

theorem mem_slotIds_iff {r : Registry} {id : UInt8} :
    id ∈ r.slotIds ↔ Interpreter.dispatches r id = true := by
  simp only [slotIds, List.mem_map, Prod.exists, exists_and_right, exists_eq_right,
    mem_dispatched_iff, Interpreter.dispatches, Option.any_eq_true]
  rw [exists_comm]
  refine exists_congr fun m => ?_
  rw [exists_and_left]
  refine and_congr_right fun _ => ?_
  -- Whether a module dispatches is its kind.
  cases m.decl.kind <;> simp

/-- A module has a slot exactly if it has instances. -/
theorem slot?_eq_none_iff {r : Registry} {id : UInt8} :
    slot? r.slotIds id = none ↔ Interpreter.dispatches r id = false := by
  rw [slot?, List.findIdx?_eq_none_iff, ← Bool.not_eq_true, ← mem_slotIds_iff]
  constructor
  · intro h member
    have := h id member
    simp only [decide_true, Bool.true_eq_false] at this
  · intro h other member
    rw [decide_eq_false_iff_not]
    rintro rfl
    exact h member

theorem exists_slot? {r : Registry} {id : UInt8} (h : Interpreter.dispatches r id = true) :
    ∃ slot, slot? r.slotIds id = some slot := by
  rw [← Option.ne_none_iff_exists', Ne, slot?_eq_none_iff, h]
  exact Bool.noConfusion

/-- Different modules have different slots. -/
theorem slot?_inj {ids : List UInt8} {id other : UInt8} {slot : Nat}
    (h : slot? ids id = some slot) (h' : slot? ids other = some slot) : id = other := by
  rw [slot?, List.findIdx?_eq_some_iff_getElem] at h h'
  rcases h with ⟨inside, hid, _⟩
  rcases h' with ⟨_, hother, _⟩
  rw [decide_eq_true_eq] at hid hother
  rw [← hid, hother]

/-- The slot belongs to the dispatched module of an id. -/
def Seats (r : Registry) (id : UInt8) (slot : Nat) : Prop :=
  ∃ behaviour, r.dispatched[slot]? = some (id, behaviour)

theorem seats_of_slot? {r : Registry} {id : UInt8} {slot : Nat}
    (h : slot? r.slotIds id = some slot) : r.Seats id slot := by
  rw [slot?, List.findIdx?_eq_some_iff_getElem] at h
  rcases h with ⟨inside, hid, _⟩
  simp only [slotIds, List.getElem_map, decide_eq_true_eq] at hid
  rw [slotIds, List.length_map] at inside
  refine ⟨r.dispatched[slot].2, ?_⟩
  rw [List.getElem?_eq_getElem inside, ← hid]

end Registry

namespace Context

/-- The instances of a context by the id of their module. -/
def bank (context : Context) (registry : Registry) : Bank where
  instances id := (Registry.slot? registry.slotIds id).bind fun slot => context.instances[slot]?
  condition := context.condition

variable {registry : Registry} {id : UInt8} {slot : Nat}

theorem bank_instances (context : Context) (h : Registry.slot? registry.slotIds id = some slot) :
    (context.bank registry).instances id = context.instances[slot]? := by
  simp only [bank, h, Option.bind_some]

/-- A change of the instance in a slot is a change of the instance of the module
    that the slot belongs to. -/
theorem bank_modify (context : Context) (h : Registry.slot? registry.slotIds id = some slot)
    (change : ModuleState → ModuleState) :
    bank { context with
      instances := context.instances.modify slot fun i => { i with state := change i.state } }
      registry = (context.bank registry).update id change := by
  simp only [bank, Bank.update, Bank.mk.injEq, and_true]
  funext other
  by_cases same : other = id
  · subst same
    simp only [h, Option.bind_some, Array.getElem?_modify, if_true]
  · rw [if_neg same]
    cases hother : Registry.slot? registry.slotIds other with
    | none => rfl
    | some slot' =>
        -- Another module has another slot, which is not changed.
        have apart : slot ≠ slot' := by
          rintro rfl
          exact same (Registry.slot?_inj hother h)
        simp only [Option.bind_some, Array.getElem?_modify, if_neg apart]

end Context

/-! ## Ports -/

namespace Segment

/-- A context and a bank hold the same. -/
def Holds (registry : Registry) (context : Context) (bank : Bank) : Prop :=
  bank = context.bank registry

variable {registry : Registry}

theorem mirrors_call {α : Type} {id : UInt8} {slot : Nat} {default : α}
    {handler : Behaviour → Handler α} (h : Registry.slot? registry.slotIds id = some slot) :
    Talk.Mirrors (Holds registry) Eq (Exec.call slot default handler)
      (Interpreter.serve id default handler) := by
  rintro context _ rfl
  simp only [Exec.call, Interpreter.serve, Context.bank_instances context h]
  cases hinstance : context.instances[slot]? with
  | none => exact Dialogue.Agree.done ⟨outcomes_refl (fun _ => rfl) _, rfl⟩
  | some i =>
      -- Both run the same handler; what it leaves is put back in either place.
      refine Dialogue.agree_bind (Dialogue.agree_refl (R := Eq) (fun _ => rfl) _) ?_
      rintro ⟨result, state⟩ _ rfl
      refine Dialogue.Agree.done ⟨outcomes_refl (fun _ => rfl) _, ?_⟩
      exact (Context.bank_modify context h fun _ => state).symm

/-- An operand that reaches a port with an instance is resolved to the slot of
    that instance. -/
theorem resolve_of_port? {address : Address} {direction : Direction} {p : Port}
    (h : Interpreter.port? registry address direction = some p) :
    ∃ slot, Registry.slot? registry.slotIds p.owner = some slot ∧
      resolve registry registry.slotIds address direction = .ok (slot, p.accessor) := by
  rw [Interpreter.port?, Option.filter_eq_some_iff] at h
  rcases h with ⟨hport, hdispatches⟩
  rcases Registry.exists_slot? hdispatches with ⟨slot, hslot⟩
  exact ⟨slot, hslot, by simp only [resolve, hport, hslot]⟩

theorem resolve_of_port?_none {address : Address} {direction : Direction}
    (h : Interpreter.port? registry address direction = none) :
    resolve registry registry.slotIds address direction =
      .error (.unresolved address.word direction) := by
  rw [Interpreter.port?, Option.filter_eq_none_iff] at h
  -- Nothing is at the word, or it is of a module without an instance.
  cases hport : registry.atWord? address.word direction with
  | none => simp only [resolve, hport]
  | some p =>
      have hslot : Registry.slot? registry.slotIds p.owner = none := by
        rw [Registry.slot?_eq_none_iff, ← Bool.not_eq_true]
        exact h p hport
      simp only [resolve, hport, hslot]

/-- A source is compiled into the load that does what reading it does. -/
theorem outcomes_loadOf (offset : Word) (source : Source) :
    Outcomes (fun load read => Talk.Mirrors (Holds registry) Eq (load.value offset) read)
      (loadOf registry registry.slotIds source) (Interpreter.reading registry offset source) := by
  -- A literal is read from the slot, a port either from its cell or by a call of its handler.
  cases source with
  | literal value => exact Outcomes.ok (Talk.mirrors_pure rfl)
  | port address =>
      simp only [Interpreter.reading, loadOf]
      cases hport : Interpreter.port? registry address .read with
      | none =>
          rw [resolve_of_port?_none hport]
          exact Outcomes.error _
      | some p =>
          rcases resolve_of_port? hport with ⟨slot, hslot, hresolve⟩
          rw [hresolve]
          cases haccessor : p.accessor with
          | cell index =>
              refine Outcomes.ok ?_
              simp only [Load.value, Interpreter.readPort, haccessor]
              refine Talk.mirrors_bind Talk.mirrors_get ?_
              rintro context _ rfl
              refine Talk.mirrors_pure ?_
              simp only [Context.cell, Context.bank_instances context hslot]
              cases context.instances[slot]? <;> rfl
          | handler key =>
              refine Outcomes.ok ?_
              simp only [Load.value, Interpreter.readPort, haccessor]
              exact mirrors_call hslot

/-- A destination port is compiled into the store that does what writing it does. -/
theorem outcomes_storeOf (offset : Word) (address : Address) :
    Outcomes (fun store p => ∀ value, Talk.Mirrors (Holds registry) Eq (store.put offset value)
        (Interpreter.writePort offset address p value))
      (storeOf registry registry.slotIds address)
      (match Interpreter.port? registry address .write with
        | some p => .ok p
        | none => .error (.unresolved address.word .write)) := by
  simp only [storeOf]
  cases hport : Interpreter.port? registry address .write with
  | none =>
      rw [resolve_of_port?_none hport]
      exact Outcomes.error _
  | some p =>
      -- The port the interpreter finds in its registry is the one the compiler found.
      rcases resolve_of_port? hport with ⟨slot, hslot, hresolve⟩
      rw [hresolve]
      cases haccessor : p.accessor with
      | cell index =>
          refine Outcomes.ok fun value => ?_
          simp only [Store.put, Interpreter.writePort, haccessor]
          refine Talk.mirrors_bind (Talk.mirrors_modify ?_) ?_
          · rintro context _ rfl
            exact (Context.bank_modify context hslot fun state => state.setCell index value).symm
          · rintro _ _ rfl
            exact Talk.mirrors_pure rfl
      | handler key =>
          refine Outcomes.ok fun value => ?_
          simp only [Store.put, Interpreter.writePort, haccessor]
          exact mirrors_call hslot

/-! ## Instructions -/

/-- What an op of the instruction at an offset leads to, and where control goes. -/
inductive Leads (start stop : Word) (stride : Nat) (offset : Word) :
    Flow → Interpreter.Next → Prop
  | next : Leads start stop stride offset .next (.goto (offset + 8))
  /-- A jump goes to an aligned target. -/
  | jump {target : Word} (aligned : target % 8 = 0) :
      Leads start stop stride offset (.jump (targetOf start stop stride target)) (.goto target)
  | halt : Leads start stop stride offset .halt .halt

theorem holds_nonneg (value : Word) :
    Test.nonneg.holds value = decide (value.toNat < 0x80000000) := by
  simp only [Test.holds, decide_eq_decide, Int32.le_iff_toInt_le]
  change (0 : Int) ≤ value.toBitVec.toInt ↔ value.toBitVec.toNat < 0x80000000
  rw [BitVec.toInt_eq_toNat_cond]
  have := value.toBitVec.isLt
  split <;> omega

theorem holds_zero (value : Word) : Test.zero.holds value = decide (value.toNat = 0) := by
  simp only [Test.holds, decide_eq_decide, ← UInt32.toNat_inj]
  rfl

theorem mirrors_test {start stop offset : Word} {stride : Nat} {kind : Test} {passes : Word → Bool}
    (hpasses : ∀ value, kind.holds value = passes value) {load : Load} {read : Talk Bank Word}
    (hload : Talk.Mirrors (Holds registry) Eq (load.value offset) read) :
    Talk.Mirrors (Holds registry) (Leads start stop stride offset)
      (Op.test offset load kind).perform (Interpreter.makeCondition offset passes read) := by
  simp only [Op.perform, Interpreter.makeCondition]
  refine Talk.mirrors_bind hload ?_
  rintro value _ rfl
  refine Talk.mirrors_bind (Talk.mirrors_modify ?_) ?_
  · rintro context _ rfl
    simp only [Holds, Context.bank, hpasses]
  · rintro _ _ rfl
    exact Talk.mirrors_pure Leads.next

theorem mirrors_branch {start stop offset target : Word} {stride : Nat}
    (aligned : target % 8 = 0) :
    Talk.Mirrors (Holds registry) (Leads start stop stride offset)
      (Op.branch (targetOf start stop stride target)).perform
      (Interpreter.jump offset target) := by
  simp only [Op.perform, Interpreter.jump]
  refine Talk.mirrors_bind Talk.mirrors_get ?_
  rintro context _ rfl
  refine Talk.mirrors_bind (Talk.mirrors_modify ?_) ?_
  · rintro context' _ rfl
    simp only [Holds, Context.bank]
  · rintro _ _ rfl
    refine Talk.mirrors_pure ?_
    -- The condition is read before it is reset, and the flow depends on what was read.
    change Leads start stop stride offset _
      (.goto (if context.condition then target else offset + 8))
    cases context.condition with
    | true => exact Leads.jump aligned
    | false => exact Leads.next

theorem mirrors_move {start stop offset : Word} {stride : Nat} {address : Address} {p : Port}
    {load : Load} {store : Store} {read : Talk Bank Word}
    (hload : Talk.Mirrors (Holds registry) Eq (load.value offset) read)
    (hstore : ∀ value, Talk.Mirrors (Holds registry) Eq (store.put offset value)
      (Interpreter.writePort offset address p value)) :
    Talk.Mirrors (Holds registry) (Leads start stop stride offset)
      (Op.move offset load store).perform (Interpreter.move offset address p read) := by
  simp only [Op.perform, Interpreter.move]
  refine Talk.mirrors_bind hload ?_
  rintro value _ rfl
  refine Talk.mirrors_bind (hstore value) ?_
  rintro effect _ rfl
  -- The interpreter goes on behind the instruction, or it halts, as the effect says.
  cases effect with
  | proceed => exact Talk.mirrors_pure Leads.next
  | halt => exact Talk.mirrors_pure Leads.halt

/-- An instruction is compiled into an op that does what the instruction does, or
    has the same obstacle. -/
theorem outcomes_shapeOf (start stop offset : Word) (stride : Nat) (i : Instruction) :
    Outcomes (fun shape act => ∀ source destination,
        Talk.Mirrors (Holds registry) (Leads start stop stride offset)
          (opOf (targetOf start stop stride) ⟨offset, source, destination, shape⟩).perform act)
      (shapeOf registry registry.slotIds i) (Interpreter.action registry offset i) := by
  rcases i with ⟨source, destination⟩
  simp only [shapeOf, Interpreter.action]
  cases destination with
  | control operation =>
      cases operation with
      | branch =>
          cases source with
          | literal target =>
              simp only [branchOf]
              by_cases aligned : target % 8 = 0
              · rw [if_pos aligned, if_pos aligned]
                exact Outcomes.ok fun _ _ => mirrors_branch aligned
              · rw [if_neg aligned, if_neg aligned]
                exact Outcomes.error _
          | port address => exact Outcomes.error _
      | nonneg =>
          refine outcomes_bind (outcomes_loadOf offset source) fun load read hload => ?_
          exact Outcomes.ok fun _ _ => mirrors_test holds_nonneg hload
      | zero =>
          refine outcomes_bind (outcomes_loadOf offset source) fun load read hload => ?_
          exact Outcomes.ok fun _ _ => mirrors_test holds_zero hload
  | port address =>
      refine outcomes_bind (outcomes_loadOf offset source) fun load read hload => ?_
      -- The source is resolved first, so the obstacle that is left is the destination's.
      have hstore := @outcomes_storeOf registry offset address
      generalize storeOf registry registry.slotIds address = stored at hstore ⊢
      cases hport : Interpreter.port? registry address .write with
      | none =>
          rw [hport] at hstore
          cases hstore with
          | error _ => exact Outcomes.error _
      | some p =>
          rw [hport] at hstore
          cases hstore with
          | ok hput => exact Outcomes.ok fun _ _ => mirrors_move hload hput

/-- A trap op reads its words back and ends the run, as the interpreter does at
    an instruction with an obstacle. -/
theorem mirrors_trap {R : Flow → Interpreter.Next → Prop} (offset source destination : Word)
    (cause : Obstacle) :
    Talk.Mirrors (Holds registry) R (Op.trap offset cause source destination).perform
      (Interpreter.refuse offset cause (source, destination)) := by
  simp only [Op.perform, Interpreter.refuse, Interpreter.readWord, bind_assoc]
  refine Talk.mirrors_bind (Talk.mirrors_ask (.readWord offset)) ?_
  rintro answer _ rfl
  -- Either word can fail to be read, and the trap is the same in both meanings.
  cases answer with
  | error trap => exact Talk.mirrors_throw trap
  | ok currentSource =>
      rw [pure_bind]
      refine Talk.mirrors_bind (Talk.mirrors_ask (.readWord (offset + 4))) ?_
      rintro answer _ rfl
      cases answer with
      | error trap => exact Talk.mirrors_throw trap
      | ok currentDestination =>
          simp only [Op.trapOf, pure_bind]
          split <;> exact Talk.mirrors_throw _

/-- The op that an instruction is compiled into does what the interpreter does
    at the instruction. -/
theorem mirrors_perform (start stop offset : Word) (stride : Nat) (ram : Ram) :
    Talk.Mirrors (Holds registry) (Leads start stop stride offset)
      (opOf (targetOf start stop stride) (slotAt registry registry.slotIds ram offset)).perform
      (Interpreter.perform registry ram offset) := by
  simp only [slotAt, classify, Interpreter.perform]
  -- What the slot was classified as and what the interpreter decodes come to the same.
  have hshape := @outcomes_shapeOf registry start stop offset stride
    (.ofWords (wordsAt ram offset).1 (wordsAt ram offset).2)
  generalize shapeOf registry registry.slotIds _ = shape at hshape ⊢
  generalize Interpreter.action registry offset _ = act at hshape ⊢
  cases hshape with
  | error cause => exact mirrors_trap offset _ _ cause
  | ok hmirrors => exact hmirrors _ _

/-! ## Runs -/

/-- One op of a run, or none at its end. -/
def proceed (segment : Segment) : Progress → Exec Progress
  | .standing op => segment.step op
  | .ended exit => pure (.ended exit)

/-- A number of ops of a run, or as many as there are until it ends. -/
def proceedFor (segment : Segment) : Nat → Progress → Exec Progress
  | 0, progress => pure progress
  | count + 1, progress => do segment.proceedFor count (← segment.proceed progress)

/-- Where a run stands that is in front of the first op of an instruction, or
    behind all ops, or at its end. -/
def placeOf (segment : Segment) : Progress → Interpreter.Place
  | .standing op =>
    if op / segment.options.stride < segment.size then
      .facing (offsetOf segment.start (op / segment.options.stride))
    else .ended (.left segment.stop)
  | .ended exit => .ended exit

/-- A run of a segment and a run of the interpreter stand at the same place,
    between two instructions. -/
inductive Stands (segment : Segment) : Progress → Interpreter.Place → Prop
  /-- In front of the same instruction. -/
  | facing {index : Nat} (inside : index < segment.size) :
      Stands segment (.standing (index * segment.options.stride))
        (.facing (offsetOf segment.start index))
  /-- Behind the last instruction. -/
  | behind : Stands segment (.standing (segment.size * segment.options.stride))
      (.ended (.left segment.stop))
  | ended (exit : Exit) : Stands segment (.ended exit) (.ended exit)

theorem placeOf_of_stands {segment : Segment} {progress : Progress}
    {position : Interpreter.Place} (h : Stands segment progress position) :
    segment.placeOf progress = position := by
  have hpos := segment.options.stride_pos
  cases h with
  | facing inside => simp only [placeOf, Nat.mul_div_cancel _ hpos, if_pos inside]
  | behind => simp only [placeOf, Nat.mul_div_cancel _ hpos, Nat.lt_irrefl, if_false]
  | ended exit => rfl

theorem proceedFor_ended (segment : Segment) (exit : Exit) :
    ∀ count, segment.proceedFor count (.ended exit) = pure (.ended exit) := by
  intro count
  induction count with
  | zero => rfl
  | succ count ih => simp only [proceedFor, proceed, pure_bind, ih]

theorem proceedFor_add (segment : Segment) (m n : Nat) :
    ∀ progress, segment.proceedFor (m + n) progress =
      segment.proceedFor m progress >>= segment.proceedFor n := by
  -- Induction on the first count; what an ended run does no more is nothing.
  induction m with
  | zero =>
      intro progress
      simp only [Nat.zero_add, proceedFor, pure_bind]
  | succ m ih =>
      intro progress
      rw [Nat.succ_add]
      simp only [proceedFor, bind_assoc, ih]

theorem proceed_standing {segment : Segment} {op : Nat} {current : Op}
    (h : segment.ops[op]? = some current) :
    segment.proceed (.standing op) = current.perform >>= fun flow => pure (follow op flow) := by
  simp only [proceed, step, h]

theorem proceed_behind {segment : Segment} {op : Nat} (h : segment.ops[op]? = none) :
    segment.proceed (.standing op) = pure (.ended (.left segment.stop)) := by
  simp only [proceed, step, h]

theorem proceedFor_behind {segment : Segment} {op : Nat} (h : segment.ops[op]? = none)
    (count : Nat) (positive : 0 < count) :
    segment.proceedFor count (.standing op) = pure (.ended (.left segment.stop)) := by
  cases count with
  | zero => exact absurd positive (Nat.lt_irrefl 0)
  | succ count => rw [proceedFor, proceed_behind h, pure_bind, proceedFor_ended]

section Runs

variable {options : Options} {ram : Ram} {start stop : Word}

/-- Offsets in a valid range that are multiples of eight are those of its slots. -/
theorem offsetOf_countOf_of_mem (valid : validRange ram start stop = true) {target : Word}
    (aligned : target % 8 = 0) (within : start ≤ target ∧ target < stop) :
    countOf start target < countOf start stop ∧ offsetOf start (countOf start target) = target := by
  rcases validRange_iff.mp valid with ⟨ordered, first, last, inside⟩
  rw [UInt32.le_iff_toNat_le, UInt32.lt_iff_toNat_lt] at within
  have hlt := target.toNat_lt
  -- The target is aligned as a number, too.
  have haligned : target.toNat % 8 = 0 := by
    rw [← UInt32.toNat_inj, UInt32.toNat_mod] at aligned
    exact aligned
  refine ⟨by rw [countOf_eq, countOf_eq]; omega, ?_⟩
  rw [← UInt32.toNat_inj, countOf_eq, toNat_offsetOf (by omega)]
  omega

theorem offsetOf_add_eight (start : Word) (index : Nat) :
    offsetOf start index + 8 = offsetOf start (index + 1) := by
  rw [← UInt32.toNat_inj]
  simp only [offsetOf, instructionSize, UInt32.toNat_add, UInt32.toNat_ofNat']
  change (_ + 8) % 0x100000000 = _
  omega

theorem stands_facing {index : Nat} (inside : index < countOf start stop) :
    Stands (layout registry options ram start stop) (.standing (index * options.stride))
      (.facing (offsetOf start index)) := by
  rw [← size_layout registry options ram] at inside
  exact Stands.facing inside

theorem stands_behind :
    Stands (layout registry options ram start stop)
      (.standing (countOf start stop * options.stride)) (.ended (.left stop)) := by
  rw [← size_layout registry options ram]
  exact Stands.behind

/-- Behind an instruction, the segment stands where the interpreter does. -/
theorem stands_follow (valid : validRange ram start stop = true) {index : Nat}
    (inside : index < countOf start stop) {op : Nat} (hop : op + 1 = (index + 1) * options.stride)
    {flow : Flow} {next : Interpreter.Next}
    (h : Leads start stop options.stride (offsetOf start index) flow next) :
    Stands (layout registry options ram start stop) (follow op flow)
      (Interpreter.place start stop next) := by
  cases h with
  | next =>
      simp only [follow, hop, Interpreter.place, offsetOf_add_eight]
      -- Falling through leads to the next instruction, if there is one.
      by_cases last : index + 1 < countOf start stop
      · rcases toNat_offsetOf_of_lt valid last with ⟨hoffset, hbehind⟩
        rw [if_pos]
        · exact stands_facing last
        · rw [UInt32.le_iff_toNat_le, UInt32.lt_iff_toNat_lt]
          omega
      · -- Behind the last instruction control leaves at the end of the range.
        have hcount : index + 1 = countOf start stop := by omega
        rw [hcount, offsetOf_countOf valid, if_neg (fun h => UInt32.lt_irrefl _ h.2)]
        exact stands_behind
  | jump aligned =>
      rename_i target
      simp only [targetOf, Interpreter.place]
      by_cases within : start ≤ target ∧ target < stop
      · rcases offsetOf_countOf_of_mem valid aligned within with ⟨hindex, htarget⟩
        have hfacing := @stands_facing registry options ram start stop _ hindex
        rw [htarget] at hfacing
        rw [if_pos within, if_pos within]
        exact hfacing
      · rw [if_neg within, if_neg within]
        exact Stands.ended _
  | halt => exact Stands.ended _

/-- A suspension op does what passing a suspension point does. -/
theorem mirrors_suspend (offset : Word) :
    Talk.Mirrors (Holds registry) (fun flow _ => flow = Flow.next) (Op.suspend offset).perform
      (Interpreter.suspend offset) := by
  simp only [Op.perform, Interpreter.suspend]
  refine Talk.mirrors_bind (Talk.mirrors_ask (.suspend offset)) ?_
  rintro answer _ rfl
  cases answer with
  | error trap => exact Talk.mirrors_throw trap
  | ok _ => exact Talk.mirrors_pure rfl

/-- The last op of an instruction brings the run to where the interpreter goes. -/
theorem mirrors_last (valid : validRange ram start stop = true) {index : Nat}
    (inside : index < countOf start stop) {op : Nat} (hop : op + 1 = (index + 1) * options.stride)
    (hget : (layout registry options ram start stop).ops[op]? =
      some (opFor registry options ram start stop index)) :
    Talk.Mirrors (Holds registry) (Stands (layout registry options ram start stop))
      ((layout registry options ram start stop).proceed (.standing op))
      (Interpreter.perform registry ram (offsetOf start index) >>= fun next =>
        pure (Interpreter.place start stop next)) := by
  rw [proceed_standing hget]
  refine Talk.mirrors_bind (mirrors_perform start stop _ options.stride ram) ?_
  intro flow next hleads
  exact Talk.mirrors_pure (stands_follow valid inside hop hleads)

/-- The ops of one instruction do what the interpreter does at the instruction. -/
theorem mirrors_step (valid : validRange ram start stop = true) {index : Nat}
    (inside : index < countOf start stop) :
    Talk.Mirrors (Holds registry) (Stands (layout registry options ram start stop))
      ((layout registry options ram start stop).proceedFor options.stride
        (.standing (index * options.stride)))
      (Interpreter.step registry options ram start stop (offsetOf start index)) := by
  cases hstep : options.singleStep with
  | false =>
      have hstride := Options.stride_of_not_singleStep hstep
      have hget := getElem?_ops_layout registry options ram
        (show index < countOf start stop * options.stride by rw [hstride]; omega)
      rw [hstep, hstride, Bool.false_and, if_neg Bool.false_ne_true, Nat.div_one] at hget
      simp only [hstride, Nat.mul_one, proceedFor, bind_pure, Interpreter.step, hstep,
        Bool.false_eq_true, if_false]
      exact mirrors_last valid inside (by rw [hstride]; omega) hget
  | true =>
      have hstride := Options.stride_of_singleStep hstep
      -- The first of the two ops is the suspension point, the second the instruction.
      have hfirst := getElem?_ops_layout registry options ram
        (show index * 2 < countOf start stop * options.stride by rw [hstride]; omega)
      have hsecond := getElem?_ops_layout registry options ram
        (show index * 2 + 1 < countOf start stop * options.stride by rw [hstride]; omega)
      have hhalf : (index * 2 + 1) / 2 = index := by omega
      rw [hstep, hstride, if_pos (by simp only [Bool.true_and, decide_eq_true_eq]; omega),
        Nat.mul_div_cancel _ (by omega)] at hfirst
      rw [hstep, hstride, if_neg (by simp only [Bool.true_and, decide_eq_true_eq]; omega),
        hhalf] at hsecond
      simp only [hstride, proceedFor, bind_pure, Interpreter.step, hstep, if_true]
      rw [proceed_standing hfirst, bind_assoc]
      refine Talk.mirrors_bind (mirrors_suspend _) ?_
      rintro _ _ rfl
      rw [pure_bind]
      exact mirrors_last valid inside (by rw [hstride]; omega) hsecond

/-- Instruction by instruction, a run of the segment goes where the interpreter
    goes. -/
theorem mirrors_run (valid : validRange ram start stop = true) (count : Nat) :
    ∀ progress position, Stands (layout registry options ram start stop) progress position →
      Talk.Mirrors (Holds registry) (fun progress position =>
          (layout registry options ram start stop).placeOf progress = position)
        ((layout registry options ram start stop).proceedFor (count * options.stride) progress)
        (Interpreter.run registry options ram start stop count position) := by
  induction count with
  | zero =>
      intro progress position h
      rw [Nat.zero_mul]
      exact Talk.mirrors_pure (placeOf_of_stands h)
  | succ count ih =>
      intro progress position h
      cases h with
      | facing inside =>
          rw [size_layout] at inside
          rw [Nat.succ_mul, Nat.add_comm, proceedFor_add]
          exact Talk.mirrors_bind (mirrors_step valid inside) ih
      | behind =>
          -- The run has still to notice its end.
          have hnone : (layout registry options ram start stop).ops[
              (layout registry options ram start stop).size *
                (layout registry options ram start stop).options.stride]? = none := by
            rw [Array.getElem?_eq_none_iff, size_ops_layout, size_layout]
            exact Nat.le_refl _
          rw [proceedFor_behind hnone _ (Nat.mul_pos (Nat.succ_pos count) options.stride_pos)]
          exact Talk.mirrors_pure rfl
      | ended exit =>
          rw [proceedFor_ended]
          exact Talk.mirrors_pure rfl

end Runs

/-! ## Whole runs -/

/-- What the interpreter would say of where a run of a segment came to. -/
def view (registry : Registry) (segment : Segment) (reached : Except Trap Progress × Context) :
    Except Trap Interpreter.Place × Bank :=
  (reached.1.map segment.placeOf, reached.2.bank registry)

/-- How a run that came this far has ended, if it has. -/
def ending? : Except Trap Progress → Option (Except Trap Exit)
  | .error trap => some (.error trap)
  | .ok (.ended exit) => some (.ok exit)
  | .ok (.standing _) => none

/-- A run on a host that never blocks is the dialogue of its ops, held with the
    host. -/
theorem runFor_eq {η : Type u} (host : Host η) (segment : Segment) (fuel : Nat) :
    ∀ op context state, segment.runFor host fuel op context state =
      (ending? ((segment.proceedFor fuel (.standing op) context).converse host state).1.1,
        ((segment.proceedFor fuel (.standing op) context).converse host state).1.2,
        ((segment.proceedFor fuel (.standing op) context).converse host state).2) := by
  -- Induction on the fuel: one op, and the rest from where it leads.
  induction fuel with
  | zero => intro op context state; rfl
  | succ fuel ih =>
      intro op context state
      rw [runFor, proceedFor, Talk.bind_apply, Dialogue.converse_bind]
      simp only [proceed]
      rcases (segment.step op context).converse host state with ⟨⟨ending, context'⟩, state'⟩
      rcases ending with trap | next | exit
      · rfl
      · exact ih next context' state'
      · simp only [proceedFor_ended]
        rfl

/-- Nothing happens behind the end of a run. -/
theorem converse_of_ended {η : Type u} {host : Host η} {segment : Segment} {fuel : Nat}
    {progress : Progress} {context context' : Context} {state state' : η}
    {reached : Except Trap Progress} {ending : Except Trap Exit}
    (h : (segment.proceedFor fuel progress context).converse host state =
      ((reached, context'), state')) (ended : ending? reached = some ending) (more : Nat) :
    (segment.proceedFor (fuel + more) progress context).converse host state =
      ((reached, context'), state') := by
  rw [proceedFor_add, Talk.bind_apply, Dialogue.converse_bind, h]
  -- A trap and an exit are ends, and a run goes nowhere from them.
  rcases reached with trap | op | exit
  · rfl
  · exact absurd ended (by simp only [ending?, reduceCtorEq, not_false_eq_true])
  · simp only [proceedFor_ended]
    rfl

section Hosts

variable {registry : Registry} {options : Options} {ram : Ram} {start stop : Word}

/-- For any number of instructions, a run of a segment asks the host what the
    interpreter asks, and comes to where the interpreter comes. -/
theorem view_proceedFor (valid : validRange ram start stop = true) {index : Nat}
    (inside : index < countOf start stop) (context : Context) (count : Nat) :
    view registry (layout registry options ram start stop) <$>
        (layout registry options ram start stop).proceedFor (count * options.stride)
          (.standing (index * options.stride)) context =
      Interpreter.run registry options ram start stop count (.facing (offsetOf start index))
        (context.bank registry) := by
  -- The simulation says that both end alike, and the view forgets what they may differ in.
  refine Dialogue.map_eq_of_agree (Dialogue.agree_mono ?_
    (mirrors_run valid count _ _ (stands_facing inside) context _ rfl))
  rintro ⟨p, context'⟩ ⟨q, bank'⟩ ⟨houtcome, hbank⟩
  change bank' = context'.bank registry at hbank
  cases houtcome with
  | error trap => simp only [view, Except.map, hbank]
  | ok related => simp only [view, Except.map, hbank, related]

/-- A run that stands where the interpreter has ended is behind the last op. -/
theorem placeOf_eq_ended {op : Nat} {exit : Exit}
    (h : (layout registry options ram start stop).placeOf (.standing op) = .ended exit) :
    (layout registry options ram start stop).ops[op]? = none ∧ exit = .left stop := by
  unfold placeOf at h
  dsimp only at h
  split at h
  · exact absurd h (by simp only [reduceCtorEq, not_false_eq_true])
  · rename_i outside
    cases h
    refine ⟨?_, rfl⟩
    -- Behind the last instruction there is no op either.
    rw [size_layout, Nat.not_lt] at outside
    rw [Array.getElem?_eq_none_iff, size_ops_layout]
    exact (Nat.le_div_iff_mul_le options.stride_pos).mp outside

section Endings

variable {index : Nat} {η : Type u} {host : Host η} {context : Context} {state state' : η}
  {ending : Except Trap Exit}

/-- A run of a segment on a host that ends is one of the interpreter that ends alike. -/
theorem exists_run_of_runFor (valid : validRange ram start stop = true)
    (inside : index < countOf start stop) {fuel : Nat} {context' : Context}
    (hrun : (layout registry options ram start stop).runFor host fuel (index * options.stride)
      context state = (some ending, context', state')) :
    ∃ count, (Interpreter.run registry options ram start stop count
      (.facing (offsetOf start index)) (context.bank registry)).converse host state =
        ((ending.map Interpreter.Place.ended, context'.bank registry), state') := by
  rw [runFor_eq] at hrun
  rcases hreached : ((layout registry options ram start stop).proceedFor fuel
    (.standing (index * options.stride)) context).converse host state with
    ⟨⟨reached, context''⟩, state''⟩
  rw [hreached] at hrun
  simp only [Prod.mk.injEq] at hrun
  rcases hrun with ⟨hended, rfl, rfl⟩
  -- Enough instructions have at least as many ops, and behind the end nothing happens.
  refine ⟨fuel, ?_⟩
  have hmore : fuel + fuel * (options.stride - 1) = fuel * options.stride := by
    have hpos := options.stride_pos
    rw [Nat.mul_sub_one]
    have := Nat.le_mul_of_pos_right fuel hpos
    omega
  rw [← view_proceedFor valid inside context fuel, Dialogue.converse_map, ← hmore,
    converse_of_ended hreached hended]
  rcases reached with trap | op | exit
  · cases hended
    rfl
  · exact absurd hended (by simp only [ending?, reduceCtorEq, not_false_eq_true])
  · cases hended
    rfl

/-- A run of the interpreter on a host that ends is one of the segment that ends alike. -/
theorem exists_runFor_of_run (valid : validRange ram start stop = true)
    (inside : index < countOf start stop) {bank : Bank} {count : Nat}
    (hrun : (Interpreter.run registry options ram start stop count
      (.facing (offsetOf start index)) (context.bank registry)).converse host state =
        ((ending.map Interpreter.Place.ended, bank), state')) :
    ∃ fuel context', (layout registry options ram start stop).runFor host fuel
      (index * options.stride) context state = (some ending, context', state') ∧
        context'.bank registry = bank := by
  rw [← view_proceedFor valid inside context count, Dialogue.converse_map] at hrun
  rcases hreached : ((layout registry options ram start stop).proceedFor
    (count * options.stride) (.standing (index * options.stride)) context).converse host state
    with ⟨⟨reached, context'⟩, state''⟩
  rw [hreached] at hrun
  simp only [view, Prod.mk.injEq] at hrun
  rcases hrun with ⟨⟨hplace, hbank⟩, rfl⟩
  -- The compiled run has trapped, stands at an op, or has ended.
  rcases reached with trap | op | exit
  · refine ⟨count * options.stride, context', ?_, hbank⟩
    rw [runFor_eq, hreached]
    cases ending with
    | error trap' =>
        cases hplace
        rfl
    | ok exit => cases hplace
  · -- The run has still to notice that it is behind the last op.
    refine ⟨count * options.stride + 1, context', ?_, hbank⟩
    rw [runFor_eq, proceedFor_add, Talk.bind_apply, Dialogue.converse_bind, hreached]
    cases ending with
    | error trap => cases hplace
    | ok exit =>
        rcases placeOf_eq_ended (Except.ok.inj hplace) with ⟨hnone, rfl⟩
        simp only [proceedFor_behind hnone 1 Nat.one_pos]
        rfl
  · refine ⟨count * options.stride, context', ?_, hbank⟩
    rw [runFor_eq, hreached]
    cases ending with
    | error trap => cases hplace
    | ok exit' =>
        cases hplace
        rfl

end Endings

/-- A run of a segment on a host ends as the interpreter's run on the host does,
    or neither ends. -/
theorem runFor_iff_run (valid : validRange ram start stop = true) {index : Nat}
    (inside : index < countOf start stop) {η : Type u} (host : Host η) (context : Context)
    (state : η) (ending : Except Trap Exit) (bank : Bank) (state' : η) :
    (∃ fuel context', (layout registry options ram start stop).runFor host fuel
        (index * options.stride) context state = (some ending, context', state') ∧
          context'.bank registry = bank) ↔
      ∃ count, (Interpreter.run registry options ram start stop count
        (.facing (offsetOf start index)) (context.bank registry)).converse host state =
          ((ending.map Interpreter.Place.ended, bank), state') := by
  constructor
  · rintro ⟨fuel, context', hrun, rfl⟩
    exact exists_run_of_runFor valid inside hrun
  · rintro ⟨count, hrun⟩
    exact exists_runFor_of_run valid inside hrun

end Hosts

/-- The compiler is correct. A valid range compiles unless the compilation is
    strict and an instruction of the range does not compile. A run from any of its
    instructions then has the dialogue with the host that the interpreter has on
    the RAM image, instruction by instruction, and comes to the same place, trap
    or end, with the same instances and the same condition. On a host that never
    blocks, the run ends exactly if the interpreter does, and as it does. -/
theorem compile_refines_interpreter {registry : Registry} {options : Options} {ram : Ram}
    {start stop : Word} (valid : validRange ram start stop = true)
    (accepted : options.strict = true → ∀ index, index < countOf start stop →
      ¬ Untranslated registry ram (offsetOf start index)) :
    ∃ segment, compile registry options ram start stop = .ok segment ∧
      (∀ index, countOf start stop ≤ index →
        segment.enter index = .error (.entryOutOfRange index)) ∧
      ∀ index, index < countOf start stop → ∃ op, segment.enter index = .ok op ∧
        ∀ context : Context,
          (∀ count, view registry segment <$>
              segment.proceedFor (count * options.stride) (.standing op) context =
            Interpreter.run registry options ram start stop count
              (.facing (offsetOf start index)) (context.bank registry)) ∧
          ∀ {η : Type u} (host : Host η) (state : η) (ending : Except Trap Exit) (bank : Bank)
            (state' : η),
            (∃ fuel context', segment.runFor host fuel op context state =
                (some ending, context', state') ∧ context'.bank registry = bank) ↔
              ∃ count, (Interpreter.run registry options ram start stop count
                (.facing (offsetOf start index)) (context.bank registry)).converse host state =
                  ((ending.map Interpreter.Place.ended, bank), state') := by
  have hcompile : compile registry options ram start stop =
      .ok (layout registry options ram start stop) := by
    rw [compile_eq_ok_iff]
    -- A strict compilation was assumed to find no obstacle.
    refine ⟨valid, fun strict index inside => ?_, rfl⟩
    exact Classical.not_not.mp (accepted strict index inside)
  refine ⟨_, hcompile, fun index outside => enter_layout_of_le outside, ?_⟩
  intro index inside
  refine ⟨_, enter_layout inside, fun context => ⟨?_, ?_⟩⟩
  · exact view_proceedFor valid inside context
  · intro η host
    exact runFor_iff_run valid inside host context

/-- A segment of two slots, one that ends the program and one that is data. -/
theorem compile_refines_interpreter_shutdown :
    validRange ⟨#[0x11, 0, 0, 0, 0x01, 0, 0, 0, 0, 0, 0, 0, 0, 0, 0, 0]⟩ 0 16 = true ∧
    ∃ segment, compile Registry.standard ⟨false, true⟩
        ⟨#[0x11, 0, 0, 0, 0x01, 0, 0, 0, 0, 0, 0, 0, 0, 0, 0, 0]⟩ 0 16 = .ok segment ∧
      ∀ index, index < 2 → ∃ op, segment.enter index = .ok op ∧ ∀ context count,
        view Registry.standard segment <$> segment.proceedFor (count * 2) (.standing op) context =
          Interpreter.run Registry.standard ⟨false, true⟩
            ⟨#[0x11, 0, 0, 0, 0x01, 0, 0, 0, 0, 0, 0, 0, 0, 0, 0, 0]⟩ 0 16 count
            (.facing (offsetOf 0 index)) (context.bank Registry.standard) := by
  have valid :
      validRange ⟨#[0x11, 0, 0, 0, 0x01, 0, 0, 0, 0, 0, 0, 0, 0, 0, 0, 0]⟩ 0 16 = true := by decide
  rcases @compile_refines_interpreter.{1} Registry.standard ⟨false, true⟩ _ 0 16 valid
    (fun strict => absurd strict Bool.false_ne_true) with ⟨segment, hcompile, _, hruns⟩
  refine ⟨valid, segment, hcompile, fun index inside => ?_⟩
  rcases hruns index inside with ⟨op, henter, hrun⟩
  exact ⟨op, henter, fun context => (hrun context).1⟩

end Segment

end Transport
