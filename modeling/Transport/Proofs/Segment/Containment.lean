import Transport.Bench
import Transport.Proofs.Segment.Instances
import Transport.Registry.Standard

/-!
# Runs Stay in Their Tables

A run looks into three tables without asking whether there is anything: the entries, for
the op that a jump leads to, the ops, for the one to carry out next, and the instances,
for the one that an op names by its slot. And where an instruction does not compile, it
adds to an offset to read the second word of the instruction. Here this is said as a
second meaning of ops, one that asks first: a lookup behind the end of a table, or an
addition that goes past the last word, is a fault, after which there is no result. A run
of a compiled segment in a context of its registry is the same run with all the checks.

What makes it so is the layout. The entries and the ops come in step with the slots of
the range, so a target inside the range is the first op of a slot; the slots of instances
belong to the modules that the operands name; and a range ends where a word still can.

## Main definitions

* `Checked`: A computation that may fault.
* `Segment.checkedFor`: A run that checks what it looks up.
* `Segment.Tabled`: The tables of a segment fit each other and the range.

## Theorems

* `run_eq_of_faultless`: A computation without faults is what it is without checks.
* `tabled_of_compile`: Compiled segments are tabled.
* `faultless_step`, `faultless_proceedFor`: A step does not fault, and so runs do not.
* `runs_stay_in_tables`: All of this for the segments and contexts of a registry.
-/

namespace Transport

universe u

/-! ## Checks -/

/-- A change of a context that may fault, which is to come to no value. -/
abbrev Checked := OptionT Exec

namespace Checked

/-- Faults unless the context passes a test. -/
def demand (test : Context → Bool) : Checked Unit := do
  guard (test (← get))

/-- Faults unless the slot that is going to be looked up is that of an instance. -/
def seated (slot? : Option Nat) : Checked Unit :=
  demand fun context => slot?.all fun slot => slot < context.instances.size

end Checked

/-- The value of a load, if there is such an instance. -/
def Load.checked (offset : Word) (load : Load) : Checked Word := do
  Checked.seated load.slot?
  load.value offset

/-- Puts a value where a store says, if there is such an instance. -/
def Store.checked (offset value : Word) (store : Store) : Checked Effect := do
  Checked.seated store.slot?
  store.put offset value

/-- What an op does, if there are the instances that it names, and if the offset of the
    second word of a trap is an offset. -/
def Op.checked : Op → Checked Flow
  | .suspend offset => (Op.suspend offset).perform
  | .move offset load store => do
    let value ← load.checked offset
    match ← store.checked offset value with
    | .proceed => return .next
    | .halt => return .halt
  | .test offset load kind => do
    let value ← load.checked offset
    modify fun context => { context with condition := kind.holds value }
    return .next
  | .branch target => (Op.branch target).perform
  | .trap offset cause source destination => do
    guard (offset.toNat + 4 < 0x100000000)
    (Op.trap offset cause source destination).perform

namespace Segment

/-- A jump inside the segment leads to one of its ops. -/
def lands (segment : Segment) : Flow → Bool
  | .jump (.inside target) => target < segment.ops.size
  | _ => true

/-- One op of a run, with checks. There is no op only right behind the last one, and
    jumps do not lead there. -/
def checkedStep (segment : Segment) (op : Nat) : Checked Progress :=
  match segment.ops[op]? with
  | none => do
    guard (op = segment.ops.size)
    return .ended (.left segment.stop)
  | some current => do
    let flow ← current.checked
    guard (segment.lands flow)
    return follow op flow

/-- A number of ops of a run, or as many as there are until it ends, with checks. -/
def checkedFor (segment : Segment) : Nat → Progress → Checked Progress
  | 0, progress => pure progress
  | _ + 1, .ended exit => pure (.ended exit)
  | count + 1, .standing op => do segment.checkedFor count (← segment.checkedStep op)

end Segment

/-! ## Faults -/

open Talk Context

section Faults

variable {registry : Registry} {α β : Type} {R : α → Prop} {S : β → Prop}

/-- In contexts with the instances of a registry, the checks are passed and nothing else
    is different. The values have a property. -/
def Faultless (registry : Registry) (R : α → Prop) (x : Exec α) (y : Checked α) : Prop :=
  Talk.Mirrors (Alike (Instantiates registry)) (fun a b => b = some a ∧ R a) x y.run

theorem faultless_pure {a : α} (here : R a) : Faultless registry R (pure a) (pure a) :=
  mirrors_pure ⟨rfl, here⟩

/-- What has no checks does not fault. -/
theorem faultless_lift {x : Exec α} (hx : Talk.Keeps (Instantiates registry) R x) :
    Faultless registry R x (liftM x) := by
  have hlifted : Faultless registry R (x >>= pure) (liftM x) := by
    change Talk.Mirrors _ _ _ (x >>= fun a => pure (some a))
    refine mirrors_bind hx ?_
    rintro a _ ⟨rfl, here⟩
    exact mirrors_pure ⟨rfl, here⟩
  rwa [bind_pure] at hlifted

/-- What does not fault goes through sequencing. -/
theorem faultless_bind {x : Exec α} {y : Checked α} {f : α → Exec β} {g : α → Checked β}
    (hx : Faultless registry R x y) (hf : ∀ a, R a → Faultless registry S (f a) (g a)) :
    Faultless registry S (x >>= f) (y >>= g) := by
  unfold Faultless
  rw [OptionT.run_bind]
  refine mirrors_bind hx ?_
  rintro a _ ⟨rfl, here⟩
  exact hf a here

/-- A computation goes on behind a check that is passed. -/
theorem faultless_after {check : Checked Unit}
    (passed : Faultless registry (fun _ => True) (pure ()) check) {x : Exec α} {y : Checked α}
    (hx : Faultless registry R x y) : Faultless registry R x (do check; y) := by
  rw [← pure_bind () fun _ => x]
  exact faultless_bind passed fun _ _ => hx

theorem faultless_guard {p : Prop} [Decidable p] (here : p) :
    Faultless registry (fun _ => True) (pure ()) (guard p) := by
  have hpassed : (guard p : Checked Unit) = pure () := if_pos here
  rw [hpassed]
  exact faultless_pure trivial

theorem faultless_demand {test : Context → Bool}
    (passes : ∀ context, Instantiates registry context → test context = true) :
    Faultless registry (fun _ => True) (pure ()) (Checked.demand test) := by
  rintro context _ ⟨rfl, hcontext⟩
  -- The test is made in this context, so what is left of the check is whether it passes.
  change Dialogue.Agree _ _ ((guard (test context = true) : Checked Unit).run context)
  exact faultless_guard (passes context hcontext) context context ⟨rfl, hcontext⟩

/-- A computation without faults is what it is without checks. -/
theorem run_eq_of_faultless {x : Exec α} {y : Checked α} (h : Faultless registry R x y)
    {context : Context} (hcontext : Instantiates registry context) :
    y.run context = (some <$> x) context := by
  rw [map_apply]
  refine (Dialogue.map_eq_of_agree ?_).symm
  refine Dialogue.agree_mono ?_ (h context context ⟨rfl, hcontext⟩)
  -- Where no fault was met, both end alike and in the same context.
  rintro ⟨p, context'⟩ ⟨q, _⟩ ⟨houtcome, rfl, _⟩
  cases houtcome with
  | error trap => rfl
  | ok related => rw [related.1]; rfl

/-- The value that a computation without faults comes to has the property. -/
theorem converse_of_faultless {η : Type u} {x : Exec α} {y : Checked α}
    (h : Faultless registry R x y) {context : Context} (hcontext : Instantiates registry context)
    (host : Host η) (state : η) : ∀ a, ((x context).converse host state).1.1 = .ok a → R a := by
  intro a ha
  have houtcome := (Dialogue.converse_of_agree (h context context ⟨rfl, hcontext⟩) host state).1.1
  rw [ha] at houtcome
  generalize ((y.run context).converse host state).1.1 = checked at houtcome
  cases houtcome with
  | ok related => exact related.2

/-- What the checks of an op ask for, in contexts with the instances of a registry. -/
structure Op.Sure (registry : Registry) (op : Op) : Prop where
  seated : ∀ direction slot, op.slot? direction = some slot → slot < registry.dispatched.length
  reach : ∀ offset cause source destination, op = .trap offset cause source destination →
    offset.toNat + 4 < 0x100000000

theorem faultless_seated {slot? : Option Nat}
    (inside : ∀ slot, slot? = some slot → slot < registry.dispatched.length) :
    Faultless registry (fun _ => True) (pure ()) (Checked.seated slot?) := by
  refine faultless_demand fun context h => ?_
  -- Such a context has as many instances as there are slots.
  rw [size_of_instantiates h, Option.all_eq_true]
  exact fun slot hslot => decide_eq_true (inside slot hslot)

theorem Load.faultless_value (offset : Word) {load : Load}
    (inside : ∀ slot, load.slot? = some slot → slot < registry.dispatched.length) :
    Faultless registry (fun _ => True) (load.value offset) (load.checked offset) :=
  faultless_after (faultless_seated inside)
    (faultless_lift (load.keeps_value (steady_instantiates registry) offset))

theorem Store.faultless_put (offset value : Word) {store : Store}
    (inside : ∀ slot, store.slot? = some slot → slot < registry.dispatched.length) :
    Faultless registry (fun _ => True) (store.put offset value) (store.checked offset value) :=
  faultless_after (faultless_seated inside)
    (faultless_lift (store.keeps_put (steady_instantiates registry) offset value))

/-- An op that the checks cannot fail does what it does without them. -/
theorem Op.faultless_perform {op : Op} (sure : op.Sure registry) :
    Faultless registry op.Yields op.perform op.checked := by
  -- Moves, tests and traps have something to check: the slots they use, the words they read.
  cases op with
  | suspend offset => exact faultless_lift (Op.keeps_perform _)
  | move offset load store =>
      refine faultless_bind (Load.faultless_value offset (sure.seated .read)) fun value _ => ?_
      refine faultless_bind (Store.faultless_put offset value (sure.seated .write)) fun effect _ => ?_
      cases effect <;> exact faultless_pure (yields_of_ne (by simp))
  | test offset load kind =>
      refine faultless_bind (Load.faultless_value offset (sure.seated .read)) fun value _ => ?_
      refine faultless_bind (faultless_lift (keeps_modify fun _ h => h)) fun _ _ => ?_
      exact faultless_pure (yields_of_ne (by simp))
  | branch target => exact faultless_lift (Op.keeps_perform _)
  | trap offset cause source destination =>
      exact faultless_after (faultless_guard (sure.reach _ _ _ _ rfl))
        (faultless_lift (Op.keeps_perform _))

end Faults

/-! ## Tables -/

namespace Segment

/-- The offset of the instruction that an op belongs to. -/
def offsetAt (segment : Segment) (op : Nat) : Word :=
  offsetOf segment.start (op / segment.options.stride)

/-- The tables of a segment fit each other, and the range and the RAM that it was
    compiled from. -/
structure Tabled (registry : Registry) (ram : Ram) (segment : Segment) : Prop where
  aligned : segment.start % 8 = 0 ∧ segment.stop % 8 = 0
  /-- There is an entry for every eight bytes of the range. -/
  entries : segment.entries.size = (segment.stop.toNat - segment.start.toNat) / 8
  entry : ∀ index, index < segment.entries.size →
    segment.entries[index]? = some (index * segment.options.stride)
  ops : segment.ops.size = segment.entries.size * segment.options.stride
  /-- No offset of a slot wraps around, nor that of a byte in it. -/
  offsets : ∀ index, index < segment.entries.size →
    (offsetOf segment.start index).toNat = segment.start.toNat + 8 * index ∧
      segment.start.toNat + 8 * index + 8 ≤ segment.stop.toNat
  /-- All bytes of a slot are in RAM. -/
  fetched : ∀ index, index < segment.entries.size →
    ram.holds (offsetOf segment.start index) 8 = true
  inside : ∀ j target, segment.ops[j]? = some (.branch (.inside target)) →
    ∃ offset, instructionAt ram (segment.offsetAt j) = ⟨.literal offset, .control .branch⟩ ∧
      offset % 8 = 0 ∧ segment.start ≤ offset ∧ offset < segment.stop ∧
      segment.entries[(offset.toNat - segment.start.toNat) / 8]? = some target
  outside : ∀ j offset, segment.ops[j]? = some (.branch (.outside offset)) →
    instructionAt ram (segment.offsetAt j) = ⟨.literal offset, .control .branch⟩ ∧
      offset % 8 = 0 ∧ segment.contains offset = false
  trap : ∀ j offset cause source destination,
    segment.ops[j]? = some (.trap offset cause source destination) →
      offset = segment.offsetAt j
  /-- The slots in an op are those of the modules that the operands name. -/
  slots : ∀ (j : Nat) (op : Op) (direction : Direction) (slot : Nat), segment.ops[j]? = some op →
    op.slot? direction = some slot →
      registry.Seats (direction.operand (wordsAt ram (segment.offsetAt j)) >>> 24).toUInt8 slot

section Layout

variable {registry : Registry} {options : Options} {ram : Ram} {start stop : Word}
  {segment : Segment}

/-- Compiled segments are tabled. -/
theorem tabled_of_compile (sound : registry.Sound)
    (compiled : compile registry options ram start stop = .ok segment) :
    segment.Tabled registry ram ∧ segment.start = start ∧ segment.stop = stop ∧
      segment.options = options := by
  rcases compile_eq_ok_iff.mp compiled with ⟨valid, _, rfl⟩
  have hsize : (layout registry options ram start stop).entries.size = countOf start stop :=
    size_layout registry options ram
  -- An op that is no suspension point is what an instruction was compiled into.
  have hop : ∀ j op, (layout registry options ram start stop).ops[j]? = some op →
      op = .suspend (offsetOf start (j / options.stride)) ∨
        op = opFor registry options ram start stop (j / options.stride) :=
    fun _ _ hget => (op_of_compile compiled hget).2
  refine ⟨?_, rfl, rfl, rfl⟩
  have hmod : ∀ word : Word, word.toNat % 8 = 0 → word % 8 = 0 := by
    intro word h
    rw [← UInt32.toNat_inj, UInt32.toNat_mod]
    exact h
  constructor
  case aligned =>
    exact ⟨hmod _ (validRange_iff.mp valid).2.1, hmod _ (validRange_iff.mp valid).2.2.1⟩
  case entries => exact hsize
  case entry =>
    intro index inside
    rw [getElem?_entries_layout, if_pos (hsize ▸ inside)]
    rfl
  case ops => rw [size_ops_layout, hsize]; rfl
  case offsets => exact fun index inside => toNat_offsetOf_of_lt valid (hsize ▸ inside)
  case fetched =>
    intro index inside
    rcases toNat_offsetOf_of_lt valid (hsize ▸ inside) with ⟨hoffset, hbelow⟩
    have hfits := (validRange_iff.mp valid).2.2.2
    refine decide_eq_true ?_
    change (offsetOf start index).toNat + 8 ≤ ram.size
    omega
  case inside =>
    intro j target hget
    rcases hop j _ hget with hsuspend | hbranch
    · cases hsuspend
    · rcases branch_of_opFor hbranch.symm with ⟨offset, hinstruction, aligned, htarget⟩
      rw [targetOf] at htarget
      split at htarget
      · next within =>
        cases htarget
        refine ⟨offset, hinstruction, aligned, within.1, within.2, ?_⟩
        change (layout registry options ram start stop).entries[countOf start offset]? = _
        rw [getElem?_entries_layout, if_pos (offsetOf_countOf_of_mem valid aligned within).1]
      · cases htarget
  case outside =>
    intro j offset hget
    rcases hop j _ hget with hsuspend | hbranch
    · cases hsuspend
    · rcases branch_of_opFor hbranch.symm with ⟨target, hinstruction, aligned, htarget⟩
      rw [targetOf] at htarget
      split at htarget
      · cases htarget
      · next without =>
        cases htarget
        refine ⟨hinstruction, aligned, ?_⟩
        rw [← Bool.not_eq_true, contains, Bool.and_eq_true, decide_eq_true_eq, decide_eq_true_eq]
        exact without
  case trap =>
    intro j offset cause source destination hget
    rcases hop j _ hget with hsuspend | htrap
    · cases hsuspend
    · exact (opFor_eq_trap_iff.mp htrap.symm).1
  case slots =>
    intro j op direction slot hget hslot
    rcases hop j _ hget with rfl | rfl
    · cases direction <;> cases hslot
    · exact seats_of_opFor sound hslot

end Layout

/-! ## Runs -/

/-- Where a run can stand: at an op, or right behind the last one; and where it can leave
    to, which is the end of the range or the target of a jump. -/
def Placed (segment : Segment) : Progress → Prop
  | .standing op => op ≤ segment.ops.size
  | .ended .completed => True
  | .ended (.left offset) =>
    offset = segment.stop ∨ ∃ j : Nat, segment.ops[j]? = some (Op.branch (.outside offset))

section Tabled

variable {registry : Registry} {ram : Ram} {segment : Segment}

/-- Every op belongs to an instruction. -/
theorem Tabled.index_lt (tabled : segment.Tabled registry ram) {j : Nat}
    (inside : j < segment.ops.size) : j / segment.options.stride < segment.entries.size := by
  rw [tabled.ops, Nat.mul_comm] at inside
  exact Nat.div_lt_of_lt_mul inside

/-- A target inside the range is one of the ops. -/
theorem Tabled.target_lt (tabled : segment.Tabled registry ram) {j target : Nat}
    (h : segment.ops[j]? = some (.branch (.inside target))) : target < segment.ops.size := by
  rcases tabled.inside j target h with ⟨offset, _, _, _, _, hentry⟩
  -- Entries are multiples of the stride, and there are as many ops for each.
  have inside := (Array.getElem?_eq_some_iff.mp hentry).1
  rw [tabled.entry _ inside, Option.some.injEq] at hentry
  rw [tabled.ops, ← hentry]
  exact Nat.mul_lt_mul_of_pos_right inside segment.options.stride_pos

/-- The checks of the ops of a segment are passed. -/
theorem Tabled.sure (tabled : segment.Tabled registry ram) {j : Nat} {op : Op}
    (h : segment.ops[j]? = some op) : op.Sure registry := by
  constructor
  · intro direction slot hslot
    rcases tabled.slots j op direction slot h hslot with ⟨behaviour, hseat⟩
    exact (List.getElem?_eq_some_iff.mp hseat).1
  · rintro offset cause source destination rfl
    have inside := tabled.index_lt (Array.getElem?_eq_some_iff.mp h).1
    rcases tabled.offsets _ inside with ⟨hoffset, hbelow⟩
    -- The slot ends before the range does, and the end of the range is a word.
    have hstop := segment.stop.toNat_lt
    rw [tabled.trap j _ _ _ _ h, offsetAt, hoffset]
    omega

/-- No step from an op, or from right behind the last one, faults, and it leads to such a
    place again, or to where a run can leave to. -/
theorem faultless_step (tabled : segment.Tabled registry ram) {op : Nat}
    (inside : op ≤ segment.ops.size) :
    Faultless registry segment.Placed (segment.step op) (segment.checkedStep op) := by
  unfold step checkedStep
  cases hop : segment.ops[op]? with
  | none =>
      -- There is no op, so the run is right behind the last one.
      have hbehind : op = segment.ops.size :=
        Nat.le_antisymm inside (Array.getElem?_eq_none_iff.mp hop)
      exact faultless_after (faultless_guard hbehind) (faultless_pure (Or.inl rfl))
  | some current =>
      -- The pointer goes on by one, or a jump of this op decides where to.
      have hlt := (Array.getElem?_eq_some_iff.mp hop).1
      refine faultless_bind (Op.faultless_perform (tabled.sure hop)) fun flow yields => ?_
      rcases flow with _ | (target | offset) | _
      · exact faultless_after (faultless_guard rfl) (faultless_pure hlt)
      · rw [yields _ rfl] at hop
        have landed := tabled.target_lt hop
        exact faultless_after (faultless_guard (decide_eq_true landed))
          (faultless_pure (Nat.le_of_lt landed))
      · rw [yields _ rfl] at hop
        exact faultless_after (faultless_guard rfl) (faultless_pure (Or.inr ⟨op, hop⟩))
      · exact faultless_after (faultless_guard rfl) (faultless_pure trivial)

/-- Runs do not fault, and stay where they can stand. -/
theorem faultless_proceedFor (tabled : segment.Tabled registry ram) (count : Nat) :
    ∀ progress, segment.Placed progress →
      Faultless registry segment.Placed (segment.proceedFor count progress)
        (segment.checkedFor count progress) := by
  -- The induction is on the number of ops; each leaves the run where it can stand.
  induction count with
  | zero => exact fun _ placed => faultless_pure placed
  | succ count ih =>
      intro progress placed
      cases progress with
      | standing op => exact faultless_bind (faultless_step tabled placed) ih
      | ended exit =>
          rw [proceedFor_ended, checkedFor]
          exact faultless_pure placed

/-- A run leaves to the end of the range, or to the target of a jump. -/
theorem placed_of_runFor (tabled : segment.Tabled registry ram) {context context' : Context}
    (instantiates : Instantiates registry context) {op : Nat} (inside : op ≤ segment.ops.size)
    {η : Type u} {host : Host η} {count : Nat} {state state' : η} {exit : Exit}
    (h : segment.runFor host count op context state = (some (.ok exit), context', state')) :
    segment.Placed (.ended exit) := by
  have hplaced := converse_of_faultless
    (faultless_proceedFor tabled count (.standing op) inside) instantiates host state
  have hending : ending? ((segment.proceedFor count (.standing op) context).converse host
      state).1.1 = some (.ok exit) := by
    rw [runFor_eq] at h
    exact congrArg Prod.fst h
  generalize ((segment.proceedFor count (.standing op) context).converse host state).1.1 = reached
    at hplaced hending
  -- Of the ways a run can have come this far, one is an exit.
  rcases reached with trap | next | exit' <;> cases hending
  exact hplaced _ rfl

/-- What a run can leave to is aligned and outside the range, and it is its end or in an
    instruction of it. -/
theorem Tabled.exit (tabled : segment.Tabled registry ram) {target : Word}
    (placed : segment.Placed (.ended (.left target))) :
    target % 8 = 0 ∧ segment.contains target = false ∧ (target = segment.stop ∨
      ∃ index, index < segment.size ∧
        instructionAt ram (offsetOf segment.start index) = ⟨.literal target, .control .branch⟩) := by
  -- A segment is left at its end or by a jump with a literal target.
  rcases placed with rfl | ⟨j, hop⟩
  · refine ⟨tabled.aligned.2, ?_, Or.inl rfl⟩
    rw [contains, decide_eq_false (UInt32.lt_irrefl segment.stop), Bool.and_false]
  · rcases tabled.outside j target hop with ⟨hinstruction, aligned, without⟩
    have inside := tabled.index_lt (Array.getElem?_eq_some_iff.mp hop).1
    exact ⟨aligned, without, Or.inr ⟨_, inside, hinstruction⟩⟩

/-- A run that begins at an entry begins at an op. -/
theorem Tabled.enter_le (tabled : segment.Tabled registry ram) {entry op : Nat}
    (h : segment.enter entry = .ok op) : op ≤ segment.ops.size := by
  unfold enter at h
  split at h
  · next found hentry =>
    cases h
    have inside := (Array.getElem?_eq_some_iff.mp hentry).1
    -- The first op of an instruction that exists is among the ops.
    rw [tabled.entry _ inside, Option.some.injEq] at hentry
    rw [tabled.ops, ← hentry]
    exact Nat.mul_le_mul_right _ (Nat.le_of_lt inside)
  · contradiction

end Tabled

/-- Runs stay in their tables. In every registry that comes of declarations offered one
    after the other, and for every segment that is compiled with it: its tables fit each
    other and the range. In every context that comes of the registry: the slots in the ops
    hold instances of the modules that the operands name. A run from any entry passes the
    checks of everything it looks up, and if it leaves, then to an aligned offset outside
    the range, which is its end or the literal of a jump in it. -/
theorem runs_stay_in_tables (decls : List ModuleDecl) {options : Options} {ram : Ram}
    {start stop : Word} {segment : Segment} {context : Context}
    (compiled : compile (Registry.empty.offerAll decls) options ram start stop = .ok segment)
    (arises : Context.Arises.{u} (Registry.empty.offerAll decls) context) :
    let r := Registry.empty.offerAll decls
    (segment.Tabled r ram ∧ segment.start = start ∧ segment.stop = stop ∧
      segment.options = options) ∧
    (∀ (j : Nat) (op : Op) (direction : Direction) (slot : Nat), segment.ops[j]? = some op →
      op.slot? direction = some slot →
        let id := (direction.operand (wordsAt ram (segment.offsetAt j)) >>> 24).toUInt8
        slot < 256 ∧ ∃ i m, context.instances[slot]? = some i ∧ r.module? id = some m ∧
          m.decl.kind = .dispatched i.behaviour ∧ r.dispatched[slot]? = some (id, i.behaviour)) ∧
    ∀ entry op, segment.enter entry = .ok op →
      (∀ count, (segment.checkedFor count (.standing op)).run context =
        (some <$> segment.proceedFor count (.standing op)) context) ∧
      ∀ (η : Type u) (host : Host η) (count : Nat) (state : η) (target : Word) (context' : Context)
        (state' : η),
        segment.runFor host count op context state =
            (some (.ok (.left target)), context', state') →
          target % 8 = 0 ∧ segment.contains target = false ∧ (target = stop ∨
            ∃ index, index < segment.size ∧
              instructionAt ram (offsetOf start index) = ⟨.literal target, .control .branch⟩) := by
  intro r
  have tabled := tabled_of_compile (Registry.sound_offerAll decls) compiled
  have instantiates := instantiates_of_arises arises
  refine ⟨tabled, ?_, ?_⟩
  · intro j op direction slot hop hslot
    exact exists_instance_of_seats instantiates (tabled.1.slots j op direction slot hop hslot)
  · rcases tabled with ⟨tabled, rfl, rfl, rfl⟩
    intro entry op hentry
    have inside := tabled.enter_le hentry
    -- Checked runs are runs as nothing is missed, and what a run leaves by is an exit of its ops.
    constructor
    · intro count
      exact run_eq_of_faultless (faultless_proceedFor tabled count (.standing op) inside)
        instantiates
    · intro η host count state target context' state' h
      exact tabled.exit (placed_of_runFor tabled instantiates inside h)

-- A jump inside, one to where no instruction begins, and one past the end.
theorem runs_stay_in_tables_jumps :
    let r := Registry.empty.offerAll Registry.standardDecls
    let ram : Ram := ⟨#[0x11, 0x00, 0x00, 0x10, 0x90, 0x00, 0x00, 0x00,
      0x11, 0x00, 0x00, 0x0C, 0x90, 0x00, 0x00, 0x00,
      0x11, 0x00, 0x00, 0x40, 0x90, 0x00, 0x00, 0x00]⟩
    let context := ((Context.fresh r).bind.converse Bench.host { ram, fuel := 0 }).1
    ∃ segment, compile r ⟨false, true⟩ ram 0 24 = .ok segment ∧
      Context.Arises.{1} r context ∧ segment.Tabled r ram ∧
      segment.enter 2 = .ok 4 ∧ ∀ count, (segment.checkedFor count (.standing 4)).run context =
        (some <$> segment.proceedFor count (.standing 4)) context := by
  intro r ram context
  have compiled : compile r ⟨false, true⟩ ram 0 24 = .ok (layout r ⟨false, true⟩ ram 0 24) :=
    compile_eq_ok_iff.mpr ⟨by decide, fun strict => by contradiction, rfl⟩
  have arises : Context.Arises.{1} r context := .bind .fresh Bench.host { ram, fuel := 0 }
  have entered : (layout r ⟨false, true⟩ ram 0 24).enter 2 = .ok 4 := enter_layout (by decide)
  have contained := runs_stay_in_tables Registry.standardDecls compiled arises
  exact ⟨_, compiled, arises, contained.1.1, entered, (contained.2.2 2 4 entered).1⟩

end Segment

end Transport
