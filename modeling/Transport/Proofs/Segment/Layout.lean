import Transport.Proofs.Ram
import Transport.Segment.CodeMap
import Transport.Segment.Run

/-!
# The Layout of a Segment

What a compiled segment looks like, slot by slot. A valid range consists of
whole slots; the ops of the slot at index `i` begin at `i` times the stride, the
last of them is what the instruction was compiled into, and the code map has one
entry for every slot.

The two passes of compilation are walked through once, slot by slot from the first:
the plan of the first slots, and the ops of the first slots. Everything else is
derived from the closed form they come to, so that no later proof opens the arrays
or the passes again.

## Main definitions

* `Segment.slotAt`, `Segment.targetOf`: A classified slot, and where a jump leads.
* `Segment.opFor`: The op that the instruction at an index is compiled into.
* `Segment.planned`: The plan of the first slots of a range.
* `Segment.layout`: The segment of a range, without asking whether it is valid.
* `Segment.Compiles`: What an instruction is classified as, if it compiles.
* `Segment.Untranslated`: The instruction at an offset does not compile.

## Theorems

* `validRange_iff`: A valid range in terms of numbers.
* `foldlM_extend_of_clean`, `foldlM_extend_of_refused`: What the layout pass comes to.
* `resolve_planned`, `emitted_upto`: What the emission pass writes.
* `compile_eq_ok_iff`, `compile_eq_error_iff`: When a range compiles, and into what, and
  why not.
* `getElem?_ops_layout`: Every op of a segment.
* `mem_ops_layout_iff`, `opAt?_layout`, `getElem?_compiled_layout`: The ops and the code
  map by slots.
* `step_trap`: What a trap op asks, and what it comes to.
* `shapeOf_eq_ok_iff`, `branch_of_opFor`: The ways an instruction compiles, and which of
  them are jumps.
* `isTrap_opFor_iff`, `opFor_eq_trap_iff`: A slot becomes a trap exactly if it does not
  compile, and what the trap remembers.
-/

namespace Transport

namespace Options

theorem stride_pos (options : Options) : 0 < options.stride := by
  unfold stride
  split <;> omega

theorem stride_of_singleStep {options : Options} (h : options.singleStep = true) :
    options.stride = 2 := by
  simp only [stride, h, if_true]

theorem stride_of_not_singleStep {options : Options} (h : options.singleStep = false) :
    options.stride = 1 := by
  simp only [stride, h, Bool.false_eq_true, if_false]

end Options

namespace Segment

theorem validRange_iff {ram : Ram} {start stop : Word} :
    validRange ram start stop = true ↔ start.toNat ≤ stop.toNat ∧ start.toNat % 8 = 0 ∧
      stop.toNat % 8 = 0 ∧ stop.toNat ≤ ram.size := by
  have hmod : ∀ w : Word, w % 8 = 0 ↔ w.toNat % 8 = 0 := by
    intro w
    rw [← UInt32.toNat_inj, UInt32.toNat_mod]
    rfl
  simp only [validRange, Bool.and_eq_true, decide_eq_true_eq, hmod, UInt32.le_iff_toNat_le]
  constructor
  · rintro ⟨⟨⟨ordered, first⟩, whole⟩, inside⟩
    -- As the range is not reversed, its length does not wrap around.
    rw [UInt32.toNat_sub_of_le _ _ (UInt32.le_iff_toNat_le.mpr ordered)] at whole
    exact ⟨ordered, first, by omega, inside⟩
  · rintro ⟨ordered, first, last, inside⟩
    refine ⟨⟨⟨ordered, first⟩, ?_⟩, inside⟩
    rw [UInt32.toNat_sub_of_le _ _ (UInt32.le_iff_toNat_le.mpr ordered)]
    omega

theorem countOf_eq (start stop : Word) : countOf start stop = (stop.toNat - start.toNat) / 8 := rfl

/-- The offsets of instructions are eight apart, as far as words reach. -/
theorem toNat_offsetOf {start : Word} {index : Nat}
    (reach : start.toNat + 8 * index < 0x100000000) :
    (offsetOf start index).toNat = start.toNat + 8 * index := by
  simp only [offsetOf, instructionSize, UInt32.toNat_add, UInt32.toNat_ofNat']
  omega

/-- The slots of a valid range lie in it, each with all of its bytes. -/
theorem toNat_offsetOf_of_lt {ram : Ram} {start stop : Word} {index : Nat}
    (valid : validRange ram start stop = true) (inside : index < countOf start stop) :
    (offsetOf start index).toNat = start.toNat + 8 * index ∧
      start.toNat + 8 * index + 8 ≤ stop.toNat := by
  rcases validRange_iff.mp valid with ⟨ordered, first, last, _⟩
  have hstop := stop.toNat_lt
  rw [countOf_eq] at inside
  exact ⟨toNat_offsetOf (by omega), by omega⟩

/-- The end of a valid range is the offset behind its last slot. -/
theorem toNat_stop {ram : Ram} {start stop : Word} (valid : validRange ram start stop = true) :
    stop.toNat = start.toNat + 8 * countOf start stop := by
  rcases validRange_iff.mp valid with ⟨ordered, first, last, _⟩
  rw [countOf_eq]
  omega

theorem offsetOf_countOf {ram : Ram} {start stop : Word}
    (valid : validRange ram start stop = true) : offsetOf start (countOf start stop) = stop := by
  have hstop := toNat_stop valid
  have hlt := stop.toNat_lt
  rw [← UInt32.toNat_inj, toNat_offsetOf (by omega), hstop]

/-! ## Slots -/

/-- The classified slot at an offset. -/
def slotAt (registry : Registry) (ids : List UInt8) (ram : Ram) (offset : Word) : Slot :=
  let (source, destination) := wordsAt ram offset
  ⟨offset, source, destination, classify registry ids (.ofWords source destination)⟩

/-- The error of a slot that does not compile. -/
def slotError? (slot : Slot) : Option CompilationError :=
  match slot.shape with
  | .trap cause => some (cause.errorAt slot.offset)
  | _ => none

/-- Where a jump to an offset leads, in terms of the range. -/
def targetOf (start stop : Word) (stride : Nat) (target : Word) : Target :=
  if start ≤ target ∧ target < stop then .inside (countOf start target * stride)
  else .outside target

/-- The op that the instruction at an index of a range is compiled into. -/
def opFor (registry : Registry) (options : Options) (ram : Ram) (start stop : Word)
    (index : Nat) : Op :=
  opOf (targetOf start stop options.stride)
    (slotAt registry registry.slotIds ram (offsetOf start index))

/-- The op at an index, counted from the first op of the range. -/
def opAtIndex (registry : Registry) (options : Options) (ram : Ram) (start : Word)
    (resolve : Word → Target) (j : Nat) : Op :=
  if options.singleStep && j % 2 = 0 then .suspend (offsetOf start (j / options.stride))
  else opOf resolve (slotAt registry registry.slotIds ram (offsetOf start (j / options.stride)))

/-- The segment of a range, without asking whether the range is valid or whether
    a strict compilation would refuse it. -/
def layout (registry : Registry) (options : Options) (ram : Ram) (start stop : Word) :
    Segment where
  start := start
  stop := stop
  options := options
  entries := (Array.range (countOf start stop)).map (· * options.stride)
  ops := Array.ofFn fun j : Fin (countOf start stop * options.stride) =>
    opAtIndex registry options ram start (targetOf start stop options.stride) j

/-- RAM has both words of every instruction of a valid range. -/
theorem fetch?_of_valid {ram : Ram} {start stop : Word} {index : Nat}
    (valid : validRange ram start stop = true) (inside : index < countOf start stop) :
    fetch? ram (offsetOf start index) = some (wordsAt ram (offsetOf start index)) := by
  rcases toNat_offsetOf_of_lt valid inside with ⟨hoffset, whole⟩
  have hstop := (validRange_iff.mp valid).2.2.2
  have hlt := stop.toNat_lt
  exact fetch?_of_slot (by omega) (by omega)

/-! ## The layout pass -/

/-- What keeps a compilation from going on behind a slot. -/
def refusal? (options : Options) (slot : Slot) : Option CompilationError :=
  if options.strict then slotError? slot else none

theorem refusal?_eq_some_iff {options : Options} {slot : Slot} {error : CompilationError} :
    refusal? options slot = some error ↔ options.strict = true ∧ slotError? slot = some error := by
  simp only [refusal?, Option.ite_none_right_eq_some]

theorem refusal?_eq_none_iff {options : Options} {slot : Slot} :
    refusal? options slot = none ↔ (options.strict = true → slotError? slot = none) := by
  simp only [refusal?, ite_eq_right_iff]

section Passes

variable {registry : Registry} {options : Options} {ram : Ram} {start stop : Word}

/-- An instruction is added to the plan, unless it is refused. -/
theorem extend_eq {offset : Word} (fetched : fetch? ram offset = some (wordsAt ram offset))
    (plan : Plan) :
    plan.extend registry options ram start stop offset =
      match refusal? options (slotAt registry registry.slotIds ram offset) with
      | some error => .error error
      | none => .ok (plan.add options (slotAt registry registry.slotIds ram offset)) := by
  unfold Plan.extend refusal? slotError? slotAt
  rw [fetched]
  dsimp only
  -- Only a trap is refused, and only by a strict compilation.
  cases classify registry registry.slotIds
      (.ofWords (wordsAt ram offset).1 (wordsAt ram offset).2) with
  | move | test | branch => cases options.strict <;> rfl
  | trap cause => cases options.strict <;> rfl

/-- The plan of the first slots of a range. -/
def planned (registry : Registry) (options : Options) (ram : Ram) (start : Word) (n : Nat) :
    Plan where
  entries := (Array.range n).map (· * options.stride)
  length := n * options.stride
  slots := Array.ofFn fun i : Fin n => slotAt registry registry.slotIds ram (offsetOf start i)

theorem add_planned (n : Nat) :
    (planned registry options ram start n).add options
        (slotAt registry registry.slotIds ram (offsetOf start n)) =
      planned registry options ram start (n + 1) := by
  simp only [planned, Plan.add, Plan.mk.injEq]
  refine ⟨?_, (Nat.succ_mul _ _).symm, ?_⟩
  · rw [Array.range_succ, ← Array.push_eq_append, Array.map_push]
  · rw [Array.ofFn_succ]
    rfl

/-- As long as no instruction is refused, the layout pass makes the plan. By induction on
    the number of slots, each of which is added behind the ones before. -/
theorem foldlM_extend_of_clean (valid : validRange ram start stop = true) {n : Nat}
    (inside : n ≤ countOf start stop)
    (clean : ∀ index, index < n →
      refusal? options (slotAt registry registry.slotIds ram (offsetOf start index)) = none) :
    ((List.range n).map (offsetOf start)).foldlM (Plan.extend registry options ram start stop) {} =
      .ok (planned registry options ram start n) := by
  -- Induction on the slots the first pass is through with; each adds its instruction to the plan.
  induction n with
  | zero =>
      have hrange : Array.range 0 = #[] := rfl
      simp only [List.range_zero, List.map_nil, List.foldlM_nil, pure, Except.pure, planned,
        hrange, Array.map_empty, Array.ofFn_zero, Nat.zero_mul]
  | succ n ih =>
      -- The slots before `n` are clean too, so that the pass comes to `n` with their plan.
      have hbefore := ih (by omega) fun index earlier => clean index (by omega)
      rw [List.range_succ, List.map_append, List.foldlM_append, hbefore]
      have hstep : (planned registry options ram start n).extend registry options ram start stop
          (offsetOf start n) = .ok (planned registry options ram start (n + 1)) := by
        rw [extend_eq (fetch?_of_valid valid inside), clean n (Nat.lt_succ_self n), add_planned]
      simp only [List.map_cons, List.map_nil, List.foldlM_cons, List.foldlM_nil, bind,
        Except.bind, hstep, pure, Except.pure]

/-- The layout pass ends at the first instruction that is refused. -/
theorem foldlM_extend_of_refused (valid : validRange ram start stop = true) {index n : Nat}
    (inside : n ≤ countOf start stop) (earlier : index < n) {error : CompilationError}
    (refused : refusal? options (slotAt registry registry.slotIds ram (offsetOf start index)) =
      some error)
    (clean : ∀ before, before < index →
      refusal? options (slotAt registry registry.slotIds ram (offsetOf start before)) = none) :
    ((List.range n).map (offsetOf start)).foldlM (Plan.extend registry options ram start stop) {} =
      .error error := by
  -- The pass is cut at the refused slot: it gets there by the clean ones and stops.
  have hsplit : List.range n =
      List.range index ++ index :: List.range' (index + 1) (n - index - 1) := by
    rw [← List.range'_succ, List.range_eq_range', List.range_eq_range',
      show n - index - 1 + 1 = n - index by omega]
    have happend := List.range'_append_1 (s := 0) (m := index) (n := n - index)
    rw [Nat.zero_add, Nat.add_sub_cancel' (by omega)] at happend
    exact happend.symm
  have hstep : (planned registry options ram start index).extend registry options ram start stop
      (offsetOf start index) = .error error := by
    rw [extend_eq (fetch?_of_valid valid (by omega)), refused]
  rw [hsplit, List.map_append, List.foldlM_append,
    foldlM_extend_of_clean valid (by omega) clean]
  simp only [List.map_cons, List.foldlM_cons, bind, Except.bind, hstep]

/-- Of the slots of a range either none is refused, or there is a first that is. -/
theorem clean_or_refused (f : Nat → Option CompilationError) (n : Nat) :
    (∀ index, index < n → f index = none) ∨
      ∃ index error, index < n ∧ f index = some error ∧ ∀ before, before < index → f before = none := by
  -- Induction on how many are looked at; the last is the first refused if none was before.
  induction n with
  | zero => exact Or.inl fun index h => absurd h (Nat.not_lt_zero _)
  | succ n ih =>
      rcases ih with clean | ⟨index, error, inside, refused, before⟩
      · cases h : f n with
        | none =>
            refine Or.inl fun index earlier => ?_
            rcases Nat.lt_succ_iff_lt_or_eq.mp earlier with h' | rfl
            · exact clean index h'
            · exact h
        | some error => exact Or.inr ⟨n, error, Nat.lt_succ_self n, h, clean⟩
      · exact Or.inr ⟨index, error, by omega, refused, before⟩

/-! ## The emission pass -/

/-- The entry that a jump into the range finds is that of the instruction there. -/
theorem resolve_planned (valid : validRange ram start stop = true) :
    (planned registry options ram start (countOf start stop)).resolve start stop =
      targetOf start stop options.stride := by
  rcases validRange_iff.mp valid with ⟨ordered, first, last, _⟩
  funext target
  unfold Plan.resolve targetOf
  -- Entries are looked up by index, and a target within the range has one below the count.
  by_cases inside : start ≤ target ∧ target < stop
  · rw [if_pos inside, if_pos inside]
    have hle := UInt32.le_iff_toNat_le.mp inside.1
    have hlt := UInt32.lt_iff_toNat_lt.mp inside.2
    have hindex : ((target - start) / 8).toNat = countOf start target := by
      rw [UInt32.toNat_div, UInt32.toNat_sub_of_le _ _ inside.1]
      rfl
    have hcount : countOf start target < countOf start stop := by
      simp only [countOf_eq]
      omega
    simp only [planned, hindex, getElem!_def, Array.getElem?_map, Array.getElem?_range,
      if_pos hcount, Option.map_some]
  · rw [if_neg inside, if_neg inside]

/-- The ops of one more slot come behind those of the slots before. -/
theorem getElem?_emitSlot (resolve : Word → Target) (n j : Nat) {ops : Array Op}
    (size : ops.size = n * options.stride) :
    (Plan.emitSlot options resolve ops
        (slotAt registry registry.slotIds ram (offsetOf start n)))[j]? =
      if j < n * options.stride then ops[j]?
      else if j < (n + 1) * options.stride then
        some (opAtIndex registry options ram start resolve j)
      else none := by
  unfold Plan.emitSlot opAtIndex
  -- Two ops a slot, the suspension point and the instruction, or only the latter.
  cases step : options.singleStep with
  | true =>
      have hstride := Options.stride_of_singleStep step
      rw [hstride] at size ⊢
      simp only [if_true, Bool.true_and, decide_eq_true_eq, Array.getElem?_push, Array.size_push,
        size]
      -- An op before the slot's, its suspension point, its instruction, or one behind.
      rcases Nat.lt_trichotomy j (n * 2) with before | rfl | behind
      · rw [if_neg (by omega), if_neg (by omega), if_pos before]
      · rw [if_neg (by omega), if_pos rfl, if_neg (by omega), if_pos (by omega),
          if_pos (by omega), Nat.mul_div_cancel _ (by omega)]
        rfl
      · by_cases last : j = n * 2 + 1
        · rw [if_pos last, if_neg (by omega), if_pos (by omega), if_neg (by omega),
            show j / 2 = n by omega]
        · rw [if_neg last, if_neg (by omega), if_neg (by omega), if_neg (by omega),
            Array.getElem?_eq_none (by omega)]
  | false =>
      have hstride := Options.stride_of_not_singleStep step
      rw [hstride, Nat.mul_one] at size
      rw [hstride]
      simp only [Bool.false_eq_true, if_false, Bool.false_and, Array.getElem?_push, size,
        Nat.mul_one, Nat.div_one]
      rcases Nat.lt_trichotomy j n with before | rfl | behind
      · rw [if_neg (by omega), if_pos before]
      · rw [if_pos rfl, if_neg (by omega), if_pos (by omega)]
      · rw [if_neg (by omega), if_neg (by omega), if_neg (by omega),
          Array.getElem?_eq_none (by omega)]

/-- The ops of the first slots of a range. -/
theorem emitted_upto (resolve : Word → Target) (n : Nat) :
    (planned registry options ram start n).slots.foldl (Plan.emitSlot options resolve) #[] =
      Array.ofFn fun j : Fin (n * options.stride) =>
        opAtIndex registry options ram start resolve j := by
  -- Induction on the slots emitted. Arrays are compared op by op.
  induction n with
  | zero =>
      apply Array.ext_getElem?
      intro j
      simp only [planned, Array.ofFn_zero, Array.foldl_empty, Array.getElem?_ofFn, Nat.zero_mul,
        Nat.not_lt_zero, dif_neg, not_false_eq_true, List.getElem?_toArray, List.getElem?_nil]
  | succ n ih =>
      rw [← add_planned]
      simp only [Plan.add, Array.foldl_push, ih]
      apply Array.ext_getElem?
      intro j
      rw [getElem?_emitSlot resolve n j Array.size_ofFn]
      have hmul : (n + 1) * options.stride = n * options.stride + options.stride :=
        Nat.succ_mul _ _
      simp only [Array.getElem?_ofFn]
      by_cases before : j < n * options.stride
      · rw [if_pos before, dif_pos before, dif_pos (by omega)]
      · rw [if_neg before]
        by_cases inside : j < (n + 1) * options.stride
        · rw [if_pos inside, dif_pos inside]
        · rw [if_neg inside, dif_neg inside]

end Passes

/-- What the two passes make of a valid range. -/
theorem compile_of_valid (registry : Registry) (options : Options) {ram : Ram}
    {start stop : Word} (valid : validRange ram start stop = true) :
    (compile registry options ram start stop = .ok (layout registry options ram start stop) ∧
      ∀ index, index < countOf start stop → refusal? options
        (slotAt registry registry.slotIds ram (offsetOf start index)) = none) ∨
    ∃ index error, index < countOf start stop ∧
      refusal? options (slotAt registry registry.slotIds ram (offsetOf start index)) =
        some error ∧
      (∀ before, before < index →
        refusal? options (slotAt registry registry.slotIds ram (offsetOf start before)) = none) ∧
      compile registry options ram start stop = .error error := by
  unfold compile plan offsets
  rw [if_pos valid]
  -- Either no slot is refused, or there is a first that is.
  rcases clean_or_refused (fun index => refusal? options
      (slotAt registry registry.slotIds ram (offsetOf start index))) (countOf start stop) with
    clean | ⟨index, error, inside, refused, before⟩
  · refine Or.inl ⟨?_, clean⟩
    rw [foldlM_extend_of_clean valid (Nat.le_refl _) clean]
    simp only [bind, Except.bind, pure, Except.pure, Plan.emit, resolve_planned valid,
      emitted_upto]
    rfl
  · refine Or.inr ⟨index, error, inside, refused, before, ?_⟩
    rw [foldlM_extend_of_refused valid (Nat.le_refl _) inside refused before]
    rfl

/-- A range compiles if it is valid and, when strict, if all of its instructions
    do; the result is its layout. -/
theorem compile_eq_ok_iff {registry : Registry} {options : Options} {ram : Ram}
    {start stop : Word} {segment : Segment} :
    compile registry options ram start stop = .ok segment ↔
      validRange ram start stop = true ∧
      (options.strict = true → ∀ index, index < countOf start stop →
        slotError? (slotAt registry registry.slotIds ram (offsetOf start index)) = none) ∧
      segment = layout registry options ram start stop := by
  constructor
  · intro compiled
    by_cases valid : validRange ram start stop = true
    · rcases compile_of_valid registry options valid with
        ⟨hlayout, clean⟩ | ⟨_, _, _, _, _, herror⟩
      · rw [compiled, Except.ok.injEq] at hlayout
        exact ⟨valid, fun strict index inside =>
          refusal?_eq_none_iff.mp (clean index inside) strict, hlayout⟩
      · rw [compiled] at herror
        contradiction
    · rw [compile, if_neg valid] at compiled
      contradiction
  · -- A layout was not refused anywhere, or else the first refused slot would be clean.
    rintro ⟨valid, clean, rfl⟩
    rcases compile_of_valid registry options valid with
      ⟨hlayout, _⟩ | ⟨index, error, inside, refused, _, _⟩
    · exact hlayout
    · rcases refusal?_eq_some_iff.mp refused with ⟨strict, herror⟩
      rw [clean strict index inside] at herror
      contradiction

/-- A range does not compile if it is not valid, or else, when strict, because of the
    first instruction that does not. -/
theorem compile_eq_error_iff {registry : Registry} {options : Options} {ram : Ram}
    {start stop : Word} {error : CompilationError} :
    compile registry options ram start stop = .error error ↔
      validRange ram start stop = false ∧ error = .invalidRange start stop ram.size ∨
      validRange ram start stop = true ∧ options.strict = true ∧
        ∃ index, index < countOf start stop ∧
          slotError? (slotAt registry registry.slotIds ram (offsetOf start index)) = some error ∧
          ∀ before, before < index →
            slotError? (slotAt registry registry.slotIds ram (offsetOf start before)) = none := by
  by_cases valid : validRange ram start stop = true
  · simp only [valid, Bool.true_eq_false, false_and, false_or, true_and]
    rcases compile_of_valid registry options valid with
      ⟨hlayout, clean⟩ | ⟨index, error', inside, refused, before, herror⟩
    · rw [hlayout]
      refine ⟨fun h => by contradiction, ?_⟩
      rintro ⟨strict, index, inside, found, _⟩
      rw [refusal?_eq_none_iff.mp (clean index inside) strict] at found
      contradiction
    · rcases refusal?_eq_some_iff.mp refused with ⟨strict, hfound⟩
      have nothing := fun i earlier => refusal?_eq_none_iff.mp (before i earlier) strict
      rw [herror, Except.error.injEq]
      constructor
      · rintro rfl
        exact ⟨strict, index, inside, hfound, nothing⟩
      · -- The first one that is refused is unique.
        rintro ⟨_, other, _, found, earlier⟩
        rcases Nat.lt_trichotomy index other with h | rfl | h
        · rw [earlier index h] at hfound
          contradiction
        · rw [found, Option.some.injEq] at hfound
          exact hfound.symm
        · rw [nothing other h] at found
          contradiction
  · rw [compile, if_neg valid]
    simp only [valid, Except.error.injEq, true_and, Bool.false_eq_true, false_and, or_false]
    exact eq_comm

section Layout

variable (registry : Registry) (options : Options) (ram : Ram) {start stop : Word}

theorem size_layout : (layout registry options ram start stop).size = countOf start stop := by
  simp only [size, layout, Array.size_map, Array.size_range]

theorem size_ops_layout :
    (layout registry options ram start stop).ops.size = countOf start stop * options.stride := by
  simp only [layout, Array.size_ofFn]

/-- The ops of an instruction begin at its index times the stride. -/
theorem getElem?_entries_layout (index : Nat) :
    (layout registry options ram start stop).entries[index]? =
      if index < countOf start stop then some (index * options.stride) else none := by
  simp only [layout, Array.getElem?_map]
  by_cases inside : index < countOf start stop
  · rw [if_pos inside, Array.getElem?_range, if_pos inside]
    rfl
  · rw [if_neg inside, Array.getElem?_range, if_neg inside]
    rfl

/-- Every op of a segment: in a single-stepping one every other op is a
    suspension point, and the rest are what the instructions are compiled into. -/
theorem getElem?_ops_layout {j : Nat} (inside : j < countOf start stop * options.stride) :
    (layout registry options ram start stop).ops[j]? =
      some (if options.singleStep && j % 2 = 0 then .suspend (offsetOf start (j / options.stride))
        else opFor registry options ram start stop (j / options.stride)) := by
  rw [Array.getElem?_eq_getElem (by rw [size_ops_layout]; exact inside)]
  simp only [layout, Array.getElem_ofFn, opAtIndex, opFor]

variable {registry options ram}

theorem enter_layout {index : Nat} (inside : index < countOf start stop) :
    (layout registry options ram start stop).enter index = .ok (index * options.stride) := by
  simp only [enter, getElem?_entries_layout, if_pos inside]

theorem enter_layout_of_le {index : Nat} (outside : countOf start stop ≤ index) :
    (layout registry options ram start stop).enter index = .error (.entryOutOfRange index) := by
  simp only [enter, getElem?_entries_layout, if_neg (Nat.not_lt.mpr outside)]

/-- The last op of an instruction is what it was compiled into. -/
theorem getElem?_ops_last {index : Nat} (inside : index < countOf start stop) :
    (layout registry options ram start stop).ops[index * options.stride + (options.stride - 1)]? =
      some (opFor registry options ram start stop index) := by
  have hpos := options.stride_pos
  have hlt : index * options.stride + (options.stride - 1) <
      countOf start stop * options.stride := by
    have hle := Nat.mul_le_mul_right options.stride (Nat.succ_le_of_lt inside)
    rw [Nat.succ_mul] at hle
    omega
  have hdiv : (index * options.stride + (options.stride - 1)) / options.stride = index := by
    rw [Nat.mul_comm, Nat.mul_add_div hpos, Nat.div_eq_of_lt (by omega), Nat.add_zero]
  rw [getElem?_ops_layout _ _ _ hlt, hdiv]
  -- Of two ops for an instruction the last is at an odd index.
  cases hstep : options.singleStep with
  | true =>
      rw [if_neg]
      simp only [Options.stride_of_singleStep hstep, Bool.true_and, decide_eq_true_eq]
      omega
  | false => rw [Bool.false_and, if_neg Bool.false_ne_true]

/-- The last op of a slot is what its instruction was compiled into. -/
theorem opAt?_layout {index : Nat} (inside : index < countOf start stop) :
    (layout registry options ram start stop).opAt? index =
      some (opFor registry options ram start stop index) := by
  simp only [opAt?, getElem?_entries_layout, if_pos inside]
  exact getElem?_ops_last inside

/-- The ops of a segment are what its instructions are compiled into, and the suspension
    points in front of them. -/
theorem mem_ops_layout_iff {op : Op} :
    op ∈ (layout registry options ram start stop).ops ↔ ∃ index, index < countOf start stop ∧
      (op = opFor registry options ram start stop index ∨
        options.singleStep = true ∧ op = .suspend (offsetOf start index)) := by
  constructor
  · intro member
    rcases Array.mem_iff_getElem?.mp member with ⟨j, hget⟩
    have inside := (Array.getElem?_eq_some_iff.mp hget).1
    rw [size_ops_layout] at inside
    rw [getElem?_ops_layout _ _ _ inside, Option.some.injEq] at hget
    refine ⟨j / options.stride, Nat.div_lt_of_lt_mul (by rwa [Nat.mul_comm]), ?_⟩
    -- In single-stepping every other op is the suspension point of its slot.
    split at hget
    · next point =>
      rw [Bool.and_eq_true] at point
      exact Or.inr ⟨point.1, hget.symm⟩
    · exact Or.inl hget.symm
  · rintro ⟨index, inside, rfl | ⟨step, rfl⟩⟩
    · exact Array.mem_of_getElem? (getElem?_ops_last inside)
    · have hstride := Options.stride_of_singleStep step
      have hget := getElem?_ops_layout registry options ram
        (show index * 2 < countOf start stop * options.stride by rw [hstride]; omega)
      rw [hstride, step, if_pos (by simp only [Bool.true_and, decide_eq_true_eq]; omega),
        Nat.mul_div_cancel _ (by omega)] at hget
      exact Array.mem_of_getElem? hget

/-- The code map has an entry for every slot, which says whether the slot was
    compiled. -/
theorem getElem?_compiled_layout (index : Nat) :
    (layout registry options ram start stop).codeMap.compiled[index]? =
      if index < countOf start stop then
        some (!(opFor registry options ram start stop index).isTrap)
      else none := by
  simp only [codeMap, size_layout, Array.getElem?_map, Array.getElem?_range]
  by_cases inside : index < countOf start stop
  · simp only [if_pos inside, Option.map_some, opAt?_layout inside, Option.any_some]
  · simp only [if_neg inside, Option.map_none]

/-- The offset of a slot in the code map is the offset of the instruction. -/
theorem slotStart_layout {index : Nat} (valid : validRange ram start stop = true)
    (inside : index < countOf start stop) :
    (layout registry options ram start stop).codeMap.slotStart index =
      (offsetOf start index).toNat := by
  rw [(toNat_offsetOf_of_lt valid inside).1]
  rfl

end Layout

/-- Behind the last op, a run leaves at the end of the range. -/
theorem step_behind {segment : Segment} {op : Nat} {context : Context}
    (h : segment.ops[op]? = none) :
    segment.step op context = .done (.ok (.ended (.left segment.stop)), context) := by
  have hstep : segment.step op = pure (.ended (.left segment.stop)) := by
    simp only [step, h]
  exact congrFun hstep context

/-- The dialogue of a trap op: two words are read, and that is all. -/
theorem step_trap {segment : Segment} {j : Nat} {offset : Word} {cause : Obstacle}
    {source destination : Word}
    (hop : segment.ops[j]? = some (.trap offset cause source destination)) (context : Context) :
    segment.step j context = .ask (.readWord offset) fun first =>
      match first with
      | .error trap => .done (.error trap, context)
      | .ok currentSource => .ask (.readWord (offset + 4)) fun second =>
        match second with
        | .error trap => .done (.error trap, context)
        | .ok currentDestination => .done (.error (Op.trapOf offset cause (source, destination)
            (currentSource, currentDestination)), context) := by
  simp only [step, hop]
  -- Both words are read again before the trap, and either reading can fail.
  refine congrArg (Dialogue.ask (.readWord offset)) (funext fun first => ?_)
  cases first with
  | error trap => rfl
  | ok currentSource =>
      refine congrArg (Dialogue.ask (.readWord (offset + 4))) (funext fun second => ?_)
      cases second <;> rfl

/-! ## Instructions that compile -/

/-- What an instruction that compiles is classified as. -/
inductive Compiles (registry : Registry) (ids : List UInt8) : Instruction → Shape → Prop
  | branch {target : Word} (aligned : target % 8 = 0) :
      Compiles registry ids ⟨.literal target, .control .branch⟩ (.branch target)
  | nonneg {source : Source} {load : Load} (loads : loadOf registry ids source = .ok load) :
      Compiles registry ids ⟨source, .control .nonneg⟩ (.test load .nonneg)
  | zero {source : Source} {load : Load} (loads : loadOf registry ids source = .ok load) :
      Compiles registry ids ⟨source, .control .zero⟩ (.test load .zero)
  | move {source : Source} {address : Address} {load : Load} {store : Store}
      (loads : loadOf registry ids source = .ok load)
      (stores : storeOf registry ids address = .ok store) :
      Compiles registry ids ⟨source, .port address⟩ (.move load store)

theorem shapeOf_eq_ok_iff {registry : Registry} {ids : List UInt8} {i : Instruction}
    {shape : Shape} : shapeOf registry ids i = .ok shape ↔ Compiles registry ids i shape := by
  constructor
  · rcases i with ⟨source, destination⟩
    intro h
    rcases destination with operation | address
    · -- A control operation takes the source as its operand, and only a branch wants it literal.
      cases operation with
      | branch =>
          cases source with
          | literal target =>
              simp only [shapeOf, branchOf] at h
              split at h
              · next aligned =>
                cases h
                exact Compiles.branch aligned
              · cases h
          | port address => cases h
      | nonneg =>
          simp only [shapeOf] at h
          cases loads : loadOf registry ids source <;> rw [loads] at h <;> cases h
          exact Compiles.nonneg loads
      | zero =>
          simp only [shapeOf] at h
          cases loads : loadOf registry ids source <;> rw [loads] at h <;> cases h
          exact Compiles.zero loads
    · simp only [shapeOf] at h
      cases loads : loadOf registry ids source with
      | error cause => rw [loads] at h; cases h
      | ok load =>
          cases stores : storeOf registry ids address <;> rw [loads, stores] at h <;> cases h
          exact Compiles.move loads stores
  · intro h
    cases h with
    | branch aligned => simp only [shapeOf, branchOf, if_pos aligned]; rfl
    | nonneg loads | zero loads => simp only [shapeOf, loads]; rfl
    | move loads stores => simp only [shapeOf, loads, stores]; rfl

/-- The instruction at an offset of RAM. -/
def instructionAt (ram : Ram) (offset : Word) : Instruction :=
  .ofWords (wordsAt ram offset).1 (wordsAt ram offset).2

/-- A slot has the shape of its instruction, or else it is a trap. -/
theorem compiles_or_trap (registry : Registry) (ram : Ram) (offset : Word) :
    Compiles registry registry.slotIds (instructionAt ram offset)
        (slotAt registry registry.slotIds ram offset).shape ∨
      ∃ cause, (slotAt registry registry.slotIds ram offset).shape = .trap cause := by
  change Compiles _ _ _ (classify registry registry.slotIds (instructionAt ram offset)) ∨
    ∃ cause, classify registry registry.slotIds (instructionAt ram offset) = .trap cause
  unfold classify
  cases hshape : shapeOf registry registry.slotIds (instructionAt ram offset) with
  | ok shape => exact Or.inl (shapeOf_eq_ok_iff.mp hshape)
  | error cause => exact Or.inr ⟨cause, rfl⟩

/-- The target of a compiled jump is an aligned literal of its instruction. -/
theorem instructionAt_of_branch {registry : Registry} {ram : Ram} {offset target : Word}
    (h : (slotAt registry registry.slotIds ram offset).shape = .branch target) :
    instructionAt ram offset = ⟨.literal target, .control .branch⟩ ∧ target % 8 = 0 := by
  rcases compiles_or_trap registry ram offset with compiles | ⟨cause, htrap⟩
  · rw [h] at compiles
    generalize instructionAt ram offset = i at compiles ⊢
    cases compiles with
    | branch aligned => exact ⟨rfl, aligned⟩
  · rw [h] at htrap
    contradiction

/-- The instruction at an offset of RAM does not compile. -/
def Untranslated (registry : Registry) (ram : Ram) (offset : Word) : Prop :=
  slotError? (slotAt registry registry.slotIds ram offset) ≠ none

/-- A slot whose instruction has an obstacle has the error of the obstacle. -/
theorem slotError?_eq_some_iff {slot : Slot} {error : CompilationError} :
    slotError? slot = some error ↔
      ∃ cause, slot.shape = .trap cause ∧ cause.errorAt slot.offset = error := by
  unfold slotError?
  cases slot.shape with
  | move | test | branch => simp only [reduceCtorEq, false_and, exists_false]
  | trap cause => simp only [Option.some.injEq, Shape.trap.injEq, exists_eq_left']

/-- A slot becomes a trap exactly if its instruction does not compile. -/
theorem isTrap_opFor_iff {registry : Registry} {options : Options} {ram : Ram}
    {start stop : Word} {index : Nat} :
    (opFor registry options ram start stop index).isTrap = true ↔
      Untranslated registry ram (offsetOf start index) := by
  simp only [opFor, Untranslated, opOf, slotError?]
  cases (slotAt registry registry.slotIds ram (offsetOf start index)).shape <;>
    simp only [Op.isTrap, reduceCtorEq, not_false_eq_true, ne_eq, not_true_eq_false,
      Bool.false_eq_true]

/-- A trap remembers where it is, what the obstacle was, and the words it was made from. -/
theorem opFor_eq_trap_iff {registry : Registry} {options : Options} {ram : Ram}
    {start stop : Word} {index : Nat} {offset : Word} {cause : Obstacle}
    {source destination : Word} :
    opFor registry options ram start stop index = .trap offset cause source destination ↔
      offset = offsetOf start index ∧
        (slotAt registry registry.slotIds ram (offsetOf start index)).shape = .trap cause ∧
          (source, destination) = wordsAt ram (offsetOf start index) := by
  unfold opFor opOf
  -- Only a shape that traps becomes a trap, and it keeps the words of its slot.
  cases hshape : (slotAt registry registry.slotIds ram (offsetOf start index)).shape with
  | move | test | branch => simp only [reduceCtorEq, false_and, and_false]
  | trap cause' =>
      simp only [Op.trap.injEq, Shape.trap.injEq, slotAt, Prod.ext_iff]
      constructor
      · rintro ⟨rfl, rfl, rfl, rfl⟩
        exact ⟨rfl, rfl, rfl, rfl⟩
      · rintro ⟨rfl, rfl, rfl, rfl⟩
        exact ⟨rfl, rfl, rfl, rfl⟩

/-- A slot becomes a jump if its instruction is one to an aligned literal. -/
theorem branch_of_opFor {registry : Registry} {options : Options} {ram : Ram}
    {start stop : Word} {index : Nat} {target : Target}
    (h : opFor registry options ram start stop index = .branch target) :
    ∃ offset, instructionAt ram (offsetOf start index) = ⟨.literal offset, .control .branch⟩ ∧
      offset % 8 = 0 ∧ target = targetOf start stop options.stride offset := by
  unfold opFor opOf at h
  cases hshape : (slotAt registry registry.slotIds ram (offsetOf start index)).shape with
  | move | test | trap => rw [hshape] at h; cases h
  | branch offset =>
      rw [hshape] at h
      cases h
      rcases instructionAt_of_branch hshape with ⟨hinstruction, aligned⟩
      exact ⟨offset, hinstruction, aligned, rfl⟩

/-- What a range was compiled into knows the range, and that it is valid. -/
theorem range_of_compile {registry : Registry} {options : Options} {ram : Ram}
    {start stop : Word} {segment : Segment}
    (compiled : compile registry options ram start stop = .ok segment) :
    validRange ram start stop = true ∧ segment.start = start ∧ segment.stop = stop ∧
      segment.options = options := by
  rcases compile_eq_ok_iff.mp compiled with ⟨valid, _, rfl⟩
  exact ⟨valid, rfl, rfl, rfl⟩

/-- Every op of a compiled range belongs to a slot: it is the suspension point in front of
    the instruction there, or what the instruction was compiled into. -/
theorem op_of_compile {registry : Registry} {options : Options} {ram : Ram} {start stop : Word}
    {segment : Segment} (compiled : compile registry options ram start stop = .ok segment)
    {j : Nat} {op : Op} (hop : segment.ops[j]? = some op) :
    j / options.stride < countOf start stop ∧
      (op = .suspend (offsetOf start (j / options.stride)) ∨
        op = opFor registry options ram start stop (j / options.stride)) := by
  rcases compile_eq_ok_iff.mp compiled with ⟨_, _, rfl⟩
  have inside := (Array.getElem?_eq_some_iff.mp hop).1
  rw [size_ops_layout] at inside
  rw [getElem?_ops_layout _ _ _ inside, Option.some.injEq] at hop
  refine ⟨Nat.div_lt_of_lt_mul (by rwa [Nat.mul_comm]), ?_⟩
  split at hop
  · exact Or.inl hop.symm
  · exact Or.inr hop.symm

/-- What an instruction is compiled into depends on its words alone. -/
theorem slotAt_of_same {registry : Registry} {a b : Ram} {offset : Word}
    (reach : offset.toNat + 4 < 0x100000000) (h : Ram.Same a b offset.toNat 8) :
    slotAt registry registry.slotIds a offset = slotAt registry registry.slotIds b offset := by
  simp only [slotAt, wordsAt_of_same reach h]

end Segment

end Transport
