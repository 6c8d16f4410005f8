import Transport.Proofs.Dialogue
import Transport.Proofs.Segment.Layout
import Transport.Proofs.Segment.Overlap

/-!
# Windows of a Segment

A segment of some slots beside the segment of all slots. Where both hold the same
instruction, their ops have the same dialogues; they lead to the same instruction,
but not to the same op: the ops of the window are counted from its first slot, a
jump inside the whole may lead out of the window, and behind the last slot of the
window there is another one of the whole.

Nothing is said about when the two were compiled. Slots may differ, and only those
that a run gets to have to be the same.

## Main definitions

* `Segment.part`: The segment of the slots from one index up to another.
* `Segment.Touches`: A word at an offset reaches into a slot.
* `Segment.Beside`: A run of the whole and a run of a window are at the same
  instruction, or the run of the window has left for it.

## Theorems

* `getElem?_ops_part`: The ops of a part.
* `hit_part_iff`: Which stores hit a slot of a part.
* `mirrors_opOf`: Ops of the same instruction have the same dialogue.
* `mirrors_step_part`: Steps of whole and window at the same instruction.
-/

namespace Transport

namespace Segment

/-- The segment of the slots from an index up to another one. -/
def part (registry : Registry) (options : Options) (image : Ram) (first last : Nat) : Segment :=
  layout registry options image (offsetOf 0 first) (offsetOf 0 last)

/-! ## Offsets -/

theorem toNat_offsetOf_zero {index : Nat} (reach : 8 * index < 0x100000000) :
    (offsetOf 0 index).toNat = 8 * index := by
  rw [toNat_offsetOf (by simpa using reach)]
  exact Nat.zero_add _

theorem offsetOf_offsetOf (first index : Nat) :
    offsetOf (offsetOf 0 first) index = offsetOf 0 (first + index) := by
  rw [← UInt32.toNat_inj]
  simp only [offsetOf, instructionSize, UInt32.toNat_add, UInt32.toNat_ofNat']
  change ((0 + _) % 0x100000000 + _) % 0x100000000 = (0 + _) % 0x100000000
  omega

theorem countOf_offsetOf {first last : Nat} (reach : 8 * last < 0x100000000)
    (ordered : first ≤ last) :
    countOf (offsetOf 0 first) (offsetOf 0 last) = last - first := by
  rw [countOf_eq, toNat_offsetOf_zero reach, toNat_offsetOf_zero (by omega)]
  omega

/-- The slots that RAM has room for are a valid range. -/
theorem validRange_offsetOf {ram : Ram} {first last : Nat} (reach : 8 * last < 0x100000000)
    (ordered : first ≤ last) (fits : 8 * last ≤ ram.size) :
    validRange ram (offsetOf 0 first) (offsetOf 0 last) = true := by
  rw [validRange_iff, toNat_offsetOf_zero reach, toNat_offsetOf_zero (by omega)]
  omega

/-! ## Ops -/

section Part

variable (registry : Registry) (options : Options) (image : Ram) {first last : Nat}

theorem size_part (reach : 8 * last < 0x100000000) (ordered : first ≤ last) :
    (part registry options image first last).size = last - first := by
  rw [part, size_layout, countOf_offsetOf reach ordered]

theorem size_ops_part (reach : 8 * last < 0x100000000) (ordered : first ≤ last) :
    (part registry options image first last).ops.size = (last - first) * options.stride := by
  rw [part, size_ops_layout, countOf_offsetOf reach ordered]

/-- What the instruction at an index is compiled into, in a part. -/
def partOp (first last index : Nat) : Op :=
  opOf (targetOf (offsetOf 0 first) (offsetOf 0 last) options.stride)
    (slotAt registry registry.slotIds image (offsetOf 0 index))

/-- The ops of a part are those of its slots. -/
theorem getElem?_ops_part (reach : 8 * last < 0x100000000) (ordered : first ≤ last) {j : Nat}
    (inside : j < (last - first) * options.stride) :
    (part registry options image first last).ops[j]? =
      some (if options.singleStep && j % 2 = 0 then
          .suspend (offsetOf 0 (first + j / options.stride))
        else partOp registry options image first last (first + j / options.stride)) := by
  have hcount := countOf_offsetOf reach ordered
  rw [part, getElem?_ops_layout _ _ _ (by rw [hcount]; exact inside), opFor, offsetOf_offsetOf]
  rfl

/-- Behind the last op of a part, control leaves for the slot behind the part. -/
theorem step_behind_part (reach : 8 * last < 0x100000000) (ordered : first ≤ last)
    (context : Context) :
    (part registry options image first last).step ((last - first) * options.stride) context =
      .done (.ok (.ended (.left (offsetOf 0 last))), context) := by
  refine step_behind (Array.getElem?_eq_none_iff.mpr (Nat.le_of_eq ?_))
  exact size_ops_part registry options image reach ordered

end Part

/-! ## Stores -/

/-- A word at an offset reaches into the slot at an index. -/
def Touches (offset : Word) (index : Nat) : Prop :=
  8 * index < offset.toNat + 4 ∧ offset.toNat < 8 * index + 8

/-- A store of a word hits a slot of a part exactly if it reaches into the slot and
    the slot was compiled. -/
theorem hit_part_iff (registry : Registry) (options : Options) (image : Ram) {first last : Nat}
    (reach : 8 * last < 0x100000000) (ordered : first ≤ last) {offset : Word} {j : Nat} :
    (part registry options image first last).codeMap.Hit offset.toNat (offset.toNat + 4) j ↔
      first + j < last ∧ ¬ Untranslated registry image (offsetOf 0 (first + j)) ∧
        Touches offset (first + j) := by
  -- The layout speaks of a range of offsets. Here it is put in terms of slots of RAM.
  have hslot : (part registry options image first last).codeMap.slotStart j = 8 * (first + j) := by
    change (offsetOf 0 first).toNat + 8 * j = _
    rw [toNat_offsetOf_zero (by omega)]
    omega
  have hcompiled := @getElem?_compiled_layout registry options image (offsetOf 0 first)
    (offsetOf 0 last) j
  have htrap := @isTrap_opFor_iff registry options image (offsetOf 0 first) (offsetOf 0 last) j
  rw [countOf_offsetOf reach ordered] at hcompiled
  rw [offsetOf_offsetOf] at htrap
  unfold CodeMap.Hit Touches
  rw [hslot, part, hcompiled, ← htrap, Bool.not_eq_true, instructionSize]
  by_cases inside : j < last - first
  · rw [if_pos inside, Option.some.injEq, Bool.not_eq_true']
    constructor
    · rintro ⟨compiled, touched⟩
      exact ⟨by omega, compiled, touched⟩
    · rintro ⟨_, compiled, touched⟩
      exact ⟨compiled, touched⟩
  · rw [if_neg inside]
    constructor
    · rintro ⟨compiled, _⟩
      exact absurd compiled (by simp only [reduceCtorEq, not_false_eq_true])
    · rintro ⟨within, _⟩
      omega

/-- A store leaves the slots as they are that it does not reach into. -/
theorem same_put_of_untouched {ram : Ram} {offset : Word} (value : Word)
    (fits : ram.holds offset 4 = true) {index : Nat} (untouched : ¬ Touches offset index) :
    Ram.Same ram (ram.put offset (Word.bytes value)) (8 * index) 8 := by
  refine Ram.same_symm (Ram.same_put fits ?_)
  unfold Touches at untouched
  rw [Word.length_bytes]
  omega

/-! ## Turns -/

/-- What the ops of an instruction lead to in two segments. A jump leads to the
    same target, wherever that is in each of them. -/
inductive Turns (start stop start' stop' : Word) (stride : Nat) : Flow → Flow → Prop
  | next : Turns start stop start' stop' stride .next .next
  /-- A jump goes to an aligned target. -/
  | jump {target : Word} (aligned : target % 8 = 0) :
      Turns start stop start' stop' stride (.jump (targetOf start stop stride target))
        (.jump (targetOf start' stop' stride target))
  | halt : Turns start stop start' stop' stride .halt .halt

/-- The ops of an instruction have the same dialogue in all segments. -/
theorem mirrors_opOf (start stop start' stop' : Word) (stride : Nat) (registry : Registry)
    (image : Ram) (offset : Word) :
    Talk.Mirrors Eq (Turns start stop start' stop' stride)
      (opOf (targetOf start stop stride) (slotAt registry registry.slotIds image offset)).perform
      (opOf (targetOf start' stop' stride) (slotAt registry registry.slotIds image offset)).perform := by
  -- Both ops come of the same slot, and differ in the targets of jumps alone.
  have haligned : ∀ target, (slotAt registry registry.slotIds image offset).shape =
      .branch target → target % 8 = 0 := fun _ h => (instructionAt_of_branch h).2
  generalize slotAt registry registry.slotIds image offset = slot at haligned ⊢
  unfold opOf
  cases hshape : slot.shape with
  | move load store =>
      simp only [Op.perform]
      refine Talk.mirrors_bind (Talk.mirrors_refl _) ?_
      rintro value _ rfl
      refine Talk.mirrors_bind (Talk.mirrors_refl _) ?_
      rintro effect _ rfl
      cases effect with
      | proceed => exact Talk.mirrors_pure Turns.next
      | halt => exact Talk.mirrors_pure Turns.halt
  | test load kind =>
      simp only [Op.perform]
      refine Talk.mirrors_bind (Talk.mirrors_refl _) ?_
      rintro value _ rfl
      refine Talk.mirrors_bind (Talk.mirrors_refl _) ?_
      rintro _ _ rfl
      exact Talk.mirrors_pure Turns.next
  | branch target =>
      simp only [Op.perform]
      refine Talk.mirrors_bind Talk.mirrors_get ?_
      rintro context _ rfl
      refine Talk.mirrors_bind (Talk.mirrors_refl _) ?_
      rintro _ _ rfl
      cases context.condition with
      | true => exact Talk.mirrors_pure (Turns.jump (haligned target hshape))
      | false => exact Talk.mirrors_pure Turns.next
  | trap cause =>
      simp only [Op.perform]
      refine Talk.mirrors_bind (Talk.mirrors_refl _) ?_
      rintro first _ rfl
      cases first with
      | error trap => exact Talk.mirrors_throw trap
      | ok currentSource =>
          refine Talk.mirrors_bind (Talk.mirrors_refl _) ?_
          rintro second _ rfl
          cases second <;> exact Talk.mirrors_throw _

/-- A suspension point leads to the next op, in all segments. -/
theorem mirrors_suspend_op (start stop start' stop' : Word) (stride : Nat) (offset : Word) :
    Talk.Mirrors Eq (Turns start stop start' stop' stride) (Op.suspend offset).perform
      (Op.suspend offset).perform := by
  simp only [Op.perform]
  refine Talk.mirrors_bind (Talk.mirrors_refl _) ?_
  rintro answer _ rfl
  cases answer with
  | error trap => exact Talk.mirrors_throw trap
  | ok _ => exact Talk.mirrors_pure Turns.next

/-! ## Whole and window -/

/-- A run of the segment of all `count` slots and a run of the part from `first`
    to `last` are at the same op of the same instruction; or the run of the part
    has left, for another slot or for a place where no slot is. In the middle of an
    instruction, the instruction is the same in both images. -/
inductive Beside (registry : Registry) (image image' : Ram) (stride count first last : Nat) :
    Progress → Progress → Prop
  /-- At the same op, or behind the last one of the part. -/
  | standing {j : Nat} (inside : j ≤ (last - first) * stride)
      (middle : j % stride ≠ 0 →
        slotAt registry registry.slotIds image (offsetOf 0 (first + j / stride)) =
          slotAt registry registry.slotIds image' (offsetOf 0 (first + j / stride))) :
      Beside registry image image' stride count first last (.standing (first * stride + j))
        (.standing j)
  /-- The part was left for a slot. -/
  | outside {index : Nat} (inside : index < count) (beyond : ¬ (first ≤ index ∧ index < last)) :
      Beside registry image image' stride count first last (.standing (index * stride))
        (.ended (.left (offsetOf 0 index)))
  /-- Both ended, and not at a slot. -/
  | ended {exit : Exit} (far : ∀ target, exit = .left target → 8 * count ≤ target.toNat) :
      Beside registry image image' stride count first last (.ended exit) (.ended exit)

section Whole

variable {registry : Registry} {options : Options} {image image' : Ram} {count first last : Nat}

theorem div_eq_of_mod_ne_zero {j stride : Nat} (middle : (j + 1) % stride ≠ 0) :
    (j + 1) / stride = j / stride := by
  rw [Nat.succ_div, if_neg (fun divides => middle (Nat.mod_eq_zero_of_dvd divides)), Nat.add_zero]

/-- Aligned offsets below the last slot are those of slots. -/
theorem offsetOf_of_lt {target : Word} (aligned : target % 8 = 0) :
    offsetOf 0 (target.toNat / 8) = target := by
  have haligned : target.toNat % 8 = 0 := by
    rw [← UInt32.toNat_inj, UInt32.toNat_mod] at aligned
    exact aligned
  have hlt := target.toNat_lt
  rw [← UInt32.toNat_inj, toNat_offsetOf_zero (by omega)]
  omega

/-- Behind an op of the same instruction, whole and window are beside each other. -/
theorem beside_follow (reach : 8 * count < 0x100000000) (within : last ≤ count) {j : Nat}
    (inside : j < (last - first) * options.stride)
    (same : slotAt registry registry.slotIds image (offsetOf 0 (first + j / options.stride)) =
      slotAt registry registry.slotIds image' (offsetOf 0 (first + j / options.stride)))
    {flow flow' : Flow}
    (h : Turns (offsetOf 0 0) (offsetOf 0 count) (offsetOf 0 first) (offsetOf 0 last)
      options.stride flow flow') :
    Beside registry image image' options.stride count first last
      (follow (first * options.stride + j) flow) (follow j flow') := by
  cases h with
  | next =>
      refine Beside.standing (j := j + 1) inside fun middle => ?_
      -- The next op is of the same instruction, unless it begins one.
      have hsame := div_eq_of_mod_ne_zero middle
      rw [hsame]
      exact same
  | halt => exact Beside.ended fun _ => Exit.noConfusion
  | jump aligned =>
      rename_i target
      have hordered : first < last := by
        rcases Nat.lt_or_ge first last with ordered | empty
        · exact ordered
        · rw [Nat.sub_eq_zero_of_le empty, Nat.zero_mul] at inside
          exact absurd inside (Nat.not_lt_zero j)
      have hslot := offsetOf_of_lt aligned
      -- From here on offsets are compared as numbers.
      have hzero : (offsetOf 0 0).toNat = 0 := toNat_offsetOf_zero (by omega)
      have hcount := toNat_offsetOf_zero reach
      have hfirst : (offsetOf 0 first).toNat = 8 * first := toNat_offsetOf_zero (by omega)
      have hlast : (offsetOf 0 last).toNat = 8 * last := toNat_offsetOf_zero (by omega)
      simp only [targetOf, UInt32.le_iff_toNat_le, UInt32.lt_iff_toNat_lt]
      by_cases whole : target.toNat < (offsetOf 0 count).toNat
      · rw [if_pos ⟨by omega, whole⟩]
        have hindex : countOf (offsetOf 0 0) target = target.toNat / 8 := by
          rw [countOf_eq, hzero, Nat.sub_zero]
        by_cases window : (offsetOf 0 first).toNat ≤ target.toNat ∧
            target.toNat < (offsetOf 0 last).toNat
        · rw [if_pos window]
          -- The target is in the window, at an op counted from its first slot.
          have hindex' : countOf (offsetOf 0 first) target = target.toNat / 8 - first := by
            rw [countOf_eq, hfirst]
            omega
          have hsplit : target.toNat / 8 * options.stride =
              first * options.stride + (target.toNat / 8 - first) * options.stride := by
            rw [← Nat.add_mul]
            congr 1
            omega
          simp only [follow, hindex, hindex']
          rw [hsplit]
          refine Beside.standing (Nat.mul_le_mul_right _ (by omega)) fun middle => ?_
          exact absurd (Nat.mul_mod_left _ _) middle
        · rw [if_neg window]
          -- The target is a slot of the whole alone, for which the window is left.
          simp only [follow, hindex]
          have houtside : Beside registry image image' options.stride count first last
              (.standing (target.toNat / 8 * options.stride))
              (.ended (.left (offsetOf 0 (target.toNat / 8)))) :=
            Beside.outside (by omega) (by omega)
          rw [hslot] at houtside
          exact houtside
      · rw [if_neg (fun h => whole h.2), if_neg (by omega)]
        -- There is no slot at the target, which both leave for.
        refine Beside.ended fun target' left => ?_
        cases left
        omega

/-- One op of whole and window at the same instruction: the same dialogue, and
    beside each other behind it. -/
theorem mirrors_step_part (reach : 8 * count < 0x100000000) (within : last ≤ count) {j : Nat}
    (inside : j < (last - first) * options.stride)
    (same : slotAt registry registry.slotIds image (offsetOf 0 (first + j / options.stride)) =
      slotAt registry registry.slotIds image' (offsetOf 0 (first + j / options.stride))) :
    Talk.Mirrors Eq (Beside registry image image' options.stride count first last)
      ((part registry options image 0 count).step (first * options.stride + j))
      ((part registry options image' first last).step j) := by
  have hpos := options.stride_pos
  have hordered : first ≤ last := by
    rcases Nat.le_total first last with ordered | empty
    · exact ordered
    · rw [Nat.sub_eq_zero_of_le empty, Nat.zero_mul] at inside
      exact absurd inside (Nat.not_lt_zero j)
  have hinside : first * options.stride + j < (count - 0) * options.stride := by
    rw [Nat.sub_mul] at inside
    have := Nat.mul_le_mul_right options.stride within
    have := Nat.mul_le_mul_right options.stride hordered
    rw [Nat.sub_zero]
    omega
  have hdiv : (first * options.stride + j) / options.stride = first + j / options.stride := by
    rw [Nat.mul_comm, Nat.mul_add_div hpos]
  have hwhole := getElem?_ops_part registry options image reach (Nat.zero_le count) hinside
  have hwindow := getElem?_ops_part registry options image'
    (show 8 * last < 0x100000000 by omega) hordered inside
  rw [hdiv, Nat.zero_add] at hwhole
  -- Suspension points are at the same ops: the window begins behind whole instructions.
  have hparity : (options.singleStep && decide ((first * options.stride + j) % 2 = 0)) =
      (options.singleStep && decide (j % 2 = 0)) := by
    cases hstep : options.singleStep with
    | false => rfl
    | true =>
        rw [Options.stride_of_singleStep hstep, Bool.true_and, Bool.true_and, decide_eq_decide]
        omega
  rw [hparity] at hwhole
  simp only [step, hwhole, hwindow]
  refine Talk.mirrors_bind (R := Turns (offsetOf 0 0) (offsetOf 0 count) (offsetOf 0 first)
    (offsetOf 0 last) options.stride) ?_ ?_
  · by_cases suspends : (options.singleStep && decide (j % 2 = 0)) = true
    · rw [if_pos suspends, if_pos suspends]
      exact mirrors_suspend_op _ _ _ _ _ _
    · rw [if_neg suspends, if_neg suspends]
      unfold partOp
      rw [same]
      exact mirrors_opOf _ _ _ _ _ _ _ _
  · intro flow flow' turns
    exact Talk.mirrors_pure (beside_follow reach within inside same turns)

end Whole

end Segment

end Transport
