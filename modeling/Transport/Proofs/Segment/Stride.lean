import Transport.Proofs.Dialogue
import Transport.Proofs.Segment.Layout

/-!
# Segments With and Without Suspension Points

A range compiled for single-stepping has two ops for every instruction, a suspension
point and what the instruction itself is compiled into. Without, it has the second of
the two alone. The ops of an instruction then differ in nothing but the numbers of the
ops that jumps lead to, and these are doubled.

So there is no need of a relation between the two: whatever the plain segment is going
to do at an op, the other one is going to do at the second op of the same instruction,
up to a function that doubles the op in the result.

## Main definitions

* `Progress.doubled`: The same place in the segment with suspension points.
* `Segment.plain`, `Segment.stepped`: The two segments of a range.

## Theorems

* `compile_singleStep`: A range compiles with suspension points if it does without.
* `codeMap_stepped`: Both guard the same slots.
* `step_stepped_even`: The first op of an instruction only asks to pass.
* `step_stepped_odd`: The second op does what the instruction does.
-/

namespace Transport

/-- The same target where every instruction has two ops. -/
def Target.doubled : Target → Target
  | .inside op => .inside (2 * op)
  | .outside offset => .outside offset

/-- Where an op leads, if every instruction has two ops. -/
def Flow.doubled : Flow → Flow
  | .jump target => .jump target.doubled
  | .next => .next
  | .halt => .halt

/-- The same place where every instruction has two ops. -/
def Progress.doubled : Progress → Progress
  | .standing op => .standing (2 * op)
  | .ended exit => .ended exit

namespace Op

/-- The op with jumps to the same instructions, where each has two ops. -/
def doubled : Op → Op
  | .branch target => .branch target.doubled
  | op => op

/-- The op leads to the doubled target and does the same. -/
theorem perform_doubled (op : Op) : op.doubled.perform = Flow.doubled <$> op.perform := by
  -- Ops talk alike and differ in where they go: equal up to the first answer, and so on.
  cases op with
  | suspend offset =>
      simp only [doubled, perform, map_bind]
      refine congrArg _ (funext fun answer => ?_)
      cases answer <;> rfl
  | move offset load store =>
      simp only [doubled, perform, map_bind]
      refine congrArg _ (funext fun value => congrArg _ (funext fun effect => ?_))
      cases effect <;> rfl
  | test offset load kind =>
      simp only [doubled, perform, map_bind]
      rfl
  | branch target =>
      simp only [doubled, perform, map_bind]
      refine congrArg _ (funext fun context => congrArg _ (funext fun _ => ?_))
      cases context.condition <;> rfl
  | trap offset cause source destination =>
      simp only [doubled, perform, map_bind]
      refine congrArg _ (funext fun first => ?_)
      cases first with
      | error trap => rfl
      | ok currentSource =>
          simp only [map_bind]
          refine congrArg _ (funext fun second => ?_)
          cases second <;> rfl

end Op

namespace Segment

/-- The end of an op, if every instruction has two ops. -/
def doubledEnd (reached : Except Trap Progress × Context) : Except Trap Progress × Context :=
  (reached.1.map Progress.doubled, reached.2)

theorem follow_doubled (op : Nat) (flow : Flow) :
    follow (2 * op + 1) flow.doubled = (follow op flow).doubled := by
  rcases flow with _ | (target | offset) | _ <;> rfl

section Layout

variable {registry : Registry} {strict : Bool} {ram : Ram} {start stop : Word}

/-- The segment of a range without suspension points. -/
def plain (registry : Registry) (strict : Bool) (ram : Ram) (start stop : Word) : Segment :=
  layout registry ⟨strict, false⟩ ram start stop

/-- The segment of a range with a suspension point in front of every instruction. -/
def stepped (registry : Registry) (strict : Bool) (ram : Ram) (start stop : Word) : Segment :=
  layout registry ⟨strict, true⟩ ram start stop

/-- A range does not compile either way, and for the same reason, or it does. -/
theorem compile_singleStep (registry : Registry) (strict : Bool) (ram : Ram) (start stop : Word) :
    (∃ error, ∀ singleStep, compile registry ⟨strict, singleStep⟩ ram start stop = .error error) ∨
      ∀ singleStep, compile registry ⟨strict, singleStep⟩ ram start stop =
        .ok (layout registry ⟨strict, singleStep⟩ ram start stop) := by
  -- Neither the range nor what is refused depends on the suspension points.
  cases hplain : compile registry ⟨strict, false⟩ ram start stop with
  | error error =>
      have hreason := compile_eq_error_iff.mp hplain
      exact Or.inl ⟨error, fun singleStep => compile_eq_error_iff.mpr hreason⟩
  | ok segment =>
      rcases compile_eq_ok_iff.mp hplain with ⟨valid, clean, _⟩
      exact Or.inr fun singleStep => compile_eq_ok_iff.mpr ⟨valid, clean, rfl⟩

theorem opFor_stepped (registry : Registry) (strict : Bool) (ram : Ram) (start stop : Word)
    (index : Nat) : opFor registry ⟨strict, true⟩ ram start stop index =
      (opFor registry ⟨strict, false⟩ ram start stop index).doubled := by
  have htarget : ∀ target, targetOf start stop 2 target = (targetOf start stop 1 target).doubled := by
    intro target
    unfold targetOf
    split
    · rw [Target.doubled, Nat.mul_one, Nat.mul_comm]
    · rfl
  unfold opFor opOf
  cases (slotAt registry registry.slotIds ram (offsetOf start index)).shape with
  | branch target => exact congrArg Op.branch (htarget target)
  | move load store | test load test | trap cause => rfl

/-- Both segments guard the same slots. -/
theorem codeMap_stepped : (stepped registry strict ram start stop).codeMap =
    (plain registry strict ram start stop).codeMap := by
  have hcompiled : (stepped registry strict ram start stop).codeMap.compiled =
      (plain registry strict ram start stop).codeMap.compiled := by
    apply Array.ext_getElem?
    intro index
    -- Whether a slot is translated does not depend on how far ops are apart.
    have htrap : (opFor registry ⟨strict, true⟩ ram start stop index).isTrap =
        (opFor registry ⟨strict, false⟩ ram start stop index).isTrap := by
      rw [opFor_stepped]
      cases opFor registry ⟨strict, false⟩ ram start stop index <;> rfl
    rw [stepped, plain, getElem?_compiled_layout, getElem?_compiled_layout, htrap]
  exact congrArg (CodeMap.mk start) hcompiled

theorem enter_stepped (entry : Nat) : (stepped registry strict ram start stop).enter entry =
    ((plain registry strict ram start stop).enter entry).map (2 * ·) := by
  rcases Nat.lt_or_ge entry (countOf start stop) with inside | outside
  · rw [stepped, plain, enter_layout inside, enter_layout inside]
    exact congrArg Except.ok (by simp [Options.stride, Nat.mul_comm])
  · rw [stepped, plain, enter_layout_of_le outside, enter_layout_of_le outside]
    rfl

/-- What is left of a suspension point: nothing but to go on, or the refusal. -/
def behindPoint (index : Nat) (context : Context) :
    Except Trap Unit → Dialogue (Except Trap Progress × Context)
  | .ok () => .done (.ok (.standing (2 * index + 1)), context)
  | .error trap => .done (.error trap, context)

/-- The first op of an instruction asks to pass, and does nothing else. -/
theorem step_stepped_even {index : Nat} (inside : index < countOf start stop) (context : Context) :
    (stepped registry strict ram start stop).step (2 * index) context =
      .ask (.suspend (offsetOf start index)) (behindPoint index context) := by
  -- The even ops are the suspension points.
  have hop : (stepped registry strict ram start stop).ops[2 * index]? =
      some (.suspend (offsetOf start index)) := by
    have hinside : 2 * index < countOf start stop * Options.stride ⟨strict, true⟩ := by
      simp only [Options.stride, if_true]
      omega
    rw [stepped, getElem?_ops_layout _ _ _ hinside]
    simp [Options.stride]
  simp only [step, hop, Op.perform]
  refine congrArg (Dialogue.ask (.suspend (offsetOf start index))) (funext fun answer => ?_)
  cases answer <;> rfl

/-- The second op of an instruction does what the plain one does. -/
theorem step_stepped_odd {index : Nat} (inside : index < countOf start stop) (context : Context) :
    (stepped registry strict ram start stop).step (2 * index + 1) context =
      doubledEnd <$> (plain registry strict ram start stop).step index context := by
  have hplain : (plain registry strict ram start stop).ops[index]? =
      some (opFor registry ⟨strict, false⟩ ram start stop index) := by
    rw [plain, getElem?_ops_layout _ _ _ (by simpa [Options.stride] using inside)]
    simp [Options.stride]
  -- The op behind a point is the plain one with its targets moved.
  have hstepped : (stepped registry strict ram start stop).ops[2 * index + 1]? =
      some (opFor registry ⟨strict, false⟩ ram start stop index).doubled := by
    have hinside : 2 * index + 1 < countOf start stop * Options.stride ⟨strict, true⟩ := by
      simp only [Options.stride, if_true]
      omega
    rw [stepped, getElem?_ops_layout _ _ _ hinside, ← opFor_stepped]
    have hindex : (2 * index + 1) / 2 = index := by omega
    simp [Options.stride, hindex]
  have hstep : (stepped registry strict ram start stop).step (2 * index + 1) =
      Progress.doubled <$> (plain registry strict ram start stop).step index := by
    simp only [step, hplain, hstepped, Op.perform_doubled, bind_pure_comp, Functor.map_map,
      follow_doubled]
  rw [hstep]
  exact Talk.map_apply _ _ _

/-- Behind the last instruction both leave at the end of the range. -/
theorem step_stepped_of_le {index : Nat} (outside : countOf start stop ≤ index)
    (context : Context) :
    (stepped registry strict ram start stop).step (2 * index) context =
      doubledEnd <$> (plain registry strict ram start stop).step index context := by
  have hplain : (plain registry strict ram start stop).ops[index]? = none := by
    rw [Array.getElem?_eq_none_iff, plain, size_ops_layout]
    simpa [Options.stride] using outside
  have hstepped : (stepped registry strict ram start stop).ops[2 * index]? = none := by
    rw [Array.getElem?_eq_none_iff, stepped, size_ops_layout]
    simp only [Options.stride, if_true]
    omega
  rw [step_behind hplain, step_behind hstepped]
  rfl

end Layout

end Segment

end Transport
