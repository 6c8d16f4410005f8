import Transport.Proofs.Segment.Refinement

/-!
# Strict and Lenient Compilation

A strict compilation refuses a range for the first instruction that does not compile; a
lenient one puts a trap in its place, which remembers the obstacle. The two are made at
different times and from different data, the one from an offset and an obstacle at hand,
the other from what an op has kept, but they tell the same story: the error of a strict
compilation is the one that the first trap of the lenient segment raises, if its
instruction is still what it was when it is reached.

Where no trap is put there is no difference at all. The tables of a segment depend on how
many ops an instruction has, and not on how much the compilation put up with.

## Main definitions

* `Segment.FirstTrap`: The trap of the lowest offset.
* `Segment.TrapsAt`: Runs that come to an op end in a trap, if the host has certain words
  there.

## Theorems

* `trapsAt_of_op`: A trap op ends runs by what the host has at its offset.
* `forall_isTrap_iff`: A segment has no trap if all instructions of its range compile.
* `strict_agrees_with_lenient`: What a strict compilation says of a range is what the
  lenient segment holds.
-/

namespace Transport

universe u

namespace Segment

/-- An op is a trap, and there is none of a lower offset. -/
def FirstTrap (segment : Segment) (op : Nat) (offset : Word) (cause : Obstacle)
    (words : Word × Word) : Prop :=
  segment.ops[op]? = some (.trap offset cause words.1 words.2) ∧
    ∀ other cause' source destination, Op.trap other cause' source destination ∈ segment.ops →
      offset ≤ other

/-- Every run that comes to an op, from whichever op, on whichever host and after however
    many ops, ends in a trap there, if the host reads two words at an offset. -/
def TrapsAt (segment : Segment) (op : Nat) (offset : Word) (words : Word × Word) (trap : Trap) :
    Prop :=
  ∀ (η : Type u) (host : Host η) (first count : Nat) (context context' : Context)
    (state arrived halfway behind : η),
    (segment.proceedFor count (.standing first) context).converse host state =
      ((.ok (.standing op), context'), arrived) →
    host.answer (.readWord offset) arrived = (.ok words.1, halfway) →
    host.answer (.readWord (offset + 4)) halfway = (.ok words.2, behind) →
    segment.runFor host (count + 1) first context state = (some (.error trap), context', behind)

/-- A trap op ends runs by what the host has at its offset. -/
theorem trapsAt_of_op {segment : Segment} {op : Nat} {offset : Word} {cause : Obstacle}
    {compiled : Word × Word}
    (hop : segment.ops[op]? = some (.trap offset cause compiled.1 compiled.2))
    (words : Word × Word) :
    segment.TrapsAt op offset words (Op.trapOf offset cause compiled words) := by
  intro η host first count context context' state arrived halfway behind reached hsource
    hdestination
  have hlast : segment.proceedFor 1 (.standing op) = segment.step op := by
    simp only [proceedFor, proceed, bind_pure]
  rw [runFor_eq, proceedFor_add, Talk.bind_apply, Dialogue.converse_bind, reached]
  simp only [hlast, step_trap hop, Dialogue.converse, hsource, hdestination, ending?]

section Layout

variable {registry : Registry} {options : Options} {ram : Ram} {start stop : Word}

/-- A segment has no trap if all instructions of its range compile. -/
theorem forall_isTrap_iff :
    (∀ op ∈ (layout registry options ram start stop).ops, op.isTrap = false) ↔
      ∀ index, index < countOf start stop →
        slotError? (slotAt registry registry.slotIds ram (offsetOf start index)) = none := by
  constructor
  · intro clear index inside
    have hfor := clear _ (mem_ops_layout_iff.mpr ⟨index, inside, Or.inl rfl⟩)
    rw [← Bool.not_eq_true, isTrap_opFor_iff] at hfor
    exact Classical.not_not.mp hfor
  · intro compiles op member
    -- A suspension point is no trap.
    rcases mem_ops_layout_iff.mp member with ⟨index, inside, rfl | ⟨_, rfl⟩⟩
    · rw [← Bool.not_eq_true, isTrap_opFor_iff]
      exact fun untranslated => untranslated (compiles index inside)
    · rfl

/-- The first instruction of a range that does not compile has become the first trap. -/
theorem firstTrap_layout (valid : validRange ram start stop = true) {index : Nat}
    (inside : index < countOf start stop) {cause : Obstacle}
    (hshape : (slotAt registry registry.slotIds ram (offsetOf start index)).shape = .trap cause)
    (first : ∀ before, before < index →
      slotError? (slotAt registry registry.slotIds ram (offsetOf start before)) = none) :
    (layout registry options ram start stop).FirstTrap
      (index * options.stride + (options.stride - 1)) (offsetOf start index) cause
      (wordsAt ram (offsetOf start index)) := by
  have hfor := (@opFor_eq_trap_iff registry options ram start stop index _ cause _ _).mpr
    ⟨rfl, hshape, rfl⟩
  refine ⟨(getElem?_ops_last inside).trans (congrArg some hfor), ?_⟩
  intro other cause' source destination member
  rcases mem_ops_layout_iff.mp member with ⟨index', inside', hop | ⟨_, hop⟩⟩
  · rcases opFor_eq_trap_iff.mp hop.symm with ⟨rfl, hshape', _⟩
    have herror := slotError?_eq_some_iff.mpr ⟨cause', hshape', rfl⟩
    -- A trap of a lower offset would be that of an instruction before the first.
    have behind : ¬index' < index := by
      intro before
      rw [first index' before] at herror
      exact absurd herror (by simp only [reduceCtorEq, not_false_eq_true])
    rw [UInt32.le_iff_toNat_le, (toNat_offsetOf_of_lt valid inside).1,
      (toNat_offsetOf_of_lt valid inside').1]
    omega
  · exact absurd hop (by simp only [reduceCtorEq, not_false_eq_true])

end Layout

/-- Strict and lenient compilation agree on every range, with suspension points or without.
    Both find the range invalid, or the lenient compilation makes a segment of it. Then the
    strict one does exactly if that segment has no trap, and makes the same tables. If it
    has traps, then the strict error is that of the one of the lowest offset; runs of the
    lenient segment that come to this trap raise the same error, if they find the
    instruction there as it was, and otherwise report that it has changed. -/
theorem strict_agrees_with_lenient (registry : Registry) (ram : Ram) (start stop : Word)
    (singleStep : Bool) :
    (∀ strict, compile registry ⟨strict, singleStep⟩ ram start stop =
      .error (.invalidRange start stop ram.size)) ∨
    ∃ lenient, compile registry ⟨false, singleStep⟩ ram start stop = .ok lenient ∧
      ((∃ segment, compile registry ⟨true, singleStep⟩ ram start stop = .ok segment) ↔
        ∀ op ∈ lenient.ops, op.isTrap = false) ∧
      (∀ segment, compile registry ⟨true, singleStep⟩ ram start stop = .ok segment →
        segment.start = lenient.start ∧ segment.stop = lenient.stop ∧
          segment.entries = lenient.entries ∧ segment.ops = lenient.ops) ∧
      ((∃ op ∈ lenient.ops, op.isTrap = true) →
        ∃ op offset cause, lenient.FirstTrap op offset cause (wordsAt ram offset) ∧
          compile registry ⟨true, singleStep⟩ ram start stop = .error (cause.errorAt offset) ∧
          lenient.TrapsAt op offset (wordsAt ram offset) (.uncompiled (cause.errorAt offset)) ∧
          ∀ words, words ≠ wordsAt ram offset →
            lenient.TrapsAt op offset words (.selfModifyingCode offset)) := by
  -- The range decides first, and alike for both. A strict compilation can fail at a slot besides.
  by_cases valid : validRange ram start stop = true
  · have hlenient : compile registry ⟨false, singleStep⟩ ram start stop =
        .ok (layout registry ⟨false, singleStep⟩ ram start stop) :=
      compile_eq_ok_iff.mpr ⟨valid, fun strict => absurd strict Bool.false_ne_true, rfl⟩
    have haccepted : (∃ segment, compile registry ⟨true, singleStep⟩ ram start stop = .ok segment) ↔
        ∀ op ∈ (layout registry ⟨false, singleStep⟩ ram start stop).ops, op.isTrap = false := by
      simp only [compile_eq_ok_iff, valid, forall_const, true_and, exists_and_left, exists_eq,
        and_true, forall_isTrap_iff]
    refine Or.inr ⟨_, hlenient, haccepted, ?_, ?_⟩
    · intro segment hstrict
      rcases compile_eq_ok_iff.mp hstrict with ⟨_, _, rfl⟩
      exact ⟨rfl, rfl, rfl, rfl⟩
    · rintro ⟨trapped, member, htrap⟩
      cases hstrict : compile registry ⟨true, singleStep⟩ ram start stop with
      | ok segment =>
          rw [haccepted.mp ⟨segment, hstrict⟩ trapped member] at htrap
          exact absurd htrap Bool.false_ne_true
      | error error =>
          rcases compile_eq_error_iff.mp hstrict with ⟨invalid, _⟩ | ⟨_, _, index, inside, herror, first⟩
          · rw [valid] at invalid
            exact absurd invalid.symm Bool.false_ne_true
          · rcases slotError?_eq_some_iff.mp herror with ⟨cause, hshape, rfl⟩
            have htraps := @firstTrap_layout registry ⟨false, singleStep⟩ ram start stop valid index
              inside cause hshape first
            -- The words compiled from raise the strict error, any others say they were changed.
            refine ⟨_, _, cause, htraps, rfl, ?_, fun words changed => ?_⟩
            · have hraised := trapsAt_of_op htraps.1 (wordsAt ram (offsetOf start index))
              rwa [Op.trapOf, if_pos rfl] at hraised
            · have hraised := trapsAt_of_op htraps.1 words
              rwa [Op.trapOf, if_neg changed] at hraised
  · exact Or.inl fun strict => compile_eq_error_iff.mpr
      (Or.inl ⟨Bool.not_eq_true _ ▸ valid, rfl⟩)

end Segment

end Transport
