import Transport.Segment.CodeMap

/-!
# Stores and Compiled Slots

Which compiled slot a range of RAM reaches into. The code map is searched from
the first slot that can end behind the beginning of the range up to the last one
that begins before its end, so nothing that lies outside is looked at, and
nothing that could be hit is passed over.

## Main definitions

* `CodeMap.Hit`: A range reaches into a compiled slot.

## Theorems

* `overlapFrom_eq_some`, `overlapFrom_eq_none`: What a search finds.
* `overlap?_eq_some_first`: A slot that is found is the first that is compiled and hit.
* `overlap?_eq_none_iff`: Nothing is found exactly if no compiled slot is hit.
* `overlap?_eq_some_iff`: What is found is the first compiled slot that is hit.
-/

namespace Transport

namespace CodeMap

/-- The slot at an index is compiled, and a range reaches into it: the slot
    begins before the end of the range and ends behind its beginning. -/
def Hit (map : CodeMap) (offset stop index : Nat) : Prop :=
  map.compiled[index]? = some true ∧ map.slotStart index < stop ∧
    offset < map.slotStart index + instructionSize

theorem slotStart_mono (map : CodeMap) {i j : Nat} (h : i ≤ j) :
    map.slotStart i ≤ map.slotStart j := by
  unfold slotStart
  exact Nat.add_le_add_left (Nat.mul_le_mul_left _ h) _

/-- A slot that does not end a search is not compiled or not hit. -/
theorem not_hit_of_passed {map : CodeMap} {offset stop index : Nat} {entry : Bool}
    (there : map.compiled[index]? = some entry)
    (passed : ¬(entry && decide (offset < map.slotStart index + instructionSize)) = true) :
    ¬map.Hit offset stop index := by
  rintro ⟨compiled, _, reached⟩
  rw [there, Option.some.injEq] at compiled
  rw [compiled, decide_eq_true reached] at passed
  exact passed rfl

/-- A slot before the first one looked at ends before the range begins. -/
theorem le_of_hit {map : CodeMap} {offset stop index : Nat} (hit : map.Hit offset stop index) :
    (offset - map.start.toNat) / instructionSize ≤ index := by
  have hbehind := hit.2.2
  unfold slotStart at hbehind
  simp only [instructionSize] at hbehind ⊢
  omega

/-- A slot that a search finds is the first that is compiled and hit. -/
theorem overlapFrom_eq_some (map : CodeMap) (offset stop : Nat) {slot : Word} (index : Nat)
    (found : map.overlapFrom offset stop index = some slot) :
    ∃ i, slot = UInt32.ofNat (map.slotStart i) ∧ map.Hit offset stop i ∧
      ∀ j, index ≤ j → j < i → ¬map.Hit offset stop j := by
  -- The scan is at a slot that is hit, one that is passed, one behind the range, or at the end.
  fun_induction overlapFrom map offset stop index with
  | case1 index inside slotStart before compiled =>
      rw [Bool.and_eq_true, decide_eq_true_eq] at compiled
      refine ⟨index, (Option.some.inj found).symm, ⟨?_, before, compiled.2⟩, by omega⟩
      rw [Array.getElem?_eq_getElem inside, compiled.1]
  | case2 index inside slotStart before compiled ih =>
      rcases ih found with ⟨i, hslot, hit, first⟩
      refine ⟨i, hslot, hit, fun j hj earlier => ?_⟩
      by_cases here : j = index
      · subst here
        exact not_hit_of_passed (Array.getElem?_eq_getElem inside) compiled
      · exact first j (by omega) earlier
  | case3 index inside slotStart before =>
      exact absurd found (by simp only [reduceCtorEq, not_false_eq_true])
  | case4 index outside =>
      exact absurd found (by simp only [reduceCtorEq, not_false_eq_true])

/-- A search that finds nothing passed over no slot that is hit. -/
theorem overlapFrom_eq_none (map : CodeMap) (offset stop index : Nat)
    (nothing : map.overlapFrom offset stop index = none) :
    ∀ i, index ≤ i → ¬ map.Hit offset stop i := by
  fun_induction overlapFrom map offset stop index with
  | case1 index inside slotStart before compiled =>
      exact absurd nothing (by simp only [reduceCtorEq, not_false_eq_true])
  | case2 index inside slotStart before compiled ih =>
      intro i hi hit
      by_cases here : i = index
      · subst here
        exact not_hit_of_passed (Array.getElem?_eq_getElem inside) compiled hit
      · exact ih nothing i (by omega) hit
  | case3 index inside slotStart before =>
      -- The slots from here on begin behind the range.
      intro i hi hit
      exact before (Nat.lt_of_le_of_lt (map.slotStart_mono hi) hit.2.1)
  | case4 index outside =>
      intro i hi hit
      have hget := hit.1
      rw [Array.getElem?_eq_none (by omega)] at hget
      exact absurd hget (by simp only [reduceCtorEq, not_false_eq_true])

/-- A slot that a range is found to reach into is the first that is compiled and hit. -/
theorem overlap?_eq_some_first {map : CodeMap} {offset : Word} {length : Nat} {slot : Word}
    (found : map.overlap? offset length = some slot) :
    ∃ i, slot = UInt32.ofNat (map.slotStart i) ∧
      map.Hit offset.toNat (offset.toNat + length) i ∧
      ∀ j, j < i → ¬map.Hit offset.toNat (offset.toNat + length) j := by
  rcases overlapFrom_eq_some map _ _ _ found with ⟨i, hslot, hit, first⟩
  exact ⟨i, hslot, hit, fun j earlier other => first j (le_of_hit other) earlier other⟩

/-- A slot that a range is found to reach into is compiled and hit. -/
theorem overlap?_eq_some {map : CodeMap} {offset : Word} {length : Nat} {slot : Word}
    (found : map.overlap? offset length = some slot) :
    ∃ i, slot = UInt32.ofNat (map.slotStart i) ∧
      map.Hit offset.toNat (offset.toNat + length) i := by
  rcases overlap?_eq_some_first found with ⟨i, hslot, hit, _⟩
  exact ⟨i, hslot, hit⟩

/-- Nothing is found exactly if no compiled slot is hit. -/
theorem overlap?_eq_none_iff {map : CodeMap} {offset : Word} {length : Nat} :
    map.overlap? offset length = none ↔
      ∀ i, ¬ map.Hit offset.toNat (offset.toNat + length) i := by
  constructor
  · intro nothing i hit
    exact overlapFrom_eq_none map _ _ _ nothing i (le_of_hit hit) hit
  · intro clear
    cases hfound : map.overlap? offset length with
    | none => rfl
    | some slot =>
        rcases overlap?_eq_some hfound with ⟨i, _, hit⟩
        exact absurd hit (clear i)

/-- The slot that is found is the first that is compiled and hit, and it is found. -/
theorem overlap?_eq_some_iff {map : CodeMap} {offset : Word} {length : Nat} {slot : Word} :
    map.overlap? offset length = some slot ↔ ∃ i, slot = UInt32.ofNat (map.slotStart i) ∧
      map.Hit offset.toNat (offset.toNat + length) i ∧
      ∀ j, j < i → ¬map.Hit offset.toNat (offset.toNat + length) j := by
  constructor
  · exact overlap?_eq_some_first
  · rintro ⟨i, rfl, hit, first⟩
    cases hfound : map.overlap? offset length with
    | none => exact absurd hit (overlap?_eq_none_iff.mp hfound i)
    | some slot =>
        rcases overlap?_eq_some_first hfound with ⟨i', rfl, hit', first'⟩
        -- Neither of two first slots is before the other.
        have same : i' = i := by
          rcases Nat.lt_trichotomy i' i with before | same | behind
          · exact absurd hit' (first i' before)
          · exact same
          · exact absurd hit (first' i behind)
        rw [same]

end CodeMap

end Transport
