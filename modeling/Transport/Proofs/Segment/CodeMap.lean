import Transport.Proofs.Machine.Guards
import Transport.Proofs.Segment.Layout
import Transport.Registry.Standard

/-!
# What Code Maps Know

The code map of a segment is made from the ops, and it is asked about offsets and
ranges of RAM. It knows exactly the slots that became something other than a trap: a
slot begins at an offset or it does not, and a range that has bytes meets a slot if the
two have one in common.

A range without bytes is another matter. It has no byte in common with anything, but the
search only compares its ends with those of a slot, and between the two ends of a slot
it finds that slot. So nothing can be copied, not even no bytes at all, to an offset
that lies inside a compiled slot; at the beginning of one, it can.

## Main definitions

* `Segment.HasCodeAt`: An instruction that compiled begins at an offset.
* `Segment.Meets`: A slot and a range have a byte in common.
* `Segment.Straddles`: What the search asks of a slot and a range.

## Theorems

* `hasCodeAt_layout_iff`: The slots with code of a compiled range.
* `isCompiled_layout_iff`: The map knows at which offsets they begin.
* `overlap?_layout_eq_some_iff`: The search finds the first of them that straddles.
* `meets_iff`: Ranges with bytes meet the slots that they straddle.
* `codeMap_knows`: All of it, for every segment that was compiled.
-/

namespace Transport

namespace Segment

/-- An instruction of the segment begins at the offset, and it is none of those that
    became a trap. -/
def HasCodeAt (segment : Segment) (offset : Word) : Prop :=
  (∃ index, index < segment.size ∧ offset.toNat = segment.start.toNat + 8 * index) ∧
    ∀ cause source destination, Op.trap offset cause source destination ∉ segment.ops

/-- The slot at an offset and a range have a byte in common. -/
def Meets (slot offset : Word) (length : Nat) : Prop :=
  ∃ byte, (slot.toNat ≤ byte ∧ byte < slot.toNat + 8) ∧
    offset.toNat ≤ byte ∧ byte < offset.toNat + length

/-- The slot at an offset begins before the end of a range, and ends behind its
    beginning. -/
def Straddles (slot offset : Word) (length : Nat) : Prop :=
  slot.toNat < offset.toNat + length ∧ offset.toNat < slot.toNat + 8

/-- Ranges that have bytes meet the slots that they straddle. -/
theorem meets_iff {slot offset : Word} {length : Nat} :
    Meets slot offset length ↔ 0 < length ∧ Straddles slot offset length := by
  unfold Meets Straddles
  constructor
  · rintro ⟨byte, inSlot, inRange⟩
    omega
  · rintro ⟨some, before, behind⟩
    -- The later of the two beginnings belongs to both.
    exact ⟨max slot.toNat offset.toNat, by omega, by omega⟩

section Layout

variable {registry : Registry} {options : Options} {ram : Ram} {start stop : Word}

/-- The slots with code of a compiled range are those whose op is no trap. -/
theorem hasCodeAt_layout_iff (valid : validRange ram start stop = true) {offset : Word} :
    (layout registry options ram start stop).HasCodeAt offset ↔
      ∃ index, index < countOf start stop ∧ offset = offsetOf start index ∧
        (opFor registry options ram start stop index).isTrap = false := by
  unfold HasCodeAt
  rw [size_layout]
  constructor
  · rintro ⟨⟨index, inside, hoffset⟩, code⟩
    have there : offset = offsetOf start index := by
      rw [← UInt32.toNat_inj, (toNat_offsetOf_of_lt valid inside).1]
      exact hoffset
    refine ⟨index, inside, there, ?_⟩
    -- A trap at this index is among the ops, with this very offset.
    cases hop : opFor registry options ram start stop index with
    | trap offset' cause source destination =>
        have hsame := (opFor_eq_trap_iff.mp hop).1
        rw [← there] at hsame
        subst hsame
        exact absurd (mem_ops_layout_iff.mpr ⟨index, inside, Or.inl hop.symm⟩)
          (code cause source destination)
    | suspend | move | test | branch => rfl
  · rintro ⟨index, inside, rfl, code⟩
    have hoffset := (toNat_offsetOf_of_lt valid inside).1
    refine ⟨⟨index, inside, hoffset⟩, fun cause source destination member => ?_⟩
    rcases mem_ops_layout_iff.mp member with ⟨other, hother, hop | ⟨_, hop⟩⟩
    · -- The trap is that of the slot at its offset.
      have hsame := congrArg UInt32.toNat (opFor_eq_trap_iff.mp hop.symm).1
      rw [hoffset, (toNat_offsetOf_of_lt valid hother).1] at hsame
      have same : other = index := by omega
      rw [← same, ← hop] at code
      exact absurd code (by simp only [Op.isTrap, Bool.true_eq_false, not_false_eq_true])
    · exact absurd hop (by simp only [reduceCtorEq, not_false_eq_true])

/-- The code map knows at which offsets slots with code begin. -/
theorem isCompiled_layout_iff (valid : validRange ram start stop = true) {offset : Word} :
    (layout registry options ram start stop).codeMap.isCompiled offset = true ↔
      (layout registry options ram start stop).HasCodeAt offset := by
  have hstart : (layout registry options ram start stop).codeMap.start = start := rfl
  rw [hasCodeAt_layout_iff valid]
  unfold CodeMap.isCompiled
  rw [hstart, getElem?_compiled_layout]
  simp only [Bool.and_eq_true, decide_eq_true_eq]
  constructor
  · -- An offset that counts as compiled is a whole number of slots behind the start.
    rintro ⟨⟨behind, whole⟩, code⟩
    rw [← UInt32.toNat_inj, UInt32.toNat_mod, UInt32.toNat_sub_of_le _ _ behind] at whole
    change (offset.toNat - start.toNat) % 8 = 0 at whole
    rw [UInt32.le_iff_toNat_le] at behind
    by_cases inside : (offset.toNat - start.toNat) / instructionSize < countOf start stop
    · rw [if_pos inside, Option.getD_some, Bool.not_eq_true'] at code
      refine ⟨_, inside, ?_, code⟩
      rw [← UInt32.toNat_inj, (toNat_offsetOf_of_lt valid inside).1, instructionSize]
      omega
    · rw [if_neg inside] at code
      exact absurd code (by simp only [Option.getD_none, Bool.false_eq_true, not_false_eq_true])
  · rintro ⟨index, inside, rfl, code⟩
    have hoffset := (toNat_offsetOf_of_lt valid inside).1
    have behind : start ≤ offsetOf start index := by
      rw [UInt32.le_iff_toNat_le]
      omega
    have hindex : ((offsetOf start index).toNat - start.toNat) / instructionSize = index := by
      simp only [instructionSize]
      omega
    refine ⟨⟨behind, ?_⟩, by rw [hindex, if_pos inside, code]; rfl⟩
    rw [← UInt32.toNat_inj, UInt32.toNat_mod, UInt32.toNat_sub_of_le _ _ behind]
    change ((offsetOf start index).toNat - start.toNat) % 8 = 0
    omega

theorem hit_layout_iff (valid : validRange ram start stop = true) {offset : Word}
    {length index : Nat} :
    (layout registry options ram start stop).codeMap.Hit offset.toNat (offset.toNat + length)
        index ↔
      index < countOf start stop ∧ (opFor registry options ram start stop index).isTrap = false ∧
        Straddles (offsetOf start index) offset length := by
  unfold CodeMap.Hit
  rw [getElem?_compiled_layout]
  by_cases inside : index < countOf start stop
  · rw [if_pos inside, slotStart_layout valid inside]
    simp [inside, Straddles, instructionSize]
  · simp [inside]

/-- The search finds the first slot with code that a range straddles. -/
theorem overlap?_layout_eq_some_iff (valid : validRange ram start stop = true) {offset : Word}
    {length : Nat} {slot : Word} :
    (layout registry options ram start stop).codeMap.overlap? offset length = some slot ↔
      ((layout registry options ram start stop).HasCodeAt slot ∧ Straddles slot offset length) ∧
        ∀ other, (layout registry options ram start stop).HasCodeAt other →
          Straddles other offset length → slot ≤ other := by
  have hslot : ∀ index, index < countOf start stop → UInt32.ofNat
      ((layout registry options ram start stop).codeMap.slotStart index) = offsetOf start index := by
    intro index inside
    rw [slotStart_layout valid inside, UInt32.ofNat_toNat]
  have hle : ∀ index other, index < countOf start stop → other < countOf start stop →
      (offsetOf start index ≤ offsetOf start other ↔ index ≤ other) := by
    intro index other inside hother
    rw [UInt32.le_iff_toNat_le, (toNat_offsetOf_of_lt valid inside).1,
      (toNat_offsetOf_of_lt valid hother).1]
    omega
  -- Slots are in the order of their indices, so the first that is hit is the least that straddles.
  rw [CodeMap.overlap?_eq_some_iff]
  simp only [hit_layout_iff valid]
  constructor
  · rintro ⟨index, rfl, ⟨inside, code, straddles⟩, first⟩
    rw [hslot index inside]
    refine ⟨⟨(hasCodeAt_layout_iff valid).mpr ⟨index, inside, rfl, code⟩, straddles⟩, ?_⟩
    intro other hother straddles'
    rcases (hasCodeAt_layout_iff valid).mp hother with ⟨index', inside', rfl, code'⟩
    rw [hle index index' inside inside']
    exact Nat.not_lt.mp fun before => first index' before ⟨inside', code', straddles'⟩
  · rintro ⟨⟨hcode, straddles⟩, least⟩
    rcases (hasCodeAt_layout_iff valid).mp hcode with ⟨index, inside, rfl, code⟩
    refine ⟨index, (hslot index inside).symm, ⟨inside, code, straddles⟩, ?_⟩
    rintro earlier before ⟨inside', code', straddles'⟩
    have hearlier := least _ ((hasCodeAt_layout_iff valid).mpr ⟨earlier, inside', rfl, code'⟩)
      straddles'
    exact absurd ((hle index earlier inside inside').mp hearlier) (Nat.not_le.mpr before)

/-- The search finds nothing if no slot with code is straddled. -/
theorem overlap?_layout_eq_none_iff (valid : validRange ram start stop = true) {offset : Word}
    {length : Nat} :
    (layout registry options ram start stop).codeMap.overlap? offset length = none ↔
      ∀ slot, (layout registry options ram start stop).HasCodeAt slot →
        ¬Straddles slot offset length := by
  rw [CodeMap.overlap?_eq_none_iff]
  simp only [hit_layout_iff valid, hasCodeAt_layout_iff valid]
  constructor
  · rintro clear slot ⟨index, inside, rfl, code⟩ straddles
    exact clear index ⟨inside, code, straddles⟩
  · rintro clear index ⟨inside, code, straddles⟩
    exact clear _ ⟨index, inside, rfl, code⟩ straddles

/-- A range without bytes straddles the slot that it lies inside of, and there is no more
    than one. -/
theorem overlap?_layout_zero_iff (valid : validRange ram start stop = true) {offset slot : Word} :
    (layout registry options ram start stop).codeMap.overlap? offset 0 = some slot ↔
      (layout registry options ram start stop).HasCodeAt slot ∧ Straddles slot offset 0 := by
  rw [overlap?_layout_eq_some_iff valid]
  refine and_iff_left_of_imp ?_
  rintro ⟨hslot, straddles⟩ other hother straddles'
  rcases hslot.1 with ⟨index, _, hindex⟩
  rcases hother.1 with ⟨index', _, hindex'⟩
  unfold Straddles at straddles straddles'
  rw [UInt32.le_iff_toNat_le]
  -- Both slots are a multiple of eight from the start, and less than eight from the offset.
  omega

end Layout

end Segment

namespace Machine

/-- A copy of no bytes changes nothing, if it is made. -/
theorem copy_nil (m : Machine) (offset : Word) :
    m.copy offset [] = (m.checkStore offset 0).map fun _ => m := by
  unfold copy
  rw [List.length_nil, show Word.ofNat? 0 = some 0 from rfl]
  cases m.checkStore offset 0 <;> rfl

/-- A store in RAM is refused for the slot that the search finds. -/
theorem checkStore_eq_error_iff {m : Machine} {map : CodeMap} (live : m.liveCode = some map)
    {offset : Word} {length : Nat} (fits : m.ram.holds offset length = true) {slot : Word} :
    m.checkStore offset length = .error (.selfModifyingCode slot) ↔
      map.overlap? offset length = some slot := by
  unfold checkStore
  rw [if_pos fits, live, Option.bind_some]
  cases map.overlap? offset length with
  | none => simp only [reduceCtorEq]
  | some slot' => simp only [Except.error.injEq, Trap.selfModifyingCode.injEq, Option.some.injEq]

/-- A copy of no bytes inside RAM is refused for the slot that the search finds. -/
theorem copy_nil_eq_error_iff {m : Machine} {map : CodeMap} (live : m.liveCode = some map)
    {offset : Word} (inside : offset.toNat ≤ m.ram.size) {slot : Word} :
    m.copy offset [] = .error (.selfModifyingCode slot) ↔ map.overlap? offset 0 = some slot := by
  rw [← checkStore_eq_error_iff live (Ram.holds_iff.mpr inside), copy_nil]
  cases m.checkStore offset 0 <;> simp [Except.map]

theorem copy_nil_eq_ok_iff {m : Machine} {map : CodeMap} (live : m.liveCode = some map)
    {offset : Word} (inside : offset.toNat ≤ m.ram.size) :
    m.copy offset [] = .ok m ↔ map.overlap? offset 0 = none := by
  have hcheck : m.checkStore offset 0 = .ok () ↔ map.overlap? offset 0 = none := by
    have fits : m.ram.holds offset 0 = true := Ram.holds_iff.mpr inside
    simp only [checkStore_eq_ok_iff, fits, live, Option.some.injEq, true_and, forall_eq']
  rw [← hcheck, copy_nil]
  cases m.checkStore offset 0 <;> simp [Except.map]

end Machine

namespace Segment

/-- The code map knows the slots with code, and the ranges with bytes that meet one. An
    offset is where such a slot begins, or it is not; a range with bytes meets slots of
    this kind, and the first of them is found, or it meets none. A range without bytes is
    found to overlap the slot with code that its offset lies inside of, though the two
    have nothing in common, and so a copy of no bytes to an offset in RAM is refused
    exactly if the offset lies inside a slot with code. -/
theorem codeMap_knows {registry : Registry} {options : Options} {ram : Ram} {start stop : Word}
    {segment : Segment} (compiled : compile registry options ram start stop = .ok segment)
    (offset : Word) :
    (segment.codeMap.isCompiled offset = true ↔ segment.HasCodeAt offset) ∧
    (∀ length, 0 < length →
      (∀ slot, segment.codeMap.overlap? offset length = some slot ↔
        (segment.HasCodeAt slot ∧ Meets slot offset length) ∧
          ∀ other, segment.HasCodeAt other → Meets other offset length → slot ≤ other) ∧
      (segment.codeMap.overlap? offset length = none ↔
        ∀ slot, segment.HasCodeAt slot → ¬Meets slot offset length)) ∧
    (∀ slot, segment.codeMap.overlap? offset 0 = some slot ↔
      segment.HasCodeAt slot ∧ slot.toNat < offset.toNat ∧ offset.toNat < slot.toNat + 8) ∧
    ∀ m : Machine, m.liveCode = some segment.codeMap → offset.toNat ≤ m.ram.size →
      (∀ slot, m.copy offset [] = .error (.selfModifyingCode slot) ↔
        segment.HasCodeAt slot ∧ slot.toNat < offset.toNat ∧ offset.toNat < slot.toNat + 8) ∧
      (m.copy offset [] = .ok m ↔ ∀ slot, segment.HasCodeAt slot →
        ¬(slot.toNat < offset.toNat ∧ offset.toNat < slot.toNat + 8)) := by
  rcases compile_eq_ok_iff.mp compiled with ⟨valid, _, rfl⟩
  refine ⟨isCompiled_layout_iff valid, fun length some => ⟨fun slot => ?_, ?_⟩,
    fun slot => overlap?_layout_zero_iff valid, fun m live inside => ⟨fun slot => ?_, ?_⟩⟩
  · simp only [overlap?_layout_eq_some_iff valid, meets_iff, some, true_and]
  · simp only [overlap?_layout_eq_none_iff valid, meets_iff, some, true_and]
  · rw [Machine.copy_nil_eq_error_iff live inside]
    exact overlap?_layout_zero_iff valid
  · rw [Machine.copy_nil_eq_ok_iff live inside]
    exact overlap?_layout_eq_none_iff valid

/-- Two instructions that end the program, and between them a slot of zeros. -/
def gapped : Ram :=
  ⟨#[0x11, 0, 0, 0, 0x01, 0, 0, 0, 0, 0, 0, 0, 0, 0, 0, 0, 0x11, 0, 0, 0, 0x01, 0, 0, 0]⟩

theorem compile_gapped : compile Registry.standard ⟨false, true⟩ gapped 0 24 =
    .ok (layout Registry.standard ⟨false, true⟩ gapped 0 24) :=
  compile_eq_ok_iff.mpr ⟨by decide, fun strict => absurd strict Bool.false_ne_true, rfl⟩

-- A range that begins in the gap, and an offset inside of the last instruction.
theorem codeMap_knows_gapped :
    ∃ segment, compile Registry.standard ⟨false, true⟩ gapped 0 24 = .ok segment ∧
      ¬segment.HasCodeAt 8 ∧ segment.HasCodeAt 16 ∧
      segment.codeMap.overlap? 10 8 = some 16 ∧ Meets 16 10 8 ∧
      segment.codeMap.overlap? 20 0 = some 16 := by
  have hknows := codeMap_knows compile_gapped
  have found : (layout Registry.standard ⟨false, true⟩ gapped 0 24).codeMap.overlap? 10 8 =
      some 16 := by decide +kernel
  rcases (((hknows 10).2.1 8 (by decide)).1 16).mp found with ⟨⟨code, meets⟩, _⟩
  refine ⟨_, compile_gapped, mt (hknows 8).1.mpr (by decide +kernel), code, found, meets, ?_⟩
  exact ((hknows 20).2.2.1 16).mpr ⟨code, by decide, by decide⟩

/-- In the middle of an instruction, a range without bytes is found to overlap it, and a
    copy of no bytes is refused. -/
theorem empty_range_overlaps_slot :
    ∃ segment, compile Registry.standard ⟨false, true⟩ gapped 0 24 = .ok segment ∧
      (∀ slot, ¬Meets slot 4 0) ∧ segment.codeMap.overlap? 4 0 = some 0 ∧
      ∃ m : Machine, m.liveCode = some segment.codeMap ∧ m.ram.holds 4 0 = true ∧
        m.copy 4 [] = .error (.selfModifyingCode 0) := by
  have found : (layout Registry.standard ⟨false, true⟩ gapped 0 24).codeMap.overlap? 4 0 =
      some 0 := by decide +kernel
  let m : Machine :=
    { registry := Registry.standard, config := { ramSize := 24 }, ram := gapped,
      liveCode := some (layout Registry.standard ⟨false, true⟩ gapped 0 24).codeMap }
  have live : m.liveCode = some (layout Registry.standard ⟨false, true⟩ gapped 0 24).codeMap := rfl
  have inside : (4 : Word).toNat ≤ m.ram.size := by decide
  refine ⟨_, compile_gapped, fun slot meets => ?_, found, m, live, by decide, ?_⟩
  · exact absurd (meets_iff.mp meets).1 (Nat.lt_irrefl 0)
  · exact (Machine.copy_nil_eq_error_iff live inside).mpr found

end Segment

end Transport
