import Transport.Machine.Execution

/-!
# The Extent of Code

Where instructions can be, in plain numbers. The machine reckons with words: it asks whether
a number is one, multiplies with a check and adds up to the greatest word. None of that
shows in the end. The part of RAM that can hold instructions is a number of whole slots, the
entry is eight times its index, and a window is whole slots from a multiple of its length
on, up to the end of that part.

## Main definitions

* `Machine.codeSize`, `Machine.slotCount`: The part of RAM that can hold instructions, in
  bytes and in slots.
* `Machine.windowLength`: The length of windows.

## Theorems

* `toNat_codeEnd`: The end of that part.
* `entryOffset?_eq_some_iff`: The offset of the entry.
* `windowOf_eq`: The window of an offset.
* `startWindowed_eq`: How an execution in windows begins.
-/

namespace Transport

namespace Machine

/-- The part of RAM that can hold instructions, in bytes: as far as words reach, in whole
    instructions. -/
def codeSize (m : Machine) : Nat :=
  let reachable := min m.ram.size 0xFFFFFFFF
  reachable - reachable % instructionSize

/-- The number of instruction slots of RAM. -/
def slotCount (m : Machine) : Nat := m.codeSize / instructionSize

/-- The length of windows: whole instructions, and at least one. -/
def windowLength (size : Word) : Nat :=
  max (size.toNat - size.toNat % instructionSize) instructionSize

variable {m : Machine}

theorem codeSize_eq (m : Machine) : m.codeSize = 8 * m.slotCount := by
  simp only [slotCount, codeSize, instructionSize]
  omega

/-- No part of RAM that can hold instructions ends at the very last word. -/
theorem codeSize_lt (m : Machine) : m.codeSize < 0xFFFFFFFF := by
  simp only [codeSize, instructionSize]
  omega

theorem toNat_ofNat_of_lt {n : Nat} (h : n < 0x100000000) : (UInt32.ofNat n).toNat = n :=
  UInt32.toNat_ofNat_of_lt' h

/-- A word rounded down to a multiple of eight. -/
theorem toNat_sub_mod (w : Word) : (w - w % 8).toNat = w.toNat - w.toNat % 8 := by
  have hmod : (w % 8).toNat = w.toNat % 8 := UInt32.toNat_mod w 8
  have hle : w % 8 ≤ w := by
    rw [UInt32.le_iff_toNat_le, hmod]
    exact Nat.mod_le _ _
  rw [UInt32.toNat_sub_of_le _ _ hle, hmod]

theorem toNat_codeEnd (m : Machine) : m.codeEnd.toNat = m.codeSize := by
  have hlength : ((Word.ofNat? m.ram.size).getD 0xFFFFFFFF).toNat = min m.ram.size 0xFFFFFFFF := by
    have greatest : (0xFFFFFFFF : Word).toNat = 0xFFFFFFFF := rfl
    -- A length that is no word counts as the greatest word.
    cases h : Word.ofNat? m.ram.size with
    | none =>
        have wide := Word.ofNat?_eq_none_iff.mp h
        rw [Option.getD_none, greatest]
        omega
    | some w =>
        have fits := Word.ofNat?_eq_some_iff.mp h
        have hlt := w.toNat_lt
        rw [Option.getD_some, fits]
        omega
  simp only [codeEnd, codeSize, toNat_sub_mod, hlength, instructionSize]

theorem lt_codeEnd_iff {w : Word} : w < m.codeEnd ↔ w.toNat < m.codeSize := by
  rw [UInt32.lt_iff_toNat_lt, toNat_codeEnd]

/-- The entry has an offset if that is a word. -/
theorem entryOffset?_eq_some_iff {w : Word} :
    m.entryOffset? = some w ↔ w.toNat = 8 * m.config.entry := by
  have height : (8 : Word).toNat = 8 := rfl
  unfold entryOffset?
  rw [Option.bind_eq_some_iff]
  constructor
  · rintro ⟨entry, hentry, hproduct⟩
    rw [Word.checkedMul_eq_some_iff, Word.ofNat?_eq_some_iff.mp hentry, height] at hproduct
    omega
  · intro h
    have hlt := w.toNat_lt
    refine ⟨UInt32.ofNat m.config.entry, Word.ofNat?_eq_some_iff.mpr ?_, ?_⟩
    · exact toNat_ofNat_of_lt (by omega)
    · rw [Word.checkedMul_eq_some_iff, toNat_ofNat_of_lt (by omega), height, h]
      omega

/-! ## Windows -/

theorem toNat_windowSize (size : Word) : (windowSize size).toNat = windowLength size := by
  have height : (8 : Word).toNat = 8 := rfl
  have hround := toNat_sub_mod size
  unfold windowSize windowLength
  dsimp only
  -- Rounded down to whole slots, but never to nothing.
  by_cases small : size - size % 8 < 8
  · have hsmall := UInt32.lt_iff_toNat_lt.mp small
    rw [hround, height] at hsmall
    rw [if_pos small, height]
    simp only [instructionSize]
    omega
  · have hlarge : 8 ≤ (size - size % 8).toNat := by
      rw [← height]
      exact UInt32.le_iff_toNat_le.mp (UInt32.not_lt.mp small)
    rw [hround] at hlarge
    rw [if_neg small, hround]
    simp only [instructionSize]
    omega

theorem windowLength_pos (size : Word) : 8 ≤ windowLength size ∧ windowLength size % 8 = 0 := by
  simp only [windowLength, instructionSize]
  omega

/-- The start of the window of an offset is a multiple of the length at most the offset. -/
theorem toNat_windowStart (size offset : Word) :
    (offset - offset % windowSize size).toNat =
      offset.toNat - offset.toNat % windowLength size := by
  have hmod : (offset % windowSize size).toNat = offset.toNat % windowLength size := by
    rw [UInt32.toNat_mod, toNat_windowSize]
  have hle : offset % windowSize size ≤ offset := by
    rw [UInt32.le_iff_toNat_le, hmod]
    exact Nat.mod_le _ _
  rw [UInt32.toNat_sub_of_le _ _ hle, hmod]

/-- The window of an offset, in numbers. A sum that is no word is past the end of RAM. -/
theorem windowOf_eq (m : Machine) (size offset : Word) :
    m.windowOf size offset =
      let start := offset.toNat - offset.toNat % windowLength size
      (UInt32.ofNat start, UInt32.ofNat (min (start + windowLength size) m.codeSize)) := by
  have hstart := toNat_windowStart size offset
  have hsum := Word.toNat_saturatingAdd (offset - offset % windowSize size) (windowSize size)
  rw [hstart, toNat_windowSize] at hsum
  have hcode := m.codeSize_lt
  have hbound := (offset - offset % windowSize size).toNat_lt
  simp only [windowOf, Prod.mk.injEq]
  refine ⟨?_, ?_⟩
  · rw [← UInt32.toNat_inj, hstart, toNat_ofNat_of_lt]
    rwa [← hstart]
  · rw [← UInt32.toNat_inj, toNat_ofNat_of_lt (by omega)]
    -- The end of the window is in front of the end of the code or is cut off there.
    by_cases before : Word.saturatingAdd (offset - offset % windowSize size) (windowSize size) <
        m.codeEnd
    · have hbefore := lt_codeEnd_iff.mp before
      rw [hsum] at hbefore
      rw [if_pos before, hsum]
      omega
    · have hbehind := Nat.not_lt.mp (mt lt_codeEnd_iff.mpr before)
      rw [hsum] at hbehind
      rw [if_neg before, toNat_codeEnd]
      omega

end Machine

namespace Session

variable {ω : Type} {s : Session ω}

/-- An execution in windows begins at the entry, if RAM has such a slot. -/
theorem startWindowed_eq (s : Session ω) (size : Word) :
    s.startWindowed size =
      if s.machine.config.entry < s.machine.slotCount then
        s.board (.windowed size (Segment.offsetOf 0 s.machine.config.entry))
      else s.finish (.error (.trap (.entryOutOfRange s.machine.config.entry))) := by
  have hcode := s.machine.codeSize_eq
  have hlt := s.machine.codeSize_lt
  unfold startWindowed
  cases hoffset : s.machine.entryOffset? with
  | none =>
      rw [if_neg]
      intro inside
      -- The entry of a slot has an offset.
      have hentry : s.machine.entryOffset? = some (UInt32.ofNat (8 * s.machine.config.entry)) :=
        Machine.entryOffset?_eq_some_iff.mpr (Machine.toNat_ofNat_of_lt (by omega))
      rw [hoffset] at hentry
      contradiction
  | some offset =>
      have hnat := Machine.entryOffset?_eq_some_iff.mp hoffset
      dsimp only
      by_cases behind : s.machine.codeEnd ≤ offset
      · rw [if_pos behind, if_neg]
        rw [UInt32.le_iff_toNat_le, Machine.toNat_codeEnd] at behind
        omega
      · rw [if_neg behind, if_pos]
        · congr 2
          have hlt' := offset.toNat_lt
          rw [← UInt32.toNat_inj, hnat, Segment.offsetOf, UInt32.zero_add,
            Machine.toNat_ofNat_of_lt]
          · rfl
          · simp only [instructionSize]
            omega
        · rw [UInt32.le_iff_toNat_le, Machine.toNat_codeEnd] at behind
          omega

end Session

end Transport
