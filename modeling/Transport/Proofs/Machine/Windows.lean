import Transport.Proofs.Machine.Runs
import Transport.Proofs.Segment.Window

/-!
# Windows of RAM

RAM is a number of whole slots and perhaps a few bytes behind them. A window is
some of these slots, and every slot is in the window of its offset, however large
windows are and however close to the end of RAM the slot is. Without strictness
the slots of a window always compile.

## Main definitions

* `Machine.windowIndex`: The number of the window that a slot is in.

## Theorems

* `codeEnd_eq`: The end of the part of RAM that can hold instructions, in slots.
* `compile_part`: The slots of RAM compile.
* `exists_windowOf`: The window of a slot is that of all slots with its number.
-/

namespace Transport

open Segment

namespace Machine

variable {m : Machine}

/-! ## Slots of RAM -/

theorem slotCount_reach (m : Machine) : 8 * m.slotCount < 0x100000000 := by
  rw [← codeSize_eq]
  simp only [codeSize, instructionSize]
  omega

theorem slotCount_fits (m : Machine) : 8 * m.slotCount ≤ m.ram.size := by
  rw [← codeSize_eq]
  simp only [codeSize, instructionSize]
  omega

theorem slotCount_of_size {m' : Machine} (h : m'.ram.size = m.ram.size) :
    m'.slotCount = m.slotCount := by
  simp only [slotCount, codeSize, h]

theorem codeEnd_eq (m : Machine) : m.codeEnd = offsetOf 0 m.slotCount := by
  have hreach := m.slotCount_reach
  rw [← UInt32.toNat_inj, toNat_codeEnd, codeSize_eq, toNat_offsetOf_zero hreach]

/-- Without strictness, any slots of RAM compile. -/
theorem compile_part (lenient : m.config.options.strict = false) {first last : Nat}
    (ordered : first ≤ last) (within : last ≤ m.slotCount) :
    m.compile (offsetOf 0 first) (offsetOf 0 last) =
      .ok (part m.registry m.config.options m.ram first last) := by
  have hreach := m.slotCount_reach
  have hfits := m.slotCount_fits
  refine compile_eq_ok_iff.mpr ⟨validRange_offsetOf (by omega) ordered (by omega), ?_, rfl⟩
  intro strict
  rw [lenient] at strict
  exact absurd strict Bool.false_ne_true

/-- The index of a slot behind another one, as the machine reckons it. -/
theorem toNat_slotIndex {first index : Nat} (low : first ≤ index)
    (reach : 8 * index < 0x100000000) :
    ((offsetOf 0 index - offsetOf 0 first) / 8).toNat = index - first := by
  have hfirst : (offsetOf 0 first).toNat = 8 * first := toNat_offsetOf_zero (by omega)
  have hindex : (offsetOf 0 index).toNat = 8 * index := toNat_offsetOf_zero reach
  have hle : offsetOf 0 first ≤ offsetOf 0 index := by
    rw [UInt32.le_iff_toNat_le, hfirst, hindex]
    omega
  -- Both offsets are slots of RAM, so that nothing wraps around.
  rw [UInt32.toNat_div, UInt32.toNat_sub_of_le _ _ hle, hfirst, hindex]
  change (8 * index - 8 * first) / 8 = _
  omega

/-! ## Windows -/

/-- The number of the window that a slot is in. -/
def windowIndex (size : Word) (index : Nat) : Nat := 8 * index / windowLength size

/-- The window of a slot consists of the slots with its number, and has the slot. -/
theorem exists_windowOf (m : Machine) (size : Word) {index : Nat} (inside : index < m.slotCount) :
    ∃ first last, m.windowOf size (offsetOf 0 index) = (offsetOf 0 first, offsetOf 0 last) ∧
      first ≤ index ∧ index < last ∧ last ≤ m.slotCount ∧
      ∀ i, i < m.slotCount →
        (first ≤ i ∧ i < last ↔ windowIndex size i = windowIndex size index) := by
  have hreach := m.slotCount_reach
  have hoffset : (offsetOf 0 index).toNat = 8 * index := toNat_offsetOf_zero (by omega)
  rcases windowLength_pos size with ⟨hpos, hwhole⟩
  have hzero : ∀ i, UInt32.ofNat (8 * i) = offsetOf 0 i := by
    intro i
    rw [offsetOf, UInt32.zero_add]
    rfl
  simp only [windowOf_eq, windowIndex, hoffset, codeSize_eq]
  generalize windowLength size = window at hpos hwhole
  -- Windows are whole slots, so the slot begins whole slots behind its window's start.
  have hmod : 8 * index % window % 8 = 0 := by
    rw [Nat.mod_mod_of_dvd _ (Nat.dvd_of_mod_eq_zero hwhole)]
    omega
  have hlt := Nat.mod_lt (8 * index) (show 0 < window by omega)
  have hsplit := Nat.div_add_mod (8 * index) window
  rw [Nat.mul_comm] at hsplit
  -- Quotient and remainder are variables from here on, related by one equation.
  generalize 8 * index / window = number at hsplit
  generalize 8 * index % window = behind at hmod hlt hsplit
  refine ⟨(8 * index - behind) / 8, min ((8 * index - behind + window) / 8) m.slotCount, ?_, ?_,
    ?_, ?_, ?_⟩
  · rw [← hzero, ← hzero]
    have hfirst : 8 * ((8 * index - behind) / 8) = 8 * index - behind := by omega
    have hlast : 8 * min ((8 * index - behind + window) / 8) m.slotCount =
        min (8 * index - behind + window) (8 * m.slotCount) := by omega
    rw [hfirst, hlast]
  · omega
  · omega
  · omega
  · intro i hi
    -- The slots with the number are those from the start up to its end.
    rw [Nat.div_eq_iff (by omega)]
    generalize number * window = before at hsplit
    omega

end Machine

end Transport
