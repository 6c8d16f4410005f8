import Transport.Numeral
import Transport.Word

/-!
# Port Addresses

A port address is one operand word: the top byte names a module and the low
24 bits an offset in that module's port space.

## Main definitions

* `Address.of`: The address of an offset in a module.
* `Address.moduleId`, `Address.offset`: Its two parts.
* `Address.text`: The two parts in hexadecimal, as in `02:A00000`.

## Theorems

* `of_moduleId_offset`: An address is the one of its two parts.
* `moduleId_of`, `offset_of`: The two parts of an address that was put together.
-/

namespace Transport

/-- The 24 low bits, which literals and port offsets occupy. -/
def offsetMask : Word := 0x00FFFFFF

/-- The mask has the bits below the twenty-fourth. -/
theorem getLsbD_offsetMask (i : Nat) : offsetMask.toBitVec.getLsbD i = decide (i < 24) := by
  have ones : offsetMask.toBitVec = (BitVec.allOnes 24).setWidth 32 := by decide
  rw [ones, BitVec.getLsbD_setWidth, BitVec.getLsbD_allOnes, ← Bool.decide_and]
  exact decide_eq_decide.mpr (by omega)

/-- An address in the read or write space of a module. -/
structure Address where
  /-- The operand word. -/
  word : Word
  deriving DecidableEq, Repr, Inhabited

namespace Address

/-- The address of an offset in a module; only 24 bits of the offset count. -/
def of (module : UInt8) (offset : Word) : Address :=
  ⟨module.toUInt32 <<< 24 ||| offset &&& offsetMask⟩

/-- The module's number, in the top byte. -/
def moduleId (a : Address) : UInt8 := (a.word >>> 24).toUInt8

/-- The offset inside the module. -/
def offset (a : Address) : Word := a.word &&& offsetMask

/-- Module and offset in hexadecimal, at full width and with a colon between. -/
def text (a : Address) : String :=
  Numeral.hexPadded 2 a.moduleId.toNat ++ ":" ++ Numeral.hexPadded 6 a.offset.toNat

/-- The text a debugger shows. -/
def description (a : Address) : String := "PortAddr(" ++ a.text ++ ")"

/-- An address is the one of its offset in its module. -/
theorem of_moduleId_offset (a : Address) : of a.moduleId a.offset = a := by
  obtain ⟨w⟩ := a
  simp only [of, moduleId, offset, Address.mk.injEq]
  apply UInt32.eq_of_toBitVec_eq
  apply BitVec.eq_of_getLsbD_eq
  intro i _
  simp only [UInt32.toBitVec_or, UInt32.toBitVec_shiftLeft, UInt8.toBitVec_toUInt32,
    UInt32.toBitVec_and, UInt32.toBitVec_toUInt8, UInt32.toBitVec_shiftRight,
    UInt32.toBitVec_ofNat, BitVec.getLsbD_or, BitVec.getLsbD_and, getLsbD_offsetMask]
  grind

/-- The address of an offset in a module names that module. -/
theorem moduleId_of (module : UInt8) (o : Word) : (of module o).moduleId = module := by
  apply UInt8.eq_of_toBitVec_eq
  apply BitVec.eq_of_getLsbD_eq
  intro i _
  simp [of, moduleId, BitVec.getLsbD_setWidth, getLsbD_offsetMask]
  grind

/-- The address of an offset keeps the low 24 bits of it. -/
theorem offset_of (module : UInt8) (o : Word) : (of module o).offset = o &&& offsetMask := by
  apply UInt32.eq_of_toBitVec_eq
  apply BitVec.eq_of_getLsbD_eq
  intro i _
  simp [of, offset, BitVec.getLsbD_setWidth, getLsbD_offsetMask]
  grind

end Address

end Transport
