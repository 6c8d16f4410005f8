import Transport.Module

/-!
# The Arithmetic Module

The cells are an operand, a result and a spare. Writing to an operation
combines the operand with the value written and leaves the outcome in the
result; writing to `print` outputs the value and touches no cell.

Sums and differences wrap at 32 bits. A shift goes by the low five bits of the
value, and the one to the right keeps the sign.

## Main definitions

* `Module.Arithmetic.compute?`: The operation of a handler key.
* `Module.Arithmetic.decl`: The declaration of `alu`.
-/

namespace Transport

namespace Module.Arithmetic

/-- The cell of the operand. -/
def operandCell : UInt16 := 0

/-- The cell of the result. -/
def resultCell : UInt16 := 1

/-- The spare cell. -/
def spareCell : UInt16 := 2

/-- The key of `alu.add`. -/
def addKey : UInt16 := 0

/-- The key of `alu.print`. -/
def printKey : UInt16 := 1

/-- The key of `alu.sub`. -/
def subKey : UInt16 := 2

/-- The key of `alu.lshift`. -/
def leftKey : UInt16 := 3

/-- The key of `alu.rshift`. -/
def rightKey : UInt16 := 4

/-- A shift to the right that copies the sign. -/
def shiftRight (operand amount : Word) : Word :=
  -- Only the last five bits of the amount count.
  ⟨operand.toBitVec.sshiftRight (amount.toNat % 32)⟩

/-- A shift to the left. -/
def shiftLeft (operand amount : Word) : Word :=
  ⟨operand.toBitVec <<< (amount.toNat % 32)⟩

/-- The operation of a handler key, from the operand and the value written. -/
def compute? (key : UInt16) (operand value : Word) : Option Word :=
  if key = addKey then some (operand + value)
  else if key = subKey then some (operand - value)
  else if key = leftKey then some (shiftLeft operand value)
  else if key = rightKey then some (shiftRight operand value)
  else none

/-- An operation leaves its outcome in the result, and `print` goes to the host. -/
def behaviour : Behaviour where
  fresh := { cells := #[0, 0, 0] }
  write key value _ := do
    if key = printKey then
      Handler.ask (.print value)
    else
      match compute? key (← Handler.getCell operandCell) value with
      | some result => Handler.setCell resultCell result
      | none => pure ()
    return .proceed

/-- The declaration of `alu`. -/
def decl : ModuleDecl where
  id := 0x02
  stem := "alu"
  cells := 3
  ports := [
    { name := "op", position := .fixed 0xA00000, capability := .readWrite,
      accessor := .cell operandCell },
    { name := "result", position := .fixed 0xA00001, capability := .readWrite,
      accessor := .cell resultCell },
    { name := "temp", position := .fixed 0xA00002, capability := .readWrite,
      accessor := .cell spareCell },
    { name := "add", position := .fixed 0x10, capability := .write, accessor := .handler addKey },
    { name := "print", position := .fixed 0x11, capability := .write,
      accessor := .handler printKey },
    { name := "sub", position := .fixed 0x12, capability := .write, accessor := .handler subKey },
    { name := "lshift", position := .fixed 0x13, capability := .write,
      accessor := .handler leftKey },
    { name := "rshift", position := .fixed 0x14, capability := .write,
      accessor := .handler rightKey }]
  kind := .dispatched behaviour

end Module.Arithmetic

end Transport
