import Transport.Module

/-!
# The Memory Module

The cells are a pointer and a value. Writing an offset to `read` loads the word
there into the value; writing a word to `write` stores it where the pointer
says. Neither moves the pointer.

## Main definitions

* `Module.Memory.decl`: The declaration of `mem`.
-/

namespace Transport

namespace Module.Memory

/-- The cell of the pointer. -/
def pointerCell : UInt16 := 0

/-- The cell of the value read. -/
def valueCell : UInt16 := 1

/-- The key of `mem.read`. -/
def readKey : UInt16 := 0

/-- The key of `mem.write`. -/
def writeKey : UInt16 := 1

/-- Loads into the value, stores at the pointer, and traps as the host says. -/
def behaviour : Behaviour where
  fresh := { cells := #[0, 0] }
  write key value _ := do
    if key = readKey then
      Handler.setCell valueCell (← Handler.readWord value)
    else if key = writeKey then
      Handler.storeWord (← Handler.getCell pointerCell) value
    return .proceed

/-- The declaration of `mem`. -/
def decl : ModuleDecl where
  id := 0x13
  stem := "mem"
  cells := 2
  ports := [
    { name := "ptr", aliases := ["addr"], position := .fixed 0x01, capability := .readWrite,
      accessor := .cell pointerCell },
    { name := "read", position := .fixed 0x03, capability := .write,
      accessor := .handler readKey },
    { name := "write", position := .fixed 0x04, capability := .write,
      accessor := .handler writeKey },
    { name := "value", aliases := ["result"], position := .fixed 0x05, capability := .readWrite,
      accessor := .cell valueCell }]
  kind := .dispatched behaviour

end Module.Memory

end Transport
