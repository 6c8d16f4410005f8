import Transport.Module

/-!
# The System Module

Two handlers: `shutdown` ends the program, and `breakpoint` is a suspension
point that a program asks for by itself, at the offset of the instruction.

## Main definitions

* `Module.System.decl`: The declaration of `sys`.
-/

namespace Transport

namespace Module.System

/-- The key of `sys.shutdown`. -/
def shutdownKey : UInt16 := 0

/-- The key of `sys.breakpoint`. -/
def breakpointKey : UInt16 := 1

/-- Shutdown halts; a breakpoint suspends at the instruction that makes the access. -/
def behaviour : Behaviour where
  fresh := {}
  write key _ access := do
    if key = shutdownKey then
      return .halt
    else if key = breakpointKey then
      Handler.suspend access.offset
      return .proceed
    else
      return .proceed

/-- The declaration of `sys`. -/
def decl : ModuleDecl where
  id := 0x01
  stem := "sys"
  cells := 0
  ports := [
    { name := "shutdown", position := .fixed 0x00, capability := .write,
      accessor := .handler shutdownKey },
    { name := "breakpoint", position := .fixed 0x01, capability := .write,
      accessor := .handler breakpointKey }]
  kind := .dispatched behaviour

end Module.System

end Transport
