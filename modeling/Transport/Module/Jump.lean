import Transport.Instruction
import Transport.Module

/-!
# The Jump Module

Names for the three control operations, so that a listing can spell them. The
module is inline: the compiler recognises the control words by themselves,
and no instance ever serves these ports.

## Main definitions

* `Module.Jump.decl`: The declaration of `jmp`.
-/

namespace Transport

namespace Module.Jump

/-- The port that gives a control operation its name. -/
def controlPort (name : String) (operation : Control) (key : UInt16) : PortDecl :=
  { name, position := .fixed (Address.mk operation.word).offset, capability := .write,
    accessor := .handler key }

/-- The declaration of `jmp`. -/
def decl : ModuleDecl where
  id := 0x90
  stem := "jmp"
  cells := 0
  ports := [
    controlPort "branch" .branch 0, controlPort "nonneg" .nonneg 1, controlPort "zero" .zero 2]
  kind := .inline

end Module.Jump

end Transport
