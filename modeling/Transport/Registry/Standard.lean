import Transport.Module.Arithmetic
import Transport.Module.Exchange
import Transport.Module.Jump
import Transport.Module.Memory
import Transport.Module.System
import Transport.Registry

/-!
# The Standard Registry

The modules that every machine begins with: `sys`, `alu`, `mem`, `io` and `jmp`.

## Main definitions

* `Registry.standardDecls`: Their declarations, in the order of registration.
* `Registry.standard`: The registry of these modules.

## Theorems

* `registerAll_standardDecls`: Registration takes up every one of them.
-/

namespace Transport

namespace Registry

/-- The declarations of the standard modules. -/
def standardDecls : List ModuleDecl :=
  [Module.System.decl, Module.Arithmetic.decl, Module.Memory.decl, Module.Exchange.decl,
    Module.Jump.decl]

/-- The registry of the standard modules. -/
def standard : Registry where
  modules := standardDecls.map fun decl => ⟨decl, decl.ports.map decl.port⟩

/-- Registration takes up every standard module, and ends in the standard registry. -/
theorem registerAll_standardDecls : registerAll empty standardDecls = .ok standard := rfl

end Registry

end Transport
