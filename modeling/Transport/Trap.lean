import Transport.Port

/-!
# Errors of Compilation and Execution

Three layers report what went wrong. Compiling a range of RAM fails with a
`CompilationError`. Running compiled code ends in a `Trap`, of which one kind
carries the compilation error of an instruction that should not have been
reached. Executing on a machine fails with either of the two, or because the
machine is taken.

Each value says what happened and where; the wording is in one function per
type.

## Main definitions

* `CompilationError`, `Trap`, `ExecutionError`: The causes.
* `CompilationError.message`, `Trap.message`, `ExecutionError.message`: Wording.
-/

namespace Transport

/-- Why a range of RAM does not compile. -/
inductive CompilationError where
  /-- The range is reversed, unaligned, or reaches past the RAM. -/
  | invalidRange (start stop : Word) (ramSize : Nat)
  /-- An operand names an address where no port can be reached. -/
  | unresolvedPort (offset word : Word) (direction : Direction)
  /-- A jump takes its target from a port. -/
  | dynamicJump (offset : Word)
  /-- A jump goes to an offset between two instructions. -/
  | misalignedJump (offset target : Word)
  deriving DecidableEq, Repr

/-- Why a run ended before its time. -/
inductive Trap where
  /-- Control reached an instruction that does not compile. -/
  | uncompiled (cause : CompilationError)
  /-- An instruction changed after its compilation, or a store would change one. -/
  | selfModifyingCode (offset : Word)
  /-- An access fell outside RAM. -/
  | ramOutOfBounds (offset : Word)
  /-- Control left RAM. -/
  | jumpOutsideRam (target : Word)
  /-- The segment has no instruction of that index. -/
  | entryOutOfRange (index : Nat)
  /-- A listener refused an event. -/
  | listener (reason : String)
  deriving DecidableEq, Repr

/-- Why a machine did not execute its program to the end. -/
inductive ExecutionError where
  /-- A segment does not compile. -/
  | compilation (cause : CompilationError)
  /-- A segment trapped. -/
  | trap (cause : Trap)
  /-- The machine is executing already. -/
  | busy
  deriving DecidableEq, Repr

namespace CompilationError

/-- The wording of a compilation error. -/
def message : CompilationError → String
  | .invalidRange start stop ramSize =>
    "invalid segment range " ++ Numeral.markedHex start.toNat ++ ".." ++
      Numeral.markedHex stop.toNat ++ " over " ++ Numeral.markedHex ramSize ++ " bytes of RAM"
  | .unresolvedPort offset word direction =>
    "no " ++ direction.text ++ " port at 0x" ++ Numeral.hexPadded 8 word.toNat ++
      " (instruction at " ++ Numeral.markedHex offset.toNat ++ ")"
  | .dynamicJump offset =>
    "dynamic jumps unsupported (instruction at " ++ Numeral.markedHex offset.toNat ++ ")"
  | .misalignedJump offset target =>
    "jump target " ++ Numeral.markedHex target.toNat ++
      " is not a multiple of 8 (instruction at " ++ Numeral.markedHex offset.toNat ++ ")"

end CompilationError

namespace Trap

/-- The wording of a trap. -/
def message : Trap → String
  | .uncompiled cause => "reached untranslated instruction: " ++ cause.message
  | .selfModifyingCode offset =>
    "instruction at " ++ Numeral.markedHex offset.toNat ++
      " was modified while its segment was live"
  | .ramOutOfBounds offset =>
    "RAM access at " ++ Numeral.markedHex offset.toNat ++ " is out of bounds"
  | .jumpOutsideRam target =>
    "jump to " ++ Numeral.markedHex target.toNat ++ " lands outside RAM"
  | .entryOutOfRange index =>
    "entry index " ++ Numeral.decimal index ++ " is outside the segment"
  | .listener reason => "listener failed: " ++ reason

end Trap

namespace ExecutionError

/-- The wording of an execution error; what ended the run speaks for itself. -/
def message : ExecutionError → String
  | .compilation cause => cause.message
  | .trap cause => cause.message
  | .busy => "machine is already executing on another thread"

end ExecutionError

end Transport
