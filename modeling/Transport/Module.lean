import Transport.Dialogue

/-!
# Modules

A module is a functional unit behind a set of ports. Its declaration lists the
ports and says how the module takes part in execution: the compiler resolves
the ports of an inline module by itself, while those of a dispatched module are
served by an instance.

An instance holds storage cells, some state that no port shows, and the devices
that were wired to it. What it does on an access is given by the module's
behaviour. A handler may change the instance and talk to the host; if it traps,
the changes it made before stay. Before a program runs, every instance is attached
to the host once, and may change and talk to the host then as well: this is how
devices get to it.

## Main definitions

* `ModuleState`: What an instance holds.
* `Access`: Where an access comes from and goes to.
* `Handler`: A change of an instance, in dialogue with the host.
* `Effect`: What follows on a write.
* `Behaviour`: A fresh instance and the handlers.
* `ModuleDecl`: The declaration of a module.
-/

namespace Transport

/-- What one instance of a module holds. -/
structure ModuleState where
  /-- The storage behind the module's field-like ports. -/
  cells : Array Word := #[]
  /-- State that no port shows. -/
  hidden : Array Word := #[]
  /-- The devices wired to the instance. -/
  devices : DeviceTable := {}
  deriving DecidableEq, Repr, Inhabited

namespace ModuleState

/-- The value of a storage cell; one that does not exist reads as zero. -/
def cell (state : ModuleState) (index : UInt16) : Word :=
  state.cells[index.toNat]?.getD 0

/-- Replaces a storage cell; one that does not exist ignores the value. -/
def setCell (state : ModuleState) (index : UInt16) (value : Word) : ModuleState :=
  { state with cells := state.cells.setIfInBounds index.toNat value }

end ModuleState

/-- The circumstances of one access to a port. -/
structure Access where
  /-- The offset of the instruction that makes the access. -/
  offset : Word
  /-- The address that the instruction names. -/
  address : Address
  deriving DecidableEq, Repr

/-- A change of an instance, in dialogue with the host. It may trap, which
    keeps the changes made so far. -/
abbrev Handler := ExceptT Trap (StateT ModuleState Dialogue)

namespace Handler

/-- The host's answer to a request. -/
def ask (r : Request) : Handler r.Answer :=
  ExceptT.lift (StateT.lift (Dialogue.request r))

/-- Goes on with an answer, or traps as the host says. -/
def settle {α : Type} : Except Trap α → Handler α
  | .ok value => pure value
  | .error trap => throw trap

/-- The word at a RAM offset. -/
def readWord (offset : Word) : Handler Word := do settle (← ask (.readWord offset))

/-- Stores a word at a RAM offset. -/
def storeWord (offset value : Word) : Handler Unit := do
  settle (← ask (.storeWord offset value))

/-- Passes a suspension point. -/
def suspend (offset : Word) : Handler Unit := do settle (← ask (.suspend offset))

/-- The value of a storage cell. -/
def getCell (index : UInt16) : Handler Word := do return (← get).cell index

/-- Replaces a storage cell. -/
def setCell (index : UInt16) (value : Word) : Handler Unit :=
  modify fun state => state.setCell index value

end Handler

/-- What follows on a write. -/
inductive Effect where
  /-- The program goes on. -/
  | proceed
  /-- The program ends. -/
  | halt
  deriving DecidableEq, Repr

/-- How the instances of a module begin and what they do. -/
structure Behaviour where
  /-- A fresh instance. -/
  fresh : ModuleState
  /-- Serves a read from the port with a handler key. -/
  read : UInt16 → Access → Handler Word := fun _ _ => pure 0
  /-- Serves the write of a value to the port with a handler key. -/
  write : UInt16 → Word → Access → Handler Effect
  /-- What an instance does when it is attached to a host, before anything runs.
      Nothing that the host refuses ends it. -/
  attach : ModuleState → Dialogue ModuleState := .done

/-- How a module takes part in execution. -/
inductive ModuleKind where
  /-- Its ports are served by an instance. -/
  | dispatched (behaviour : Behaviour)
  /-- Its ports are for the compiler alone. -/
  | inline

namespace ModuleKind

/-- The name of a kind. -/
def text : ModuleKind → String
  | .dispatched _ => "Dispatched"
  | .inline => "Inline"

end ModuleKind

/-- The declaration of a module. -/
structure ModuleDecl where
  /-- The top byte of every address of the module. -/
  id : UInt8
  /-- The first part of every name of the module, up to the dot. -/
  stem : String
  /-- The number of storage cells that ports may refer to. -/
  cells : UInt16
  /-- The ports. -/
  ports : List PortDecl
  /-- How the module takes part in execution. -/
  kind : ModuleKind

end Transport
