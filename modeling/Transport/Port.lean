import Transport.Address

/-!
# Ports

A port is a named place in a module's address space that a move can read from
or write to. The read space and the write space of a module are independent, so
one offset may hold a port in each.

A port sits at a fixed offset, or it is the fallback of its module: the port
that answers at every offset where no fixed one does. An access either touches
a storage cell of the module's instance, without side effects, or runs a
handler of the module.

## Main definitions

* `Direction`: Reading or writing.
* `Capability.allows`: The directions that a port serves.
* `Accessor`: How an access is carried out.
* `Position`: Where a port sits in its module.
* `PortDecl`: A port as its module declares it.
* `Port`: A port as the registry knows it, under its full names.
-/

namespace Transport

/-- The side of a move that an operand is on. -/
inductive Direction where
  /-- Sources read. -/
  | read
  /-- Destinations write. -/
  | write
  deriving DecidableEq, Repr

namespace Direction

/-- The word for a direction in messages. -/
def text : Direction → String
  | .read => "read"
  | .write => "write"

/-- The word for a direction in descriptions. -/
def description : Direction → String
  | .read => "Read"
  | .write => "Write"

end Direction

/-- The directions a port serves. -/
inductive Capability where
  /-- Only reads. -/
  | read
  /-- Only writes. -/
  | write
  /-- Reads and writes. -/
  | readWrite
  deriving DecidableEq, Repr

namespace Capability

/-- Whether accesses in the direction are served. -/
def allows : Capability → Direction → Bool
  | .readWrite, _ => true
  | .read, .read => true
  | .write, .write => true
  | _, _ => false

end Capability

/-- How an access to a port is carried out. -/
inductive Accessor where
  /-- The value lives in a storage cell of the module's instance. -/
  | cell (index : UInt16)
  /-- The module's handler runs with this key. -/
  | handler (key : UInt16)
  deriving DecidableEq, Repr

/-- Where a port sits inside its module. -/
inductive Position where
  /-- At one offset. -/
  | fixed (offset : Word)
  /-- Wherever no port of the same direction is fixed. -/
  | fallback
  deriving DecidableEq, Repr

/-- A port as its module declares it. -/
structure PortDecl where
  /-- The name inside the module. -/
  name : String
  /-- Further names for the same port. -/
  aliases : List String := []
  /-- Where the port sits. -/
  position : Position
  /-- The directions it serves. -/
  capability : Capability
  /-- How accesses are carried out. -/
  accessor : Accessor
  deriving DecidableEq, Repr

/-- A port as the registry knows it. -/
structure Port where
  /-- The id of the module it belongs to. -/
  owner : UInt8
  /-- Where it sits in that module. -/
  position : Position
  /-- The full name. -/
  name : String
  /-- Further full names. -/
  aliases : List String
  /-- The directions it serves. -/
  capability : Capability
  /-- How accesses are carried out. -/
  accessor : Accessor
  deriving DecidableEq, Repr

namespace Port

/-- The address of a port; a fallback has none. -/
def address? (p : Port) : Option Address :=
  match p.position with
  | .fixed offset => some (.of p.owner offset)
  | .fallback => none

/-- Whether this is the fallback of its module. -/
def isFallback (p : Port) : Bool := p.position = .fallback

/-- Every full name of a port, the first one leading. -/
def labels (p : Port) : List String := p.name :: p.aliases

/-- Whether accesses in the direction are served. -/
def allows (p : Port) (direction : Direction) : Bool := p.capability.allows direction

end Port

end Transport
