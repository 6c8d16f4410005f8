import Transport.Ram
import Transport.Segment.Context
import Transport.Segment.Op

/-!
# Compilation

A segment is the executable form of a range of RAM. Every instruction of the
range becomes one op, with a suspension point in front of it if the compilation
is for single-stepping, so that the ops of an instruction begin at its index
times the number of ops it has.

There are two passes. The layout pass classifies every instruction and records
where its ops begin. The emission pass writes the ops: a jump whose target lies
in the range leads to the first op of the instruction there; any other leads
outside. What cannot be compiled is the error of a strict compilation, and a
trap op of a lenient one.

## Main definitions

* `Options`: Strict or lenient, single-stepping or not.
* `Segment`: A range with its ops.
* `Segment.classify`: How an instruction compiles.
* `Segment.plan`: The layout pass.
* `Plan.emit`: The emission pass.
* `Segment.compile`: The segment of a range, or what keeps it from being one.
* `Segment.indexOf?`: The instruction at an offset.
-/

namespace Transport

/-- How a range is compiled. -/
structure Options where
  /-- Whether an instruction that does not compile is an error at once. -/
  strict : Bool
  /-- Whether there is a suspension point in front of every instruction. -/
  singleStep : Bool
  deriving DecidableEq, Repr

namespace Options

/-- The number of ops of one instruction. -/
def stride (options : Options) : Nat := if options.singleStep then 2 else 1

/-- The text a debugger shows. -/
def description (options : Options) : String :=
  Layout.record "CompileOptions" [("strict", Layout.truth options.strict),
    ("single_step", Layout.truth options.singleStep)]

end Options

/-- The executable form of the range from `start` up to `stop`. -/
structure Segment where
  /-- The first offset of the range. -/
  start : Word
  /-- The offset behind the range. -/
  stop : Word
  /-- How the range was compiled. -/
  options : Options
  /-- The first op of every instruction. -/
  entries : Array Nat
  /-- The ops. -/
  ops : Array Op

namespace Segment

/-! ## Classification -/

/-- How an instruction compiles, before jump targets are resolved. -/
inductive Shape where
  /-- A move. -/
  | move (load : Load) (store : Store)
  /-- A test. -/
  | test (load : Load) (test : Test)
  /-- A jump to an offset. -/
  | branch (target : Word)
  /-- None. -/
  | trap (cause : Obstacle)
  deriving DecidableEq, Repr

/-- One instruction slot of a range. -/
structure Slot where
  /-- The offset of the slot. -/
  offset : Word
  /-- The source word in it. -/
  source : Word
  /-- The destination word in it. -/
  destination : Word
  /-- How the instruction compiles. -/
  shape : Shape

/-- The slot of the instance behind an address, and how to access the port. An
    inline module has no instance. -/
def resolve (registry : Registry) (ids : List UInt8) (address : Address)
    (direction : Direction) : Except Obstacle (Nat × Accessor) :=
  match registry.atWord? address.word direction with
  | none => .error (.unresolved address.word direction)
  -- The registry knows inline modules too, but these have no slot.
  | some port =>
    match Registry.slot? ids port.owner with
    | none => .error (.unresolved address.word direction)
    | some slot => .ok (slot, port.accessor)

/-- The load of a source. -/
def loadOf (registry : Registry) (ids : List UInt8) : Source → Except Obstacle Load
  | .literal value => .ok (.const value)
  | .port address => do
    match ← resolve registry ids address .read with
    | (slot, .cell cell) => return .cell slot cell
    | (slot, .handler key) => return .call slot key address

/-- The store of a port. -/
def storeOf (registry : Registry) (ids : List UInt8) (address : Address) :
    Except Obstacle Store := do
  match ← resolve registry ids address .write with
  | (slot, .cell cell) => return .cell slot cell
  | (slot, .handler key) => return .call slot key address

/-- The target of a jump, which has to be an aligned literal. -/
def branchOf : Source → Except Obstacle Word
  | .literal target => if target % 8 = 0 then .ok target else .error (.misalignedJump target)
  | .port _ => .error .dynamicJump

/-- How an instruction compiles, or why it does not. A source is resolved
    before its destination. -/
def shapeOf (registry : Registry) (ids : List UInt8) (i : Instruction) :
    Except Obstacle Shape := do
  match i.destination with
  | .control .branch => return .branch (← branchOf i.source)
  | .control .nonneg => return .test (← loadOf registry ids i.source) .nonneg
  | .control .zero => return .test (← loadOf registry ids i.source) .zero
  | .port address =>
    let load ← loadOf registry ids i.source
    return .move load (← storeOf registry ids address)

/-- How an instruction compiles. -/
def classify (registry : Registry) (ids : List UInt8) (i : Instruction) : Shape :=
  match shapeOf registry ids i with
  | .ok shape => shape
  | .error cause => .trap cause

/-! ## Ranges -/

/-- The words of the instruction at an offset, if RAM has all of its bytes. -/
def fetch? (ram : Ram) (offset : Word) : Option (Word × Word) := do
  let source ← ram.word? offset
  let destination ← ram.word? (offset + 4)
  return (source, destination)

/-- Whether a range can be compiled: it is not reversed, it begins and ends at
    an instruction, and it lies in RAM. -/
def validRange (ram : Ram) (start stop : Word) : Bool :=
  start ≤ stop && start % 8 = 0 && (stop - start) % 8 = 0 && stop.toNat ≤ ram.size

/-- The number of instructions in a range. -/
def countOf (start stop : Word) : Nat := (stop.toNat - start.toNat) / instructionSize

/-- The offset of an instruction of a range. -/
def offsetOf (start : Word) (index : Nat) : Word := start + UInt32.ofNat (instructionSize * index)

/-- The offsets of the instructions of a range. -/
def offsets (start stop : Word) : List Word := (List.range (countOf start stop)).map (offsetOf start)

/-! ## The layout pass -/

/-- What has been laid out so far. -/
structure Plan where
  /-- The first op of every instruction. -/
  entries : Array Nat := #[]
  /-- The number of ops. -/
  length : Nat := 0
  /-- The classified instructions. -/
  slots : Array Slot := #[]

namespace Plan

/-- The plan with one more instruction, whose ops come behind all others. -/
def add (plan : Plan) (options : Options) (slot : Slot) : Plan where
  entries := plan.entries.push plan.length
  length := plan.length + options.stride
  slots := plan.slots.push slot

/-- The plan with the instruction at an offset. A strict compilation goes no
    further than the first instruction that does not compile. -/
def extend (registry : Registry) (options : Options) (ram : Ram) (start stop : Word)
    (plan : Plan) (offset : Word) : Except CompilationError Plan :=
  match fetch? ram offset with
  -- The range was checked, so this is not met. RAM is read as it is checked all the same.
  | none => .error (.invalidRange start stop ram.size)
  | some (source, destination) =>
    match classify registry registry.slotIds (.ofWords source destination) with
    | .trap cause =>
      if options.strict then .error (cause.errorAt offset)
      else .ok (plan.add options ⟨offset, source, destination, .trap cause⟩)
    | shape => .ok (plan.add options ⟨offset, source, destination, shape⟩)

end Plan

/-- The plan of a range. -/
def plan (registry : Registry) (options : Options) (ram : Ram) (start stop : Word) :
    Except CompilationError Plan :=
  (offsets start stop).foldlM (Plan.extend registry options ram start stop) {}

/-! ## The emission pass -/

/-- The op of a slot, by where jumps lead. -/
def opOf (resolve : Word → Target) (slot : Slot) : Op :=
  match slot.shape with
  | .move load store => .move slot.offset load store
  | .test load test => .test slot.offset load test
  | .branch target => .branch (resolve target)
  | .trap cause => .trap slot.offset cause slot.source slot.destination

namespace Plan

/-- Where a jump to an offset leads. Inside the range that is the first op of
    the instruction there. -/
def resolve (plan : Plan) (start stop target : Word) : Target :=
  -- Targets are aligned and the range holds whole instructions, so that there is an entry.
  if start ≤ target ∧ target < stop then
    .inside plan.entries[((target - start) / 8).toNat]!
  else .outside target

/-- The ops with those of one more slot behind them. -/
def emitSlot (options : Options) (resolve : Word → Target) (ops : Array Op) (slot : Slot) :
    Array Op :=
  -- Jumps lead to the suspension point, which is the first op of the instruction.
  (if options.singleStep then ops.push (.suspend slot.offset) else ops).push (opOf resolve slot)

/-- The ops of all slots. -/
def emit (plan : Plan) (options : Options) (start stop : Word) : Array Op :=
  plan.slots.foldl (emitSlot options (plan.resolve start stop)) #[]

end Plan

/-- The segment of a range, or what keeps the range from being one: that it is
    no range of instructions, or, if the compilation is strict, the first
    instruction that does not compile. -/
def compile (registry : Registry) (options : Options) (ram : Ram) (start stop : Word) :
    Except CompilationError Segment :=
  -- Jumps can lead forward, so entries are laid out before any op is emitted.
  if validRange ram start stop then do
    let plan ← plan registry options ram start stop
    return { start, stop, options
             entries := plan.entries
             ops := plan.emit options start stop }
  else .error (.invalidRange start stop ram.size)

/-! ## Queries -/

/-- The number of instructions. -/
def size (segment : Segment) : Nat := segment.entries.size

/-- Whether an offset lies in the range. -/
def contains (segment : Segment) (offset : Word) : Bool :=
  segment.start ≤ offset && offset < segment.stop

/-- The index of the instruction that begins at an offset. -/
def indexOf? (segment : Segment) (offset : Word) : Option Nat :=
  if segment.contains offset && (offset - segment.start) % 8 = 0 then
    some (countOf segment.start offset)
  else none

/-- The text a debugger shows of a segment that runs in a context. -/
def description (segment : Segment) (context : Context) : String :=
  Layout.record "CompiledSegment" [
    ("start", Op.wordText segment.start),
    ("end", Op.wordText segment.stop),
    ("entries", Layout.sequence (segment.entries.toList.map Numeral.decimal)),
    ("ops", Layout.sequence (segment.ops.toList.map Op.description)),
    ("context", context.description)]

end Segment

end Transport
