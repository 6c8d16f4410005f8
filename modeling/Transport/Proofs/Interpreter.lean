import Transport.Proofs.Dialogue
import Transport.Proofs.Ram

/-!
# Direct Interpretation

What a program means, without compiling it. The interpreter looks at one
instruction of a RAM image at a time: it decodes the eight bytes, looks the
operands up in the registry, has the modules carry the access out, and goes on
at the next offset. There are no slots, no ops and no tables; instances are kept
by the id of their module, and control is an offset.

An instruction has an obstacle if one of its operands reaches no port, or only a
port of a module that has no instances, or if it is a jump whose source is a
port or not a multiple of eight. Nothing of such an instruction is carried out.
Its words are read back from the host instead, to tell data that was reached by
mistake from an instruction that has changed.

## Main definitions

* `Bank`: The instances by module id, and the condition.
* `Interpreter.port?`: The port that an operand reaches, if it has an instance.
* `Interpreter.action`: What an instruction does, or its obstacle.
* `Interpreter.step`: One instruction.
* `Interpreter.run`: A number of instructions.
-/

namespace Transport

/-- The instances of an execution by the id of their module, and whether the next
    jump is taken. -/
structure Bank where
  /-- The instance of a module. -/
  instances : UInt8 → Option Instance
  /-- Whether the next jump is taken. -/
  condition : Bool

namespace Bank

/-- Changes what the instance of a module holds, if there is one. -/
def update (bank : Bank) (id : UInt8) (change : ModuleState → ModuleState) : Bank :=
  { bank with
    instances := fun other =>
      if other = id then (bank.instances id).map fun i => { i with state := change i.state }
      else bank.instances other }

end Bank

namespace Interpreter

/-- Where control goes behind an instruction. -/
inductive Next where
  /-- To an offset, which may lie anywhere. -/
  | goto (offset : Word)
  /-- To the end of the program. -/
  | halt

/-- Where a run over a range stands between two instructions. -/
inductive Place where
  /-- In front of the instruction at an offset of the range. -/
  | facing (offset : Word)
  /-- At its end. -/
  | ended (exit : Exit)

/-! ## Ports -/

/-- Whether the ports of a module are served by an instance. -/
def dispatches (registry : Registry) (id : UInt8) : Bool :=
  (registry.module? id).any fun m =>
    match m.decl.kind with
    | .dispatched _ => true
    | .inline => false

/-- The port that an operand reaches, unless its module is inline. -/
def port? (registry : Registry) (address : Address) (direction : Direction) : Option Port :=
  (registry.atWord? address.word direction).filter fun p => dispatches registry p.owner

/-- Has the instance of a module serve an access. Without an instance the access
    has no effect and comes to the default. -/
def serve {α : Type} (id : UInt8) (default : α) (handler : Behaviour → Handler α) :
    Talk Bank α :=
  fun bank =>
    match bank.instances id with
    | some i => do
      let (result, state) ← handler i.behaviour i.state
      return (result, bank.update id fun _ => state)
    | none => return (.ok default, bank)

/-- Reads a port, for the instruction at an offset. A cell that does not exist
    reads as zero. -/
def readPort (offset : Word) (address : Address) (p : Port) : Talk Bank Word :=
  match p.accessor with
  | .cell index => do return ((← get).instances p.owner).elim 0 fun i => i.state.cell index
  | .handler key => serve p.owner 0 fun b => b.read key ⟨offset, address⟩

/-- Writes a value to a port, for the instruction at an offset. A cell that does
    not exist ignores it. -/
def writePort (offset : Word) (address : Address) (p : Port) (value : Word) :
    Talk Bank Effect :=
  match p.accessor with
  | .cell index => do
    modify fun bank => bank.update p.owner fun state => state.setCell index value
    return .proceed
  | .handler key => serve p.owner .proceed fun b => b.write key value ⟨offset, address⟩

/-! ## Instructions -/

/-- How the instruction at an offset comes by its value. -/
def reading (registry : Registry) (offset : Word) : Source → Except Obstacle (Talk Bank Word)
  | .literal value => .ok (pure value)
  | .port address =>
    match port? registry address .read with
    | some p => .ok (readPort offset address p)
    | none => .error (.unresolved address.word .read)

/-- Makes the condition from a value, and goes on behind the instruction. -/
def makeCondition (offset : Word) (passes : Word → Bool) (read : Talk Bank Word) :
    Talk Bank Next := do
  let value ← read
  modify fun bank => { bank with condition := passes value }
  return .goto (offset + 8)

/-- Goes to a target if the condition holds, else behind the instruction. The
    condition is used up either way. -/
def jump (offset target : Word) : Talk Bank Next := do
  let taken := (← get).condition
  modify fun bank => { bank with condition := true }
  return .goto (if taken then target else offset + 8)

/-- Moves a value to a port, and goes on behind the instruction unless the port
    ends the program. -/
def move (offset : Word) (address : Address) (p : Port) (read : Talk Bank Word) :
    Talk Bank Next := do
  let value ← read
  match ← writePort offset address p value with
  | .proceed => return .goto (offset + 8)
  | .halt => return .halt

/-- What the instruction at an offset does, or what keeps it from doing anything.
    The obstacle of a source comes before that of a destination. -/
def action (registry : Registry) (offset : Word) (i : Instruction) :
    Except Obstacle (Talk Bank Next) :=
  match i.destination with
  | .control .branch =>
    match i.source with
    | .literal target =>
      if target % 8 = 0 then .ok (jump offset target) else .error (.misalignedJump target)
    | .port _ => .error .dynamicJump
  | .control .nonneg =>
    (reading registry offset i.source).map
      (makeCondition offset fun value => value.toNat < 0x80000000)
  | .control .zero =>
    (reading registry offset i.source).map (makeCondition offset fun value => value.toNat = 0)
  | .port address => do
    let read ← reading registry offset i.source
    match port? registry address .write with
    | some p => return move offset address p read
    | none => throw (.unresolved address.word .write)

/-- The word at a RAM offset of the host, or its trap. -/
def readWord (offset : Word) : Talk Bank Word := do
  match ← Talk.ask (.readWord offset) with
  | .ok word => return word
  | .error trap => throw trap

/-- Ends the run at an instruction with an obstacle. The host's words at its
    offset say whether it is the one that was decoded. -/
def refuse (offset : Word) (cause : Obstacle) (decoded : Word × Word) : Talk Bank Next := do
  let source ← readWord offset
  let destination ← readWord (offset + 4)
  if (source, destination) = decoded then throw (.uncompiled (cause.errorAt offset))
  else throw (.selfModifyingCode offset)

/-- Carries out the instruction at an offset of a RAM image. -/
def perform (registry : Registry) (image : Ram) (offset : Word) : Talk Bank Next :=
  let decoded := Segment.wordsAt image offset
  match action registry offset (.ofWords decoded.1 decoded.2) with
  | .ok act => act
  | .error cause => refuse offset cause decoded

/-! ## Runs -/

/-- Where a run over a range stands if control goes somewhere. -/
def place (start stop : Word) : Next → Place
  | .goto offset => if start ≤ offset ∧ offset < stop then .facing offset else .ended (.left offset)
  | .halt => .ended .completed

/-- Passes a suspension point at an offset, or traps as the host says. -/
def suspend (offset : Word) : Talk Bank Unit := do
  match ← Talk.ask (.suspend offset) with
  | .ok () => return ()
  | .error trap => throw trap

/-- Carries out the instruction at an offset of a RAM image, behind a suspension
    point if the options ask for one. -/
def step (registry : Registry) (options : Options) (image : Ram) (start stop offset : Word) :
    Talk Bank Place := do
  if options.singleStep then suspend offset
  return place start stop (← perform registry image offset)

/-- Carries out a number of instructions, or as many as there are until the run
    ends. -/
def run (registry : Registry) (options : Options) (image : Ram) (start stop : Word) :
    Nat → Place → Talk Bank Place
  | 0, position => pure position
  | _ + 1, .ended exit => pure (.ended exit)
  | count + 1, .facing offset => do
    run registry options image start stop count
      (← step registry options image start stop offset)

end Interpreter

end Transport
