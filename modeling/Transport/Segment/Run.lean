import Transport.Segment.Compilation

/-!
# Running a Segment

A run goes from op to op, in dialogue with the host, until the program halts or
control leaves the segment. The run belongs to a context, whose instances serve
the ports. A trap ends the run and keeps what was changed before.

A test makes the condition, and a jump uses it up: a jump is taken if the
condition holds, and leaves it set either way. A trap op tells data that was
reached by mistake from an instruction that has changed, by reading its words
back.

## Main definitions

* `Exec`: A change of a context, in dialogue with the host.
* `Op.perform`: What an op does.
* `Segment.step`: One op of a run.
* `Segment.enter`: The beginning of a run.
* `Segment.runFor`: A run on a host that never blocks, for a number of ops.
-/

namespace Transport

/-- A change of a context, in dialogue with the host. It may trap, which keeps
    the changes made so far. -/
abbrev Exec := ExceptT Trap (StateT Context Dialogue)

/-- Why a run of a segment ended. -/
inductive Exit where
  /-- The program halted. -/
  | completed
  /-- Control goes on at an offset outside the segment. -/
  | left (target : Word)
  deriving DecidableEq, Repr

/-- What an op leads to. -/
inductive Flow where
  /-- The next op. -/
  | next
  /-- The target of a jump. -/
  | jump (target : Target)
  /-- The end of the program. -/
  | halt
  deriving DecidableEq, Repr

/-- Where a run stands between two ops. -/
inductive Progress where
  /-- In front of an op. -/
  | standing (op : Nat)
  /-- At its end. -/
  | ended (exit : Exit)
  deriving DecidableEq, Repr

namespace Exec

/-- Runs a handler of the instance in a slot. A slot without an instance serves
    nothing and answers with the default. -/
def call {α : Type} (slot : Nat) (default : α) (handler : Behaviour → Handler α) : Exec α :=
  fun context =>
    match context.instances[slot]? with
    | some i => do
      let (result, state) ← handler i.behaviour i.state
      return (result, context.setState slot state)
    | none => return (.ok default, context)

/-- The host's answer to a request that it may refuse. -/
def ask (r : Request) : Exec r.Answer := ExceptT.lift (StateT.lift (Dialogue.request r))

end Exec

namespace Load

/-- The value that a load delivers to the instruction at an offset. -/
def value (offset : Word) : Load → Exec Word
  | .const value => pure value
  | .cell slot index => do return (← get).cell slot index
  | .call slot key address => Exec.call slot 0 fun b => b.read key ⟨offset, address⟩

end Load

namespace Store

/-- Puts a value where a store of the instruction at an offset says. -/
def put (offset value : Word) : Store → Exec Effect
  | .cell slot index => do
    modify fun context => context.setCell slot index value
    return .proceed
  | .call slot key address => Exec.call slot .proceed fun b => b.write key value ⟨offset, address⟩

end Store

namespace Op

/-- What the host's words at a trap say about the instruction: it is still the
    one that does not compile, or it has changed. -/
def trapOf (offset : Word) (cause : Obstacle) (compiled current : Word × Word) : Trap :=
  if current = compiled then .uncompiled (cause.errorAt offset) else .selfModifyingCode offset

/-- What an op does. -/
def perform : Op → Exec Flow
  | .suspend offset => do
    match ← Exec.ask (.suspend offset) with
    | .ok () => return .next
    | .error reason => throw reason
  | .move offset load store => do
    let value ← load.value offset
    match ← store.put offset value with
    | .proceed => return .next
    | .halt => return .halt
  | .test offset load kind => do
    let value ← load.value offset
    modify fun context => { context with condition := kind.holds value }
    return .next
  | .branch target => do
    -- The condition is used up, whether the jump is made or not.
    let taken := (← get).condition
    modify fun context => { context with condition := true }
    return if taken then .jump target else .next
  | .trap offset cause source destination => do
    -- The words are read again, as another instruction may stand there by now.
    match ← Exec.ask (.readWord offset) with
    | .error reason => throw reason
    | .ok currentSource =>
      match ← Exec.ask (.readWord (offset + 4)) with
      | .error reason => throw reason
      | .ok currentDestination =>
        throw (trapOf offset cause (source, destination) (currentSource, currentDestination))

end Op

namespace Segment

/-- Where a run stands after an op that led somewhere. -/
def follow (op : Nat) : Flow → Progress
  | .next => .standing (op + 1)
  | .jump (.inside target) => .standing target
  | .jump (.outside target) => .ended (.left target)
  | .halt => .ended .completed

/-- One op of a run. Behind the last op, control leaves at the end of the range. -/
def step (segment : Segment) (op : Nat) : Exec Progress :=
  match segment.ops[op]? with
  | none => pure (.ended (.left segment.stop))
  | some current => do return follow op (← current.perform)

/-- The op at which a run from an instruction begins. -/
def enter (segment : Segment) (entry : Nat) : Except Trap Nat :=
  match segment.entries[entry]? with
  | some op => .ok op
  | none => .error (.entryOutOfRange entry)

universe u

/-- A run from an op on, with a host that never blocks. After the given number of
    ops without an end, it has no result. -/
def runFor {η : Type u} (host : Host η) (segment : Segment) :
    Nat → Nat → Context → η → Option (Except Trap Exit) × Context × η
  | 0, _, context, state => (none, context, state)
  | fuel + 1, op, context, state =>
    match (segment.step op context).converse host state with
    | ((.error trap, context), state) => (some (.error trap), context, state)
    | ((.ok (.ended exit), context), state) => (some (.ok exit), context, state)
    | ((.ok (.standing op), context), state) => runFor host segment fuel op context state

end Segment

end Transport
