import Transport.Breakpoint
import Transport.Machine.Config
import Transport.Segment.CodeMap
import Transport.Segment.Run

/-!
# Machine State

Everything that a machine holds: RAM, devices, a console, breakpoints, the
listeners by number, and what its compute thread is doing.

The compute thread is either idle, or somewhere in an execution. First it attaches
the module instances, which may ask the machine for things as the program does
later. Between two requests it is at work on what is left of an attachment or of an
op. At a suspension point it waits, and what it keeps is how to go on. Besides it,
any number of callers may wait at suspension points that belong to no execution.

While a segment executes, its code map is live: stores into its compiled slots
are refused.

## Main definitions

* `RunState`: Whether the machine runs, and where it stands.
* `Console`: Where printed values go.
* `Outset`: What an execution does once its instances are attached.
* `Thread`: What the compute thread is doing.
* `Machine`: All of it.
* `Machine.create`: A machine before its first execution.
* `Machine.checkStore`: Whether a store is in bounds and hits no live code.
-/

namespace Transport

/-- The number of a listener, by which it is told from others. -/
abbrev ListenerId := Nat

/-- Whether a machine runs, and where it stands. -/
structure RunState where
  /-- Whether suspension points are passed without waiting. -/
  running : Bool := false
  /-- The offset of the last suspension point reached. -/
  pc : Word := 0
  /-- Whether one suspension point may be passed while the machine is stopped. -/
  stepPermit : Bool := false
  deriving DecidableEq, Repr

/-- The kinds of consoles. -/
inductive Sink where
  /-- Prints each value on a line of its own. -/
  | stdout
  /-- Collects the values. -/
  | buffer
  deriving DecidableEq, Repr

/-- Where printed values go, and what has arrived there. -/
structure Console where
  /-- Where values go now. -/
  sink : Sink := .stdout
  /-- The lines printed so far. -/
  lines : Array String := #[]
  /-- The values collected so far. -/
  values : Array Word := #[]
  deriving DecidableEq, Repr

/-- What is left of one op of a run. -/
abbrev Remainder := Dialogue (Except Trap Progress × Context)

/-- What an execution does once its instances are attached. -/
inductive Outset where
  /-- It runs a segment that is all of RAM. -/
  | whole (segment : Segment)
  /-- It goes to the window of an offset, windows having the given size. -/
  | windowed (size offset : Word)

/-- What the compute thread is doing. -/
inductive Thread where
  /-- Nothing. -/
  | idle
  /-- About to begin an execution. -/
  | starting
  /-- Attaching the instances of an execution, with some of that left to do. -/
  | attaching (outset : Outset) (rest : Dialogue Context)
  /-- Waiting at a suspension point inside an attachment, and what is left after it. -/
  | detained (outset : Outset) (resume : Except Trap Unit → Dialogue Context)
  /-- About to compile the window of an offset, windows having the given size, and
      to go on there. -/
  | entering (size offset : Word) (context : Context)
  /-- Executing a segment, with some of an op left to do. -/
  | working (segment : Segment) (rest : Remainder)
  /-- Waiting at a suspension point, and what is left after it. -/
  | waiting (segment : Segment) (resume : Except Trap Unit → Remainder)

/-- A machine. -/
structure Machine where
  /-- The ports that programs can reach. -/
  registry : Registry
  /-- What was decided before. -/
  config : Config
  /-- The memory. -/
  ram : Ram
  /-- The listeners that are told of stores, in the order they were added. -/
  memoryListeners : List ListenerId := []
  /-- The listeners that are told of suspension points and of starts and stops. -/
  executionListeners : List ListenerId := []
  /-- Which device is on which I/O port. -/
  peripherals : DeviceTable := {}
  /-- The devices. -/
  rack : Rack := {}
  /-- Where printed values go. -/
  console : Console := {}
  /-- The breakpoints, each once. -/
  breakpoints : List Breakpoint := []
  /-- Whether the machine runs, and where it stands. -/
  control : RunState := {}
  /-- The code map of the segment that is executing. -/
  liveCode : Option CodeMap := none
  /-- What the compute thread is doing. -/
  thread : Thread := .idle
  /-- How many callers wait at suspension points outside of any execution. -/
  visitors : Nat := 0

namespace Console

/-- Outputs a value. A line shows it as a signed number behind a colon. -/
def print (console : Console) (value : Word) : Console :=
  match console.sink with
  | .stdout =>
    { console with
      lines := console.lines.push (": " ++ Numeral.signedDecimal (Word.signed value) ++ "\n") }
  | .buffer => { console with values := console.values.push value }

end Console

namespace RunState

/-- Whether a suspension point holds the compute thread up. -/
def blocks (state : RunState) : Bool := !state.running && !state.stepPermit

/-- The state after a start or a stop, which both withdraw a step permit. -/
def switch (state : RunState) (running : Bool) : RunState :=
  { state with running, stepPermit := false }

/-- The text a debugger shows. -/
def description (state : RunState) : String :=
  Layout.record "RunState" [("running", Layout.truth state.running),
    ("pc", Op.wordText state.pc), ("step_permit", Layout.truth state.stepPermit)]

end RunState

namespace Thread

/-- Whether the thread is in an execution. -/
def isExecuting : Thread → Bool
  | .idle => false
  | _ => true

end Thread

namespace Machine

/-- A machine before its first execution. -/
def create (source : ByteSource) (registry : Registry) (config : Config) : Machine where
  registry := registry
  config := config
  ram := Ram.create source config.ramSize config.ramInit

/-- Replaces what the compute thread is doing. -/
def setThread (m : Machine) (thread : Thread) : Machine := { m with thread }

/-! ## RAM -/

/-- The word at an offset, or a trap outside RAM. -/
def readWord (m : Machine) (offset : Word) : Except Trap Word :=
  match m.ram.word? offset with
  | some word => .ok word
  | none => .error (.ramOutOfBounds offset)

/-- The bytes of a range, or a trap outside RAM. -/
def slice (m : Machine) (offset : Word) (length : Nat) : Except Trap (Array UInt8) :=
  match m.ram.slice? offset length with
  | some bytes => .ok bytes
  | none => .error (.ramOutOfBounds offset)

/-- Refuses a store outside RAM, and one that reaches into live code. -/
def checkStore (m : Machine) (offset : Word) (length : Nat) : Except Trap Unit :=
  if m.ram.holds offset length then
    match m.liveCode.bind fun code => code.overlap? offset length with
    | some slot => .error (.selfModifyingCode slot)
    | none => .ok ()
  else .error (.ramOutOfBounds offset)

/-- The machine after bytes were put into RAM. -/
def putBytes (m : Machine) (offset : Word) (data : List UInt8) : Machine :=
  { m with ram := m.ram.put offset data }

/-- Copies bytes into RAM. Listeners are not told; this is how programs are loaded. -/
def copy (m : Machine) (offset : Word) (data : List UInt8) : Except Trap Machine :=
  match Word.ofNat? data.length with
  -- A length that is no word fits in no RAM.
  | none => .error (.ramOutOfBounds offset)
  | some _ =>
    match m.checkStore offset data.length with
    | .error trap => .error trap
    | .ok () => .ok (m.putBytes offset data)

/-! ## Devices, console and listeners -/

/-- Attaches a device to an I/O port, unless the port is taken. Executions that
    begin later see the device. -/
def attach? (m : Machine) (port : UInt16) (device : DeviceId) : Option Machine :=
  (m.peripherals.insert? port device).map fun peripherals => { m with peripherals }

/-- Detaches the device from an I/O port. -/
def detach (m : Machine) (port : UInt16) : Machine :=
  { m with peripherals := m.peripherals.erase port }

/-- Says where printed values go from now on. -/
def setSink (m : Machine) (sink : Sink) : Machine :=
  { m with console := { m.console with sink } }

/-- Adds a listener behind the others, unless it is there. -/
def addListener (id : ListenerId) (listeners : List ListenerId) : List ListenerId :=
  -- A listener that is added again keeps its place.
  if listeners.contains id then listeners else listeners ++ [id]

/-- Has a listener told of stores. -/
def addMemoryListener (m : Machine) (id : ListenerId) : Machine :=
  { m with memoryListeners := addListener id m.memoryListeners }

/-- Has a listener no longer told of stores. -/
def removeMemoryListener (m : Machine) (id : ListenerId) : Machine :=
  { m with memoryListeners := m.memoryListeners.filter (· != id) }

/-- Has a listener told of suspension points, starts and stops. -/
def addExecutionListener (m : Machine) (id : ListenerId) : Machine :=
  { m with executionListeners := addListener id m.executionListeners }

/-- Has a listener no longer told of suspension points, starts and stops. -/
def removeExecutionListener (m : Machine) (id : ListenerId) : Machine :=
  { m with executionListeners := m.executionListeners.filter (· != id) }

/-! ## Breakpoints and control -/

/-- Adds a breakpoint, unless it is there. -/
def addBreakpoint (m : Machine) (breakpoint : Breakpoint) : Machine :=
  if m.breakpoints.contains breakpoint then m
  else { m with breakpoints := m.breakpoints ++ [breakpoint] }

/-- Removes a breakpoint. -/
def removeBreakpoint (m : Machine) (breakpoint : Breakpoint) : Machine :=
  { m with breakpoints := m.breakpoints.filter (· != breakpoint) }

/-- Removes all breakpoints. -/
def clearBreakpoints (m : Machine) : Machine := { m with breakpoints := [] }

/-- Whether a breakpoint matches at the suspension point of an offset. -/
def hitsBreakpoint (m : Machine) (offset : Word) : Bool :=
  m.breakpoints.any fun breakpoint => breakpoint.hits offset m.ram

/-- Changes the run state. -/
def modifyControl (m : Machine) (change : RunState → RunState) : Machine :=
  { m with control := change m.control }

/-- Lets one suspension point pass while the machine is stopped. Permits do not
    add up. -/
def step (m : Machine) : Machine := m.modifyControl fun state => { state with stepPermit := true }

/-- The text a debugger shows. -/
def description (m : Machine) : String :=
  Layout.openRecord "Machine" [("config", m.config.description),
    ("state", m.control.description), ("executing", Layout.truth m.thread.isExecuting)]

end Machine

end Transport
