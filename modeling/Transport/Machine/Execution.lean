import Transport.Machine.Control

/-!
# Execution on a Machine

The compute thread takes one small step at a time: it begins an execution, answers
one request of an instance that is attached or of the program, enters a segment, goes
from one op to the next, or waits. Between any two of its steps the one in control may
give the machine commands. Nothing is remembered from one execution to the next except
what is in the machine.

Without a segment size, all of RAM is one segment. It is compiled first, then the
instances are attached, and then its code is live. With a segment size, RAM is cut into
windows of that size, and only the window of the current instruction is compiled;
whenever control leaves it for another place in RAM, the window of that place is, and
the instances and the condition go along. Here the instances are attached before the
first window is compiled.

However an execution ends, no code is live behind it.

Callers that go to a suspension point outside of any execution wait there just like the
compute thread, but are in nobody's way.

## Main definitions

* `Machine.codeEnd`: Where the part of RAM ends that can hold instructions.
* `Machine.windowOf`: The window of an offset.
* `Session.answer`: The answer to a request.
* `Session.advance`: One small step of the compute thread.
* `Session.settle`: Steps until the thread waits or has nothing left to do.
* `Session.visit`, `Session.depart`: Goes to a suspension point outside of any
  execution, and leaves it.
-/

namespace Transport

/-- What a small step of the compute thread amounts to. -/
inductive Advance where
  /-- There is more to do. -/
  | moved
  /-- Nothing can be done now. -/
  | blocked
  /-- An execution came to its end. -/
  | finished (result : Except ExecutionError Unit)

namespace Machine

/-- The offset behind the part of RAM that can hold instructions: as far as words
    reach, in whole instructions. -/
def codeEnd (m : Machine) : Word :=
  -- A RAM that is longer than offsets reach counts as far as they do.
  let length := (Word.ofNat? m.ram.size).getD 0xFFFFFFFF
  length - length % 8

/-- The offset of the instruction at which execution begins, if it is a word. -/
def entryOffset? (m : Machine) : Option Word :=
  (Word.ofNat? m.config.entry).bind fun entry => Word.checkedMul entry 8

/-- The size of windows: whole instructions, and at least one. -/
def windowSize (size : Word) : Word :=
  let window := size - size % 8
  -- A size below one instruction would give windows that hold none.
  if window < 8 then 8 else window

/-- The first offset of the window of an offset, and the one behind it. -/
def windowOf (m : Machine) (size offset : Word) : Word × Word :=
  let window := windowSize size
  let start := offset - offset % window
  -- At the top of the offsets a window is cut off instead of wrapping around.
  let stop := Word.saturatingAdd start window
  (start, if stop < m.codeEnd then stop else m.codeEnd)

/-- The segment of a range of RAM. -/
def compile (m : Machine) (start stop : Word) : Except CompilationError Segment :=
  Segment.compile m.registry m.config.options m.ram start stop

/-- A segment becomes live. -/
def setLive (m : Machine) (segment : Segment) : Machine :=
  { m with liveCode := some segment.codeMap }

/-- Ends an execution: no code is live, and the thread is idle. -/
def clear (m : Machine) : Machine := { m with liveCode := none, thread := .idle }

/-- Outputs a value on the console. -/
def print (m : Machine) (value : Word) : Machine :=
  { m with console := m.console.print value }

/-- Sends a byte to a device. -/
def sendByte (m : Machine) (device : DeviceId) (byte : UInt8) : Machine :=
  { m with rack := m.rack.send device byte }

/-- Takes a byte from a device. -/
def takeByte (m : Machine) (device : DeviceId) : UInt8 × Machine :=
  let (byte, rack) := m.rack.take device
  (byte, { m with rack })

/-- Asks a device whether a byte waits in it. -/
def hasByte (m : Machine) (device : DeviceId) : Bool × Machine :=
  let (pending, rack) := m.rack.poll device
  (pending, { m with rack })

/-- Passes a suspension point, which uses a step permit up. -/
def pass (m : Machine) : Machine :=
  m.modifyControl fun state => { state with stepPermit := false }

end Machine

namespace Thread

variable {α : Type}

/-- What a thread does about the answer to a request: it waits at a suspension point
    that nobody objected to, and goes on with what is left behind any other answer. -/
def onAnswer (going : Dialogue α → Thread) (held : (Except Trap Unit → Dialogue α) → Thread) :
    (r : Request) → (r.Answer → Dialogue α) → r.Answer → Thread
  | .suspend _, next, .ok () => held next
  | _, next, answer => going (next answer)

end Thread

namespace Session

variable {ω : Type}

/-! ## Requests -/

/-- The answer to a request. That to a suspension point is what the listeners say. -/
def answer (a : Audience ω) (s : Session ω) : (r : Request) → r.Answer × Session ω
  | .readWord offset => (s.machine.readWord offset, s)
  | .storeWord offset value => s.store a offset value
  | .suspend offset =>
    let (result, s) := s.arrive a offset
    (result.mapError .listener, s)
  | .print value => ((), s.modify (·.print value))
  | .sendByte device byte => ((), s.modify (·.sendByte device byte))
  | .takeByte device =>
    let (byte, machine) := s.machine.takeByte device
    (byte, { s with machine })
  | .hasByte device =>
    let (pending, machine) := s.machine.hasByte device
    (pending, { s with machine })
  | .offered => (s.machine.peripherals, s)

/-- Answers a request of what the compute thread is at. -/
def serve {α : Type} (a : Audience ω) (s : Session ω) (going : Dialogue α → Thread)
    (held : (Except Trap Unit → Dialogue α) → Thread) (r : Request)
    (next : r.Answer → Dialogue α) : Advance × Session ω :=
  let (answer, s) := s.answer a r
  (.moved, s.modify (·.setThread (Thread.onAnswer going held r next answer)))

/-! ## Executions -/

/-- Ends an execution. -/
def finish (s : Session ω) (result : Except ExecutionError Unit) : Advance × Session ω :=
  (.finished result, s.modify Machine.clear)

/-- Goes on with what is left of an op. -/
def work (s : Session ω) (segment : Segment) (rest : Remainder) : Advance × Session ω :=
  (.moved, s.modify (·.setThread (.working segment rest)))

/-- Begins to attach fresh instances. -/
def board (s : Session ω) (outset : Outset) : Advance × Session ω :=
  (.moved, s.modify fun m =>
    m.setThread (.attaching outset (Context.fresh m.registry).bind))

/-- Begins an execution in one segment that is all of RAM. -/
def startWhole (s : Session ω) : Advance × Session ω :=
  -- RAM is compiled before instances are attached, and goes live only behind that.
  match s.machine.compile 0 s.machine.codeEnd with
  | .error error => s.finish (.error (.compilation error))
  | .ok segment => s.board (.whole segment)

/-- Begins an execution in windows of a size. -/
def startWindowed (s : Session ω) (size : Word) : Advance × Session ω :=
  match s.machine.entryOffset? with
  | none => s.finish (.error (.trap (.entryOutOfRange s.machine.config.entry)))
  | some offset =>
    -- The entry is looked at before anything is bound or compiled.
    if s.machine.codeEnd ≤ offset then
      s.finish (.error (.trap (.entryOutOfRange s.machine.config.entry)))
    else s.board (.windowed size offset)

/-- Runs a segment that was just made live, from one of its instructions. -/
def enter (s : Session ω) (segment : Segment) (entry : Nat) (context : Context) :
    Advance × Session ω :=
  match segment.enter entry with
  | .error trap => s.finish (.error (.trap trap))
  | .ok op => s.work segment (segment.step op context)

/-- Goes on with an execution whose instances are attached. -/
def embark (s : Session ω) (context : Context) : Outset → Advance × Session ω
  | .whole segment =>
    (s.modify (·.setLive segment)).enter segment s.machine.config.entry context
  | .windowed size offset => (.moved, s.modify (·.setThread (.entering size offset context)))

/-- Compiles the window of an offset and goes on there. -/
def enterWindow (s : Session ω) (size offset : Word) (context : Context) :
    Advance × Session ω :=
  let (start, stop) := s.machine.windowOf size offset
  -- A window is compiled each time it is entered, from RAM as it is then.
  match s.machine.compile start stop with
  | .error error => s.finish (.error (.compilation error))
  | .ok segment =>
    (s.modify (·.setLive segment)).enter segment ((offset - start) / 8).toNat context

/-- Follows control out of a segment: into the window of the target, if execution
    goes by windows and the target can hold an instruction. -/
def leave (s : Session ω) (target : Word) (context : Context) : Advance × Session ω :=
  match s.machine.config.segmentSize with
  | some size =>
    -- Behind the end there is no instruction, so no window is compiled for one.
    if target < s.machine.codeEnd then
      (.moved, s.modify (·.setThread (.entering size target context)))
    else s.finish (.error (.trap (.jumpOutsideRam target)))
  | none => s.finish (.error (.trap (.jumpOutsideRam target)))

/-- Does the next thing of what is left of an op: answers one request, or goes on
    to the next op or out of the segment. -/
def advanceWork (a : Audience ω) (s : Session ω) (segment : Segment) :
    Remainder → Advance × Session ω
  | .done (.error trap, _) => s.finish (.error (.trap trap))
  | .done (.ok (.standing op), context) => s.work segment (segment.step op context)
  | .done (.ok (.ended .completed), _) => s.finish (.ok ())
  | .done (.ok (.ended (.left target)), context) => s.leave target context
  | .ask r next => s.serve a (.working segment) (.waiting segment) r next

/-- Does the next thing of what is left of an attachment: answers one request, or goes
    on with the execution. -/
def advanceAttachment (a : Audience ω) (s : Session ω) (outset : Outset) :
    Dialogue Context → Advance × Session ω
  | .done context => s.embark context outset
  | .ask r next => s.serve a (.attaching outset) (.detained outset) r next

/-- Goes on behind a suspension point, unless it blocks. -/
def resume (s : Session ω) (thread : Thread) : Advance × Session ω :=
  if s.machine.control.blocks then (.blocked, s)
  -- Whoever goes on uses up the permit, if it was for that.
  else (.moved, s.modify fun m => m.pass.setThread thread)

/-- One small step of the compute thread. -/
def advance (a : Audience ω) (s : Session ω) : Advance × Session ω :=
  match s.machine.thread with
  | .idle => (.blocked, s)
  | .starting =>
    match s.machine.config.segmentSize with
    | none => s.startWhole
    | some size => s.startWindowed size
  | .attaching outset rest => s.advanceAttachment a outset rest
  | .detained outset next => s.resume (.attaching outset (next (.ok ())))
  | .entering size offset context => s.enterWindow size offset context
  | .working segment rest => s.advanceWork a segment rest
  | .waiting segment next => s.resume (.working segment (next (.ok ())))

/-- Lets the compute thread go on for at most so many small steps, until it waits or
    comes to an end. What it came to, if it came to an end, is the result. -/
def settle (a : Audience ω) : Nat → Session ω → Option (Except ExecutionError Unit) × Session ω
  | 0, s => (none, s)
  | fuel + 1, s =>
    match s.advance a with
    | (.moved, s) => settle a fuel s
    | (.blocked, s) => (none, s)
    | (.finished result, s) => (some result, s)

/-! ## Visits -/

/-- Goes to a suspension point outside of any execution. If no listener objects, the
    caller waits there. -/
def visit (a : Audience ω) (s : Session ω) (offset : Word) : Except String Unit × Session ω :=
  match s.arrive a offset with
  | (.error reason, s) => (.error reason, s)
  | (.ok (), s) => (.ok (), s.modify fun m => { m with visitors := m.visitors + 1 })

/-- Lets one of those leave who wait at a suspension point outside of any execution,
    if there is one and nothing holds it up. -/
def depart (s : Session ω) : Option (Session ω) :=
  match s.machine.visitors with
  | 0 => none
  | left + 1 =>
    -- Everyone who waits is held up by the same run state.
    if s.machine.control.blocks then none
    else some (s.modify fun m => { m.pass with visitors := left })

end Session

end Transport
