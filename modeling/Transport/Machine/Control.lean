import Transport.Listener

/-!
# Control of a Machine

Commands to a machine and the notifications that come with them. A store tells
the memory listeners, a start or a stop tells the execution listeners, and a
suspension point tells them where it is; each listener is told before the next,
and the first that refuses fails the whole.

The set of listeners that is told is the one at the beginning: a listener that
adds or removes others changes later events only.

A suspension point comes in two parts. On arrival the program counter is set,
the listeners are told, and a running machine stops if a breakpoint matches.
Then the compute thread waits as long as the machine is stopped without a step
permit; passing uses the permit up.

## Main definitions

* `Session.storeWith`, `Session.switchWith`, `Session.arriveWith`: The three
  activities that tell listeners.
* `Session.execute`: Begins an execution, unless one is under way.
* `Session.performWith`, `Session.perform`: Carries out a command.
* `Session.command`: Carries out a command of the one in control.
* `Session.store`, `Session.start`, `Session.stop`, `Session.arrive`: The
  activities, with the notifications of an audience.
-/

namespace Transport

namespace Session

variable {ω : Type}

/-- Stores a word, if nothing refuses it: not the bounds of RAM, not live code,
    and none of the memory listeners, who are told before the store is made. -/
def storeWith (notify : Notify ω) (s : Session ω) (offset value : Word) :
    Except Trap Unit × Session ω :=
  match s.machine.checkStore offset 4 with
  | .error trap => (.error trap, s)
  | .ok () =>
    match notify (.store offset value) s.machine.memoryListeners s with
    | (.error reason, s) => (.error (.listener reason), s)
    | (.ok (), s) =>
      -- What listeners did in between is no reason to write outside RAM.
      if s.machine.ram.holds offset 4 then
        (.ok (), s.modify fun m => m.putBytes offset (Word.bytes value))
      else (.error (.ramOutOfBounds offset), s)

/-- Starts or stops the machine and tells the execution listeners. The change
    stays even if one of them refuses. -/
def switchWith (notify : Notify ω) (s : Session ω) (running : Bool) :
    Except String Unit × Session ω :=
  let s := s.modify fun m => m.modifyControl fun state => state.switch running
  notify .status s.machine.executionListeners s

/-- Arrives at a suspension point. -/
def arriveWith (notify : Notify ω) (s : Session ω) (offset : Word) :
    Except String Unit × Session ω :=
  let s := s.modify fun m => m.modifyControl fun state => { state with pc := offset }
  -- Listeners find the program counter where the thread has arrived.
  match notify .arrival s.machine.executionListeners s with
  | (.error reason, s) => (.error reason, s)
  | (.ok (), s) =>
    -- A listener may have stopped the machine just now, and then there is nothing to stop.
    if s.machine.control.running && s.machine.hitsBreakpoint offset then
      s.switchWith notify false
    else (.ok (), s)

/-- Begins an execution, unless one is under way. The compute thread carries it out;
    whoever asked for it goes on. -/
def execute (s : Session ω) : Except ExecutionError (Session ω) :=
  if s.machine.thread.isExecuting then .error .busy
  else .ok (s.modify (·.setThread .starting))

/-- Carries out a command, given a way to tell listeners. -/
def performWith (notify : Notify ω) (command : Command) (s : Session ω) :
    Except CommandError Unit × Session ω :=
  match command with
  | .store offset value =>
    let (result, s) := s.storeWith notify offset value
    (result.mapError .trapped, s)
  | .copy offset data =>
    match s.machine.copy offset data with
    | .ok machine => (.ok (), { s with machine })
    | .error trap => (.error (.trapped trap), s)
  | .start =>
    let (result, s) := s.switchWith notify true
    (result.mapError .refused, s)
  | .stop =>
    let (result, s) := s.switchWith notify false
    (result.mapError .refused, s)
  | .step => (.ok (), s.modify Machine.step)
  | .addBreakpoint breakpoint => (.ok (), s.modify (·.addBreakpoint breakpoint))
  | .removeBreakpoint breakpoint => (.ok (), s.modify (·.removeBreakpoint breakpoint))
  | .clearBreakpoints => (.ok (), s.modify Machine.clearBreakpoints)
  | .addMemoryListener id => (.ok (), s.modify (·.addMemoryListener id))
  | .removeMemoryListener id => (.ok (), s.modify (·.removeMemoryListener id))
  | .addExecutionListener id => (.ok (), s.modify (·.addExecutionListener id))
  | .removeExecutionListener id => (.ok (), s.modify (·.removeExecutionListener id))
  | .attach port device => (.ok (), s.modify fun m => (m.attach? port device).getD m)
  | .detach port => (.ok (), s.modify (·.detach port))
  | .setSink sink => (.ok (), s.modify (·.setSink sink))
  | .execute =>
    match s.execute with
    | .ok s => (.ok (), s)
    | .error _ => (.error .busy, s)

/-- Carries out the commands of reactions of a depth. Those of depth zero give none. -/
def perform (a : Audience ω) : Nat → Perform ω
  | 0 => fun _ s => (.ok (), s)
  | depth + 1 => performWith (a.tell depth (perform a depth))

end Session

namespace Audience

variable {ω : Type}

/-- Tells listeners of an event that did not come from a listener. -/
def notify (a : Audience ω) : Notify ω := a.tell a.nesting (Session.perform a a.nesting)

end Audience

namespace Session

variable {ω : Type}

/-- Carries out a command of the one in control. -/
def command (a : Audience ω) : Perform ω := performWith a.notify

/-- Stores a word, telling the memory listeners. -/
def store (a : Audience ω) (s : Session ω) (offset value : Word) :
    Except Trap Unit × Session ω :=
  s.storeWith a.notify offset value

/-- Starts the machine, telling the execution listeners. -/
def start (a : Audience ω) (s : Session ω) : Except String Unit × Session ω :=
  s.switchWith a.notify true

/-- Stops the machine, telling the execution listeners. -/
def stop (a : Audience ω) (s : Session ω) : Except String Unit × Session ω :=
  s.switchWith a.notify false

/-- Arrives at a suspension point, telling the execution listeners. -/
def arrive (a : Audience ω) (s : Session ω) (offset : Word) : Except String Unit × Session ω :=
  s.arriveWith a.notify offset

end Session

end Transport
