import Transport.Machine.State

/-!
# Listeners

A listener is told of what happens to a machine, at once and before it takes
effect: of stores, of suspension points, and of starts and stops. It may refuse,
which fails whatever made the event happen, and it may give the machine
commands, each of which is carried out before the listener goes on.

What the listeners do is given by an audience: for every listener and every
event a reaction, which is a finite tree of commands. All listeners share one
state of the audience's own type, so an audience may be anything that observes
and controls a machine.

Commands of listeners can make further events, about which listeners may give
commands again. This has to come to an end, so a reaction has a depth: one of depth
zero gives no commands, and inside a command of a deeper one, reactions are less
deep. What a listener does may depend on the depth, and how deep the reactions to
other events are is up to the audience.

## Main definitions

* `Event`: What listeners are told.
* `Command`: What a machine can be told to do.
* `Session`: A machine and the state of its audience.
* `Reaction`: What a listener does.
* `Audience`: The reactions of all listeners.
* `Reaction.run`: Carries a reaction out.
-/

namespace Transport

/-- What listeners are told. -/
inductive Event where
  /-- A word is about to be stored. -/
  | store (offset value : Word)
  /-- A suspension point was reached; the program counter says which. -/
  | arrival
  /-- The machine was started or stopped; the run state says which. -/
  | status
  deriving DecidableEq, Repr

/-- What a machine can be told to do. -/
inductive Command where
  /-- To store a word, telling the memory listeners. -/
  | store (offset value : Word)
  /-- To copy bytes into RAM, telling nobody. -/
  | copy (offset : Word) (data : List UInt8)
  /-- To run. -/
  | start
  /-- To stop at the next suspension point. -/
  | stop
  /-- To let one suspension point pass. -/
  | step
  /-- To stop where a breakpoint matches. -/
  | addBreakpoint (breakpoint : Breakpoint)
  /-- To forget a breakpoint. -/
  | removeBreakpoint (breakpoint : Breakpoint)
  /-- To forget all breakpoints. -/
  | clearBreakpoints
  /-- To tell a listener of stores. -/
  | addMemoryListener (id : ListenerId)
  /-- To tell a listener of stores no longer. -/
  | removeMemoryListener (id : ListenerId)
  /-- To tell a listener of suspension points, starts and stops. -/
  | addExecutionListener (id : ListenerId)
  /-- To tell a listener of suspension points, starts and stops no longer. -/
  | removeExecutionListener (id : ListenerId)
  /-- To attach a device to an I/O port, unless the port is taken. -/
  | attach (port : UInt16) (device : DeviceId)
  /-- To detach the device from an I/O port. -/
  | detach (port : UInt16)
  /-- To send printed values somewhere else. -/
  | setSink (sink : Sink)
  /-- To have the compute thread begin an execution. -/
  | execute
  deriving DecidableEq

/-- Why a command failed. -/
inductive CommandError where
  /-- A listener refused to be told of a start or a stop. -/
  | refused (reason : String)
  /-- A store or a copy trapped. -/
  | trapped (trap : Trap)
  /-- An execution is under way. -/
  | busy
  deriving DecidableEq, Repr

namespace CommandError

/-- The wording of a command error. -/
def message : CommandError → String
  | .refused reason => reason
  | .trapped trap => trap.message
  | .busy => ExecutionError.busy.message

end CommandError

/-- A machine and the state of its audience. -/
structure Session (ω : Type) where
  /-- The machine. -/
  machine : Machine
  /-- What the audience knows. -/
  audience : ω

namespace Session

variable {ω : Type}

/-- Changes the machine of a session. -/
def modify (s : Session ω) (change : Machine → Machine) : Session ω :=
  { s with machine := change s.machine }

end Session

/-- What a listener does about an event, with commands nested at most so deep. -/
inductive Reaction (ω : Type) : Nat → Type 1 where
  /-- It has no objection. -/
  | accept {depth : Nat} : Reaction ω depth
  /-- It refuses. -/
  | refuse {depth : Nat} (reason : String) : Reaction ω depth
  /-- It changes the state of the audience and goes on. -/
  | note {depth : Nat} (audience : ω) (next : Reaction ω depth) : Reaction ω depth
  /-- It gives a command, sees what comes of it, and goes on. -/
  | give {depth : Nat} (command : Command)
      (next : Except CommandError Unit → Session ω → Reaction ω (depth + 1)) :
      Reaction ω (depth + 1)

/-- The reactions of all listeners, and how deep those to events are that did not
    come from a listener. -/
structure Audience (ω : Type) where
  /-- What a listener does about an event at a depth, given the session as it is then. -/
  respond : (depth : Nat) → ListenerId → Event → Session ω → Reaction ω depth
  /-- The depth of reactions to events that did not come from a listener. -/
  nesting : Nat

/-- A way to carry out commands. -/
abbrev Perform (ω : Type) := Command → Session ω → Except CommandError Unit × Session ω

/-- A way to tell listeners of an event, one after the other up to the first that
    refuses. -/
abbrev Notify (ω : Type) :=
  Event → List ListenerId → Session ω → Except String Unit × Session ω

namespace Reaction

variable {ω : Type}

/-- Carries a reaction out, given a way to carry out commands. -/
def run {depth : Nat} (perform : Perform ω) :
    Reaction ω depth → Session ω → Except String Unit × Session ω
  | .accept, s => (.ok (), s)
  | .refuse reason, s => (.error reason, s)
  | .note audience next, s => next.run perform { s with audience }
  | .give command next, s =>
    let (result, s) := perform command s
    (next result s).run perform s

end Reaction

namespace Audience

variable {ω : Type}

/-- Tells listeners of an event at a depth, given a way to carry out their commands. -/
def tell (a : Audience ω) (depth : Nat) (perform : Perform ω) : Notify ω
  | _, [], s => (.ok (), s)
  -- Those still to be told were listed when it happened; commands do not change that any more.
  | event, id :: later, s =>
    match (a.respond depth id event s).run perform s with
    | (.ok (), s) => a.tell depth perform event later s
    | (.error reason, s) => (.error reason, s)

end Audience

end Transport
