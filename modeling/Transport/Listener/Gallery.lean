import Transport.Listener

/-!
# A Gallery of Listeners

An audience made of three kinds of listeners.

A channel reports events to a receiver and fails once the receiver is gone. A
budget lets a number of suspension points go by and refuses the next. A probe
writes everything it is told into a common log; it may refuse after it has seen
a number of events of one kind, and it may give a command at a suspension point.

## Main definitions

* `Channel`, `Probe`, `Listener`: The kinds.
* `Gallery`: All listeners, by number, and the log.
* `Gallery.respond`: What each of them does about an event.
* `Gallery.audience`: The gallery as an audience.
-/

namespace Transport

/-- What a channel reports. -/
inductive Report where
  /-- A word is being stored. -/
  | store (offset value : Word)
  /-- A suspension point was reached. -/
  | arrival (offset : Word)
  /-- The machine was started or stopped. -/
  | status (running : Bool)
  deriving DecidableEq, Repr

/-- A listener that reports to a receiver. -/
structure Channel where
  /-- Whether the receiver is there. -/
  connected : Bool := true
  /-- The reports sent so far. -/
  reports : Array Report := #[]
  deriving DecidableEq, Repr

/-- What a probe saw. -/
inductive Sighting where
  /-- A store, and the word that was at the offset before. -/
  | store (offset value before : Word)
  /-- A suspension point, and whether the machine was running. -/
  | arrival (offset : Word) (running : Bool)
  /-- A start or a stop. -/
  | status (running : Bool)
  deriving DecidableEq, Repr

/-- One kind of event from the view of a probe: how often it was seen, and from
    which time on the probe refuses it. -/
structure Watch where
  /-- How often such an event was seen. -/
  seen : Nat := 0
  /-- How many are let through, if not all. -/
  limit : Option Nat := none
  deriving DecidableEq, Repr

/-- A listener that logs, and may refuse or give a command. -/
structure Probe where
  /-- The stores. -/
  stores : Watch := {}
  /-- The suspension points. -/
  arrivals : Watch := {}
  /-- The starts and stops. -/
  statuses : Watch := {}
  /-- What it says when it refuses. -/
  reason : String := "refused"
  /-- The command it gives, and the offset of the suspension point where it does. -/
  order : Option (Word × Command) := none

/-- A listener of the gallery. -/
inductive Listener where
  /-- Reports to a receiver. -/
  | channel (channel : Channel)
  /-- Lets a number of suspension points go by. -/
  | budget (left : Nat)
  /-- Logs, and may refuse or give a command. -/
  | probe (probe : Probe)

/-- All listeners, by number, and what the probes saw. -/
structure Gallery where
  /-- The listeners. -/
  listeners : Array Listener := #[]
  /-- The sightings, in order, each with the number of the probe. -/
  log : Array (ListenerId × Sighting) := #[]

namespace Watch

/-- Whether one more event is refused. -/
def refuses (watch : Watch) : Bool :=
  match watch.limit with
  | some limit => limit ≤ watch.seen
  | none => false

/-- Counts one more event. -/
def count (watch : Watch) : Watch := { watch with seen := watch.seen + 1 }

end Watch

namespace Probe

/-- What a probe has seen of one kind of event. -/
def watch (probe : Probe) : Event → Watch
  | .store _ _ => probe.stores
  | .arrival => probe.arrivals
  | .status => probe.statuses

/-- Counts an event. -/
def count (probe : Probe) : Event → Probe
  | .store _ _ => { probe with stores := probe.stores.count }
  | .arrival => { probe with arrivals := probe.arrivals.count }
  | .status => { probe with statuses := probe.statuses.count }

/-- The command that a probe gives at an event. -/
def orderAt? (probe : Probe) (event : Event) (m : Machine) : Option Command :=
  match event, probe.order with
  | .arrival, some (offset, command) => if m.control.pc = offset then some command else none
  | _, _ => none

end Probe

namespace Gallery

/-- What a channel says when its receiver is gone. -/
def disconnected : String := "sending on a disconnected channel"

/-- What a budget says when it is used up. -/
def outOfFuel : String := "out of fuel"

/-- Adds a listener and gives it the next number. -/
def add (g : Gallery) (listener : Listener) : ListenerId × Gallery :=
  (g.listeners.size, { g with listeners := g.listeners.push listener })

/-- Replaces a listener. -/
def set (g : Gallery) (id : ListenerId) (listener : Listener) : Gallery :=
  { g with listeners := g.listeners.setIfInBounds id listener }

/-- Writes a sighting into the log. -/
def record (g : Gallery) (id : ListenerId) (sighting : Sighting) : Gallery :=
  { g with log := g.log.push (id, sighting) }

/-- Takes the receiver of a channel away. -/
def disconnect (g : Gallery) (id : ListenerId) : Gallery :=
  match g.listeners[id]? with
  | some (.channel channel) => g.set id (.channel { channel with connected := false })
  | _ => g

/-- What a channel reports about an event. -/
def report (m : Machine) : Event → Report
  | .store offset value => .store offset value
  | .arrival => .arrival m.control.pc
  | .status => .status m.control.running

/-- What a probe sees of an event. -/
def sighting (m : Machine) : Event → Sighting
  | .store offset value => .store offset value ((m.ram.word? offset).getD 0)
  | .arrival => .arrival m.control.pc m.control.running
  | .status => .status m.control.running

/-- What a listener does about an event. Where a reaction is not deep enough for a
    command, none is given. -/
def respond (depth : Nat) (id : ListenerId) (event : Event) (s : Session Gallery) :
    Reaction Gallery depth :=
  match s.audience.listeners[id]? with
  | none => .accept
  | some (.channel channel) =>
    if channel.connected then
      let reports := channel.reports.push (report s.machine event)
      .note (s.audience.set id (.channel { channel with reports })) .accept
    else .refuse disconnected
  | some (.budget left) =>
    -- A budget counts suspension points and lets everything else by.
    match event, left with
    | .arrival, 0 => .refuse outOfFuel
    | .arrival, left + 1 => .note (s.audience.set id (.budget left)) .accept
    | _, _ => .accept
  | some (.probe probe) =>
    let noted := (s.audience.set id (.probe (probe.count event))).record id
      (sighting s.machine event)
    .note noted <|
      -- What it saw before this event decides whether it refuses.
      if (probe.watch event).refuses then .refuse probe.reason
      else
        match depth, probe.orderAt? event s.machine with
        | _ + 1, some command => .give command fun
          | .ok (), _ => .accept
          | .error error, _ => .refuse error.message
        | _, _ => .accept

/-- The gallery as an audience. Its probes give commands at suspension points only,
    and no command leads to one, so their reactions are of depth one. -/
def audience : Audience Gallery where
  respond := respond
  nesting := 1

end Gallery

end Transport
