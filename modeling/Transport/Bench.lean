import Transport.Ram
import Transport.Segment.Run

/-!
# The Bench

A host for trying out modules and segments without a machine. It has RAM and
devices, never blocks, and keeps a record of what it was asked to do: values
printed, suspension points passed, and stores made. Suspension points use up
fuel, so that a program that loops through one comes to an end.

## Main definitions

* `Bench`: RAM, devices, fuel and the record.
* `Bench.host`: The bench as a host.
* `Bench.converse`: A handler tried out on the bench.
* `Bench.attach`: An instance attached to the bench.
-/

namespace Transport

/-- A host that records what it is asked to do. -/
structure Bench where
  /-- The RAM. -/
  ram : Ram
  /-- The devices. -/
  rack : Rack := {}
  /-- Which devices are offered on which ports. -/
  offered : DeviceTable := {}
  /-- How many more suspension points may be passed. -/
  fuel : Nat
  /-- The values printed. -/
  printed : Array Word := #[]
  /-- The suspension points passed. -/
  stops : Array Word := #[]
  /-- The stores made. -/
  writes : Array (Word × Word) := #[]

namespace Bench

/-- What is said where the fuel has run out. -/
def outOfFuel : String := "out of fuel"

/-- The word at an offset, or a trap outside RAM. -/
def readWord (bench : Bench) (offset : Word) : Except Trap Word :=
  match bench.ram.word? offset with
  | some word => .ok word
  | none => .error (.ramOutOfBounds offset)

/-- Stores a word and records it, or traps outside RAM. -/
def storeWord (bench : Bench) (offset value : Word) : Except Trap Unit × Bench :=
  if bench.ram.holds offset 4 then
    (.ok (), { bench with
      ram := bench.ram.put offset (Word.bytes value)
      writes := bench.writes.push (offset, value) })
  else (.error (.ramOutOfBounds offset), bench)

/-- Passes a suspension point and records it, or fails without fuel. -/
def suspend (bench : Bench) (offset : Word) : Except Trap Unit × Bench :=
  match bench.fuel with
  | 0 => (.error (.listener outOfFuel), bench)
  | fuel + 1 => (.ok (), { bench with fuel, stops := bench.stops.push offset })

/-- Copies bytes into RAM, if they fit. -/
def copy? (bench : Bench) (offset : Word) (data : List UInt8) : Option Bench :=
  (bench.ram.copy? offset data).map fun ram => { bench with ram }

/-- Takes a byte from a device. -/
def takeByte (bench : Bench) (device : DeviceId) : UInt8 × Bench :=
  let (byte, rack) := bench.rack.take device
  (byte, { bench with rack })

/-- Asks a device whether a byte waits in it. -/
def hasByte (bench : Bench) (device : DeviceId) : Bool × Bench :=
  let (pending, rack) := bench.rack.poll device
  (pending, { bench with rack })

/-- The bench as a host. -/
def host : Host Bench where
  answer
    | .readWord offset, bench => (bench.readWord offset, bench)
    | .storeWord offset value, bench => bench.storeWord offset value
    | .suspend offset, bench => bench.suspend offset
    | .print value, bench => ((), { bench with printed := bench.printed.push value })
    | .sendByte device byte, bench => ((), { bench with rack := bench.rack.send device byte })
    | .takeByte device, bench => bench.takeByte device
    | .hasByte device, bench => bench.hasByte device
    | .offered, bench => (bench.offered, bench)

/-- Attaches an instance. -/
def attach (bench : Bench) (behaviour : Behaviour) (state : ModuleState) :
    ModuleState × Bench :=
  (behaviour.attach state).converse host bench

/-- Tries out a handler of an instance. -/
def converse {α : Type} (bench : Bench) (handler : Handler α) (state : ModuleState) :
    Except Trap α × ModuleState × Bench :=
  let ((result, state), bench) := (handler state).converse host bench
  (result, state, bench)

end Bench

end Transport
