import Transport.Word

/-!
# Byte Devices

A device takes bytes, hands out bytes, and says whether a byte is waiting. What
it does about each of the three is its own affair: a device comes with a state
of any type, and every access may change that state, the question whether a byte
waits included. What those at its far end do, push bytes in and see what came
out, is part of the device as well. It is known to the rest of the machine by its
number in a `Rack`, so that several holders of one number share one device.

A buffered device hands out its input in order and keeps what it is sent. A
limited device does the same until its writer has taken a number of bytes, and
drops what follows. A null device keeps nothing and has nothing.

A device table says which device is on which I/O port. Its entries stay in port
order, and a port holds at most one device.

## Main definitions

* `Device`: A state of any type, and what is done to it.
* `Device.send`, `Device.take`, `Device.poll`: The three accesses.
* `Device.feed`, `Device.output`: The far end of a device.
* `Device.null`, `Device.buffered`, `Device.limited`: Three kinds of devices.
* `Rack`: All devices, by number.
* `DeviceTable.insert?`, `DeviceTable.erase`, `DeviceTable.find?`: The table.

## Theorems

* `find?_insert?_self`: A device put on a port is found there.
* `insert?_eq_none`: A taken port refuses a device.
-/

namespace Transport

/-- The number of a device in a rack. -/
abbrev DeviceId := Nat

/-- A byte device. -/
structure Device where
  /-- What the device can be in. -/
  State : Type
  /-- What it is in. -/
  state : State
  /-- It is sent a byte. -/
  onSend : UInt8 → State → State
  /-- A byte is taken from it; zero if none is waiting. -/
  onTake : State → UInt8 × State
  /-- It is asked whether a byte is waiting. -/
  onPoll : State → Bool × State
  /-- Bytes are pushed in at its far end. -/
  onFeed : List UInt8 → State → State
  /-- What has come out at its far end. -/
  kept : State → Array UInt8

namespace Device

/-- Sends a byte to the device. -/
def send (byte : UInt8) (device : Device) : Device :=
  { device with state := device.onSend byte device.state }

/-- Takes a byte from the device. -/
def take (device : Device) : UInt8 × Device :=
  let (byte, state) := device.onTake device.state
  (byte, { device with state })

/-- Asks the device whether a byte is waiting. -/
def poll (device : Device) : Bool × Device :=
  let (pending, state) := device.onPoll device.state
  (pending, { device with state })

/-- Pushes bytes into the device at its far end. -/
def feed (bytes : List UInt8) (device : Device) : Device :=
  { device with state := device.onFeed bytes device.state }

/-- What has come out at the far end of the device. -/
def output (device : Device) : Array UInt8 := device.kept device.state

/-- A device that discards what it is sent and never has a byte. -/
def null : Device where
  State := Unit
  state := ()
  onSend _ _ := ()
  onTake _ := (0, ())
  onPoll _ := (false, ())
  onFeed _ _ := ()
  kept _ := #[]

/-- What a device holds that hands out bytes in order and keeps others. -/
structure Buffer where
  /-- The bytes that wait. -/
  input : List UInt8
  /-- The bytes that were kept. -/
  output : Array UInt8
  /-- How many more bytes are kept, if not all. -/
  room : Option Nat

namespace Buffer

/-- Keeps a byte, if there is room. -/
def send (byte : UInt8) (buffer : Buffer) : Buffer :=
  match buffer.room with
  | none => { buffer with output := buffer.output.push byte }
  | some 0 => buffer
  | some (room + 1) => { buffer with output := buffer.output.push byte, room := some room }

/-- Hands out the byte in front, or zero. -/
def take (buffer : Buffer) : UInt8 × Buffer :=
  match buffer.input with
  | [] => (0, buffer)
  | byte :: input => (byte, { buffer with input })

end Buffer

/-- The device that holds a buffer. -/
def ofBuffer (buffer : Buffer) : Device where
  State := Buffer
  state := buffer
  onSend := Buffer.send
  onTake := Buffer.take
  onPoll buffer := (!buffer.input.isEmpty, buffer)
  onFeed bytes buffer := { buffer with input := buffer.input ++ bytes }
  kept := Buffer.output

/-- A device that hands out `input` in order and keeps what it is sent in `output`. -/
def buffered (input : List UInt8) (output : Array UInt8) : Device :=
  ofBuffer ⟨input, output, none⟩

/-- A buffered device whose writer takes `room` more bytes and no others. -/
def limited (input : List UInt8) (output : Array UInt8) (room : Nat) : Device :=
  ofBuffer ⟨input, output, some room⟩

end Device

/-- All devices, by number. -/
structure Rack where
  /-- The devices; a number past the end stands for the null device. -/
  devices : Array Device := #[]

instance : Inhabited Rack := ⟨{}⟩

namespace Rack

/-- The device of a number. -/
def get (rack : Rack) (id : DeviceId) : Device := rack.devices[id]?.getD .null

/-- Replaces the device of a number. -/
def set (rack : Rack) (id : DeviceId) (device : Device) : Rack :=
  ⟨rack.devices.setIfInBounds id device⟩

/-- Adds a device and gives it the next number. -/
def add (rack : Rack) (device : Device) : DeviceId × Rack :=
  (rack.devices.size, ⟨rack.devices.push device⟩)

/-- Sends a byte to a device. -/
def send (rack : Rack) (id : DeviceId) (byte : UInt8) : Rack :=
  rack.set id ((rack.get id).send byte)

/-- Takes a byte from a device. -/
def take (rack : Rack) (id : DeviceId) : UInt8 × Rack :=
  let (byte, device) := (rack.get id).take
  (byte, rack.set id device)

/-- Asks a device whether a byte is waiting. -/
def poll (rack : Rack) (id : DeviceId) : Bool × Rack :=
  let (pending, device) := (rack.get id).poll
  (pending, rack.set id device)

/-- Pushes bytes into a device at its far end. -/
def feed (rack : Rack) (id : DeviceId) (bytes : List UInt8) : Rack :=
  rack.set id ((rack.get id).feed bytes)

end Rack

/-- Which device is on which I/O port, in port order. -/
structure DeviceTable where
  /-- The occupied ports, ascending, and their devices. -/
  entries : List (UInt16 × DeviceId) := []
  deriving DecidableEq, Repr, Inhabited

namespace DeviceTable

/-- Puts an entry in front of the first one with a greater port. -/
def place (port : UInt16) (device : DeviceId) :
    List (UInt16 × DeviceId) → List (UInt16 × DeviceId)
  | [] => [(port, device)]
  | entry :: entries =>
    if port < entry.1 then (port, device) :: entry :: entries
    else entry :: place port device entries

/-- The device on a port. -/
def find? (table : DeviceTable) (port : UInt16) : Option DeviceId :=
  table.entries.lookup port

/-- Puts a device on a port, unless the port is taken. -/
def insert? (table : DeviceTable) (port : UInt16) (device : DeviceId) : Option DeviceTable :=
  match table.find? port with
  | some _ => none
  | none => some ⟨place port device table.entries⟩

/-- Takes the device off a port. -/
def erase (table : DeviceTable) (port : UInt16) : DeviceTable :=
  ⟨table.entries.filter fun entry => entry.1 != port⟩

/-- The occupied ports, ascending. -/
def ports (table : DeviceTable) : List UInt16 := table.entries.map Prod.fst

/-- Puts the entries of another table into this one, leaving taken ports alone. -/
def merge (table other : DeviceTable) : DeviceTable :=
  other.entries.foldl (fun table entry => (table.insert? entry.1 entry.2).getD table) table

/-- A taken port refuses a device, and only a taken one does. -/
theorem insert?_eq_none {table : DeviceTable} {port : UInt16} {device : DeviceId} :
    table.insert? port device = none ↔ (table.find? port).isSome := by
  unfold insert?
  cases table.find? port <;> simp

/-- Looking for a port that is not taken finds the device just put there. -/
theorem lookup_place_self (port : UInt16) (device : DeviceId) :
    ∀ entries : List (UInt16 × DeviceId), entries.lookup port = none →
      (place port device entries).lookup port = some device
  | [], _ => by simp [place]
  | entry :: entries, free => by
    rw [List.lookup_cons] at free
    -- The first entry is of another port, or the port would be taken.
    have other : (port == entry.1) = false := by
      cases test : port == entry.1 with
      | true => simp [test] at free
      | false => rfl
    rw [place]
    split
    · simp
    · rw [List.lookup_cons, other]
      simp only [other] at free ⊢
      exact lookup_place_self port device entries free

/-- A device put on a port is found there. -/
theorem find?_insert?_self {table result : DeviceTable} {port : UInt16} {device : DeviceId}
    (inserted : table.insert? port device = some result) :
    result.find? port = some device := by
  unfold insert? at inserted
  split at inserted
  · contradiction
  · next free =>
    rw [← Option.some.inj inserted]
    exact lookup_place_self port device table.entries free

end DeviceTable

end Transport
