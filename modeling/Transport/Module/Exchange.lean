import Transport.Module
import Transport.Text.Layout

/-!
# The I/O Module

The cells are a port number and a value. The port number selects the device
that `write`, `read` and `poll` go to; a number that is no 16-bit port, or a
port without a device, selects nothing, and then an access has no effect.

Writing to `write` sends the low byte of the word, writing to `read` takes a
byte into the value, and reading `poll` says whether a byte waits.

## Main definitions

* `Module.Exchange.selected?`: The device that the port number selects.
* `Module.Exchange.decl`: The declaration of `io`.
-/

namespace Transport

namespace Module.Exchange

/-- The cell of the port number. -/
def portCell : UInt16 := 0

/-- The cell of the value read. -/
def valueCell : UInt16 := 1

/-- The key of `io.write`. -/
def writeKey : UInt16 := 0

/-- The key of `io.poll`. -/
def pollKey : UInt16 := 1

/-- The key of `io.read`. -/
def readKey : UInt16 := 2

/-- What `io.poll` answers where no device is selected. -/
def absent : Word := 0

/-- What `io.poll` answers where a byte waits. -/
def pendingByte : Word := 1

/-- What `io.poll` answers where no byte waits. -/
def idle : Word := 2

/-- The device that the port number selects. -/
def selected? (state : ModuleState) : Option DeviceId :=
  let port := state.cell portCell
  -- A number beyond 16 bits is that of no port.
  if port ≤ 0xFFFF then state.devices.find? port.toUInt16 else none

/-- Bytes go to and come from the selected device, if there is one. -/
def behaviour : Behaviour where
  fresh := { cells := #[0, 0] }
  read key _ := do
    if key = pollKey then
      match selected? (← get) with
      | some device =>
        if (← Handler.ask (.hasByte device)) then return pendingByte else return idle
      | none => return absent
    else
      return absent
  write key value _ := do
    match selected? (← get) with
    | some device =>
      if key = writeKey then
        Handler.ask (.sendByte device value.toUInt8)
      else if key = readKey then
        let byte ← Handler.ask (.takeByte device)
        Handler.setCell valueCell byte.toUInt32
    | none => pure ()
    return .proceed
  attach state := do
    -- Ports the instance has already are left as they are.
    let offered ← Dialogue.request .offered
    return { state with devices := state.devices.merge offered }

/-- The declaration of `io`. -/
def decl : ModuleDecl where
  id := 0x14
  stem := "io"
  cells := 2
  ports := [
    { name := "port", position := .fixed 0x01, capability := .readWrite,
      accessor := .cell portCell },
    { name := "value", position := .fixed 0x02, capability := .readWrite,
      accessor := .cell valueCell },
    { name := "write", position := .fixed 0x03, capability := .write,
      accessor := .handler writeKey },
    { name := "poll", position := .fixed 0x04, capability := .read, accessor := .handler pollKey },
    { name := "read", position := .fixed 0x05, capability := .write,
      accessor := .handler readKey }]
  kind := .dispatched behaviour

/-- The text a debugger shows of an instance: its cells and its occupied ports. -/
def description (state : ModuleState) : String :=
  Layout.record "IoModule" [
    ("cells", Layout.sequence (state.cells.toList.map fun cell => Numeral.decimal cell.toNat)),
    ("ports", Layout.sequence (state.devices.ports.map fun port => Numeral.decimal port.toNat))]

end Module.Exchange

end Transport
