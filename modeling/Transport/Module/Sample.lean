import Transport.Module

/-!
# Sample Modules

Three small behaviours that between them use everything a module can do: a
handler that halts, hidden state, the circumstances of an access, cells that a
declaration promises but the instance does not have, and handlers that trap.

## Main definitions

* `Module.Sample.bank`: Four cells, written through handlers.
* `Module.Sample.tally`: Counts its reads.
* `Module.Sample.faulty`: Traps on every handler.
-/

namespace Transport

namespace Module.Sample

/-- The key by which a bank is told to end the program. -/
def bankHaltKey : UInt16 := 255

/-- Four cells. A handler write stores into the cell of its key modulo four. -/
def bank : Behaviour where
  fresh := { cells := #[0, 0, 0, 0] }
  write key value _ := do
    if key = bankHaltKey then return .halt
    Handler.setCell (key % 4) value
    return .proceed

/-- Two cells and a hidden count of reads. Every handler read adds one to the
    count and answers it. A write with key zero leaves twice the value in the
    first cell, any other leaves the accessed offset in the second. -/
def tally : Behaviour where
  fresh := { cells := #[0, 0], hidden := #[0] }
  read _ _ := do
    let count := ((← get).hidden[0]?.getD 0) + 1
    modify fun state => { state with hidden := #[count] }
    return count
  write key value access := do
    if key = 0 then Handler.setCell 0 (2 * value)
    else Handler.setCell 1 access.address.offset
    return .proceed

/-- One cell, and a trap on every handler: a read blames the key, a write the value. -/
def faulty : Behaviour where
  fresh := { cells := #[0] }
  read key _ := throw (.ramOutOfBounds key.toUInt32)
  write _ value _ := throw (.entryOutOfRange value.toNat)

end Module.Sample

end Transport
