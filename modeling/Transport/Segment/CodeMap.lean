import Transport.Segment.Compilation

/-!
# Code Maps

Which slots of a segment hold compiled instructions. While the segment is
live, the machine refuses to store into them; the other slots are data as far
as the segment is concerned, and may change.

## Main definitions

* `Segment.codeMap`: The code map of a segment.
* `CodeMap.isCompiled`: Whether a compiled slot begins at an offset.
* `CodeMap.overlap?`: The first compiled slot that a range reaches into.
-/

namespace Transport

/-- Which slots, from an offset on, hold compiled instructions. -/
structure CodeMap where
  /-- The offset of the first slot. -/
  start : Word
  /-- For every slot, whether it was compiled. -/
  compiled : Array Bool
  deriving DecidableEq, Repr

namespace Op

/-- Whether this is a trap. -/
def isTrap : Op → Bool
  | .trap .. => true
  | _ => false

end Op

namespace Segment

/-- The op that an instruction was compiled into, behind its suspension point. -/
def opAt? (segment : Segment) (index : Nat) : Option Op :=
  match segment.entries[index]? with
  | some entry => segment.ops[entry + (segment.options.stride - 1)]?
  | none => none

/-- Which slots of a segment hold compiled instructions. -/
def codeMap (segment : Segment) : CodeMap where
  start := segment.start
  compiled := (Array.range segment.size).map fun index =>
    !(segment.opAt? index).any Op.isTrap

end Segment

namespace CodeMap

/-- The offset of a slot. -/
def slotStart (map : CodeMap) (index : Nat) : Nat := map.start.toNat + instructionSize * index

/-- Whether a compiled slot begins at an offset. -/
def isCompiled (map : CodeMap) (offset : Word) : Bool :=
  map.start ≤ offset && (offset - map.start) % 8 = 0 &&
    map.compiled[(offset.toNat - map.start.toNat) / instructionSize]?.getD false

/-- Looks for a slot that reaches past `offset`, from an index on and as long as
    slots begin before `stop`. -/
def overlapFrom (map : CodeMap) (offset stop index : Nat) : Option Word :=
  if h : index < map.compiled.size then
    let slot := map.slotStart index
    if slot < stop then
      if map.compiled[index] && offset < slot + instructionSize then some (UInt32.ofNat slot)
      else overlapFrom map offset stop (index + 1)
    else none
  else none
termination_by map.compiled.size - index

/-- The first compiled slot that begins before the end of a range and ends
    behind its beginning. -/
def overlap? (map : CodeMap) (offset : Word) (length : Nat) : Option Word :=
  -- No slot further in front reaches as far as the offset.
  map.overlapFrom offset.toNat (offset.toNat + length)
    ((offset.toNat - map.start.toNat) / instructionSize)

end CodeMap

end Transport
