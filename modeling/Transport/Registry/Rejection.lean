import Transport.Port

/-!
# Rejected Declarations

Why a registry refuses the declaration of a module. Each value names the
offender and what it collides with.

## Main definitions

* `Rejection`: The causes.
* `Rejection.message`: Their wording.
-/

namespace Transport

/-- Why a registry refuses a declaration. -/
inductive Rejection where
  /-- Another module has this id. -/
  | duplicateModule (id : UInt8)
  /-- The id is the literal tag of the instruction format. -/
  | reservedModule (id : UInt8)
  /-- A port's offset does not fit in 24 bits. -/
  | offsetOutOfRange (name : String) (offset : Word)
  /-- Two ports of a module share an address in one direction. -/
  | duplicateAddress (address : Address) (direction : Direction) (existing name : String)
  /-- Two ports share a name in one direction. -/
  | duplicateName (name : String) (direction : Direction)
  /-- A module has two fallbacks in one direction. -/
  | duplicateFallback (id : UInt8) (direction : Direction)
  /-- A port refers to a cell beyond those that its module declares. -/
  | cellOutOfRange (name : String) (cell cells : UInt16)
  deriving DecidableEq, Repr

namespace Rejection

/-- A module's id in messages. -/
def idText (id : UInt8) : String := "module id 0x" ++ Numeral.hexPadded 2 id.toNat

/-- The wording of a rejection. -/
def message : Rejection → String
  | .duplicateModule id => idText id ++ " is already registered"
  | .reservedModule id => idText id ++ " is reserved by the instruction format"
  | .offsetOutOfRange name offset =>
    "port " ++ name ++ " has offset " ++ Numeral.markedHex offset.toNat ++
      ", which does not fit in 24 bits"
  | .duplicateAddress address direction existing name =>
    direction.text ++ " slot already defined for " ++ address.text ++
      " (" ++ existing ++ " and " ++ name ++ ")"
  | .duplicateName name direction =>
    direction.text ++ " port \"" ++ name ++ "\" is already defined"
  | .duplicateFallback id direction =>
    "module 0x" ++ Numeral.hexPadded 2 id.toNat ++ " has more than one " ++
      direction.text ++ " fallback"
  | .cellOutOfRange name cell cells =>
    "port " ++ name ++ " uses cell " ++ Numeral.decimal cell.toNat ++
      ", but its module only has " ++ Numeral.decimal cells.toNat ++ " cells"

end Rejection

end Transport
