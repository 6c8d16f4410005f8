import Transport.Instruction
import Transport.Trap
import Transport.Text.Layout

/-!
# Ops

What an instruction is compiled into. Ports have become the slot of a module
instance together with a cell or a handler key, and jump targets inside a
segment have become the indices of ops.

An instruction that does not compile becomes a trap op, which remembers why not
and which words it was made from. It may turn out to be data that control never
reaches.

## Main definitions

* `Load`, `Store`, `Test`, `Target`: The parts of ops.
* `Obstacle`: Why an instruction does not compile.
* `Op`: The ops.
* `Op.description`: The text a debugger shows.
-/

namespace Transport

/-- Where a value comes from. -/
inductive Load where
  /-- It is in the instruction. -/
  | const (value : Word)
  /-- It is in a cell of an instance. -/
  | cell (slot : Nat) (cell : UInt16)
  /-- A handler of an instance delivers it. -/
  | call (slot : Nat) (key : UInt16) (address : Address)
  deriving DecidableEq, Repr

/-- Where a value goes. -/
inductive Store where
  /-- Into a cell of an instance. -/
  | cell (slot : Nat) (cell : UInt16)
  /-- To a handler of an instance. -/
  | call (slot : Nat) (key : UInt16) (address : Address)
  deriving DecidableEq, Repr

/-- What a value is tested for. -/
inductive Test where
  /-- To be nonnegative as a signed number. -/
  | nonneg
  /-- To be zero. -/
  | zero
  deriving DecidableEq, Repr

/-- Where a jump leads. -/
inductive Target where
  /-- To an op of the same segment. -/
  | inside (op : Nat)
  /-- To a RAM offset outside the segment. -/
  | outside (offset : Word)
  deriving DecidableEq, Repr

/-- Why an instruction does not compile. -/
inductive Obstacle where
  /-- An operand reaches no port with an instance behind it. -/
  | unresolved (word : Word) (direction : Direction)
  /-- A jump takes its target from a port. -/
  | dynamicJump
  /-- A jump goes to an offset between two instructions. -/
  | misalignedJump (target : Word)
  deriving DecidableEq, Repr

/-- One step of a segment. -/
inductive Op where
  /-- The suspension point in front of the instruction at an offset. -/
  | suspend (offset : Word)
  /-- A move from a load to a store. -/
  | move (offset : Word) (load : Load) (store : Store)
  /-- A test that makes the condition. -/
  | test (offset : Word) (load : Load) (test : Test)
  /-- A jump, if the condition holds. -/
  | branch (target : Target)
  /-- An instruction that does not compile, and the words it was made from. -/
  | trap (offset : Word) (cause : Obstacle) (source destination : Word)
  deriving DecidableEq, Repr

namespace Test

/-- Whether a value passes the test. -/
def holds : Test → Word → Bool
  | .nonneg, value => 0 ≤ value.toInt32
  | .zero, value => value = 0

end Test

namespace Obstacle

/-- The compilation error of an instruction at an offset. -/
def errorAt (obstacle : Obstacle) (offset : Word) : CompilationError :=
  match obstacle with
  | .unresolved word direction => .unresolvedPort offset word direction
  | .dynamicJump => .dynamicJump offset
  | .misalignedJump target => .misalignedJump offset target

end Obstacle

/-! ## Descriptions -/

namespace Op

/-- A word in decimal. -/
def wordText (word : Word) : String := Numeral.decimal word.toNat

/-- The fields of an access to a cell. -/
def cellText (slot : Nat) (cell : UInt16) : String :=
  Layout.record "Cell" [("slot", Numeral.decimal slot), ("cell", Numeral.decimal cell.toNat)]

/-- The fields of an access to a handler. -/
def callText (slot : Nat) (key : UInt16) (address : Address) : String :=
  Layout.record "Call" [("slot", Numeral.decimal slot), ("key", Numeral.decimal key.toNat),
    ("addr", address.description)]

/-- The text of a load. -/
def loadText : Load → String
  | .const value => Layout.applied "Const" [wordText value]
  | .cell slot cell => cellText slot cell
  | .call slot key address => callText slot key address

/-- The text of a store. -/
def storeText : Store → String
  | .cell slot cell => cellText slot cell
  | .call slot key address => callText slot key address

/-- The text of a test. -/
def testText : Test → String
  | .nonneg => "NonNeg"
  | .zero => "Zero"

/-- The text of a target. -/
def targetText : Target → String
  | .inside op => Layout.applied "Local" [Numeral.decimal op]
  | .outside offset => Layout.applied "Escape" [wordText offset]

/-- The text of an obstacle. -/
def causeText : Obstacle → String
  | .unresolved word direction =>
    Layout.record "Unresolved" [("word", wordText word), ("direction", direction.description)]
  | .dynamicJump => "DynamicJump"
  | .misalignedJump target => Layout.record "MisalignedJump" [("target", wordText target)]

/-- The bytes of two words, each in decimal. -/
def bytesText (source destination : Word) : String :=
  Layout.sequence ((Word.bytes source ++ Word.bytes destination).map fun byte =>
    Numeral.decimal byte.toNat)

/-- The text a debugger shows of an op. -/
def description : Op → String
  | .suspend offset => Layout.record "Suspend" [("offset", wordText offset)]
  | .move offset load store =>
    Layout.record "Move" [("offset", wordText offset), ("load", loadText load),
      ("store", storeText store)]
  | .test offset load kind =>
    Layout.record "Test" [("offset", wordText offset), ("load", loadText load),
      ("test", testText kind)]
  | .branch target => Layout.record "Branch" [("target", targetText target)]
  | .trap offset cause source destination =>
    Layout.record "Trap" [("offset", wordText offset), ("cause", causeText cause),
      ("bytes", bytesText source destination)]

end Op

end Transport
