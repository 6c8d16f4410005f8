import Transport.Ram

/-!
# Breakpoints

A breakpoint asks a running machine to stop at a suspension point: at a given
offset, or wherever a word of RAM compares in a given way. Words are compared as
signed numbers. A word that does not lie inside RAM never matches.

## Main definitions

* `Comparator.holds`: Whether a word passes a comparison.
* `Breakpoint.hits`: Whether a breakpoint matches at a suspension point.
* `Breakpoint.description`: The text a debugger shows.
-/

namespace Transport

/-- A comparison of a word with a number. -/
inductive Comparator where
  /-- Passed by no word. -/
  | never
  /-- Passed by lesser words. -/
  | lt (bound : Int32)
  /-- Passed by the equal word. -/
  | eq (bound : Int32)
  /-- Passed by lesser and equal words. -/
  | le (bound : Int32)
  /-- Passed by greater words. -/
  | gt (bound : Int32)
  /-- Passed by all other words. -/
  | ne (bound : Int32)
  /-- Passed by greater and equal words. -/
  | ge (bound : Int32)
  /-- Passed by every word. -/
  | always
  deriving DecidableEq

namespace Comparator

/-- Whether a word, as a signed number, passes the comparison. -/
def holds (comparator : Comparator) (word : Word) : Bool :=
  let value := word.toInt32
  match comparator with
  | .never => false
  | .lt bound => value < bound
  | .eq bound => value = bound
  | .le bound => value ≤ bound
  | .gt bound => bound < value
  | .ne bound => value ≠ bound
  | .ge bound => bound ≤ value
  | .always => true

/-- A bound in decimal. -/
def boundText (bound : Int32) : String := Numeral.signedDecimal bound.toInt

/-- The text of a comparison. -/
def description : Comparator → String
  | .never => "never"
  | .lt bound => "< " ++ boundText bound
  | .eq bound => "== " ++ boundText bound
  | .le bound => "<= " ++ boundText bound
  | .gt bound => "> " ++ boundText bound
  | .ne bound => "!= " ++ boundText bound
  | .ge bound => ">= " ++ boundText bound
  | .always => "always"

end Comparator

/-- A condition on which a running machine stops. -/
inductive Breakpoint where
  /-- The suspension point is at this offset. -/
  | pc (offset : Word)
  /-- The word at a RAM offset passes a comparison. -/
  | mem (offset : Word) (comparator : Comparator)
  deriving DecidableEq

namespace Breakpoint

/-- Whether the breakpoint matches at the suspension point of an offset. -/
def hits (breakpoint : Breakpoint) (pc : Word) (ram : Ram) : Bool :=
  match breakpoint with
  | .pc offset => offset = pc
  -- Outside RAM there is no word to compare.
  | .mem offset comparator => (ram.word? offset).any comparator.holds

/-- An offset in hexadecimal at full width. -/
def offsetText (offset : Word) : String := "0x" ++ Numeral.hexPadded 8 offset.toNat

/-- The text a debugger shows. -/
def description : Breakpoint → String
  | .pc offset => Layout.applied "Breakpoint" ["PC == " ++ offsetText offset]
  | .mem offset comparator =>
    Layout.applied "Breakpoint" ["mem[" ++ offsetText offset ++ "] " ++ comparator.description]

end Breakpoint

end Transport
