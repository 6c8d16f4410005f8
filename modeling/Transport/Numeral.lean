/-!
# Positional Numerals

Writing a natural number in a base, and reading one back under a limit.

Operands of a listing spell numbers of any length, but a literal has to fit
in 24 bits and a raw word in 32. Reading therefore goes digit by digit from the
left and stops at the first thing that is wrong: a character that is no digit
of the base, or a digit that takes the value to the limit. Which of the two is
reported is decided by which comes first, and leading zeros never count.

## Main definitions

* `digitChar`: The character of a digit, upper case beyond nine.
* `digitValue?`: The digit a character stands for in a base.
* `write`: The digits of a number, most significant first.
* `writePadded`: The same, filled up with zeros to a width.
* `read`: The number a digit string spells, or the first defect from the left.
-/

namespace Transport

namespace Numeral

/-- The character of a digit; digits beyond nine are upper case letters. -/
def digitChar (d : Nat) : Char :=
  if d < 10 then Char.ofNat (48 + d) else Char.ofNat (55 + d)

/-- The digit that an ASCII character stands for, letters of either case being
    the digits from ten on. A character beyond the base is no digit. -/
def digitValue? (base : Nat) (c : Char) : Option Nat :=
  let value : Option Nat :=
    if '0' ≤ c ∧ c ≤ '9' then some (c.toNat - 48)
    else if 'A' ≤ c ∧ c ≤ 'Z' then some (c.toNat - 55)
    else if 'a' ≤ c ∧ c ≤ 'z' then some (c.toNat - 87)
    else none
  value.filter (· < base)

/-- The digits of a number in a base of at least two, most significant first.
    Zero is written as one digit. -/
def write (base n : Nat) : List Char :=
  if _h : n < base ∨ base < 2 then [digitChar n]
  else write base (n / base) ++ [digitChar (n % base)]
termination_by n
decreasing_by exact Nat.div_lt_self (by omega) (by omega)

/-- The digits of a number, with zeros in front up to the given width. -/
def writePadded (base width n : Nat) : List Char :=
  let digits := write base n
  List.replicate (width - digits.length) '0' ++ digits

/-- A number in upper case hexadecimal. -/
def hex (n : Nat) : String := String.ofList (write 16 n)

/-- A number in upper case hexadecimal, filled up with zeros to a width. -/
def hexPadded (width n : Nat) : String := String.ofList (writePadded 16 width n)

/-- A number in decimal. -/
def decimal (n : Nat) : String := String.ofList (write 10 n)

/-- A signed number in decimal, negative ones led by a minus sign. -/
def signedDecimal : Int → String
  | .ofNat n => decimal n
  | .negSucc n => "-" ++ decimal (n + 1)

/-- A number in hexadecimal behind the mark `0x`. -/
def markedHex (n : Nat) : String := "0x" ++ hex n

/-- What keeps a digit string from spelling a number. -/
inductive Defect where
  /-- There is no digit at all. -/
  | empty
  /-- A character is no digit of the base. -/
  | badDigit
  /-- The value reaches the limit. -/
  | overflow
  deriving DecidableEq, Repr

/-- Reads on from a value already read. A bad digit is reported before the
    digits behind it can overflow, and an overflow before any later digit. -/
def readFrom (base limit value : Nat) : List Char → Except Defect Nat
  | [] => .ok value
  | c :: cs =>
    match digitValue? base c with
    | none => .error .badDigit
    | some d =>
      -- Checked with every digit, so a bad one behind an overflow is never seen.
      if value * base + d < limit then readFrom base limit (value * base + d) cs
      else .error .overflow

/-- The number below the limit that a nonempty digit string spells. -/
def read (base limit : Nat) : List Char → Except Defect Nat
  | [] => .error .empty
  | cs => readFrom base limit 0 cs

end Numeral

end Transport
