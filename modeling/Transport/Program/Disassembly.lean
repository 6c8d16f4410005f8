import Transport.Program

/-!
# Disassembly

The listing of encoded moves. Every eight bytes become one line; an operand
that the registry cannot name is written as a raw word. Bytes behind the last
whole move are left out.

## Main definitions

* `Program.operandText`: The text of an operand word.
* `Program.moveText`: The line of a move.
* `Program.disassemble`: The listing of a byte string.
-/

namespace Transport

namespace Program

/-- The text of an operand word: its name, or all its digits behind `@x`. -/
def operandText (registry : Registry) (word : Word) (direction : Direction) : String :=
  (registry.explain? word direction).getD ("@x" ++ Numeral.hexPadded 8 word.toNat)

/-- The line of a move. -/
def moveText (registry : Registry) (source destination : Word) : String :=
  operandText registry source .read ++ " -> " ++ operandText registry destination .write ++ "\n"

/-- The lines of a byte string, one for every eight bytes. -/
def disassemblyLines (registry : Registry) : List UInt8 → List String
  | s0 :: s1 :: s2 :: s3 :: d0 :: d1 :: d2 :: d3 :: rest =>
    moveText registry (Word.ofBytes s0 s1 s2 s3) (Word.ofBytes d0 d1 d2 d3) ::
      disassemblyLines registry rest
  -- Bytes that are left over are no move and have no line.
  | _ => []

/-- The listing of a byte string. -/
def disassemble (registry : Registry) (bytes : List UInt8) : String :=
  String.join (disassemblyLines registry bytes)

end Program

end Transport
