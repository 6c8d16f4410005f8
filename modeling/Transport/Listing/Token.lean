import Transport.Word

/-!
# Tokens of a Listing

A listing is made of operands, arrows, comments and line ends. An operand is a
literal, a raw word or the name of a port.

## Main definitions

* `Token`: What a piece of a listing stands for.
* `LexicalError`: Why a piece stands for nothing.
* `LexicalError.message`: The wording.
-/

namespace Transport

/-- What a piece of a listing stands for. -/
inductive Token where
  /-- A literal source operand. -/
  | literal (value : Word)
  /-- An operand word, for addresses that have no name. -/
  | raw (value : Word)
  /-- The name of a port. -/
  | name (text : String)
  /-- The arrow from source to destination. -/
  | arrow
  /-- A comment, up to the end of the line. -/
  | comment
  /-- The end of a line. -/
  | newline
  deriving DecidableEq, Repr

/-- Why a piece of a listing stands for nothing. -/
inductive LexicalError where
  /-- A literal needs more than 24 bits. -/
  | literalTooWide
  /-- A raw word needs more than 32 bits. -/
  | wordTooWide
  /-- A number has a character that is no digit. -/
  | invalidNumeric
  /-- A number has no digits behind its mark. -/
  | emptyNumeric
  /-- A character begins nothing that occurs in listings. -/
  | unrecognized
  deriving DecidableEq, Repr

namespace LexicalError

/-- The wording of a lexical error. -/
def message : LexicalError → String
  | .literalTooWide => "literal does not fit in 24 bits"
  | .wordTooWide => "raw word does not fit in 32 bits"
  | .invalidNumeric => "invalid numeric literal"
  | .emptyNumeric => "numeric literal has no digits"
  | .unrecognized => "unrecognized symbol"

end LexicalError

end Transport
