import Transport.Address
import Transport.Listing.Token
import Transport.Text.CharClass

/-!
# Pieces of a Listing

Cutting a text into the longest pieces that the notation knows, from the left
to the right. The first character decides which kind a piece can be:

* blanks and tabs, as many as there are, which separate pieces;
* `#` and a digit, or `#x`, with all word characters behind: a literal;
* `@` with all word characters behind: a raw word;
* a name, of parts that begin with a letter or an underscore and have single
  dots between them;
* `->`, a comment from `;` up to the line end, and the line end itself, which
  may have a carriage return in front.

Any other character is a piece by itself. A number takes in all word characters
even where they are no digits of its base, so that what is wrong with it can be
said of the number as a whole.

## Main definitions

* `Piece.Kind`: The kinds of pieces.
* `Piece.extent`: The kind of the piece that begins a text, and its length.
* `Piece.cut`: All pieces of a text.
* `Piece.meaning?`: The token or the error of a piece; blanks have none.
* `Item`, `Item.scan`: Tokens and errors with the bytes they span.

## Theorems

* `flatMap_chars_cut`: The pieces of a text put together are the text.
* `chars_ne_nil_of_mem_cut`: No piece is empty.
-/

namespace Transport

/-- The kinds of pieces that a listing is cut into. -/
inductive Piece.Kind where
  /-- Blanks and tabs. -/
  | blank
  /-- A literal in decimal. -/
  | decimal
  /-- A literal in hexadecimal. -/
  | hexadecimal
  /-- A raw word. -/
  | raw
  /-- The name of a port. -/
  | name
  /-- The arrow. -/
  | arrow
  /-- A comment. -/
  | comment
  /-- The end of a line. -/
  | newline
  /-- A character that begins nothing. -/
  | stray
  deriving DecidableEq, Repr

/-- A piece of a listing. -/
structure Piece where
  /-- What kind it is. -/
  kind : Piece.Kind
  /-- Its characters. -/
  chars : List Char
  deriving DecidableEq, Repr

namespace Piece

/-! ## Where a piece ends -/

/-- The characters that only separate pieces. -/
def isBlank (c : Char) : Bool := c = ' ' || c = '\t'

/-- The mark of hexadecimal digits. -/
def isHexMark (c : Char) : Bool := c = 'x' || c = 'X'

/-- The number of word characters at the beginning of a text. -/
def wordRun (cs : List Char) : Nat := (cs.takeWhile CharClass.isWord).length

/-- The length of what continues a name: word characters, and a dot where
    another part of the name begins behind it. -/
def nameRun : List Char → Nat
  | [] => 0
  -- A dot at the end of a part is left to the next piece.
  | '.' :: d :: cs => if CharClass.isNameStart d then nameRun cs + 2 else 0
  | c :: cs => if CharClass.isWord c then nameRun cs + 1 else 0

/-- The kind of the piece that begins with a character, and the number of
    characters behind it that belong to the piece. -/
def extent (c : Char) (cs : List Char) : Kind × Nat :=
  if isBlank c then (.blank, (cs.takeWhile isBlank).length)
  else if c = '#' then
    -- Behind the hash there has to be a digit or the mark, or it begins nothing.
    match cs with
    | d :: ds =>
      if CharClass.isDigit d then (.decimal, wordRun cs)
      else if isHexMark d then (.hexadecimal, wordRun ds + 1)
      else (.stray, 0)
    | [] => (.stray, 0)
  else if c = '@' then (.raw, wordRun cs)
  else if CharClass.isNameStart c then (.name, nameRun cs)
  else if c = '-' then if cs.head? = some '>' then (.arrow, 1) else (.stray, 0)
  -- The line feed behind a comment is a piece of its own.
  else if c = ';' then (.comment, (cs.takeWhile (· != '\n')).length)
  -- A return ends a line only together with the feed behind it.
  else if c = '\r' then if cs.head? = some '\n' then (.newline, 1) else (.stray, 0)
  else if c = '\n' then (.newline, 0)
  else (.stray, 0)

/-- The piece that a text with this first character begins with. -/
def first (c : Char) (cs : List Char) : Piece :=
  let (kind, length) := extent c cs
  ⟨kind, c :: cs.take length⟩

/-- What a text with this first character goes on with behind its first piece. -/
def behindFirst (c : Char) (cs : List Char) : List Char := cs.drop (extent c cs).2

/-- All pieces of a text, from the left to the right. -/
def cut : List Char → List Piece
  | [] => []
  | c :: cs => first c cs :: cut (behindFirst c cs)
termination_by cs => cs.length
decreasing_by simp only [behindFirst, List.length_drop, List.length_cons]; omega

/-- The first piece and what is behind it are the text. -/
theorem chars_first_append (c : Char) (cs : List Char) :
    (first c cs).chars ++ behindFirst c cs = c :: cs := by
  simp [first, behindFirst]

/-- The pieces of a text put together are the text. -/
theorem flatMap_chars_cut (cs : List Char) : (cut cs).flatMap Piece.chars = cs := by
  fun_induction cut cs with
  | case1 => rfl
  | case2 c cs ih => rw [List.flatMap_cons, ih, chars_first_append]

/-- No piece is empty. -/
theorem chars_ne_nil_of_mem_cut {piece : Piece} {cs : List Char} (member : piece ∈ cut cs) :
    piece.chars ≠ [] := by
  fun_induction cut cs with
  | case1 => contradiction
  | case2 c cs ih =>
    rcases List.mem_cons.mp member with here | later
    · rw [here]; exact List.cons_ne_nil _ _
    · exact ih later

/-! ## What a piece stands for -/

/-- The word that a digit string spells, if it fits in 32 bits. -/
def readWord (base : Nat) (digits : List Char) : Except LexicalError Word :=
  match Numeral.read base 0x100000000 digits with
  | .ok value => .ok (UInt32.ofNat value)
  | .error .empty => .error .emptyNumeric
  | .error .badDigit => .error .invalidNumeric
  | .error .overflow => .error .wordTooWide

/-- The literal that a digit string spells. A value beyond 32 bits is as much too
    wide for a literal as one beyond 24. -/
def readLiteral (base : Nat) (digits : List Char) : Except LexicalError Token :=
  match readWord base digits with
  | .ok value => if offsetMask < value then .error .literalTooWide else .ok (.literal value)
  | .error .wordTooWide => .error .literalTooWide
  | .error defect => .error defect

/-- The raw word that is spelled behind its mark, in hexadecimal if it says so. -/
def readRaw : List Char → Except LexicalError Token
  | [] => .error .emptyNumeric
  | c :: cs => (if isHexMark c then readWord 16 cs else readWord 10 (c :: cs)).map .raw

/-- The token or the error of a piece; blanks have none. -/
def meaning? (piece : Piece) : Option (Except LexicalError Token) :=
  match piece.kind with
  | .blank => none
  | .decimal => some (readLiteral 10 (piece.chars.drop 1))
  | .hexadecimal => some (readLiteral 16 (piece.chars.drop 2))
  | .raw => some (readRaw (piece.chars.drop 1))
  | .name => some (.ok (.name (String.ofList piece.chars)))
  | .arrow => some (.ok .arrow)
  | .comment => some (.ok .comment)
  | .newline => some (.ok .newline)
  | .stray => some (.error .unrecognized)

/-- The number of bytes that a piece takes in UTF-8. -/
def byteSize (piece : Piece) : Nat := piece.chars.foldr (·.utf8Size + ·) 0

end Piece

/-! ## Items -/

/-- A token or an error, with the bytes of the text that it spans. -/
structure Item where
  /-- What it is. -/
  value : Except LexicalError Token
  /-- The position of its first byte. -/
  start : Nat
  /-- The position behind its last byte. -/
  stop : Nat

namespace Item

/-- The items of pieces that begin at a byte position. -/
def ofPieces (position : Nat) : List Piece → List Item
  | [] => []
  | piece :: pieces =>
    let stop := position + piece.byteSize
    match piece.meaning? with
    | some value => ⟨value, position, stop⟩ :: ofPieces stop pieces
    | none => ofPieces stop pieces

/-- All items of a text. Errors do not end it: scanning goes on behind them. -/
def scan (text : String) : List Item := ofPieces 0 (Piece.cut text.toList)

/-- What the items of a text are, without their positions. -/
def values (text : String) : List (Except LexicalError Token) :=
  (scan text).map Item.value

end Item

end Transport
