import Transport.Listing.Piece
import Transport.Registry

/-!
# Programs

A program is a sequence of moves. It is built from decoded instructions, from
raw words, from pairs of operands in listing notation, or from a whole listing,
and is encoded into the bytes that are loaded into RAM.

A listing holds at most one move per line. It is read token by token: the tokens
of a line are kept until the line is over, and then have to be a source, an
arrow and a destination, or nothing at all; comments count for nothing. The
first piece that stands for nothing, and the first line that is no move, end the
reading with an error.

## Main definitions

* `AssemblyError`, `ListingError`: What can be wrong with a move and a listing.
* `Program.pushTokens`: A program with the move of a line.
* `Program.push`: A program with one more move, given by its two operands.
* `Program.ofListing`: The program of a listing.
* `Program.bytes`: The encoding of a program.
-/

namespace Transport

/-- Why operands or a line are no move. -/
inductive AssemblyError where
  /-- A piece stands for nothing. -/
  | lexical (cause : LexicalError)
  /-- The form is not that of a source, an arrow and a destination. -/
  | malformed
  /-- No port of this name serves the direction. -/
  | unknownPort (name : String) (direction : Direction)
  /-- The port is a fallback, which has no address to encode. -/
  | noAddress (name : String)
  /-- A literal is no place to write to. -/
  | literalDestination
  deriving DecidableEq, Repr

/-- Why a listing is no program: what is wrong, and on which line. -/
structure ListingError where
  /-- The line, counted from one. -/
  line : Nat
  /-- What is wrong with it. -/
  cause : AssemblyError
  deriving DecidableEq, Repr

namespace AssemblyError

/-- The wording of an assembly error. -/
def message : AssemblyError → String
  | .lexical cause => cause.message
  | .malformed => "expected `source -> destination`"
  | .unknownPort name direction => "no " ++ direction.text ++ " port named \"" ++ name ++ "\""
  | .noAddress name => "port \"" ++ name ++ "\" has no fixed address"
  | .literalDestination => "literals cannot be destinations"

end AssemblyError

namespace ListingError

/-- The wording of a listing error, led by the line. -/
def message (error : ListingError) : String :=
  "line " ++ Numeral.decimal error.line ++ ": " ++ error.cause.message

end ListingError

/-- A sequence of moves. -/
structure Program where
  /-- The moves, in order. -/
  instructions : List Instruction := []
  deriving DecidableEq, Repr

namespace Program

/-- The number of moves. -/
def size (program : Program) : Nat := program.instructions.length

/-- The program followed by more moves. -/
def append (program : Program) (more : List Instruction) : Program :=
  ⟨program.instructions ++ more⟩

/-- The source and destination words of every move. -/
def words (program : Program) : List (Word × Word) :=
  program.instructions.map Instruction.words

/-- The encoding of a program, eight bytes a move. -/
def bytes (program : Program) : List UInt8 :=
  program.instructions.flatMap Instruction.bytes

/-! ## Operands -/

/-- The word of a named port. -/
def portWord (registry : Registry) (name : String) (direction : Direction) :
    Except AssemblyError Word :=
  match registry.named? name direction with
  | none => .error (.unknownPort name direction)
  | some port =>
    match port.address? with
    | some address => .ok address.word
    | none => .error (.noAddress port.name)

/-- The word of a token in the place of a source. -/
def sourceWord (registry : Registry) : Token → Except AssemblyError Word
  | .literal value => .ok (literalTag.toUInt32 <<< 24 ||| value)
  | .raw word => .ok word
  | .name name => portWord registry name .read
  | _ => .error .malformed

/-- The word of a token in the place of a destination. -/
def destinationWord (registry : Registry) : Token → Except AssemblyError Word
  | .literal _ => .error .literalDestination
  | .raw word => .ok word
  | .name name => portWord registry name .write
  | _ => .error .malformed

/-- The move of a source token and a destination token. -/
def move (registry : Registry) (source destination : Token) :
    Except AssemblyError Instruction := do
  -- The source comes first, so its error hides that of the destination.
  let sourceWord ← sourceWord registry source
  let destinationWord ← destinationWord registry destination
  return .ofWords sourceWord destinationWord

/-- The token that an operand consists of. -/
def operand (text : String) : Except AssemblyError Token :=
  match Item.values text with
  | [.ok token] => .ok token
  | .error cause :: _ => .error (.lexical cause)
  | _ => .error .malformed

/-- The program with the move of a line, if there is one on it: the tokens have
    to be a source, an arrow and a destination, or nothing at all. -/
def pushTokens (program : Program) (registry : Registry) :
    List Token → Except AssemblyError Program
  | [] => return program
  | [source, .arrow, destination] => return program.append [← move registry source destination]
  | _ => throw .malformed

/-- The program with one more move, both operands in listing notation. -/
def push (program : Program) (registry : Registry) (source destination : String) :
    Except AssemblyError Program := do
  let source ← operand source
  let destination ← operand destination
  program.pushTokens registry [source, .arrow, destination]

/-! ## Listings -/

/-- A listing as far as it has been read. -/
structure Reading where
  /-- The moves of the lines before. -/
  program : Program := {}
  /-- The line, counted from one. -/
  line : Nat := 1
  /-- What stands on the line so far, without comments. -/
  tokens : List Token := []

namespace Reading

/-- The program with the move of the line, which is over. -/
def endLine (reading : Reading) (registry : Registry) : Except ListingError Program :=
  (reading.program.pushTokens registry reading.tokens).mapError (⟨reading.line, ·⟩)

/-- The reading with one more token. -/
def read (registry : Registry) (reading : Reading) :
    Except LexicalError Token → Except ListingError Reading
  -- A defect is reported before the form of its line is looked at.
  | .error cause => .error ⟨reading.line, .lexical cause⟩
  | .ok .newline => return ⟨← reading.endLine registry, reading.line + 1, []⟩
  | .ok .comment => return reading
  | .ok token => return { reading with tokens := reading.tokens ++ [token] }

end Reading

/-- The program of a listing. -/
def ofListing (registry : Registry) (text : String) : Except ListingError Program := do
  let reading ← (Item.values text).foldlM (Reading.read registry) {}
  -- The last line may end without a line feed.
  reading.endLine registry

end Program

end Transport
