import Transport.Program.Disassembly
import Transport.Proofs.Program.Moves
import Transport.Proofs.Registry.Lookup
import Transport.Registry.Standard

/-!
# Listings of Bytes Are Assembled Again

A byte string is disassembled into one line for every eight bytes, and each line is
assembled into the move that the bytes were. What an operand is written as depends on
the registry, and the same registry has to read it: a port is written by its name, so
its name has to lead back to its address, which a fallback does not have and a port of
another direction may not have.

So it is said first what is read back of an operand, in registries whose port names can
be written in a listing at all: the word itself, or the refusal of the fallback that the
word reaches. Nothing is refused in the registries of these that have no fallbacks.

## Main definitions

* `Program.ofBytes`: The program that a byte string encodes.
* `Program.fallback?`: The fallback that an operand is written as.
* `Program.refusal?`: What is said of the first such operand of several moves.

## Theorems

* `exists_spells_operandText`: An operand is written as a token that is read back.
* `bytes_ofBytes`, `ofBytes_bytes`: Programs and their bytes stand for each other.
* `listingMoves_disassemblyLines`: What the listing of bytes is assembled into.
* `ofListing_disassemble`: Without fallbacks, it is what the bytes encode.
* `assembling_undoes_disassembling`: For all bytes, and for programs of listings.
-/

namespace Transport

namespace Program

open Piece

/-! ## Bytes and moves -/

/-- The moves that a byte string encodes, as far as they are whole. -/
def movesOfBytes : List UInt8 → List Instruction
  | s0 :: s1 :: s2 :: s3 :: d0 :: d1 :: d2 :: d3 :: rest =>
    .ofWords (Word.ofBytes s0 s1 s2 s3) (Word.ofBytes d0 d1 d2 d3) :: movesOfBytes rest
  | _ => []

/-- The program that a byte string encodes. -/
def ofBytes (bytes : List UInt8) : Program := ⟨movesOfBytes bytes⟩

/-- The bytes of the moves are the given ones, without an incomplete move at the end. -/
theorem bytes_ofBytes (bytes : List UInt8) :
    (ofBytes bytes).bytes = bytes.take (bytes.length / 8 * 8) := by
  change (movesOfBytes bytes).flatMap Instruction.bytes = _
  fun_induction movesOfBytes bytes with
  | case1 s0 s1 s2 s3 d0 d1 d2 d3 rest ih =>
      -- Eight bytes more in front make one more instruction.
      have hlength : (s0 :: s1 :: s2 :: s3 :: d0 :: d1 :: d2 :: d3 :: rest).length / 8 * 8 =
          rest.length / 8 * 8 + 8 := by
        simp only [List.length_cons]
        omega
      rw [List.flatMap_cons, ih, Instruction.bytes_ofWords_ofBytes, hlength]
      rfl
  | case2 bytes incomplete =>
      -- What is left over is shorter than an instruction.
      have hshort : bytes.length < 8 := by
        rcases bytes with _ | ⟨s0, _ | ⟨s1, _ | ⟨s2, _ | ⟨s3, _ | ⟨d0, _ | ⟨d1, _ | ⟨d2, _ |
          ⟨d3, rest⟩⟩⟩⟩⟩⟩⟩⟩
        case cons => exact absurd rfl (incomplete s0 s1 s2 s3 d0 d1 d2 d3 rest)
        all_goals simp
      rw [Nat.div_eq_of_lt hshort]
      rfl

/-- A move is one that decoding can give: its operands are classified as their words are. -/
def Decoded (i : Instruction) : Prop := ∃ source destination, i = .ofWords source destination

/-- A move that decoding can give is what its own words stand for. -/
theorem Decoded.ofWords_words {i : Instruction} (h : Decoded i) :
    .ofWords i.source.word i.destination.word = i := by
  rcases h with ⟨source, destination, rfl⟩
  have hwords := Prod.mk.inj (Instruction.words_ofWords source destination)
  rw [hwords.1, hwords.2]

theorem movesOfBytes_flatMap {moves : List Instruction} (decoded : ∀ i ∈ moves, Decoded i) :
    movesOfBytes (moves.flatMap Instruction.bytes) = moves := by
  induction moves with
  | nil => rfl
  | cons i moves ih =>
      rw [List.forall_mem_cons] at decoded
      rcases decoded with ⟨⟨source, destination, rfl⟩, later⟩
      rw [List.flatMap_cons, Instruction.bytes, Instruction.ofWords, Source.word_ofWord,
        Destination.word_ofWord]
      simp only [Word.bytes, List.cons_append, List.nil_append, movesOfBytes, Word.ofBytes_bytes,
        ih later]
      rfl

theorem ofBytes_bytes {program : Program} (decoded : ∀ i ∈ program.instructions, Decoded i) :
    ofBytes program.bytes = program := congrArg Program.mk (movesOfBytes_flatMap decoded)

/-! ## Operands -/

/-- The word of a token on one side of a move. -/
def operandWord (r : Registry) : Direction → Token → Except AssemblyError Word
  | .read => sourceWord r
  | .write => destinationWord r

/-- The names of all ports can be written. -/
structure Legible (r : Registry) : Prop where
  sound : r.Sound
  names : ∀ p ∈ r.ports, isName p.name.toList = true

/-- The names of all ports can be written, and every port has an address. -/
structure Listable (r : Registry) : Prop extends Legible r where
  placed : ∀ p ∈ r.ports, p.isFallback = false

/-- The fallback that a word reaches, by whose name it is written. -/
def fallback? (r : Registry) (word : Word) (direction : Direction) : Option Port :=
  (r.atWord? word direction).filter Port.isFallback

/-- What is read back of a word: itself, if it is not written by the name of a fallback. -/
def reread (r : Registry) (word : Word) (direction : Direction) : Except AssemblyError Word :=
  (fallback? r word direction).elim (.ok word) fun p => .error (.noAddress p.name)

theorem fallback?_of_placed {r : Registry} (listable : Listable r) (word : Word)
    (direction : Direction) : fallback? r word direction = none := by
  rw [fallback?, Option.filter_eq_none_iff]
  intro p found
  rw [Registry.atWord?_eq_some_iff listable.sound] at found
  rw [listable.placed p found.1]
  exact Bool.false_ne_true

/-- The port at an address is written by a name that leads back to the address, unless
    it is a fallback. -/
theorem portWord_of_atWord? {r : Registry} (legible : Legible r) {word : Word}
    {direction : Direction} {p : Port} (found : r.atWord? word direction = some p) :
    p ∈ r.ports ∧ portWord r p.name direction = reread r word direction := by
  have hplace := (Registry.atWord?_eq_some_iff legible.sound).mp found
  rcases hplace with ⟨hp, _, serves, hplace⟩
  have hnamed : r.named? p.name direction = some p :=
    (Registry.named?_eq_some_iff legible.sound).mpr ⟨hp, serves, List.mem_cons_self⟩
  refine ⟨hp, ?_⟩
  rw [portWord, hnamed, reread, fallback?, found]
  dsimp only
  -- A port at the word itself is assembled to that word. A fallback has no address to assemble.
  rcases hplace with haddress | ⟨fallback, _⟩
  · have hfixed : p.isFallback = false := by
      rw [← Bool.not_eq_true, ← Port.address?_eq_none_iff, haddress]
      exact Option.some_ne_none _
    rw [haddress, Option.filter_some_neg hfixed]
    rfl
  · rw [Port.address?_eq_none_iff.mpr fallback, Option.filter_some_pos fallback]
    rfl

theorem ofWord_eq_literal {word value : Word} (h : Source.ofWord word = .literal value) :
    (word >>> 24).toUInt8 = literalTag ∧ value ≤ offsetMask ∧
      literalTag.toUInt32 <<< 24 ||| value = word := by
  have hword := Source.word_ofWord word
  rw [h] at hword
  rw [Source.ofWord] at h
  split at h
  · next tagged =>
    rw [Source.literal.injEq] at h
    refine ⟨tagged, ?_, ?_⟩
    · rw [← h, UInt32.le_iff_toNat_le, UInt32.toNat_and]
      exact Nat.and_le_right
    · rw [Source.word, ← h, UInt32.and_assoc, UInt32.and_self] at hword
      rw [← h]
      exact hword
  · contradiction

/-- Every operand is written as a token that is read back. -/
theorem exists_spells_operandText {r : Registry} (legible : Legible r) (word : Word)
    (direction : Direction) : ∃ token, Spells (operandText r word direction).toList token ∧
      operandWord r direction token = reread r word direction := by
  -- In either direction a port is written by its name, and a word without a port as it is.
  have hport : ∀ direction, ∃ token,
      Spells (((r.atWord? word direction).map Port.name).getD
        ("@x" ++ Numeral.hexPadded 8 word.toNat)).toList token ∧
      operandWord r direction token = reread r word direction := by
    intro direction
    cases hfound : r.atWord? word direction with
    | none =>
        have hreread : reread r word direction = .ok word := by
          rw [reread, fallback?, hfound]
          rfl
        rw [hreread]
        refine ⟨.raw word, ?_, by cases direction <;> rfl⟩
        have htext : ("@x" ++ Numeral.hexPadded 8 word.toNat).toList =
            '@' :: 'x' :: Numeral.writePadded 16 8 word.toNat := by
          simp [Numeral.hexPadded]
        rw [Option.map_none, Option.getD_none, htext]
        exact spells_raw word
    | some p =>
        rcases portWord_of_atWord? legible hfound with ⟨hp, hword⟩
        refine ⟨.name p.name, ?_, ?_⟩
        · have hspells := spells_name (legible.names p hp)
          rw [String.ofList_toList] at hspells
          exact hspells
        · cases direction <;> exact hword
  unfold operandText Registry.explain?
  cases direction with
  | write => exact hport .write
  | read =>
      -- Only when reading can a word be a literal, and then no port is at it.
      cases hsource : Source.ofWord word with
      | port address => exact hport .read
      | literal value =>
          rcases ofWord_eq_literal hsource with ⟨tagged, fits, hword⟩
          have hreread : reread r word .read = .ok word := by
            rw [reread, fallback?, Registry.atWord?_of_literalTag legible.sound tagged]
            rfl
          rw [hreread]
          refine ⟨.literal value, ?_, congrArg Except.ok hword⟩
          have htext : ("#" ++ Numeral.decimal value.toNat).toList =
              '#' :: Numeral.write 10 value.toNat := by
            simp [Numeral.decimal]
          dsimp only
          rw [Option.getD_some, htext]
          exact spells_literal fits

/-! ## Lines -/

/-- Neither a line end nor a comment. -/
def Inline (token : Token) : Prop := token ≠ .newline ∧ token ≠ .comment

theorem inline_arrow : Inline .arrow := by constructor <;> simp

theorem reread_ne_malformed (r : Registry) (word : Word) (direction : Direction) :
    reread r word direction ≠ .error .malformed := by
  rw [reread]
  cases fallback? r word direction <;> simp

/-- Line ends and comments are no operands. -/
theorem inline_of_operandWord {r : Registry} {direction : Direction} {token : Token} {word : Word}
    (h : operandWord r direction token = reread r word direction) : Inline token := by
  have hform := reread_ne_malformed r word direction
  rw [← h] at hform
  constructor <;> rintro rfl <;> cases direction <;> exact hform rfl

theorem lines_cons {token : Token} (inline : Inline token)
    {rest : List (Except LexicalError Token)} {line : List (Except LexicalError Token)}
    {later : List (List (Except LexicalError Token))} (h : lines rest = line :: later) :
    lines (.ok token :: rest) = (.ok token :: line) :: later := by
  rw [lines]
  · rw [h]
  · intro hnewline
    exact inline.1 (Except.ok.inj hnewline)

theorem lines_line {s d : Token} (hs : Inline s) (hd : Inline d)
    (rest : List (Except LexicalError Token)) :
    lines (.ok s :: .ok .arrow :: .ok d :: .ok .newline :: rest) =
      [.ok s, .ok .arrow, .ok d] :: lines rest := by
  have hend : lines (.ok .newline :: rest) = [] :: lines rest := by rw [lines]
  exact lines_cons hs (lines_cons inline_arrow (lines_cons hd hend))

theorem lineTokens_cons {token : Token} (inline : Inline token)
    (rest : List (Except LexicalError Token)) :
    lineTokens (.ok token :: rest) = (lineTokens rest).map (token :: ·) := by
  rw [lineTokens]
  exact inline.2

/-- The first fallback that a move is written by, its source before its destination. -/
def unplaced? (r : Registry) (words : Word × Word) : Option Port :=
  (fallback? r words.1 .read).or (fallback? r words.2 .write)

/-- What is said of the first of several moves that is written by a fallback, where the
    first line has the given number. -/
def refusal? (r : Registry) : Nat → List (Word × Word) → Option ListingError
  | _, [] => none
  | number, words :: later =>
    ((unplaced? r words).map fun p => ⟨number, .noAddress p.name⟩).or
      (refusal? r (number + 1) later)

/-- A line of two operands is the move of their words, if these are read back. -/
theorem lineMoves_line {r : Registry} {s d : Token} {source destination : Word}
    (hs : operandWord r .read s = reread r source .read)
    (hd : operandWord r .write d = reread r destination .write) :
    lineMoves r [.ok s, .ok .arrow, .ok d] =
      (unplaced? r (source, destination)).elim (.ok [.ofWords source destination])
        fun p => .error (.noAddress p.name) := by
  have htokens : lineTokens [.ok s, .ok .arrow, .ok d] = .ok [s, .arrow, d] := by
    rw [lineTokens_cons (inline_of_operandWord hs), lineTokens_cons inline_arrow,
      lineTokens_cons (inline_of_operandWord hd)]
    rfl
  rw [lineMoves, htokens]
  change (do return [← move r s d] : Except AssemblyError (List Instruction)) = _
  change sourceWord r s = _ at hs
  change destinationWord r d = _ at hd
  -- Either operand may be served by a fallback, and the source is assembled first.
  rw [move, hs, hd, unplaced?, reread, reread]
  cases fallback? r source .read <;> cases fallback? r destination .write <;> rfl

/-- The lines of bytes are assembled into the moves that the bytes encode, if none of
    them is written by a fallback. -/
theorem listingMoves_disassemblyLines {r : Registry} (legible : Legible r)
    (bytes : List UInt8) : ∀ number,
    listingMoves r number
      (lines (meanings ((disassemblyLines r bytes).flatMap String.toList))) =
        (refusal? r number (ofBytes bytes).words).elim (.ok (movesOfBytes bytes)) .error := by
  change ∀ number, _ =
    (refusal? r number ((movesOfBytes bytes).map Instruction.words)).elim _ _
  fun_induction disassemblyLines r bytes with
  | case1 s0 s1 s2 s3 d0 d1 d2 d3 rest ih =>
      intro number
      rcases exists_spells_operandText legible (Word.ofBytes s0 s1 s2 s3) .read with
        ⟨s, hspells, hs⟩
      rcases exists_spells_operandText legible (Word.ofBytes d0 d1 d2 d3) .write with
        ⟨d, hspelld, hd⟩
      have htext : (moveText r (Word.ofBytes s0 s1 s2 s3) (Word.ofBytes d0 d1 d2 d3)).toList =
          (operandText r (Word.ofBytes s0 s1 s2 s3) .read).toList ++ " -> ".toList ++
            (operandText r (Word.ofBytes d0 d1 d2 d3) .write).toList ++ ['\n'] := by
        simp [moveText]
      rw [List.flatMap_cons, htext, List.append_assoc _ ['\n'], List.singleton_append,
        meanings_line hspells hspelld,
        lines_line (inline_of_operandWord hs) (inline_of_operandWord hd), listingMoves,
        lineMoves_line hs hd, movesOfBytes, List.map_cons, Instruction.words_ofWords, refusal?]
      -- The first line is refused, or what is refused is a later one.
      cases unplaced? r (Word.ofBytes s0 s1 s2 s3, Word.ofBytes d0 d1 d2 d3) with
      | some p => rfl
      | none =>
          dsimp only [Option.elim_none, Option.map_none, Option.none_or]
          rw [ih]
          cases refusal? r (number + 1) ((movesOfBytes rest).map Instruction.words) <;> rfl
  | case2 bytes incomplete =>
      intro number
      have hnone : meanings ([].flatMap String.toList) = [] := by simp [meanings, cut]
      rw [hnone, movesOfBytes]
      · rfl
      · exact incomplete

/-- The listing of bytes is assembled into the program that they encode, unless one of
    its moves is written by a fallback. -/
theorem ofListing_disassemble_eq {r : Registry} (legible : Legible r) (bytes : List UInt8) :
    ofListing r (disassemble r bytes) =
      (refusal? r 1 (ofBytes bytes).words).elim (.ok (ofBytes bytes)) .error := by
  rw [ofListing_eq_listingMoves, values_eq_meanings, disassemble, String.toList_join,
    listingMoves_disassemblyLines legible]
  cases refusal? r 1 (ofBytes bytes).words <;> rfl

theorem refusal?_of_placed {r : Registry} (listable : Listable r) (moves : List (Word × Word)) :
    ∀ number, refusal? r number moves = none := by
  induction moves with
  | nil => exact fun _ => rfl
  | cons words later ih =>
      intro number
      rw [refusal?, unplaced?, fallback?_of_placed listable, fallback?_of_placed listable, ih]
      rfl

/-- The listing of bytes is assembled into the program that they encode. -/
theorem ofListing_disassemble {r : Registry} (listable : Listable r) (bytes : List UInt8) :
    ofListing r (disassemble r bytes) = .ok (ofBytes bytes) := by
  rw [ofListing_disassemble_eq listable.toLegible, refusal?_of_placed listable]
  rfl

/-! ## Programs of listings -/

theorem decoded_of_move {r : Registry} {s d : Token} {i : Instruction} (h : move r s d = .ok i) :
    Decoded i := by
  rcases words_of_move h with ⟨source, destination, _, _, rfl⟩
  exact ⟨source, destination, rfl⟩

theorem decoded_of_listingMoves {r : Registry}
    (listing : List (List (Except LexicalError Token))) (number : Nat)
    (moves : List Instruction) (h : listingMoves r number listing = .ok moves) :
    ∀ i ∈ moves, Decoded i := by
  have each := forall₂_of_listingMoves listing number moves h
  generalize listing.filterMap lineOperands? = operands at each
  clear h
  induction each with
  | nil => simp
  | cons hmove _ ih => exact List.forall_mem_cons.mpr ⟨decoded_of_move hmove, ih⟩

/-- Assembling undoes disassembling. In every registry that comes of declarations
    offered one after the other, has no fallback and has only names that can be
    written: the listing of a byte string is a program, and the bytes of that program
    are the given ones up to the last whole move; and a program that comes of any
    listing comes of the listing of its bytes. -/
theorem assembling_undoes_disassembling (decls : List ModuleDecl)
    (names : ∀ p ∈ (Registry.empty.offerAll decls).ports, isName p.name.toList = true)
    (placed : ∀ p ∈ (Registry.empty.offerAll decls).ports, p.isFallback = false) :
    let r := Registry.empty.offerAll decls
    (∀ bytes, ∃ program, ofListing r (disassemble r bytes) = .ok program ∧
      program.bytes = bytes.take (bytes.length / 8 * 8)) ∧
    ∀ text program, ofListing r text = .ok program →
      ofListing r (disassemble r program.bytes) = .ok program := by
  intro r
  have listable : Listable r := ⟨⟨Registry.sound_offerAll decls, names⟩, placed⟩
  constructor
  · intro bytes
    exact ⟨ofBytes bytes, ofListing_disassemble listable bytes, bytes_ofBytes bytes⟩
  · intro text program h
    rcases map_eq_ok_iff.mp (ofListing_eq_listingMoves r text ▸ h) with ⟨moves, hmoves, rfl⟩
    rw [ofListing_disassemble listable,
      ofBytes_bytes (decoded_of_listingMoves _ 1 moves hmoves)]

-- A jump to a literal, and a move from where no port is to a word under the literal
-- tag; three bytes are left over.
theorem assembling_undoes_disassembling_standard :
    let r := Registry.empty.offerAll Registry.standardDecls
    r = Registry.standard ∧
    (∀ p ∈ r.ports, isName p.name.toList = true) ∧ (∀ p ∈ r.ports, p.isFallback = false) ∧
    ∃ program, ofListing r (disassemble r [0x11, 0x99, 0x00, 0x08, 0x90, 0x00, 0x00, 0x00,
        0xDE, 0xAD, 0xBE, 0xEF, 0x11, 0x00, 0x00, 0x01, 0x02, 0xA0, 0x00]) = .ok program ∧
      program.bytes = [0x11, 0x99, 0x00, 0x08, 0x90, 0x00, 0x00, 0x00,
        0xDE, 0xAD, 0xBE, 0xEF, 0x11, 0x00, 0x00, 0x01] := by
  have names : ∀ p ∈ (Registry.empty.offerAll Registry.standardDecls).ports,
      isName p.name.toList = true := by decide
  have placed : ∀ p ∈ (Registry.empty.offerAll Registry.standardDecls).ports,
      p.isFallback = false := by decide
  exact ⟨rfl, names, placed,
    (assembling_undoes_disassembling Registry.standardDecls names placed).1 _⟩

end Program

end Transport
