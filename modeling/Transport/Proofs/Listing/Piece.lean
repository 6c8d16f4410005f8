import Transport.Proofs.Listing.Longest
import Transport.Proofs.Numeral

/-!
# Operands That Are Cut Out Whole

A listing writes an operand as a name, as a literal in decimal or as a raw word in
hexadecimal. Each of these is one piece wherever a blank or a line end stands behind
it: a piece is as long as it can be, and neither of the two goes on with one. So a
line that is put together of two operands is cut into the same two again.

## Main definitions

* `Piece.isName`: The texts that are a name as a whole.
* `Piece.meanings`: What the pieces of a text stand for.
* `Piece.Spells`: The texts that stand for one token wherever they are ended.

## Theorems

* `meanings_of_leads`: What the first piece stands for comes first.
* `meanings_append_blanks`: Blanks in front of a text stand for nothing.
* `spells_name`, `spells_literal`, `spells_raw`: The three forms of an operand.
* `meanings_line`: What a line of two operands stands for.
-/

namespace Transport

namespace Piece

open scoped Computability

/-- A part of a name begins with a letter or an underscore and goes on with word
    characters. -/
def isNamePart : List Char → Bool
  | [] => false
  | c :: cs => CharClass.isNameStart c && cs.all CharClass.isWord

/-- A name is made of parts with single dots between them. -/
def isName (cs : List Char) : Bool := (cs.splitOn '.').all isNamePart

theorem mem_namePart_of_isNamePart {cs : List Char} (part : isNamePart cs = true) :
    cs ∈ namePart := by
  cases cs with
  | nil => contradiction
  | cons c cs =>
      rw [isNamePart, Bool.and_eq_true, List.all_eq_true] at part
      rw [namePart, cons_mem_one_mul_iff, mem_star_one_iff]
      exact part

theorem intercalate_dot (part : List Char) (parts : List (List Char)) :
    ['.'].intercalate (part :: parts) = part ++ (parts.map ('.' :: ·)).flatten := by
  induction parts generalizing part with
  | nil => simp
  | cons q parts ih => simp [List.intercalate_cons_cons, ih]

/-- A name is in the pattern of names. -/
theorem mem_name_of_isName {cs : List Char} (name : isName cs = true) :
    cs ∈ Kind.name.pattern := by
  -- A name is its parts joined by dots, and the pattern is a part and dotted ones behind it.
  have hjoin : ['.'].intercalate (cs.splitOn '.') = cs := List.intercalate_splitOn '.'
  rw [isName, List.all_eq_true] at name
  cases hparts : cs.splitOn '.' with
  | nil => exact absurd hparts (List.splitOn_ne_nil '.' cs)
  | cons part parts =>
      rw [hparts, List.forall_mem_cons] at name
      rw [← hjoin, hparts, intercalate_dot, Kind.pattern]
      refine Language.append_mem_mul (mem_namePart_of_isNamePart name.1) ?_
      refine Language.join_mem_kstar (List.forall_mem_map.mpr fun q hq => ?_)
      rw [cons_mem_one_mul_iff]
      exact ⟨rfl, mem_namePart_of_isNamePart (name.2 q hq)⟩

/-! ## What pieces stand for -/

/-- What the pieces of a text stand for. -/
def meanings (cs : List Char) : List (Except LexicalError Token) := (cut cs).filterMap meaning?

theorem values_eq_meanings (text : String) : Item.values text = meanings text.toList := by
  -- Positions do not matter for values, so the induction is for every position.
  have hpieces : ∀ (pieces : List Piece) (position : Nat),
      (Item.ofPieces position pieces).map Item.value = pieces.filterMap meaning? := by
    intro pieces
    induction pieces with
    | nil => intro position; rfl
    | cons piece pieces ih =>
        intro position
        rw [Item.ofPieces]
        cases hmeaning : piece.meaning? with
        | none => simp [hmeaning, ih]
        | some value => simp [hmeaning, ih]
  exact hpieces _ 0

theorem meanings_nil : meanings [] = [] := by
  rw [meanings, cut]
  rfl

/-- What the first piece of a text stands for comes first. -/
theorem meanings_of_leads {piece : Piece} {rest : List Char}
    (h : Leads (piece.chars ++ rest) piece) :
    meanings (piece.chars ++ rest) = piece.meaning?.toList ++ meanings rest := by
  rw [meanings, cut_of_leads h, List.filterMap_cons, meanings]
  cases piece.meaning? <;> rfl

theorem meanings_cons (c : Char) (cs : List Char) :
    meanings (c :: cs) = (first c cs).meaning?.toList ++ meanings (behindFirst c cs) := by
  have hfirst := chars_first_append c cs
  rw [← hfirst]
  refine meanings_of_leads ?_
  rw [hfirst]
  exact leads_iff.mpr rfl

theorem drop_takeWhile (p : Char → Bool) (cs : List Char) :
    cs.drop (cs.takeWhile p).length = cs.dropWhile p := by
  have hdrop : (cs.takeWhile p ++ cs.dropWhile p).drop (cs.takeWhile p).length = cs.dropWhile p :=
    List.drop_left
  rwa [List.takeWhile_append_dropWhile] at hdrop

theorem meanings_dropWhile_isBlank (cs : List Char) :
    meanings (cs.dropWhile isBlank) = meanings cs := by
  cases cs with
  | nil => rfl
  | cons c cs =>
      by_cases blank : isBlank c = true
      · -- The first piece is the run of blanks, which means nothing.
        have hextent : extent c cs = (.blank, (cs.takeWhile isBlank).length) := by
          unfold extent
          rw [if_pos blank]
        rw [List.dropWhile_cons_of_pos blank, meanings_cons, behindFirst, first, hextent,
          drop_takeWhile]
        rfl
      · rw [List.dropWhile_cons_of_neg blank]

/-- Blanks in front of a text stand for nothing. -/
theorem meanings_append_blanks {blanks : List Char} (all : ∀ c ∈ blanks, isBlank c = true)
    (rest : List Char) : meanings (blanks ++ rest) = meanings rest := by
  rw [← meanings_dropWhile_isBlank, List.dropWhile_append_of_pos all, meanings_dropWhile_isBlank]

theorem meanings_arrow (rest : List Char) :
    meanings ('-' :: '>' :: rest) = .ok .arrow :: meanings rest := meanings_cons '-' ('>' :: rest)

theorem meanings_feed (rest : List Char) :
    meanings ('\n' :: rest) = .ok .newline :: meanings rest := meanings_cons '\n' rest

theorem meanings_returned (rest : List Char) :
    meanings ('\r' :: '\n' :: rest) = .ok .newline :: meanings rest :=
  meanings_cons '\r' ('\n' :: rest)

theorem meanings_blank (rest : List Char) : meanings (' ' :: rest) = meanings rest :=
  @meanings_append_blanks [' '] (by simp [isBlank]) rest

/-- A comment takes in all that there is, up to the line feed. -/
theorem meanings_comment {cs : List Char} (unended : '\n' ∉ cs) :
    meanings (';' :: cs) = [.ok .comment] ∧
      ∀ rest, meanings (';' :: cs ++ '\n' :: rest) =
        .ok .comment :: .ok .newline :: meanings rest := by
  have hmember : ';' :: cs ∈ Kind.comment.pattern := cons_mem_comment_iff.mpr ⟨rfl, unended⟩
  constructor
  · rw [meanings, cut_of_mem_pattern hmember]
    rfl
  · intro rest
    rw [← meanings_feed]
    exact @meanings_of_leads ⟨.comment, ';' :: cs⟩ _ (leads_of_continues hmember (by decide) rest)

/-! ## Single operands -/

/-- A blank or a line end begins the text. -/
def Stops (rest : List Char) : Prop := ∃ c cs, rest = c :: cs ∧ (c = ' ' ∨ c = '\n')

/-- A text stands for one token wherever a blank or a line end is behind it, and does
    not begin with a blank. -/
def Spells (cs : List Char) (token : Token) : Prop :=
  (∃ c later, cs = c :: later ∧ isBlank c = false) ∧
    ∀ rest, Stops rest → meanings (cs ++ rest) = .ok token :: meanings rest

/-- A text in a pattern that neither goes on with is such a text. -/
theorem spells_of_mem_pattern {kind : Kind} {c : Char} {cs : List Char} {token : Token}
    (member : c :: cs ∈ kind.pattern) (unblank : isBlank c = false)
    (ends : kind.continues ' ' = false ∧ kind.continues '\n' = false)
    (hmeaning : meaning? ⟨kind, c :: cs⟩ = some (.ok token)) : Spells (c :: cs) token := by
  refine ⟨⟨c, cs, rfl, unblank⟩, ?_⟩
  rintro _ ⟨d, later, rfl, hd⟩
  have hends : kind.continues d = false := by
    rcases hd with rfl | rfl
    · exact ends.1
    · exact ends.2
  -- Whatever blank or line feed follows, it does not go on with the match.
  have hmeanings := @meanings_of_leads ⟨kind, c :: cs⟩ _ (leads_of_continues member hends later)
  rw [hmeaning] at hmeanings
  exact hmeanings

/-- A name stands for itself. -/
theorem spells_name {cs : List Char} (name : isName cs = true) :
    Spells cs (.name (String.ofList cs)) := by
  have hmember := mem_name_of_isName name
  cases cs with
  | nil => exact absurd hmember (nil_notMem_pattern .name)
  | cons c cs =>
      have hstart := (cons_mem_name_iff.mp hmember).1
      exact spells_of_mem_pattern hmember (extent_of_isNameStart hstart).1 (by decide) rfl

/-- Decimal digits behind `#` are a literal. -/
theorem mem_decimal_of_denotes {digits : List Char} {value : Nat} (nonempty : digits ≠ [])
    (denotes : Numeral.Denotes 10 digits value) : '#' :: digits ∈ Kind.decimal.pattern := by
  have hdigit := Numeral.isDigit_of_denotes_ten denotes
  have hword := Numeral.isWord_of_denotes (by decide) denotes
  cases digits with
  | nil => exact absurd rfl nonempty
  | cons d ds =>
      rw [List.forall_mem_cons] at hdigit hword
      exact cons_mem_decimal_iff.mpr ⟨rfl, d, ds, rfl, hdigit.1, hword.2⟩

/-- Hexadecimal digits behind `@x` are a raw word. -/
theorem mem_raw_of_denotes {digits : List Char} {value : Nat}
    (denotes : Numeral.Denotes 16 digits value) : '@' :: 'x' :: digits ∈ Kind.raw.pattern := by
  refine cons_mem_raw_iff.mpr ⟨rfl, List.forall_mem_cons.mpr ⟨by decide, ?_⟩⟩
  exact Numeral.isWord_of_denotes (by decide) denotes

/-- A literal of no more than 24 bits is read back from its digits. -/
theorem spells_literal {value : Word} (fits : value ≤ offsetMask) :
    Spells ('#' :: Numeral.write 10 value.toNat) (.literal value) := by
  have hmember := mem_decimal_of_denotes (Numeral.write_ne_nil value.toNat)
    (Numeral.denotes_write (by decide) (by decide) value.toNat)
  refine spells_of_mem_pattern hmember (by decide) (by decide) ?_
  have hread : Numeral.read 10 0x100000000 (Numeral.write 10 value.toNat) = .ok value.toNat :=
    Numeral.read_write (by decide) (by decide) value.toNat_lt
  have hnot : ¬offsetMask < value := UInt32.not_lt.mpr fits
  simp [meaning?, readLiteral, readWord, hread, hnot]

/-- Every word is read back from all of its digits. -/
theorem spells_raw (word : Word) :
    Spells ('@' :: 'x' :: Numeral.writePadded 16 8 word.toNat) (.raw word) := by
  have hmember := mem_raw_of_denotes
    (@Numeral.denotes_writePadded 16 (by decide) (by decide) 8 word.toNat)
  refine spells_of_mem_pattern hmember (by decide) (by decide) ?_
  have hread : Numeral.read 16 0x100000000 (Numeral.writePadded 16 8 word.toNat) =
      .ok word.toNat :=
    Numeral.read_writePadded (by decide) (by decide) 8 word.toNat_lt
  simp [meaning?, readRaw, isHexMark, readWord, hread, Except.map]

/-! ## Lines -/

/-- A line of two operands stands for them, with an arrow between and a line end behind. -/
theorem meanings_line {source destination : List Char} {s d : Token} (hs : Spells source s)
    (hd : Spells destination d) (rest : List Char) :
    meanings (source ++ " -> ".toList ++ destination ++ '\n' :: rest) =
      .ok s :: .ok .arrow :: .ok d :: .ok .newline :: meanings rest := by
  have hshape : source ++ " -> ".toList ++ destination ++ '\n' :: rest =
      source ++ (' ' :: '-' :: '>' :: ' ' :: (destination ++ '\n' :: rest)) := by
    simp
  rw [hshape, hs.2 _ ⟨_, _, rfl, Or.inl rfl⟩, meanings_blank, meanings_arrow, meanings_blank,
    hd.2 _ ⟨_, _, rfl, Or.inr rfl⟩, meanings_feed]

end Piece

end Transport
