import Transport.Program

/-!
# Listings Line by Line

A listing is read in one go, with the tokens of the current line kept aside and the lines
counted. It may as well be cut into lines first, each of which is then assembled by itself:
the first piece of a line that stands for nothing is its error, else its tokens without the
comments have to make a move, or nothing at all. The first line with an error has the error
of the listing.

The second form is what everything about listings is proved from. A reading in any state
comes to something by the second form: the rest of its line is added to the tokens it has
kept, and the later lines follow. To read one thing more does not change that, so the two
agree by induction along what is read.

## Main definitions

* `Program.lines`: A listing cut into lines.
* `Program.lineMoves`: The moves of a line, which are one or none.
* `Program.listingMoves`: The moves of successive lines.
* `Program.Reading.ending`: What a reading comes to, by lines.

## Theorems

* `ending_read`, `ending_foldlM`: Reading on does not change that.
* `ofListing_eq_listingMoves`: A listing is assembled line by line.
-/

namespace Transport

namespace Program

/-- The lines of a listing, without their ends. There is one more line than
    there are ends, and it may be empty. -/
def lines : List (Except LexicalError Token) → List (List (Except LexicalError Token))
  | [] => [[]]
  | .ok .newline :: rest => [] :: lines rest
  | value :: rest =>
    match lines rest with
    | line :: later => (value :: line) :: later
    | [] => [[value]]

/-- The tokens of a line without its comments, or the first thing on it that
    stands for nothing. -/
def lineTokens : List (Except LexicalError Token) → Except AssemblyError (List Token)
  | [] => .ok []
  | .error cause :: _ => .error (.lexical cause)
  | .ok .comment :: rest => lineTokens rest
  | .ok token :: rest => (lineTokens rest).map (token :: ·)

/-- The moves of a line, which are one or none. -/
def lineMoves (registry : Registry) (line : List (Except LexicalError Token)) :
    Except AssemblyError (List Instruction) := do
  match ← lineTokens line with
  | [] => return []
  | [source, .arrow, destination] => return [← move registry source destination]
  | _ => throw .malformed

/-- The moves of successive lines, the first of which has the given number. -/
def listingMoves (registry : Registry) (number : Nat) :
    List (List (Except LexicalError Token)) → Except ListingError (List Instruction)
  | [] => .ok []
  | line :: later =>
    match lineMoves registry line with
    | .error cause => .error ⟨number, cause⟩
    | .ok moves => (listingMoves registry (number + 1) later).map (moves ++ ·)

theorem lines_ne_nil (values : List (Except LexicalError Token)) : lines values ≠ [] := by
  fun_induction lines values <;> simp

/-- What does not end a line becomes part of the first one. -/
theorem lines_cons_of_ne_newline {value : Except LexicalError Token} (inline : value ≠ .ok .newline)
    {rest first : List (Except LexicalError Token)}
    {later : List (List (Except LexicalError Token))} (h : lines rest = first :: later) :
    lines (value :: rest) = (value :: first) :: later := by
  cases value with
  | error cause => simp only [lines, h]
  | ok token =>
      cases token with
      | newline => contradiction
      | _ => simp only [lines, h]

/-- The tokens of a line add its move. -/
theorem pushTokens_lineTokens (registry : Registry) (program : Program)
    (line : List (Except LexicalError Token)) :
    (lineTokens line >>= fun tokens => program.pushTokens registry tokens) =
      (lineMoves registry line).map program.append := by
  unfold lineMoves
  cases lineTokens line with
  | error cause => rfl
  | ok tokens =>
      simp only [bind, Except.bind]
      -- A line may hold nothing, a move, or something else, mostly of another length.
      rcases tokens with _ | ⟨source, _ | ⟨middle, _ | ⟨destination, _ | ⟨_, _⟩⟩⟩⟩
      · simp only [pushTokens, pure, Except.pure, Except.map, append, List.append_nil]
      · rfl
      · cases middle <;> rfl
      · cases middle with
        | arrow =>
            simp only [pushTokens, bind, Except.bind]
            cases move registry source destination <;> rfl
        | _ => rfl
      · cases middle <;> rfl

namespace Reading

/-- What a reading comes to if these lines follow, the first of which is the rest of its
    own. -/
def ending (registry : Registry) (reading : Reading) :
    List (List (Except LexicalError Token)) → Except ListingError Program
  | [] => reading.endLine registry
  | rest :: later =>
    match lineTokens rest >>= fun more =>
      reading.program.pushTokens registry (reading.tokens ++ more) with
    | .error cause => .error ⟨reading.line, cause⟩
    | .ok program => (listingMoves registry (reading.line + 1) later).map program.append

variable {registry : Registry} (reading : Reading)

/-- With nothing more on its line, a reading pushes what it has kept. -/
theorem ending_of_over (later : List (List (Except LexicalError Token))) :
    reading.ending registry ([] :: later) =
      reading.endLine registry >>= fun program =>
        (listingMoves registry (reading.line + 1) later).map program.append := by
  simp only [ending, endLine, lineTokens, bind, Except.bind, List.append_nil]
  cases reading.program.pushTokens registry reading.tokens <;> rfl

/-- On a new line, a reading that has kept nothing assembles what follows line by line. -/
theorem ending_of_fresh (program : Program) (line : Nat)
    {values : List (List (Except LexicalError Token))} (nonempty : values ≠ []) :
    ending registry ⟨program, line, []⟩ values =
      (listingMoves registry line values).map program.append := by
  cases values with
  | nil => contradiction
  | cons first later =>
      simp only [ending, listingMoves, List.nil_append, pushTokens_lineTokens]
      cases lineMoves registry first with
      | error cause => rfl
      | ok moves =>
          cases listingMoves registry (line + 1) later with
          | error cause => rfl
          | ok more => simp only [Except.map, append, List.append_assoc]

/-- A token that counts may be kept or be left on the line. -/
theorem ending_of_kept {token : Token} {rest : List (Except LexicalError Token)}
    (counts : lineTokens (.ok token :: rest) = (lineTokens rest).map (token :: ·))
    (later : List (List (Except LexicalError Token))) :
    ending registry { reading with tokens := reading.tokens ++ [token] } (rest :: later) =
      reading.ending registry ((.ok token :: rest) :: later) := by
  simp only [ending, counts]
  cases lineTokens rest with
  | error cause => rfl
  | ok more =>
      simp only [Except.map, bind, Except.bind, List.append_assoc, List.singleton_append]

/-- Reading on does not change what the whole comes to. -/
theorem ending_read (value : Except LexicalError Token)
    (rest : List (Except LexicalError Token)) :
    (reading.read registry value >>= fun after => after.ending registry (lines rest)) =
      reading.ending registry (lines (value :: rest)) := by
  rcases List.exists_cons_of_ne_nil (lines_ne_nil rest) with ⟨next, others, hrest⟩
  have inline : value ≠ .ok .newline → lines (value :: rest) = (value :: next) :: others :=
    fun inline => lines_cons_of_ne_newline inline hrest
  cases value with
  | error cause =>
      rw [inline (by simp only [ne_eq, reduceCtorEq, not_false_eq_true])]
      rfl
  | ok token =>
      cases token with
      | newline =>
          -- The line ends here, so what was kept is pushed before the next line begins.
          have hlines : lines (.ok .newline :: rest) = [] :: lines rest := rfl
          rw [hlines, ending_of_over]
          unfold read
          cases reading.endLine registry with
          | error cause => rfl
          | ok program => exact ending_of_fresh program _ (lines_ne_nil rest)
      | comment =>
          -- A comment is skipped by both.
          rw [inline (by simp only [ne_eq, Except.ok.injEq, reduceCtorEq, not_false_eq_true]),
            hrest]
          rfl
      | _ =>
          rw [inline (by simp only [ne_eq, Except.ok.injEq, reduceCtorEq, not_false_eq_true]),
            hrest]
          exact reading.ending_of_kept rfl others

/-- What is read to the end comes to the rest of the line with what was kept of it, and the
    lines that follow. By induction along what is still to be read. -/
theorem ending_foldlM (values : List (Except LexicalError Token)) :
    ∀ reading : Reading, (values.foldlM (read registry) reading >>=
      fun after => after.endLine registry) = reading.ending registry (lines values) := by
  induction values with
  | nil =>
      intro reading
      refine Eq.trans ?_ (reading.ending_of_over []).symm
      simp only [List.foldlM_nil, listingMoves, pure, Except.pure, bind, Except.bind, Except.map,
        append, List.append_nil]
      cases reading.endLine registry <;> rfl
  | cons value rest ih =>
      intro reading
      rw [List.foldlM_cons, ← ending_read]
      cases reading.read registry value with
      | error cause => rfl
      | ok after => exact ih after

end Reading

/-- A listing is assembled line by line. -/
theorem ofListing_eq_listingMoves (registry : Registry) (text : String) :
    ofListing registry text =
      (listingMoves registry 1 (lines (Item.values text))).map Program.mk := by
  refine ((Reading.ending_foldlM (Item.values text) {}).trans
    (Reading.ending_of_fresh {} 1 (lines_ne_nil _))).trans ?_
  cases listingMoves registry 1 (lines (Item.values text)) <;> rfl

end Program

end Transport
