import Transport.Proofs.Listing.Lines
import Transport.Proofs.Program.Moves
import Transport.Registry.Standard

/-!
# Assembling Line by Line

A listing is assembled from one stream of tokens, whose lines are looked at one after
the other. Since the lines of the tokens are the tokens of the lines, what is said of a
line depends on that line alone: its moves or its error are those of the line as a listing
of its own, and its number is the number of lines in front of it, plus one. So two listings
can be assembled one by one, and the first line that is refused decides about the whole.

## Theorems

* `lines_meanings`: The lines of the tokens of a text are the tokens of its lines.
* `listingMoves_append`, `listingMoves_add`: Lines in front of others, and lines that
  stand further down.
* `ofListing_append`: A listing in two parts.
* `ofListing_eq_error_iff`: The first line that is refused.
* `assembling_is_linewise`: All of this for any registry, and no piece goes over a line
  end.
-/

namespace Transport

namespace Program

open Piece

/-! ## Tokens and lines -/

theorem lines_append_newline (values rest : List (Except LexicalError Token)) :
    lines (values ++ .ok .newline :: rest) = lines values ++ lines rest := by
  fun_induction lines values with
  | case1 => rfl
  | case2 values ih => rw [List.cons_append, lines, ih]; rfl
  | case3 value values inline line later hlines ih =>
      rw [List.cons_append, lines]
      · rw [ih, hlines]
        rfl
      · exact inline
  | case4 value values inline hlines ih => exact absurd hlines (lines_ne_nil values)

theorem lines_of_inline {values : List (Except LexicalError Token)}
    (inline : .ok .newline ∉ values) : lines values = [values] := by
  fun_induction lines values with
  | case1 => rfl
  | case2 values ih => simp at inline
  | case3 value values _ line later hlines ih =>
      rw [List.mem_cons, not_or] at inline
      rw [hlines] at ih
      simpa using ih inline.2
  | case4 value values _ hlines ih => exact absurd hlines (lines_ne_nil values)

theorem kind_of_meaning? {piece : Piece} (h : piece.meaning? = some (.ok .newline)) :
    piece.kind = .newline := by
  have hliteral : ∀ base digits, readLiteral base digits ≠ .ok .newline := by
    intro base digits hread
    rcases readLiteral_eq_ok hread with ⟨value, hvalue, _⟩
    contradiction
  have hraw : ∀ cs, readRaw cs ≠ .ok .newline := by
    intro cs hread
    rcases readRaw_eq_ok hread with ⟨word, hword⟩
    contradiction
  rcases piece with ⟨kind, chars⟩
  cases kind <;> simp [meaning?, hliteral, hraw] at h ⊢

/-- A line end is read from a line feed alone. -/
theorem newline_mem_of_mem_meanings {cs : List Char} (member : .ok .newline ∈ meanings cs) :
    '\n' ∈ cs := by
  induction cs using cut_induction with
  | nil =>
      rw [meanings_nil] at member
      contradiction
  | append piece rest leads ih =>
      rw [meanings_of_leads leads, List.mem_append, Option.mem_toList] at member
      rw [List.mem_append]
      rcases member with here | later
      · exact Or.inl (leads.newline_mem (kind_of_meaning? here))
      · exact Or.inr (ih later)

/-- The lines of the tokens of a text are the tokens of its lines. -/
theorem lines_meanings (cs : List Char) : lines (meanings cs) = (sourceLines cs).map meanings := by
  by_cases ended : '\n' ∈ cs
  · rcases exists_first_line ended with ⟨line, ending, rest, rfl, unended, closes⟩
    rw [meanings_append_end closes, lines_append_newline,
      sourceLines_append_end closes, sourceLines_of_unended unended, lines_meanings rest,
      lines_of_inline (mt newline_mem_of_mem_meanings unended)]
    rfl
  · rw [lines_of_inline (mt newline_mem_of_mem_meanings ended), sourceLines_of_unended ended]
    rfl
termination_by cs.length
decreasing_by
  have hpos : 0 < ending.length := by rcases closes with ⟨rfl, _⟩ | rfl <;> decide
  simp only [*, List.length_append]
  omega

/-! ## Listings -/

section Listings

variable {r : Registry}

theorem ofListing_eq (text : String) :
    ofListing r text =
      (listingMoves r 1 ((sourceLines text.toList).map meanings)).map Program.mk := by
  rw [ofListing_eq_listingMoves, values_eq_meanings, lines_meanings]

/-- Lines that stand further down are refused further down, and for the same. -/
theorem listingMoves_add (listing : List (List (Except LexicalError Token))) (count : Nat) :
    ∀ number, listingMoves r (number + count) listing =
      (listingMoves r number listing).mapError fun e => ⟨e.line + count, e.cause⟩ := by
  -- Induction on the lines, for every number that the first of them can have.
  induction listing with
  | nil => exact fun _ => rfl
  | cons line later ih =>
      intro number
      rw [listingMoves, listingMoves]
      cases lineMoves r line with
      | error cause => rfl
      | ok moves =>
          dsimp only
          rw [Nat.add_right_comm, ih]
          cases listingMoves r (number + 1) later <;> rfl

/-- The lines in front are looked at first, and those behind only if they are moves. -/
theorem listingMoves_append (front behind : List (List (Except LexicalError Token))) :
    ∀ number, listingMoves r number (front ++ behind) =
      match listingMoves r number front with
      | .error e => .error e
      | .ok moves => (listingMoves r (number + front.length) behind).map (moves ++ ·) := by
  -- Induction on the lines in front: what is behind is numbered from where these end.
  induction front with
  | nil =>
      intro number
      change listingMoves r number behind = (listingMoves r number behind).map ([] ++ ·)
      cases listingMoves r number behind <;> rfl
  | cons line later ih =>
      intro number
      rw [List.cons_append, listingMoves, listingMoves, ih]
      cases lineMoves r line with
      | error cause => rfl
      | ok moves =>
          dsimp only
          have hnumber : number + (later.length + 1) = number + 1 + later.length := by omega
          rw [List.length_cons, hnumber]
          cases listingMoves r (number + 1) later with
          | error e => rfl
          | ok rest =>
              dsimp only [Except.map]
              cases listingMoves r (number + 1 + later.length) behind with
              | error e => rfl
              | ok more => exact congrArg Except.ok (List.append_assoc moves rest more).symm

/-- A listing is refused for its first line that is refused. -/
theorem listingMoves_eq_error_iff {e : ListingError}
    (listing : List (List (Except LexicalError Token))) : ∀ number,
    listingMoves r number listing = .error e ↔ ∃ before line after,
      listing = before ++ line :: after ∧
      (∀ earlier ∈ before, ∃ moves, lineMoves r earlier = .ok moves) ∧
        lineMoves r line = .error e.cause ∧ e.line = number + before.length := by
  induction listing with
  | nil =>
      intro number
      simp [listingMoves]
  | cons line later ih =>
      intro number
      rw [listingMoves]
      cases hline : lineMoves r line with
      | error cause =>
          constructor
          · intro refused
            cases refused
            exact ⟨[], line, later, rfl, by simp, hline, rfl⟩
          · rintro ⟨before, refused, after, hsplit, accepted, hrefused, hnumber⟩
            -- The line is refused, so it is not one of those before the first that is.
            cases before with
            | nil =>
                cases hsplit
                rw [hline, Except.error.injEq] at hrefused
                rcases e with ⟨number', cause'⟩
                cases hrefused
                cases hnumber
                rfl
            | cons earlier before =>
                cases hsplit
                rcases accepted line List.mem_cons_self with ⟨moves, hmoves⟩
                rw [hline] at hmoves
                contradiction
      | ok moves =>
          have hmap : (listingMoves r (number + 1) later).map (moves ++ ·) = .error e ↔
              listingMoves r (number + 1) later = .error e := by
            cases listingMoves r (number + 1) later <;> simp [Except.map]
          dsimp only
          rw [hmap, ih]
          constructor
          · rintro ⟨before, refused, after, rfl, accepted, hrefused, hnumber⟩
            refine ⟨line :: before, refused, after, rfl, ?_, hrefused, ?_⟩
            · exact List.forall_mem_cons.mpr ⟨⟨moves, hline⟩, accepted⟩
            · rw [hnumber, List.length_cons]
              omega
          · rintro ⟨before, refused, after, hsplit, accepted, hrefused, hnumber⟩
            cases before with
            | nil =>
                cases hsplit
                rw [hline] at hrefused
                contradiction
            | cons earlier before =>
                cases hsplit
                refine ⟨before, refused, after, rfl, ?_, hrefused, ?_⟩
                · exact (List.forall_mem_cons.mp accepted).2
                · rw [hnumber, List.length_cons]
                  omega

/-- A text that is one line is assembled as that line, which is the first. -/
theorem ofListing_line {cs : List Char} (unended : '\n' ∉ cs) :
    ofListing r (String.ofList cs) =
      ((lineMoves r (meanings cs)).mapError (⟨1, ·⟩)).map Program.mk := by
  rw [ofListing_eq, String.toList_ofList, sourceLines_of_unended unended]
  change (listingMoves r 1 [meanings cs]).map Program.mk = _
  rw [listingMoves, listingMoves]
  cases lineMoves r (meanings cs) with
  | error cause => rfl
  | ok moves =>
      change Except.ok (Program.mk (moves ++ [])) = _
      rw [List.append_nil]
      rfl

theorem ofListing_line_eq_ok_iff {cs : List Char} (unended : '\n' ∉ cs) :
    (∃ p, ofListing r (String.ofList cs) = .ok p) ↔
      ∃ moves, lineMoves r (meanings cs) = .ok moves := by
  rw [ofListing_line unended]
  cases lineMoves r (meanings cs) <;> simp [Except.map, Except.mapError]

theorem ofListing_line_eq_error_iff {cs : List Char} (unended : '\n' ∉ cs)
    {cause : AssemblyError} : ofListing r (String.ofList cs) = .error ⟨1, cause⟩ ↔
      lineMoves r (meanings cs) = .error cause := by
  rw [ofListing_line unended]
  cases lineMoves r (meanings cs) <;> simp [Except.map, Except.mapError]

theorem ofListing_append (first second : String)
    (unreturned : first.toList.getLast? ≠ some '\r') :
    ofListing r (first ++ "\n" ++ second) =
      match ofListing r first with
      | .error e => .error e
      | .ok p =>
        match ofListing r second with
        | .error e => .error ⟨e.line + (first.toList.count '\n' + 1), e.cause⟩
        | .ok q => .ok ⟨p.instructions ++ q.instructions⟩ := by
  have htext : (first ++ "\n" ++ second).toList = first.toList ++ (['\n'] ++ second.toList) := by
    rw [String.toList_append, String.toList_append, List.append_assoc]
    rfl
  -- The lines of the whole are those of the one part and then those of the other.
  rw [ofListing_eq, htext, sourceLines_append_end (Or.inl ⟨rfl, unreturned⟩), List.map_append,
    listingMoves_append, List.length_map, length_sourceLines, listingMoves_add, ofListing_eq first,
    ofListing_eq second]
  cases listingMoves r 1 ((sourceLines first.toList).map meanings) with
  | error e => rfl
  | ok moves => cases listingMoves r 1 ((sourceLines second.toList).map meanings) <;> rfl

theorem ofListing_eq_error_iff (text : String) (e : ListingError) : ofListing r text = .error e ↔
    ∃ before line after, sourceLines text.toList = before ++ line :: after ∧
      (∀ earlier ∈ before, ∃ p, ofListing r (String.ofList earlier) = .ok p) ∧
      ofListing r (String.ofList line) = .error ⟨1, e.cause⟩ ∧ e.line = before.length + 1 := by
  have hmap : ofListing r text = .error e ↔
      listingMoves r 1 ((sourceLines text.toList).map meanings) = .error e := by
    rw [ofListing_eq]
    cases listingMoves r 1 ((sourceLines text.toList).map meanings) <;> simp [Except.map]
  have hunended : ∀ line ∈ sourceLines text.toList, '\n' ∉ line :=
    newline_notMem_of_mem_sourceLines
  rw [hmap, listingMoves_eq_error_iff]
  -- Both sides divide the same lines, on the left by their tokens.
  constructor
  · rintro ⟨before, line, after, hsplit, accepted, hrefused, hnumber⟩
    rcases List.map_eq_append_iff.mp hsplit with ⟨before, rest, hlines, rfl, hrest⟩
    rcases List.map_eq_cons_iff.mp hrest with ⟨line, after, rfl, rfl, rfl⟩
    rw [hlines, List.forall_mem_append, List.forall_mem_cons] at hunended
    refine ⟨before, line, after, hlines, ?_, ?_, ?_⟩
    · intro earlier member
      rw [ofListing_line_eq_ok_iff (hunended.1 earlier member)]
      exact accepted _ (List.mem_map_of_mem member)
    · rw [ofListing_line_eq_error_iff hunended.2.1, hrefused]
    · rw [hnumber, List.length_map, Nat.add_comm]
  · rintro ⟨before, line, after, hlines, accepted, hrefused, hnumber⟩
    rw [hlines, List.forall_mem_append, List.forall_mem_cons] at hunended
    refine ⟨before.map meanings, meanings line, after.map meanings, ?_, ?_, ?_, ?_⟩
    · rw [hlines, List.map_append, List.map_cons]
    · rw [List.forall_mem_map]
      intro earlier member
      rw [← ofListing_line_eq_ok_iff (hunended.1 earlier member)]
      exact accepted earlier member
    · rwa [← ofListing_line_eq_error_iff hunended.2.1]
    · rw [hnumber, List.length_map, Nat.add_comm]

end Listings

/-- Assembling is compositional over lines. Of two texts with a line end between them, the
    first is assembled as it is by itself, if it does not end in the carriage return of
    that line end. Where it is refused, so is the whole, for the same. Otherwise the second
    is assembled as it is by itself, with its lines counted from behind the first, and the
    program has the moves of both. So a text is refused exactly if one of its lines is, with
    the number of the first such line and for the same reason; and no piece of it but the
    line end itself goes over a line end. -/
theorem assembling_is_linewise (r : Registry) :
    (∀ first second : String, first.toList.getLast? ≠ some '\r' →
      ofListing r (first ++ "\n" ++ second) =
        match ofListing r first with
        | .error e => .error e
        | .ok p =>
          match ofListing r second with
          | .error e => .error ⟨e.line + (first.toList.count '\n' + 1), e.cause⟩
          | .ok q => .ok ⟨p.instructions ++ q.instructions⟩) ∧
    (∀ (text : String) (e : ListingError), ofListing r text = .error e ↔
      ∃ before line after, sourceLines text.toList = before ++ line :: after ∧
        (∀ earlier ∈ before, ∃ p, ofListing r (String.ofList earlier) = .ok p) ∧
        ofListing r (String.ofList line) = .error ⟨1, e.cause⟩ ∧ e.line = before.length + 1) ∧
    ∀ (text : String), ∀ piece ∈ cut text.toList, '\n' ∈ piece.chars →
      piece = ⟨.newline, ['\n']⟩ ∨ piece = ⟨.newline, ['\r', '\n']⟩ := by
  refine ⟨ofListing_append, ofListing_eq_error_iff, ?_⟩
  intro text piece member newline
  exact eq_of_newline_mem member newline

-- A comment, a blank line and an error on the second line of the second text.
theorem assembling_is_linewise_late :
    let r := Registry.standard
    let first := "#1 -> alu.op ; one\r\n"
    let second := "; two\n#3 -> #4"
    ∃ p e, first.toList.getLast? ≠ some '\r' ∧ ofListing r first = .ok p ∧
      ofListing r second = .error e ∧
      ofListing r (first ++ "\n" ++ second) = .error ⟨e.line + 2, e.cause⟩ := by
  intro r first second
  have unreturned : first.toList.getLast? ≠ some '\r' := by decide
  have haccepted : (ofListing r first).toOption ≠ none := by decide +kernel
  have hrefused : (ofListing r second).toOption = none := by decide +kernel
  have hjoined := (assembling_is_linewise r).1 first second unreturned
  cases hfirst : ofListing r first with
  | error e =>
      rw [hfirst] at haccepted
      exact absurd rfl haccepted
  | ok p =>
      cases hsecond : ofListing r second with
      | ok q =>
          rw [hsecond] at hrefused
          contradiction
      | error e =>
          have hcount : first.toList.count '\n' = 1 := by decide
          rw [hfirst, hsecond, hcount] at hjoined
          exact ⟨p, e, unreturned, rfl, rfl, hjoined⟩

end Program

end Transport
