import Transport.Proofs.Listing.Spacing
import Transport.Proofs.Program.Lines

/-!
# Spacing Does Not Matter

What a listing is assembled into depends on what counts in it: on its tokens and errors
without the comments, for comments are passed over on each line and no line ends at one.
So an edit that leaves what counts leaves the program, or the error and its line. Blanks
and comments are such edits, wherever they divide no item, and carriage returns in front
of line feeds leave the lines as they are.

## Theorems

* `lines_filter`, `lineTokens_filter`: Lines, and the tokens of a line, without comments.
* `ofListing_eq_of_substance`: What a listing is assembled into depends on what counts.
* `layout_is_irrelevant`: Line ends, comments and blanks.
-/

namespace Transport

namespace Program

open Piece

theorem lines_filter (values : List (Except LexicalError Token)) :
    lines (values.filter counts) = (lines values).map (List.filter counts) := by
  -- A line end always counts, so that filtering keeps the lines apart.
  fun_induction lines values with
  | case1 => rfl
  | case2 values ih =>
      have hcounts : counts (.ok .newline) = true := rfl
      rw [List.filter_cons_of_pos hcounts, lines, ih]
      rfl
  | case3 value values inline line later hlines ih =>
      rw [hlines] at ih
      by_cases hcounts : counts value = true
      · rw [List.filter_cons_of_pos hcounts, lines]
        · rw [ih]
          simp [hcounts]
        · exact inline
      · rw [List.filter_cons_of_neg hcounts, ih]
        simp [hcounts]
  | case4 value values inline hlines ih => exact absurd hlines (lines_ne_nil values)

theorem lineTokens_filter (line : List (Except LexicalError Token)) :
    lineTokens (line.filter counts) = lineTokens line := by
  fun_induction lineTokens line with
  | case1 => rfl
  | case2 cause rest => rfl
  | case3 rest ih => exact ih
  | case4 token rest other ih =>
      have hcounts : counts (.ok token) = true := by
        unfold counts
        split
        · next h => exact absurd (Except.ok.inj h) other
        · rfl
      rw [List.filter_cons_of_pos hcounts, lineTokens, ih]
      exact other

section Layout

variable {r : Registry}

theorem listingMoves_filter (listing : List (List (Except LexicalError Token))) :
    ∀ number, listingMoves r number (listing.map (List.filter counts)) =
      listingMoves r number listing := by
  induction listing with
  | nil => exact fun _ => rfl
  | cons line later ih =>
      intro number
      rw [List.map_cons, listingMoves, listingMoves, ih, lineMoves, lineMoves, lineTokens_filter]

/-- What a listing is assembled into depends on what counts in it. -/
theorem ofListing_eq_of_substance {text other : String}
    (h : substance text.toList = substance other.toList) :
    ofListing r text = ofListing r other := by
  have hsubstance : ∀ text : String, ofListing r text =
      (listingMoves r 1 (lines (substance text.toList))).map Program.mk := by
    intro text
    rw [ofListing_eq_listingMoves, values_eq_meanings, substance, lines_filter, listingMoves_filter]
  rw [hsubstance, hsubstance, h]

/-- Carriage returns in front of the line feeds do not change what is assembled. -/
theorem ofListing_withReturns {text : String} (unreturned : '\r' ∉ text.toList) :
    ofListing r (String.ofList (withReturns text.toList)) = ofListing r text := by
  rw [ofListing_eq, ofListing_eq, String.toList_ofList, sourceLines_withReturns unreturned]

/-- Nor does what may be put between pieces. -/
theorem ofListing_insert {before after put : String} {d : Char} {more : List Char}
    (hput : put.toList = d :: more) (separates : Separates d) (unended : '\n' ∉ put.toList)
    (silent : substance (put.toList ++ after.toList) = substance after.toList)
    (undivided : Undivided before.toList after.toList) :
    ofListing r (before ++ put ++ after) = ofListing r (before ++ after) := by
  refine ofListing_eq_of_substance ?_
  rw [hput] at unended silent
  rw [String.toList_append, String.toList_append, String.toList_append, hput, List.append_assoc]
  exact substance_insert separates unended silent undivided

theorem ofListing_insert_blanks {before after blanks : String}
    (all : ∀ c ∈ blanks.toList, c = ' ' ∨ c = '\t')
    (undivided : Undivided before.toList after.toList) :
    ofListing r (before ++ blanks ++ after) = ofListing r (before ++ after) := by
  have hblanks : ∀ c ∈ blanks.toList, isBlank c = true := by simpa [isBlank] using all
  cases hput : blanks.toList with
  | nil => rw [String.toList_eq_nil_iff.mp hput, String.append_empty]
  | cons d more =>
      refine ofListing_insert hput ?_ ?_ (substance_append_blanks hblanks _) undivided
      · exact separates_of_isBlank (hblanks d (by simp [hput]))
      · intro member
        exact absurd (hblanks _ member) (by decide)

theorem ofListing_insert_comment {before after comment : String}
    (unended : '\n' ∉ comment.toList) (ends : EndsLine after.toList)
    (undivided : Undivided before.toList after.toList) :
    ofListing r (before ++ (";" ++ comment) ++ after) = ofListing r (before ++ after) := by
  have hput : (";" ++ comment).toList = ';' :: comment.toList := by simp
  refine ofListing_insert hput separates_semicolon ?_ ?_ undivided
  · simpa [hput] using unended
  · rw [hput]
    exact substance_append_comment unended ends

end Layout

/-- Line ends, comments and spacing do not matter. A listing without carriage returns is
    assembled into the same program, or refused on the same line for the same, if every
    line feed gets a carriage return in front of it, if a line gets a comment at its end,
    and if blanks and tabs are put at a place that divides no item, or where a line begins
    or ends. -/
theorem layout_is_irrelevant (r : Registry) (text : String) (unreturned : '\r' ∉ text.toList) :
    ofListing r (String.ofList (withReturns text.toList)) = ofListing r text ∧
    ∀ before after, text = before ++ after →
      (∀ comment : String, '\n' ∉ comment.toList → EndsLine after.toList →
        ofListing r (before ++ (";" ++ comment) ++ after) = ofListing r text) ∧
      ∀ blanks : String, (∀ c ∈ blanks.toList, c = ' ' ∨ c = '\t') →
        (∀ item ∈ Item.scan text,
          item.stop ≤ before.utf8ByteSize ∨ before.utf8ByteSize ≤ item.start) ∨
          BeginsLine before.toList ∨ EndsLine after.toList →
        ofListing r (before ++ blanks ++ after) = ofListing r text := by
  refine ⟨ofListing_withReturns unreturned, ?_⟩
  rintro before after rfl
  rw [String.toList_append] at unreturned
  -- A comment may go to the end of a line, blanks between items or at either end of one.
  refine ⟨fun comment unended ends => ?_, fun blanks all place => ?_⟩
  · exact ofListing_insert_comment unended ends (undivided_of_line_ends unreturned ends)
  · refine ofListing_insert_blanks all ?_
    rcases place with between | begins | ends
    · exact undivided_of_items between
    · exact undivided_of_line_begins unreturned begins
    · exact undivided_of_line_ends unreturned ends

-- A dash without its head and a number that is too wide are on the second line.
theorem layout_is_irrelevant_dash :
    let r := Registry.standard
    let text := "#1->alu.op\n#2 - #99999999"
    '\r' ∉ text.toList ∧
    ofListing r (String.ofList (withReturns text.toList)) = ofListing r text ∧
    ofListing r ("#1->alu.op" ++ (";" ++ " one\r") ++ "\n#2 - #99999999") = ofListing r text ∧
    ofListing r ("#1->alu.op\n#2 -" ++ "\t " ++ " #99999999") = ofListing r text := by
  intro r text
  have unreturned : '\r' ∉ text.toList := by decide
  rcases layout_is_irrelevant r text unreturned with ⟨hreturns, hplaces⟩
  refine ⟨unreturned, hreturns, ?_, ?_⟩
  · refine (hplaces "#1->alu.op" "\n#2 - #99999999" (by decide)).1 " one\r" (by decide) ?_
    exact Or.inr ⟨"#2 - #99999999".toList, by decide⟩
  · refine (hplaces "#1->alu.op\n#2 -" " #99999999" (by decide)).2 "\t " (by simp) (Or.inl ?_)
    decide +kernel

end Program

end Transport
