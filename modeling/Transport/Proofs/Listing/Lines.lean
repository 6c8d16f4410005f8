import Transport.Proofs.Listing.Piece
import Transport.Proofs.Program.Listing

/-!
# Lines of a Listing

A listing is cut into pieces as one text, and yet a text can be divided where its lines
end and each line cut by itself. What makes it so is that no piece goes on over a line
end, whatever stands in front of it. A word ends there and so does a name, a dot or a
mark with nothing behind it is a piece by itself as it is at the end of a text, and a
comment takes in at most the carriage return.

A line end is a line feed, with the carriage return in front of it if there is one.
So a text may be divided right in front of a line feed unless it ends in a carriage
return there, and in front of a carriage return and a line feed always.

## Main definitions

* `Piece.Closes`: A line end that begins right behind a text.
* `Piece.sourceLines`: The lines of a text, without their ends.

## Theorems

* `eq_of_newline_mem`: A line end is in no piece but its own.
* `meanings_append_end`: The tokens of a text are those in front of a line end, and
  those behind it.
* `sourceLines_append_end`, `exists_first_line`: The lines of a text that is divided at a
  line end, and where it can be divided first.
-/

namespace Transport

namespace Piece

/-! ## Pieces in front of a line end -/

/-- A line end that begins right behind a text. -/
def Closes (cs ending : List Char) : Prop :=
  ending = ['\n'] ∧ cs.getLast? ≠ some '\r' ∨ ending = ['\r', '\n']

theorem closes_of_append (before : List Char) {cs ending : List Char}
    (h : Closes (before ++ cs) ending) : Closes cs ending := by
  rcases h with ⟨rfl, unreturned⟩ | rfl
  · refine Or.inl ⟨rfl, fun last => unreturned ?_⟩
    rw [List.getLast?_append, last, Option.some_or]
  · exact Or.inr rfl

/-- A line end is in no piece of a text but its own. -/
theorem eq_of_newline_mem {piece : Piece} {cs : List Char} (member : piece ∈ cut cs)
    (newline : '\n' ∈ piece.chars) :
    piece = ⟨.newline, ['\n']⟩ ∨ piece = ⟨.newline, ['\r', '\n']⟩ := by
  rcases List.append_of_mem member with ⟨front, back, hcut⟩
  exact (leads_of_cut_eq hcut).eq_of_newline_mem newline

/-- A piece that is no blank and no comment ends in front of a line end as it does at the
    end of a text. -/
theorem Leads.follow_of_closes {piece : Piece} {cs ending : List Char} (h : Leads cs piece)
    (closes : Closes cs ending) (other : piece.kind ≠ .blank ∧ piece.kind ≠ .comment)
    (rest : List Char) : Leads (cs ++ (ending ++ rest)) piece := by
  have hwhole : Leads (cs ++ []) piece := by rwa [List.append_nil]
  rcases closes with ⟨rfl, unreturned⟩ | rfl
  · refine hwhole.follow h.begins (fun kind more member => ?_) rest
    cases cs with
    | nil => exact h.chars_ne_nil (List.prefix_nil.mp h.begins)
    | cons c cs =>
        -- Nothing but a carriage return goes on with a line feed.
        cases eq_newline_of_mem_pattern member (by simp)
        rcases cons_mem_newline_iff.mp member with ⟨_, hend⟩ | ⟨rfl, hend⟩
        · simp at hend
        · cases cs with
          | nil => exact unreturned rfl
          | cons d cs => simp at hend
  · exact hwhole.follow_of_separates separates_return h.begins other ('\n' :: rest)

/-- The tokens of a text are those in front of a line end, and those behind it. -/
theorem meanings_append_end {cs ending : List Char} (closes : Closes cs ending)
    (rest : List Char) :
    meanings (cs ++ (ending ++ rest)) = meanings cs ++ .ok .newline :: meanings rest := by
  -- The induction is on the pieces of the text in front.
  induction cs using cut_induction with
  | nil =>
      rw [meanings_nil, List.nil_append, List.nil_append]
      rcases closes with ⟨rfl, _⟩ | rfl
      · exact meanings_feed rest
      · exact meanings_returned rest
  | append piece later leads ih =>
      have hlater := ih (closes_of_append _ closes)
      have hsame : ∀ h : Leads (piece.chars ++ (later ++ (ending ++ rest))) piece,
          meanings (piece.chars ++ later ++ (ending ++ rest)) =
            meanings (piece.chars ++ later) ++ .ok .newline :: meanings rest := by
        intro h
        rw [List.append_assoc, meanings_of_leads h, meanings_of_leads leads, hlater,
          List.append_assoc]
      by_cases blank : piece.kind = .blank
      · have hblanks : ∀ c ∈ piece.chars, isBlank c = true := leads.forall_isBlank blank
        rw [List.append_assoc, meanings_append_blanks hblanks, meanings_append_blanks hblanks,
          hlater]
      by_cases comment : piece.kind = .comment
      · rcases leads.comment_cases comment with ⟨⟨cs, hchars, unended⟩, rfl | ⟨later, rfl⟩⟩
        · rw [hchars, List.append_nil, (meanings_comment unended).1]
          rcases closes with ⟨rfl, _⟩ | rfl
          · exact (meanings_comment unended).2 rest
          · -- A comment takes in the carriage return behind it.
            have hlonger : '\n' ∉ cs ++ ['\r'] := by simp [unended]
            have htext : ';' :: cs ++ (['\r', '\n'] ++ rest) =
                ';' :: (cs ++ ['\r']) ++ '\n' :: rest := by
              simp
            rw [htext, (meanings_comment hlonger).2]
            rfl
        · have hmember := leads.mem_pattern (by simp [comment])
          have hends : piece.kind.continues '\n' = false := by
            rw [comment]
            decide
          exact hsame (leads_of_continues hmember hends (later ++ (ending ++ rest)))
      · refine hsame ?_
        rw [← List.append_assoc]
        exact leads.follow_of_closes closes ⟨blank, comment⟩ rest

/-! ## Lines of a text -/

/-- The lines of a text, without their ends. There is one more line than there are ends,
    and it may be empty. -/
def sourceLines : List Char → List (List Char)
  | [] => [[]]
  | '\n' :: cs => [] :: sourceLines cs
  | '\r' :: '\n' :: cs => [] :: sourceLines cs
  | c :: cs =>
    match sourceLines cs with
    | line :: later => (c :: line) :: later
    | [] => [[c]]

theorem sourceLines_ne_nil (cs : List Char) : sourceLines cs ≠ [] := by
  fun_induction sourceLines cs <;> simp

theorem length_sourceLines (cs : List Char) : (sourceLines cs).length = cs.count '\n' + 1 := by
  fun_induction sourceLines cs with
  | case1 => rfl
  -- A line feed, alone or behind a return, ends a line that is empty so far.
  | case2 cs ih => rw [List.length_cons, ih, List.count_cons_self]
  | case3 cs ih =>
      rw [List.length_cons, ih, List.count_cons_of_ne (by decide), List.count_cons_self]
  | case4 c cs feed returned line later hlines ih =>
      rw [hlines] at ih
      rw [List.count_cons_of_ne (fun h => feed h), ← ih]
      rfl
  | case5 c cs feed returned hlines ih => exact absurd hlines (sourceLines_ne_nil cs)

theorem sourceLines_of_unended {cs : List Char} (unended : '\n' ∉ cs) :
    sourceLines cs = [cs] := by
  fun_induction sourceLines cs with
  | case1 => rfl
  | case2 | case3 => simp at unended
  | case4 c cs feed returned line later hlines ih =>
      rw [List.mem_cons, not_or] at unended
      rw [hlines] at ih
      simpa using ih unended.2
  | case5 c cs feed returned hlines ih => exact absurd hlines (sourceLines_ne_nil cs)

theorem newline_notMem_of_mem_sourceLines {cs : List Char} :
    ∀ line ∈ sourceLines cs, '\n' ∉ line := by
  fun_induction sourceLines cs with
  | case1 => simp
  | case2 cs ih | case3 cs ih => exact List.forall_mem_cons.mpr ⟨List.not_mem_nil, ih⟩
  | case4 c cs feed returned line later hlines ih =>
      rw [hlines, List.forall_mem_cons] at ih
      refine List.forall_mem_cons.mpr ⟨?_, ih.2⟩
      rw [List.mem_cons, not_or]
      exact ⟨fun h => feed h.symm, ih.1⟩
  | case5 c cs feed returned hlines ih => exact absurd hlines (sourceLines_ne_nil cs)

theorem sourceLines_cons {c : Char} {cs line : List Char} {later : List (List Char)}
    (feed : c ≠ '\n') (returned : c = '\r' → cs.head? ≠ some '\n')
    (h : sourceLines cs = line :: later) : sourceLines (c :: cs) = (c :: line) :: later := by
  rw [sourceLines]
  · rw [h]
  · exact feed
  · rintro ds rfl rfl
    exact returned rfl rfl

/-- A text is divided into lines in front of a line end as it is anywhere else. -/
theorem sourceLines_append_end {cs ending : List Char} (closes : Closes cs ending)
    (rest : List Char) :
    sourceLines (cs ++ (ending ++ rest)) = sourceLines cs ++ sourceLines rest := by
  fun_induction sourceLines cs with
  | case1 => rcases closes with ⟨rfl, _⟩ | rfl <;> rfl
  | case2 cs ih =>
      rw [List.cons_append, sourceLines, ih (closes_of_append ['\n'] closes)]
      rfl
  | case3 cs ih =>
      rw [List.cons_append, List.cons_append, sourceLines,
        ih (closes_of_append ['\r', '\n'] closes)]
      rfl
  | case4 c cs feed returned line later hlines ih =>
      have hrest := ih (closes_of_append [c] closes)
      rw [hlines, List.cons_append] at hrest
      refine sourceLines_cons feed ?_ hrest
      -- A carriage return at the end of the text belongs to no line end in front of the rest.
      rintro rfl
      cases cs with
      | nil =>
          rcases closes with ⟨rfl, unreturned⟩ | rfl
          · exact absurd rfl unreturned
          · simp
      | cons d ds =>
          rintro hd
          cases hd
          exact returned ds rfl rfl
  | case5 c cs feed returned hlines ih => exact absurd hlines (sourceLines_ne_nil cs)

/-- A text with a line end begins with a line and its end. -/
theorem exists_first_line {cs : List Char} (ended : '\n' ∈ cs) :
    ∃ line ending rest, cs = line ++ (ending ++ rest) ∧ '\n' ∉ line ∧
      Closes line ending := by
  rcases List.eq_append_cons_of_mem ended with ⟨before, rest, rfl, unended⟩
  by_cases returned : before.getLast? = some '\r'
  · rcases List.getLast?_eq_some_iff.mp returned with ⟨line, rfl⟩
    refine ⟨line, ['\r', '\n'], rest, by simp, ?_, Or.inr rfl⟩
    exact fun member => unended (List.mem_append_left _ member)
  · exact ⟨before, ['\n'], rest, rfl, unended, Or.inl ⟨rfl, returned⟩⟩

end Piece

end Transport
