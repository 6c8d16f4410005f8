import Transport.Proofs.Listing.Items
import Transport.Proofs.Listing.Lines

/-!
# Spacing of a Listing

What may be put between the pieces of a text so that it stands for the same. Blanks and
semicolons are gone on with by blanks and comments alone, so all other pieces in front of
them stay what they are, also where they only are what they are because nothing goes on
with them: a dash without its head, a dot, a mark without digits. Blanks take in the
blanks behind them and a comment whatever is on its line, and neither stands for anything
that counts.

So a text that begins with a blank or a semicolon, and stands for nothing up to what is
behind it, can be put anywhere but inside of a piece that counts. A line feed is a piece
by itself if there are no carriage returns, so where a line begins or ends is no such
place.

## Main definitions

* `Piece.substance`: What the pieces of a text stand for, without comments.
* `Piece.BeginsLine`, `Piece.EndsLine`: A line begins behind a text, or ends in front of
  it.
* `Piece.Undivided`: No piece that counts is divided at a place.
* `Piece.withReturns`: A text with a carriage return in front of every line feed.

## Theorems

* `meanings_append_of_separates`: A text stands for the same in front of a separator.
* `exists_meaning_of_return_mem`: Where carriage returns can be.
* `substance_insert`: What stands for nothing may be put between pieces.
* `undivided_of_items`, `undivided_of_line_begins`, `undivided_of_line_ends`: The places
  between items, and those where lines begin and end.
* `sourceLines_withReturns`: Carriage returns do not change the lines.
-/

namespace Transport

namespace Piece

/-! ## In front of a separator -/

section Separators

variable {piece : Piece} {between after : List Char} {d : Char}

/-- A piece stays the first when the text further behind changes to one that begins with
    a character which only blanks and comments go on with. -/
theorem Leads.meanings_behind (h : Leads (piece.chars ++ (between ++ after)) piece)
    (separates : Separates d) (apart : between = [] → piece.kind ≠ .comment) (more : List Char) :
    meanings (piece.chars ++ (between ++ d :: more)) =
      piece.meaning?.toList ++ meanings (between ++ d :: more) := by
  by_cases blank : piece.kind = .blank
  · have hmeaning : piece.meaning? = none := by rw [meaning?, blank]
    rw [meanings_append_blanks (h.forall_isBlank blank), hmeaning]
    rfl
  -- Any other piece is read again if nothing that follows it now makes it longer.
  refine meanings_of_leads ?_
  by_cases comment : piece.kind = .comment
  · -- There is a line feed behind the comment.
    rcases (h.comment_cases comment).2 with hrest | ⟨later, hrest⟩
    · exact absurd comment (apart (List.append_eq_nil_iff.mp hrest).1)
    · cases between with
      | nil => exact absurd comment (apart rfl)
      | cons e between =>
          cases hrest
          have hends : piece.kind.continues '\n' = false := by
            rw [comment]
            decide
          exact leads_of_continues (h.mem_pattern (by simp [comment])) hends _
  · rw [← List.append_assoc] at h ⊢
    exact h.follow_of_separates separates (List.prefix_append _ _) ⟨blank, comment⟩ more

/-- A text without comments stands for the same in front of such a character. -/
theorem meanings_append_of_separates (separates : Separates d) {cs : List Char}
    (commentless : .ok .comment ∉ meanings cs) (more : List Char) :
    meanings (cs ++ d :: more) = meanings cs ++ meanings (d :: more) := by
  induction cs using cut_induction with
  | nil => rw [meanings_nil]; rfl
  | append piece rest leads ih =>
      rw [meanings_of_leads leads, List.mem_append, Option.mem_toList, not_or] at commentless
      have hkind : piece.kind ≠ .comment := fun h => commentless.1 (by rw [meaning?, h])
      have hleads : Leads (piece.chars ++ (rest ++ [])) piece := by rwa [List.append_nil]
      rw [List.append_assoc, hleads.meanings_behind separates (fun _ => hkind),
        ih commentless.2, meanings_of_leads leads, List.append_assoc]

/-- Where there is a carriage return, there is a comment, a line end or an error. -/
theorem exists_meaning_of_return_mem {cs : List Char} (returned : '\r' ∈ cs) :
    ∃ value ∈ meanings cs,
      value = .ok .comment ∨ value = .ok .newline ∨ value = .error .unrecognized := by
  induction cs using cut_induction with
  | nil => contradiction
  | append piece rest leads ih =>
      rw [meanings_of_leads leads]
      rcases List.mem_append.mp returned with here | later
      · rcases leads.kind_of_return_mem here with h | h | h <;> simp [meaning?, h]
      · rcases ih later with ⟨value, member, hvalue⟩
        exact ⟨value, List.mem_append_right _ member, hvalue⟩

end Separators

/-! ## What counts -/

/-- All but comments counts. -/
def counts : Except LexicalError Token → Bool
  | .ok .comment => false
  | _ => true

/-- What the pieces of a text stand for, without comments. -/
def substance (cs : List Char) : List (Except LexicalError Token) := (meanings cs).filter counts

theorem substance_of_leads {piece : Piece} {rest : List Char}
    (h : Leads (piece.chars ++ rest) piece) :
    substance (piece.chars ++ rest) = piece.meaning?.toList.filter counts ++ substance rest := by
  rw [substance, meanings_of_leads h, List.filter_append, substance]

theorem substance_append_blanks {blanks : List Char} (all : ∀ c ∈ blanks, isBlank c = true)
    (rest : List Char) : substance (blanks ++ rest) = substance rest := by
  rw [substance, meanings_append_blanks all, substance]

/-- A line begins behind a text. -/
def BeginsLine (before : List Char) : Prop :=
  before = [] ∨ ∃ earlier, before = earlier ++ ['\n']

/-- A line ends in front of a text. -/
def EndsLine (after : List Char) : Prop := after = [] ∨ ∃ later, after = '\n' :: later

/-- A comment up to the end of a line counts for nothing. -/
theorem substance_append_comment {cs rest : List Char} (unended : '\n' ∉ cs)
    (ends : EndsLine rest) : substance (';' :: cs ++ rest) = substance rest := by
  rcases ends with rfl | ⟨later, rfl⟩
  · rw [List.append_nil, substance, (meanings_comment unended).1, substance, meanings_nil]
    rfl
  · rw [substance, (meanings_comment unended).2, substance, meanings_feed]
    rfl

/-! ## Between pieces -/

/-- No piece is divided between two parts of a text, but for blanks and comments. -/
def Undivided (before after : List Char) : Prop :=
  ∀ front piece back x y, cut (before ++ after) = front ++ piece :: back →
    piece.chars = x ++ y → before = front.flatMap Piece.chars ++ x → x ≠ [] → y ≠ [] →
      piece.kind = .blank ∨ piece.kind = .comment

section Insert

variable {piece : Piece} {rest between after put : List Char}

/-- What is left behind the first piece is undivided as the text is. -/
theorem undivided_rest (leads : Leads (piece.chars ++ (between ++ after)) piece)
    (undivided : Undivided (piece.chars ++ between) after) : Undivided between after := by
  intro front other back x y hcut hchars hbetween
  refine undivided (piece :: front) other back x y ?_ hchars ?_
  · rw [List.append_assoc, cut_of_leads leads, hcut]
    rfl
  · rw [hbetween, List.flatMap_cons, List.append_assoc]

/-- Blanks and comments take in what is put inside of them or right behind them, or leave
    it as it is. -/
theorem Leads.substance_inside (h : Leads (piece.chars ++ rest) piece) {x y : List Char}
    (hchars : piece.chars = x ++ y) (inside : x ≠ [])
    (quiet : piece.kind = .blank ∨ piece.kind = .comment) (unended : '\n' ∉ put)
    (silent : substance (put ++ (y ++ rest)) = substance (y ++ rest)) :
    substance (x ++ (put ++ (y ++ rest))) = substance (piece.chars ++ rest) := by
  rcases quiet with blank | comment
  · -- Blanks split anywhere are blanks on both sides.
    have hblanks : ∀ c ∈ x, isBlank c = true := fun c hc =>
      h.forall_isBlank blank c (hchars ▸ List.mem_append_left _ hc)
    rw [substance_append_blanks hblanks, silent, hchars, List.append_assoc,
      substance_append_blanks hblanks]
  · rcases h.comment_cases comment with ⟨⟨cs, hcs, hunended⟩, ends⟩
    cases x with
    | nil => exact absurd rfl inside
    | cons c x =>
        -- The comment begins before the place, so what is put there becomes part of it.
        have hsplit : ';' :: cs = c :: (x ++ y) := by rw [← hcs, hchars, List.cons_append]
        cases hsplit
        have hlonger : '\n' ∉ x ++ put ++ y := by
          rw [List.mem_append, not_or] at hunended
          rw [List.mem_append, List.mem_append, not_or, not_or]
          exact ⟨⟨hunended.1, unended⟩, hunended.2⟩
        have hwhole : ';' :: x ++ (put ++ (y ++ rest)) = ';' :: (x ++ put ++ y) ++ rest := by
          simp
        rw [hwhole, substance_append_comment hlonger ends, hcs,
          substance_append_comment hunended ends]

/-- A text that begins with a character which only blanks and comments go on with, and
    counts for nothing up to the text behind it, may be put between pieces of a line. -/
theorem substance_insert {d : Char} {more : List Char} (separates : Separates d)
    (unended : '\n' ∉ d :: more) (silent : substance (d :: more ++ after) = substance after)
    {before : List Char} (undivided : Undivided before after) :
    substance (before ++ (d :: more ++ after)) = substance (before ++ after) := by
  -- The induction is on the pieces of the text without what is put in.
  generalize htext : before ++ after = cs
  induction cs using cut_induction generalizing before with
  | nil =>
      rcases List.append_eq_nil_iff.mp htext with ⟨rfl, rfl⟩
      exact silent
  | append piece rest leads ih =>
      have hbehind : ∀ between, before = piece.chars ++ between → rest = between ++ after →
          substance (before ++ (d :: more ++ after)) = substance (piece.chars ++ rest) := by
        rintro between rfl rfl
        have hbetween := ih (undivided_rest leads undivided) rfl
        by_cases here : between = [] ∧ piece.kind = .comment
        · rcases here with ⟨rfl, comment⟩
          rw [List.append_nil]
          exact leads.substance_inside (List.append_nil _).symm leads.chars_ne_nil
            (Or.inr comment) unended silent
        · rw [not_and] at here
          have hfirst := leads.meanings_behind separates here (more ++ after)
          rw [List.append_assoc, List.cons_append, substance, hfirst, List.filter_append,
            ← substance, ← List.cons_append, hbetween, ← substance_of_leads leads]
      -- The place is up to the end of the first piece, or further behind.
      rcases List.append_eq_append_iff.mp htext with ⟨y, hchars, rfl⟩ | ⟨between, hbefore, hrest⟩
      · by_cases start : before = []
        · rw [start, List.nil_append, silent, hchars, start, List.nil_append]
        by_cases stop : y = []
        · exact hbehind [] (by simp [hchars, stop]) (by simp [stop])
        -- The place is inside of the piece, which does not count then.
        have hcut : cut (before ++ (y ++ rest)) = [] ++ piece :: cut rest := by
          rw [htext, cut_of_leads leads]
          rfl
        have hquiet := undivided [] piece (cut rest) before y hcut hchars rfl start stop
        exact leads.substance_inside hchars start hquiet unended silent
      · exact hbehind between hbefore hrest

end Insert

/-! ## Places -/

/-- Between items no piece is divided that counts. -/
theorem undivided_of_items {before after : String}
    (between : ∀ item ∈ Item.scan (before ++ after),
      item.stop ≤ before.utf8ByteSize ∨ before.utf8ByteSize ≤ item.start) :
    Undivided before.toList after.toList := by
  intro front piece back x y hcut hchars hbefore hx hy
  cases hmeaning : piece.meaning? with
  | none => exact Or.inl (Item.kind_of_meaning?_eq_none hmeaning)
  | some value =>
      -- The item of the piece lies on one side of the place, but `x` and `y` lie on both.
      rw [← String.toList_append] at hcut
      have hitem := between (Item.ofPiece front piece value)
        (Item.mem_scan_iff.mpr ⟨front, piece, back, value, hcut, hmeaning, rfl⟩)
      rw [← String.utf8Len_toList, hbefore] at hitem
      have hpos : ∀ cs : List Char, cs ≠ [] → 0 < String.utf8Len cs := by
        intro cs hcs
        cases cs with
        | nil => exact absurd rfl hcs
        | cons c cs => simp [c.utf8Size_pos]
      have hfront := hpos x hx
      have hback := hpos y hy
      simp only [Item.ofPiece, hchars, String.utf8Len_append] at hitem
      omega

section Lines

variable {before after x y : List Char} {front back : List Piece} {piece : Piece}

/-- A line feed is a piece by itself where there are no carriage returns. -/
theorem eq_nil_of_newline {cs : List Char} (unreturned : '\r' ∉ cs)
    (hcut : cut cs = front ++ piece :: back) (hchars : piece.chars = x ++ '\n' :: y) :
    x = [] ∧ y = [] := by
  have hmember : '\n' ∈ piece.chars := by simp [hchars]
  rcases (leads_of_cut_eq hcut).eq_of_newline_mem hmember with rfl | rfl
  · have hlength := congrArg List.length hchars
    simp only [List.length_append, List.length_cons, List.length_nil] at hlength
    exact ⟨List.eq_nil_of_length_eq_zero (by omega), List.eq_nil_of_length_eq_zero (by omega)⟩
  · rw [← flatMap_chars_cut cs, hcut] at unreturned
    simp at unreturned

/-- Nor is any where a line ends. -/
theorem undivided_of_line_ends (unreturned : '\r' ∉ before ++ after)
    (ends : EndsLine after) : Undivided before after := by
  intro front piece back x y hcut hchars hbefore hx hy
  have hafter : y ++ back.flatMap Piece.chars = after := by
    have htext := flatMap_chars_cut (before ++ after)
    rw [hcut, List.flatMap_append, List.flatMap_cons, hchars, hbefore, List.append_assoc,
      List.append_assoc] at htext
    exact List.append_cancel_left (List.append_cancel_left htext)
  rcases ends with rfl | ⟨later, rfl⟩
  · -- The text ends here, so no character of the piece is behind the place.
    exact absurd (List.append_eq_nil_iff.mp hafter).1 hy
  · cases y with
    | nil => exact absurd rfl hy
    | cons e y =>
        -- The piece would go on with the line feed, and then nothing of it stands in front.
        cases hafter
        exact absurd (eq_nil_of_newline unreturned hcut hchars).1 hx

/-- Nor is any where a line begins. -/
theorem undivided_of_line_begins (unreturned : '\r' ∉ before ++ after)
    (begins : BeginsLine before) : Undivided before after := by
  intro front piece back x y hcut hchars hbefore hx hy
  rcases begins with rfl | ⟨earlier, rfl⟩
  · exact absurd (List.append_eq_nil_iff.mp hbefore.symm).2 hx
  · -- The line feed is the last character of the piece in front of the place.
    rcases List.eq_nil_or_concat' x with rfl | ⟨x, c, rfl⟩
    · exact absurd rfl hx
    · rw [← List.append_assoc] at hbefore
      cases (List.append_inj' hbefore rfl).2
      rw [List.append_assoc] at hchars
      exact absurd (eq_nil_of_newline unreturned hcut hchars).2 hy

end Lines

/-! ## Carriage returns -/

/-- A text with a carriage return in front of every line feed. -/
def withReturns (cs : List Char) : List Char :=
  cs.flatMap fun c => if c = '\n' then ['\r', '\n'] else [c]

/-- Carriage returns do not change the lines. -/
theorem sourceLines_withReturns {cs : List Char} (unreturned : '\r' ∉ cs) :
    sourceLines (withReturns cs) = sourceLines cs := by
  induction cs with
  | nil => rfl
  | cons c cs ih =>
      rw [List.mem_cons, not_or] at unreturned
      have hrest := ih unreturned.2
      by_cases feed : c = '\n'
      · subst feed
        -- A line feed begins a line with and without the return in front of it.
        change [] :: sourceLines (withReturns cs) = [] :: sourceLines cs
        rw [hrest]
      · have hcons : withReturns (c :: cs) = c :: withReturns cs := by simp [withReturns, feed]
        have hreturn : ∀ ds : List Char, c = '\r' → ds.head? ≠ some '\n' :=
          fun _ h => absurd h.symm unreturned.1
        cases hlines : sourceLines cs with
        | nil => exact absurd hlines (sourceLines_ne_nil cs)
        | cons line later =>
            rw [hcons, sourceLines_cons feed (hreturn _) (hrest.trans hlines),
              sourceLines_cons feed (hreturn _) hlines]

end Piece

end Transport
