import Mathlib.Data.String.Basic
import Transport.Proofs.Listing.Piece

/-!
# Items and Their Places

The items of a text are its pieces without the blanks, each with the bytes that it
spans. Since the pieces put together are the text, an item stands where the pieces in
front of it end, and what no item spans is blank.

## Main definitions

* `Item.Spans`: A part of a text is what an item spans.
* `Item.Covers`: An item spans the byte at a position.

## Theorems

* `mem_scan_iff`: The items of a text, by its pieces.
* `exists_piece_of_append`: Every character is in a piece.
* `scanning_loses_nothing`: Items and blanks are all of a text, and the text of an item
  is that item again.
-/

namespace Transport

namespace Item

open Piece

/-- A part of a text is what an item spans. -/
def Spans (text : String) (item : Item) (part : String) : Prop :=
  ∃ before after, text = before ++ part ++ after ∧ item.start = before.utf8ByteSize ∧
    item.stop = before.utf8ByteSize + part.utf8ByteSize

/-- An item spans the byte at a position. -/
def Covers (item : Item) (position : Nat) : Prop := item.start ≤ position ∧ position < item.stop

instance (item : Item) (position : Nat) : Decidable (item.Covers position) :=
  inferInstanceAs (Decidable (_ ∧ _))

/-! ## Places -/

/-- What a piece behind other pieces stands for, with the bytes that it spans there. -/
def ofPiece (front : List Piece) (piece : Piece) (value : Except LexicalError Token) : Item :=
  ⟨value, String.utf8Len (front.flatMap Piece.chars),
    String.utf8Len (front.flatMap Piece.chars) + String.utf8Len piece.chars⟩

theorem byteSize_eq (piece : Piece) : piece.byteSize = String.utf8Len piece.chars := by
  rw [byteSize]
  induction piece.chars with
  | nil => rfl
  | cons c cs ih => rw [List.foldr_cons, ih, String.utf8Len_cons, Nat.add_comm]

/-- The items of pieces are those that stand for something, each behind the pieces that
    are in front of it. -/
theorem mem_ofPieces_iff {item : Item} (pieces : List Piece) : ∀ front : List Piece,
    item ∈ ofPieces (String.utf8Len (front.flatMap Piece.chars)) pieces ↔
      ∃ middle piece back value, pieces = middle ++ piece :: back ∧
        piece.meaning? = some value ∧ item = ofPiece (front ++ middle) piece value := by
  induction pieces with
  | nil => simp [ofPieces]
  | cons first later ih =>
      intro front
      -- The later pieces stand where `front` and `first` end, so the induction goes on with one
      -- more piece in front.
      have hstop : String.utf8Len (front.flatMap Piece.chars) + first.byteSize =
          String.utf8Len ((front ++ [first]).flatMap Piece.chars) := by
        simp [byteSize_eq]
      have hlater : item ∈ ofPieces
          (String.utf8Len (front.flatMap Piece.chars) + first.byteSize) later ↔
          ∃ middle piece back value, later = middle ++ piece :: back ∧
            piece.meaning? = some value ∧
              item = ofPiece (front ++ first :: middle) piece value := by
        simpa [hstop] using ih (front ++ [first])
      rw [ofPieces]
      constructor
      · intro member
        have hcases : (∃ value, first.meaning? = some value ∧ item = ofPiece front first value) ∨
            item ∈ ofPieces (String.utf8Len (front.flatMap Piece.chars) + first.byteSize)
              later := by
          cases hmeaning : first.meaning? with
          | none => simpa [hmeaning] using member
          | some value => simpa [hmeaning, ofPiece, byteSize_eq] using member
        rcases hcases with ⟨value, hmeaning, hitem⟩ | member
        · exact ⟨[], first, later, value, rfl, hmeaning, by rw [hitem, List.append_nil]⟩
        · rcases hlater.mp member with ⟨middle, piece, back, value, rfl, hmeaning, hitem⟩
          exact ⟨first :: middle, piece, back, value, rfl, hmeaning, hitem⟩
      · rintro ⟨middle, piece, back, value, hpieces, hmeaning, hitem⟩
        -- An empty `middle` makes the item the first piece, anything else puts it behind.
        cases middle with
        | nil =>
            cases hpieces
            simp [hmeaning, hitem, ofPiece, byteSize_eq]
        | cons other middle =>
            cases hpieces
            have hmember := hlater.mpr ⟨middle, piece, back, value, rfl, hmeaning, hitem⟩
            cases first.meaning? with
            | none => exact hmember
            | some value => exact List.mem_cons_of_mem _ hmember

/-- The items of a text are those of its pieces that stand for something. -/
theorem mem_scan_iff {text : String} {item : Item} : item ∈ scan text ↔
    ∃ front piece back value, cut text.toList = front ++ piece :: back ∧
      piece.meaning? = some value ∧ item = ofPiece front piece value :=
  mem_ofPieces_iff (cut text.toList) []

theorem le_start_of_mem_ofPieces {item : Item} (pieces : List Piece) :
    ∀ position, item ∈ ofPieces position pieces → position ≤ item.start := by
  induction pieces with
  | nil => simp [ofPieces]
  | cons first later ih =>
      intro position member
      rw [ofPieces] at member
      cases hmeaning : first.meaning? with
      | none =>
          rw [hmeaning] at member
          exact Nat.le_of_add_right_le (ih _ member)
      | some value =>
          rw [hmeaning] at member
          rcases List.mem_cons.mp member with rfl | member
          · exact Nat.le_refl _
          · exact Nat.le_of_add_right_le (ih _ member)

/-- Items do not overlap, and come in the order of the text. -/
theorem pairwise_ofPieces (pieces : List Piece) : ∀ position,
    (ofPieces position pieces).Pairwise fun earlier later => earlier.stop ≤ later.start := by
  induction pieces with
  | nil => exact fun _ => List.Pairwise.nil
  | cons first later ih =>
      intro position
      rw [ofPieces]
      cases first.meaning? with
      | none => exact ih _
      | some value =>
          exact List.Pairwise.cons (fun _ => le_start_of_mem_ofPieces later _) (ih _)

/-- There are no more items than characters. -/
theorem length_scan_le (text : String) : (scan text).length ≤ text.length := by
  have hpieces : ∀ cs position, (ofPieces position (cut cs)).length ≤ cs.length := by
    intro cs
    induction cs using cut_induction with
    | nil => simp [cut, ofPieces]
    | append piece rest leads ih =>
        intro position
        -- A piece takes at least the character that its item is counted against.
        have hpos := List.length_pos_iff.mpr leads.chars_ne_nil
        have hrest := ih (position + piece.byteSize)
        rw [cut_of_leads leads, ofPieces, List.length_append]
        cases piece.meaning? with
        | none =>
            dsimp only
            omega
        | some value =>
            rw [List.length_cons]
            omega
  rw [← String.length_toList]
  exact hpieces _ 0

/-! ## Characters -/

/-- Every character of a text is in a piece. -/
theorem exists_piece_of_append {c : Char} {after : List Char} (cs : List Char) :
    ∀ before, cs = before ++ c :: after → ∃ front piece back x y,
      cut cs = front ++ piece :: back ∧ piece.chars = x ++ c :: y ∧
        before = front.flatMap Piece.chars ++ x := by
  induction cs using cut_induction with
  | nil => simp
  | append piece rest leads ih =>
      intro before h
      rw [cut_of_leads leads]
      -- A character behind the piece is in a later one, with `piece` put in front.
      have hlater : ∀ between, before = piece.chars ++ between → rest = between ++ c :: after →
          ∃ front other back x y, piece :: cut rest = front ++ other :: back ∧
            other.chars = x ++ c :: y ∧ before = front.flatMap Piece.chars ++ x := by
        intro between hbefore hrest
        rcases ih between hrest with ⟨front, other, back, x, y, hcut, hchars, hbetween⟩
        exact ⟨piece :: front, other, back, x, y, by rw [hcut]; rfl, hchars,
          by rw [hbefore, hbetween]; simp⟩
      rcases List.append_eq_append_iff.mp h with ⟨between, hbefore, hrest⟩ | ⟨y, hchars, hrest⟩
      · exact hlater between hbefore hrest
      · -- The character is the first behind the piece, or it is in the piece.
        cases y with
        | nil => exact hlater [] (by simpa using hchars.symm) (by simpa using hrest.symm)
        | cons d y =>
            cases hrest
            exact ⟨[], piece, cut rest, before, y, rfl, hchars, rfl⟩

/-- An item spans the text of its piece. -/
theorem spans_ofPiece {text : String} {front back : List Piece} {piece : Piece}
    (h : cut text.toList = front ++ piece :: back) (value : Except LexicalError Token) :
    Spans text (ofPiece front piece value) (String.ofList piece.chars) := by
  refine ⟨String.ofList (front.flatMap Piece.chars), String.ofList (back.flatMap Piece.chars),
    ?_, (String.utf8ByteSize_ofList _).symm, ?_⟩
  · have htext := flatMap_chars_cut text.toList
    rw [h, List.flatMap_append, List.flatMap_cons] at htext
    rw [← String.ofList_append, ← String.ofList_append, List.append_assoc, htext,
      String.ofList_toList]
  · rw [String.utf8ByteSize_ofList, String.utf8ByteSize_ofList]
    rfl

/-- The text of a piece is scanned into the item that the piece is. -/
theorem scan_ofList_chars {cs : List Char} {piece : Piece} (h : Leads cs piece)
    {value : Except LexicalError Token} (hmeaning : piece.meaning? = some value) :
    scan (String.ofList piece.chars) =
      [⟨value, 0, (String.ofList piece.chars).utf8ByteSize⟩] := by
  rw [scan, String.toList_ofList, cut_chars h, ofPieces, hmeaning, byteSize_eq,
    String.utf8ByteSize_ofList, Nat.zero_add]
  rfl

/-- An item covers the characters of its piece. -/
theorem covers_ofPiece {front : List Piece} {piece : Piece} {c : Char} {x y : List Char}
    (h : piece.chars = x ++ c :: y) (value : Except LexicalError Token) :
    (ofPiece front piece value).Covers
      (String.utf8Len (front.flatMap Piece.chars ++ x)) := by
  have hpos := c.utf8Size_pos
  simp only [Covers, ofPiece, h, String.utf8Len_append, String.utf8Len_cons]
  omega

theorem kind_of_meaning?_eq_none {piece : Piece} (h : piece.meaning? = none) :
    piece.kind = .blank := by
  rcases piece with ⟨kind, chars⟩
  cases kind <;> simp [meaning?] at h ⊢

/-- A character is blank, or an item covers it that its piece stands for. -/
theorem blank_or_covered {text before after : String} {c : Char}
    (h : text = before ++ String.singleton c ++ after) :
    isBlank c = true ∨ ∃ item ∈ scan text, item.Covers before.utf8ByteSize ∧
      (c = '\n' → item.value = .ok .newline) := by
  have htext : text.toList = before.toList ++ c :: after.toList := by simp [h]
  rcases exists_piece_of_append text.toList before.toList htext with
    ⟨front, piece, back, x, y, hcut, hchars, hbefore⟩
  have hleads := leads_of_cut_eq hcut
  have hmember : c ∈ piece.chars := by simp [hchars]
  cases hmeaning : piece.meaning? with
  -- Only blanks mean nothing, and they consist of blanks.
  | none => exact Or.inl (hleads.forall_isBlank (kind_of_meaning?_eq_none hmeaning) c hmember)
  | some value =>
      refine Or.inr ⟨ofPiece front piece value, ?_, ?_, ?_⟩
      · exact mem_scan_iff.mpr ⟨front, piece, back, value, hcut, hmeaning, rfl⟩
      · rw [← String.utf8Len_toList, hbefore]
        exact covers_ofPiece hchars value
      · rintro rfl
        change value = .ok .newline
        rcases hleads.eq_of_newline_mem hmember with rfl | rfl <;>
          exact (Option.some.inj hmeaning).symm

/-- Scanning loses nothing of a text. It ends, with no more items than there are
    characters, and cuts off the longest piece each time, or a character that begins
    nothing. An item spans a part of the text, between characters, that is not empty and is
    scanned into that item alone. The parts come one behind the other, and all characters
    outside of them are blanks and tabs; a line feed is in none but a line end. -/
theorem scanning_loses_nothing (text : String) :
    (scan text).length ≤ text.length ∧
    (∀ front piece back, cut text.toList = front ++ piece :: back →
      Leads ((piece :: back).flatMap Piece.chars) piece) ∧
    (∀ item ∈ scan text, item.start < item.stop ∧ ∃ part, Spans text item part ∧
      scan part = [⟨item.value, 0, part.utf8ByteSize⟩]) ∧
    (scan text).Pairwise (fun earlier later => earlier.stop ≤ later.start) ∧
    (∀ before c after, text = before ++ String.singleton c ++ after →
      (∀ item ∈ scan text, ¬item.Covers before.utf8ByteSize) → c = ' ' ∨ c = '\t') ∧
    ∀ before after, text = before ++ "\n" ++ after →
      ∃ item ∈ scan text, item.value = .ok .newline ∧ item.Covers before.utf8ByteSize := by
  refine ⟨length_scan_le text, fun front piece back => leads_of_cut_eq, ?_,
    pairwise_ofPieces _ 0, ?_, ?_⟩
  · intro item member
    rcases mem_scan_iff.mp member with ⟨front, piece, back, value, hcut, hmeaning, rfl⟩
    have hleads := leads_of_cut_eq hcut
    refine ⟨?_, String.ofList piece.chars, spans_ofPiece hcut value,
      scan_ofList_chars hleads hmeaning⟩
    cases hchars : piece.chars with
    | nil => exact absurd hchars hleads.chars_ne_nil
    | cons c cs =>
        have hcovers := @covers_ofPiece front piece c [] cs hchars value
        exact Nat.lt_of_le_of_lt hcovers.1 hcovers.2
  · intro before c after htext uncovered
    rcases blank_or_covered htext with blank | ⟨item, member, covers, _⟩
    · simpa [isBlank] using blank
    · exact absurd covers (uncovered item member)
  · intro before after htext
    rcases @blank_or_covered text before after '\n' htext with
      blank | ⟨item, member, covers, hvalue⟩
    · exact absurd blank (by decide)
    · exact ⟨item, member, hvalue rfl, covers⟩

-- A number that is too wide, a letter of two bytes that begins nothing, and a line end.
theorem scanning_loses_nothing_wide :
    let text := "#99999999 ü\r\n"
    (∃ item ∈ scan text, item.value = .error .literalTooWide ∧ ∃ part, Spans text item part ∧
      scan part = [⟨.error .literalTooWide, 0, part.utf8ByteSize⟩]) ∧
    (∀ item ∈ scan text, ¬item.Covers 9) ∧ (' ' = ' ' ∨ ' ' = '\t') ∧
    ∃ item ∈ scan text, item.value = .ok .newline ∧ item.Covers 13 := by
  intro text
  rcases scanning_loses_nothing text with ⟨_, _, hparts, _, hblank, hfeed⟩
  have huncovered : ∀ item ∈ scan text, ¬item.Covers 9 := by decide +kernel
  refine ⟨?_, huncovered, ?_, hfeed "#99999999 ü\r" "" (by decide)⟩
  · have hwide : ∃ item ∈ scan text, item.value = .error .literalTooWide := by decide +kernel
    rcases hwide with ⟨item, member, hvalue⟩
    rcases (hparts item member).2 with ⟨part, hspans, hscan⟩
    rw [hvalue] at hscan
    exact ⟨item, member, hvalue, part, hspans, hscan⟩
  · exact hblank "#99999999" ' ' "ü\r\n" (by decide) huncovered

end Item

end Transport
