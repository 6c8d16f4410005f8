import Mathlib.Data.List.Forall2
import Transport.Proofs.Listing.Piece
import Transport.Proofs.Program.Listing
import Transport.Proofs.Segment.Layout

/-!
# The Moves of a Listing

A listing that is accepted has one move for every line with two operands and an
arrow between them, in the order of the lines; blank lines and comments leave nothing
behind. In the RAM that a program is loaded into, the move at index `i` stands at `8 * i`,
as the two words it was made of.

So the operands of a listing, its moves and the slots of their encoding are three
lists of one length, and what is said about one line can be said about one slot.

## Main definitions

* `Program.operands`: The operands of the lines that hold a move.
* `Program.image`: The RAM that holds a program and nothing else.

## Theorems

* `words_of_move`: What a move is made of.
* `forall₂_of_ofListing`: A program has the moves of its lines.
* `mem_values_of_mem_operands`, `le_offsetMask_of_mem_values`: Where operands come from,
  and how wide literals are.
* `words_of_bytes`, `wordsAt_image`: Where a move stands in RAM.
-/

namespace Transport

namespace Program

open Piece

/-! ## Lines and moves -/

theorem map_eq_ok_iff {ε α β : Type} {f : α → β} {x : Except ε α} {b : β} :
    x.map f = .ok b ↔ ∃ a, x = .ok a ∧ f a = b := by
  cases x <;> simp [Except.map]

theorem bind_eq_ok_iff {ε α β : Type} {x : Except ε α} {f : α → Except ε β} {b : β} :
    (x >>= f) = .ok b ↔ ∃ a, x = .ok a ∧ f a = .ok b := by
  cases x <;> simp [bind, Except.bind]

/-- A move is made of the words of its two operands. -/
theorem words_of_move {r : Registry} {s d : Token} {i : Instruction} (h : move r s d = .ok i) :
    ∃ source destination, sourceWord r s = .ok source ∧ destinationWord r d = .ok destination ∧
      i = .ofWords source destination := by
  rcases bind_eq_ok_iff.mp h with ⟨source, hs, h⟩
  rcases bind_eq_ok_iff.mp h with ⟨destination, hd, h⟩
  exact ⟨source, destination, hs, hd, (Except.ok.inj h).symm⟩

/-- The operands of a line, if it holds a move. -/
def lineOperands? (line : List (Except LexicalError Token)) : Option (Token × Token) :=
  match lineTokens line with
  | .ok [source, .arrow, destination] => some (source, destination)
  | _ => none

/-- The operands of every line of a listing that holds a move, in order. -/
def operands (text : String) : List (Token × Token) :=
  (lines (Item.values text)).filterMap lineOperands?

theorem moves_of_lineMoves {r : Registry} {line : List (Except LexicalError Token)}
    {moves : List Instruction} (h : lineMoves r line = .ok moves) :
    lineOperands? line = none ∧ moves = [] ∨
      ∃ s d i, lineOperands? line = some (s, d) ∧ move r s d = .ok i ∧ moves = [i] := by
  unfold lineOperands?
  rcases bind_eq_ok_iff.mp h with ⟨tokens, htokens, hmoves⟩
  rw [htokens]
  -- The line is blank, holds a move, or is refused for its shape.
  split at hmoves
  · cases hmoves
    exact Or.inl ⟨rfl, rfl⟩
  · next s d =>
    rcases bind_eq_ok_iff.mp hmoves with ⟨i, hmove, hone⟩
    cases hone
    exact Or.inr ⟨s, d, i, rfl, hmove, rfl⟩
  · cases hmoves

theorem forall₂_of_listingMoves {r : Registry}
    (listing : List (List (Except LexicalError Token))) :
    ∀ number moves, listingMoves r number listing = .ok moves →
      List.Forall₂ (fun operands i => move r operands.1 operands.2 = .ok i)
        (listing.filterMap lineOperands?) moves := by
  induction listing with
  | nil =>
      intro number moves h
      cases h
      exact List.Forall₂.nil
  | cons line later ih =>
      intro number moves h
      rw [listingMoves] at h
      cases hline : lineMoves r line with
      | error cause => rw [hline] at h; cases h
      | ok first =>
          rw [hline] at h
          rcases map_eq_ok_iff.mp h with ⟨rest, hrest, rfl⟩
          -- The line is empty or a move; only a move has operands and an instruction.
          rcases moves_of_lineMoves hline with ⟨hnone, rfl⟩ | ⟨s, d, i, hsome, hmove, rfl⟩
          · rw [List.filterMap_cons_none hnone]
            exact ih (number + 1) rest hrest
          · rw [List.filterMap_cons_some hsome]
            exact List.Forall₂.cons hmove (ih (number + 1) rest hrest)

/-- The moves of an accepted listing are those of its lines. -/
theorem forall₂_of_ofListing {r : Registry} {text : String} {program : Program}
    (h : ofListing r text = .ok program) :
    List.Forall₂ (fun operands i => move r operands.1 operands.2 = .ok i)
      (operands text) program.instructions := by
  rcases map_eq_ok_iff.mp (ofListing_eq_listingMoves r text ▸ h) with ⟨moves, hmoves, rfl⟩
  exact forall₂_of_listingMoves _ 1 moves hmoves

/-! ## Operands and tokens -/

theorem mem_of_mem_lineTokens {line : List (Except LexicalError Token)} :
    ∀ {tokens}, lineTokens line = .ok tokens → ∀ token ∈ tokens, .ok token ∈ line := by
  fun_induction lineTokens line with
  | case1 => simp
  | case2 cause rest => simp
  | case3 rest ih =>
      intro tokens h token member
      exact List.mem_cons_of_mem _ (ih h token member)
  | case4 first rest _ ih =>
      intro tokens h token member
      rcases map_eq_ok_iff.mp h with ⟨later, hlater, rfl⟩
      rcases List.mem_cons.mp member with rfl | member
      · exact List.mem_cons_self
      · exact List.mem_cons_of_mem _ (ih hlater token member)

theorem mem_of_mem_lines {values : List (Except LexicalError Token)} :
    ∀ line ∈ lines values, ∀ value ∈ line, value ∈ values := by
  fun_induction lines values with
  | case1 => simp
  | case2 rest ih =>
      intro line hline value member
      rcases List.mem_cons.mp hline with rfl | hline
      · contradiction
      · exact List.mem_cons_of_mem _ (ih line hline value member)
  -- A value in front of the next newline belongs to the first line of the rest.
  | case3 first rest _ line later hlines ih =>
      rw [hlines] at ih
      rw [List.forall_mem_cons] at ih ⊢
      refine ⟨?_, fun other hother value member =>
        List.mem_cons_of_mem _ (ih.2 other hother value member)⟩
      rw [List.forall_mem_cons]
      exact ⟨List.mem_cons_self, fun value member => List.mem_cons_of_mem _ (ih.1 value member)⟩
  | case4 first rest _ _ ih => simp

/-- The operands of a listing are among its tokens. -/
theorem mem_values_of_mem_operands {text : String} {s d : Token} (h : (s, d) ∈ operands text) :
    .ok s ∈ Item.values text ∧ .ok d ∈ Item.values text := by
  rcases List.mem_filterMap.mp h with ⟨line, hline, hoperands⟩
  unfold lineOperands? at hoperands
  split at hoperands
  · next source destination htokens =>
    cases hoperands
    have hmember := mem_of_mem_lineTokens htokens
    exact ⟨mem_of_mem_lines line hline _ (hmember s (by simp)),
      mem_of_mem_lines line hline _ (hmember d (by simp))⟩
  · contradiction

theorem readLiteral_eq_ok {base : Nat} {digits : List Char} {token : Token}
    (h : readLiteral base digits = .ok token) :
    ∃ value, token = .literal value ∧ value ≤ offsetMask := by
  unfold readLiteral at h
  split at h
  · next value _ =>
    split at h
    · contradiction
    · next fits =>
      cases h
      exact ⟨value, rfl, UInt32.not_lt.mp fits⟩
  · contradiction
  · contradiction

theorem readRaw_eq_ok {cs : List Char} {token : Token} (h : readRaw cs = .ok token) :
    ∃ word, token = .raw word := by
  cases cs with
  | nil => contradiction
  | cons c cs =>
      rcases map_eq_ok_iff.mp h with ⟨word, _, rfl⟩
      exact ⟨word, rfl⟩

/-- A literal of a listing has no more than 24 bits. -/
theorem le_offsetMask_of_mem_values {text : String} {value : Word}
    (h : .ok (.literal value) ∈ Item.values text) : value ≤ offsetMask := by
  rw [values_eq_meanings] at h
  rcases List.mem_filterMap.mp h with ⟨piece, _, hmeaning⟩
  have hread : ∀ base digits, readLiteral base digits = .ok (.literal value) →
      value ≤ offsetMask := by
    intro base digits hliteral
    rcases readLiteral_eq_ok hliteral with ⟨_, same, fits⟩
    cases same
    exact fits
  -- Only the two kinds of number can stand for a literal.
  unfold meaning? at hmeaning
  split at hmeaning
  case h_2 => exact hread _ _ (Option.some.inj hmeaning)
  case h_3 => exact hread _ _ (Option.some.inj hmeaning)
  case h_4 =>
      rcases readRaw_eq_ok (Option.some.inj hmeaning) with ⟨_, same⟩
      contradiction
  all_goals simp at hmeaning

/-! ## Moves in RAM -/

/-- The RAM that holds the encoding of a program and nothing else. -/
def image (program : Program) : Ram := ⟨program.bytes.toArray⟩

-- Every move has eight bytes, so the index and the place in its block count off together.
theorem getElem?_flatMap_bytes (moves : List Instruction) :
    ∀ index k, k < 8 → (moves.flatMap Instruction.bytes)[8 * index + k]? =
      moves[index]?.bind fun i => i.bytes[k]? := by
  -- Induction on the instructions, eight bytes each.
  induction moves with
  | nil => simp
  | cons i moves ih =>
      intro index k inside
      rw [List.flatMap_cons]
      cases index with
      | zero =>
          rw [List.getElem?_append_left (by simpa [instructionSize] using inside)]
          simp
      | succ index =>
          rw [List.getElem?_append_right (by rw [Instruction.length_bytes, instructionSize]; omega),
            Instruction.length_bytes, instructionSize,
            show 8 * (index + 1) + k - 8 = 8 * index + k by omega, ih index k inside,
            List.getElem?_cons_succ]

theorem length_bytes (program : Program) : program.bytes.length = 8 * program.size := by
  rw [bytes, List.length_flatMap, size]
  induction program.instructions with
  | nil => rfl
  | cons i moves ih =>
      rw [List.map_cons, List.sum_cons, ih, Instruction.length_bytes, instructionSize,
        List.length_cons]
      omega

/-- A move whose eight bytes stand in RAM is found there by its two words. -/
theorem words_of_bytes {ram : Ram} {offset : Word} {i : Instruction}
    (reach : offset.toNat + 4 < 0x100000000)
    (hbyte : ∀ k, k < 8 → ram.bytes[offset.toNat + k]? = i.bytes[k]?) :
    ram.word? offset = some i.source.word ∧ ram.word? (offset + 4) = some i.destination.word := by
  have hsecond := Segment.toNat_add_four reach
  -- Each of the two words has four of the eight bytes of the move.
  constructor
  · rw [Ram.word?_eq_bind, ← Nat.add_zero offset.toNat, hbyte 0 (by omega)]
    simp only [Nat.add_zero, hbyte 1 (by omega), hbyte 2 (by omega), hbyte 3 (by omega)]
    exact congrArg some (Word.ofBytes_bytes i.source.word)
  · rw [Ram.word?_eq_bind, hsecond]
    simp only [Nat.add_assoc, hbyte 4 (by omega), hbyte 5 (by omega), hbyte 6 (by omega),
      hbyte 7 (by omega), Nat.reduceAdd]
    exact congrArg some (Word.ofBytes_bytes i.destination.word)

theorem wordsAt_of_bytes {ram : Ram} {offset : Word} {i : Instruction}
    (reach : offset.toNat + 4 < 0x100000000)
    (hbyte : ∀ k, k < 8 → ram.bytes[offset.toNat + k]? = i.bytes[k]?) :
    Segment.wordsAt ram offset = i.words := by
  rcases words_of_bytes reach hbyte with ⟨hsource, hdestination⟩
  rw [Segment.wordsAt, hsource, hdestination]
  rfl

/-- The move at an index stands at eight times the index, as far as words reach. -/
theorem wordsAt_image {program : Program} {index : Nat} {i : Instruction}
    (h : program.instructions[index]? = some i) (reach : 8 * index + 8 < 0x100000000) :
    Segment.wordsAt program.image (Segment.offsetOf 0 index) = i.words := by
  have hoffset : (Segment.offsetOf 0 index).toNat = 8 * index := by
    rw [Segment.toNat_offsetOf (by simp; omega)]
    simp
  refine wordsAt_of_bytes (by omega) fun k inside => ?_
  rw [hoffset, image, List.getElem?_toArray, bytes, getElem?_flatMap_bytes _ index k inside, h,
    Option.bind_some]

end Program

end Transport
