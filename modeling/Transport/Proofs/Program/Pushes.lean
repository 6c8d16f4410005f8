import Transport.Proofs.Listing.Spacing
import Transport.Proofs.Program.Lines

/-!
# Moves That Are Pushed

A program is built move by move from pairs of operands, or all at once from a listing. The
operands are looked at one by one, each as a text of its own, and a line is looked at as a
whole; but an operand is one piece in front of a blank as it is by itself, so the line of
two operands stands for them with an arrow between. What follows is the same in both: the
error of the source comes before that of the destination, and both before anything that is
wrong with the move.

Only when all of this went well is the program touched. A program that is built in place
keeps what it had when an operand is refused.

## Main definitions

* `Program.IsOperand`: The texts that are one operand.
* `Program.moveLine`: The line of a move.
* `Program.pushInPlace`: A move that is put behind those of a program in place.
* `Program.pushAll`: A program with more moves, pushed one after the other.

## Theorems

* `push_of_values`, `ofListing_moveLine`: Both come down to the move of two operands.
* `exists_operands_of_push`: What is pushed was made of two operands.
* `run_pushInPlace`: A program in place is left alone by a push that fails.
* `ofListing_of_pushes`: A program built by pushes is that of its lines.
* `push_agrees_with_listing`: All of this for any registry and any texts.
-/

namespace Transport

namespace Program

open Piece

/-! ## One move -/

/-- A text that is one operand: a single token or error, but no comment and no line end. -/
def IsOperand (text : String) : Prop :=
  ∃ value, Item.values text = [value] ∧ value ≠ .ok .comment ∧ value ≠ .ok .newline

/-- The line of a move. -/
def moveLine (source destination : String) : String := source ++ " -> " ++ destination

/-- The move of what stands in the places of the operands. -/
def operandMove (r : Registry) (source destination : Except LexicalError Token) :
    Except AssemblyError Instruction := do
  let source ← source.mapError .lexical
  let destination ← destination.mapError .lexical
  move r source destination

section OneMove

variable {r : Registry} {source destination : String} {s d : Except LexicalError Token}

/-- The line of two operands stands for them, with an arrow between. -/
theorem values_moveLine (hs : Item.values source = [s]) (commentless : s ≠ .ok .comment)
    (hd : Item.values destination = [d]) :
    Item.values (moveLine source destination) = [s, .ok .arrow, d] := by
  rw [values_eq_meanings] at hs hd ⊢
  have hshape : (moveLine source destination).toList =
      source.toList ++ ' ' :: '-' :: '>' :: ' ' :: destination.toList := by
    simp [moveLine]
  have hcomment : .ok .comment ∉ meanings source.toList := by
    rw [hs, List.mem_singleton]
    exact commentless.symm
  rw [hshape, meanings_append_of_separates (separates_of_isBlank rfl) hcomment, hs, meanings_blank,
    meanings_arrow, meanings_blank, hd]
  rfl

theorem lineMoves_operands (hs : s ≠ .ok .comment) (hd : d ≠ .ok .comment) :
    lineMoves r [s, .ok .arrow, d] = (operandMove r s d).map ([·]) := by
  have htokens : lineTokens [s, .ok .arrow, d] = (do
      let source ← s.mapError .lexical
      let destination ← d.mapError .lexical
      return [source, .arrow, destination]) := by
    cases s with
    | error cause => rfl
    | ok source =>
        rw [lineTokens]
        · rw [lineTokens]
          · cases d with
            | error cause => rfl
            | ok destination =>
                rw [lineTokens]
                · rfl
                · exact fun h => hd (congrArg _ h)
          · exact fun h => Token.noConfusion h
        · exact fun h => hs (congrArg _ h)
  -- Both look at the source first, then at the destination, and then at the move.
  rw [lineMoves, htokens, operandMove]
  cases s with
  | error cause => rfl
  | ok source =>
      cases d with
      | error cause => rfl
      | ok destination =>
          change (do return [← move r source destination]) = (move r source destination).map ([·])
          cases move r source destination <;> rfl

theorem operand_of_values {text : String} {value : Except LexicalError Token}
    (h : Item.values text = [value]) : operand text = value.mapError .lexical := by
  rw [operand, h]
  cases value <;> rfl

/-- A push makes the move of its operands, and puts it behind those of the program. -/
theorem push_of_values (hs : Item.values source = [s]) (hd : Item.values destination = [d])
    (p : Program) : p.push r source destination = (operandMove r s d).map (p.append [·]) := by
  rw [push, operand_of_values hs, operand_of_values hd, operandMove]
  cases s with
  | error cause => rfl
  | ok source =>
      cases d with
      | error cause => rfl
      | ok destination =>
          change (do return p.append [← move r source destination]) =
            (move r source destination).map (p.append [·])
          cases move r source destination <;> rfl

/-- A listing of that one line makes the same move. -/
theorem ofListing_moveLine (hs : Item.values source = [s]) (hd : Item.values destination = [d])
    (commentless : s ≠ .ok .comment ∧ d ≠ .ok .comment)
    (unended : s ≠ .ok .newline ∧ d ≠ .ok .newline) :
    ofListing r (moveLine source destination) =
      ((operandMove r s d).map fun i => ⟨[i]⟩).mapError (⟨1, ·⟩) := by
  have hinline : .ok .newline ∉ [s, .ok .arrow, d] := by
    simp [unended.1.symm, unended.2.symm]
  rw [ofListing_eq_listingMoves, values_moveLine hs commentless.1 hd, lines_of_inline hinline, listingMoves,
    lineMoves_operands commentless.1 commentless.2]
  cases operandMove r s d <;> rfl

theorem values_of_operand {text : String} {token : Token} (h : operand text = .ok token) :
    Item.values text = [.ok token] := by
  unfold operand at h
  split at h
  · next only hvalues => rw [hvalues, Except.ok.inj h]
  · contradiction
  · contradiction

/-- What is pushed was made of two operands. -/
theorem exists_operands_of_push {p q : Program} (h : p.push r source destination = .ok q) :
    ∃ s d i, Item.values source = [.ok s] ∧ Item.values destination = [.ok d] ∧
      move r s d = .ok i ∧ q = p.append [i] := by
  rcases bind_eq_ok_iff.mp h with ⟨s, hs, h⟩
  rcases bind_eq_ok_iff.mp h with ⟨d, hd, h⟩
  rcases bind_eq_ok_iff.mp h with ⟨i, hmove, h⟩
  exact ⟨s, d, i, values_of_operand hs, values_of_operand hd, hmove, (Except.ok.inj h).symm⟩

/-- No operand of a move is a comment or a line end. -/
theorem tokens_of_move {s d : Token} {i : Instruction} (h : move r s d = .ok i) :
    (s ≠ .comment ∧ d ≠ .comment) ∧ s ≠ .newline ∧ d ≠ .newline := by
  rcases words_of_move h with ⟨sourceWord, destinationWord, hs, hd, _⟩
  refine ⟨⟨?_, ?_⟩, ?_, ?_⟩ <;> rintro rfl <;> contradiction

end OneMove

/-! ## Building in place -/

/-- What builds a program in place: it can fail, and leaves the program as it is then. -/
abbrev Building := ExceptT AssemblyError (StateM Program)

/-- A move that is put behind those of the program in place, both operands in listing
    notation. -/
def pushInPlace (r : Registry) (source destination : String) : Building Unit := do
  let source ← ExceptT.mk (pure (operand source))
  let destination ← ExceptT.mk (pure (operand destination))
  let i ← ExceptT.mk (pure (move r source destination))
  modify (·.append [i])

/-- A program in place is what a push makes of it, and left alone by one that fails. -/
theorem run_pushInPlace (r : Registry) (p : Program) (source destination : String) :
    (pushInPlace r source destination).run.run p =
      match p.push r source destination with
      | .ok q => (.ok (), q)
      | .error e => (.error e, p) := by
  rw [pushInPlace, push]
  -- The program is changed by the last step, behind everything that can fail.
  cases operand source with
  | error e => rfl
  | ok s =>
      cases operand destination with
      | error e => rfl
      | ok d =>
          change ((do
            let i ← ExceptT.mk (pure (move r s d))
            modify (·.append [i]) : Building Unit).run.run p) =
            match (do return p.append [← move r s d] : Except AssemblyError Program) with
            | .ok q => (.ok (), q)
            | .error e => (.error e, p)
          cases move r s d <;> rfl

/-! ## Many moves -/

/-- The program with more moves, pushed one after the other. -/
def pushAll (r : Registry) (p : Program) (moves : List (String × String)) :
    Except AssemblyError Program :=
  moves.foldlM (fun p m => p.push r m.1 m.2) p

section Pushes

variable {r : Registry}

theorem return_notMem_of_values {text : String} {token : Token}
    (h : Item.values text = [.ok token]) (comment : token ≠ .comment)
    (newline : token ≠ .newline) : '\r' ∉ text.toList := by
  intro returned
  rw [values_eq_meanings] at h
  rcases exists_meaning_of_return_mem returned with ⟨value, member, hvalue⟩
  rw [h, List.mem_singleton] at member
  simp [member, comment, newline] at hvalue

/-- The line of a move that was pushed holds just that, and no carriage return. -/
theorem line_of_push {p q : Program} {source destination : String}
    (h : p.push r source destination = .ok q) :
    '\r' ∉ (moveLine source destination).toList ∧
      ∃ i, ofListing r (moveLine source destination) = .ok ⟨[i]⟩ ∧ q = p.append [i] := by
  rcases exists_operands_of_push h with ⟨s, d, i, hs, hd, hmove, hq⟩
  rcases tokens_of_move hmove with ⟨commentless, unended⟩
  refine ⟨?_, i, ?_, hq⟩
  · simp [moveLine, return_notMem_of_values hs commentless.1 unended.1,
      return_notMem_of_values hd commentless.2 unended.2]
  · have hoperands : operandMove r (.ok s) (.ok d) = .ok i := hmove
    rw [ofListing_moveLine hs hd (by simpa using commentless) (by simpa using unended), hoperands]
    rfl

theorem ofListing_empty : ofListing r "" = .ok {} := by
  rw [ofListing_eq_listingMoves, values_eq_meanings, String.toList_empty, meanings_nil]
  rfl

/-- A program that is built by pushes has the moves of their lines. -/
theorem ofListing_of_pushes (moves : List (String × String)) : ∀ p q : Program,
    pushAll r p moves = .ok q → ∃ parsed,
      ofListing r ("\n".intercalate (moves.map fun m => moveLine m.1 m.2)) = .ok parsed ∧
        q = p.append parsed.instructions := by
  induction moves with
  | nil =>
      intro p q h
      cases h
      exact ⟨{}, ofListing_empty, by simp [append]⟩
  | cons m later ih =>
      intro p q h
      rw [pushAll, List.foldlM_cons] at h
      rcases bind_eq_ok_iff.mp h with ⟨middle, hpush, hlater⟩
      rcases line_of_push hpush with ⟨unreturned, i, hline, rfl⟩
      rcases ih _ q hlater with ⟨parsed, hparsed, rfl⟩
      -- There is a line feed behind every line but the last.
      cases later with
      | nil =>
          rw [List.map_nil, String.intercalate_nil, ofListing_empty] at hparsed
          cases hparsed
          refine ⟨⟨[i]⟩, ?_, by simp [append]⟩
          rwa [List.map_singleton, String.intercalate_singleton]
      | cons n later =>
          have hlast : (moveLine m.1 m.2).toList.getLast? ≠ some '\r' :=
            fun last => unreturned (List.mem_of_getLast? last)
          refine ⟨⟨i :: parsed.instructions⟩, ?_, by simp [append]⟩
          rw [List.map_cons] at hparsed ⊢
          rw [List.map_cons, String.intercalate_cons_cons, ofListing_append _ _ hlast, hline,
            hparsed]
          rfl

end Pushes

/-- Pushing a move and assembling its line agree, and a push is all or nothing. For two
    operands a push goes well exactly if the listing of their line does, and then adds the
    one move of that listing; else both fail for the same, the listing on its first line.
    With anything but two operands a push fails. A program in place is what a push that
    goes well makes of it, and stays as it was under one that fails. So a program built by
    pushes is that of the listing of their lines. -/
theorem push_agrees_with_listing (r : Registry) :
    (∀ (p : Program) (source destination : String), IsOperand source → IsOperand destination →
      ((∃ q, p.push r source destination = .ok q) ↔
        ∃ q, ofListing r (moveLine source destination) = .ok q) ∧
      (∀ q, p.push r source destination = .ok q → ∃ i,
        ofListing r (moveLine source destination) = .ok ⟨[i]⟩ ∧ q = p.append [i]) ∧
      ∀ e, p.push r source destination = .error e ↔
        ofListing r (moveLine source destination) = .error ⟨1, e⟩) ∧
    (∀ (p : Program) (source destination : String),
      ¬(IsOperand source ∧ IsOperand destination) →
        ∃ e, p.push r source destination = .error e) ∧
    (∀ (p : Program) (source destination : String),
      (pushInPlace r source destination).run.run p =
        match p.push r source destination with
        | .ok q => (.ok (), q)
        | .error e => (.error e, p)) ∧
    ∀ (moves : List (String × String)) (q : Program), pushAll r {} moves = .ok q →
      ofListing r ("\n".intercalate (moves.map fun m => moveLine m.1 m.2)) = .ok q := by
  refine ⟨?_, ?_, run_pushInPlace r, ?_⟩
  · -- Two operands in line are a move on a line of its own, with the same errors.
    rintro p source destination ⟨s, hs, scommentless, sunended⟩ ⟨d, hd, dcommentless, dunended⟩
    refine ⟨?_, fun q h => (line_of_push h).2, ?_⟩ <;>
      rw [push_of_values hs hd, ofListing_moveLine hs hd ⟨scommentless, dcommentless⟩
        ⟨sunended, dunended⟩] <;>
      cases operandMove r s d <;> simp [Except.map, Except.mapError]
  · intro p source destination other
    cases h : p.push r source destination with
    | error e => exact ⟨e, rfl⟩
    | ok q =>
        rcases exists_operands_of_push h with ⟨s, d, i, hs, hd, hmove, _⟩
        -- What is pushed is neither a comment nor a line end, so both texts were operands.
        rcases tokens_of_move hmove with ⟨commentless, unended⟩
        exact absurd ⟨⟨.ok s, hs, by simp [commentless], by simp [unended]⟩,
          ⟨.ok d, hd, by simp [commentless], by simp [unended]⟩⟩ other
  · intro moves q h
    rcases ofListing_of_pushes moves {} q h with ⟨parsed, hparsed, rfl⟩
    rw [hparsed]
    simp [append]

-- Blanks around operands, an operand with a piece too many, and a number without digits.
theorem push_agrees_with_listing_spaced :
    let r := Registry.standard
    ∃ q e, push {} r " #1" "alu.op\t" = .ok q ∧
      (∃ i, ofListing r (moveLine " #1" "alu.op\t") = .ok ⟨[i]⟩ ∧ q = append {} [i]) ∧
      ofListing r ("\n".intercalate [moveLine " #1" "alu.op\t"]) = .ok q ∧
      q.push r "#1 #2" "alu.op" = .error e ∧
      (pushInPlace r "#1 #2" "alu.op").run.run q = (.error e, q) ∧
      ofListing r (moveLine "@x" "alu.op") = .error ⟨1, .lexical .emptyNumeric⟩ := by
  intro r
  rcases push_agrees_with_listing r with ⟨hagree, hother, hplace, hmany⟩
  have haccepted : (push {} r " #1" "alu.op\t").toOption ≠ none := by decide +kernel
  cases hpush : push {} r " #1" "alu.op\t" with
  | error e =>
      rw [hpush] at haccepted
      exact absurd rfl haccepted
  | ok q =>
      have hspaced := hagree {} " #1" "alu.op\t"
        ⟨.ok (.literal 1), by decide +kernel, by decide, by decide⟩
        ⟨.ok (.name "alu.op"), by decide +kernel, by decide, by decide⟩
      have hempty := hagree {} "@x" "alu.op"
        ⟨.error .emptyNumeric, by decide +kernel, by decide, by decide⟩
        ⟨.ok (.name "alu.op"), by decide +kernel, by decide, by decide⟩
      -- The first text holds two tokens and is no operand.
      have hsecond : ¬(IsOperand "#1 #2" ∧ IsOperand "alu.op") := by
        rintro ⟨⟨value, hvalues, _⟩, _⟩
        have htwo : (Item.values "#1 #2").length = 2 := by decide +kernel
        rw [hvalues] at htwo
        exact absurd htwo (by simp)
      rcases hother q "#1 #2" "alu.op" hsecond with ⟨e, hrefused⟩
      have hkept := hplace q "#1 #2" "alu.op"
      rw [hrefused] at hkept
      refine ⟨q, e, rfl, hspaced.2.1 q hpush, hmany [(" #1", "alu.op\t")] q ?_, hrefused, hkept,
        (hempty.2.2 _).mp (by decide +kernel)⟩
      rw [pushAll, List.foldlM_cons, hpush]
      rfl

end Program

end Transport
