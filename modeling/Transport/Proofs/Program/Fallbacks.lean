import Transport.Module.Sample
import Transport.Proofs.Program.Disassembly

/-!
# Listings with Fallbacks

A fallback answers wherever no other port of its module does. Disassembly finds it by the
address and writes its name; but it is at no address, so assembly refuses the name, and
the listing of bytes that reach a fallback is no program. Written as a raw word, the
operand would have been read back.

That is all that goes wrong: a listing of bytes is refused on the line of the first move
that reaches a fallback, and for that fallback, and any other listing of bytes is the
program that the bytes encode. The order of the operands of a move matters as well, as
one line has one error.

## Main definitions

* `Program.FirstUnplaced`: The first move that is written by a fallback.

## Theorems

* `refusal?_eq_some_iff`: What is said of several moves is said of the first such one.
* `disassembly_assembles_iff`: Which listings of bytes are programs, and what is said
  about the others.
* `disassembly_refused`: Not all of them are.
-/

namespace Transport

namespace Program

open Piece

/-- The move at an index is written by a fallback, and none before it is. -/
structure FirstUnplaced (r : Registry) (moves : List (Word × Word)) (index : Nat) (p : Port) :
    Prop where
  reached : moves[index]?.bind (unplaced? r) = some p
  earlier : ∀ words ∈ moves.take index, unplaced? r words = none

variable {r : Registry}

theorem refusal?_eq_none_iff {moves : List (Word × Word)} : ∀ number,
    refusal? r number moves = none ↔ ∀ words ∈ moves, unplaced? r words = none := by
  induction moves with
  | nil => simp [refusal?]
  | cons words later ih =>
      intro number
      rw [refusal?, Option.or_eq_none_iff, Option.map_eq_none_iff, ih, List.forall_mem_cons]

theorem firstUnplaced_zero {words : Word × Word} {later : List (Word × Word)} {p : Port} :
    FirstUnplaced r (words :: later) 0 p ↔ unplaced? r words = some p := by
  constructor
  · exact fun first => first.reached
  · exact fun reached => ⟨reached, by simp⟩

theorem firstUnplaced_succ {words : Word × Word} {later : List (Word × Word)} {index : Nat}
    {p : Port} : FirstUnplaced r (words :: later) (index + 1) p ↔
      unplaced? r words = none ∧ FirstUnplaced r later index p := by
  constructor
  · rintro ⟨reached, earlier⟩
    rw [List.take_succ_cons, List.forall_mem_cons] at earlier
    exact ⟨earlier.1, reached, earlier.2⟩
  · rintro ⟨placed, reached, earlier⟩
    refine ⟨reached, ?_⟩
    rw [List.take_succ_cons, List.forall_mem_cons]
    exact ⟨placed, earlier⟩

/-- What is said of several moves is said of the first that is written by a fallback. -/
theorem refusal?_eq_some_iff {moves : List (Word × Word)} {error : ListingError} :
    ∀ number, refusal? r number moves = some error ↔
      ∃ index p, FirstUnplaced r moves index p ∧ error = ⟨number + index, .noAddress p.name⟩ := by
  induction moves with
  | nil =>
      intro number
      constructor
      · exact fun refused => absurd refused (by simp [refusal?])
      · rintro ⟨index, p, first, _⟩
        exact absurd first.reached (by simp)
  | cons words later ih =>
      intro number
      cases hwords : unplaced? r words with
      | some p =>
          -- The first line is refused, and no later one is looked at.
          rw [refusal?, hwords, Option.map_some, Option.some_or, Option.some.injEq]
          constructor
          · rintro rfl
            exact ⟨0, p, firstUnplaced_zero.mpr hwords, rfl⟩
          · rintro ⟨index, q, first, rfl⟩
            cases index with
            | zero =>
                rw [firstUnplaced_zero, hwords, Option.some.injEq] at first
                rw [first, Nat.add_zero]
            | succ index =>
                rw [firstUnplaced_succ, hwords] at first
                exact absurd first.1 (Option.some_ne_none p)
      | none =>
          -- What is said is said of a later line, whose index is one less there.
          rw [refusal?, hwords, Option.map_none, Option.none_or, ih]
          constructor
          · rintro ⟨index, p, first, rfl⟩
            exact ⟨index + 1, p, firstUnplaced_succ.mpr ⟨hwords, first⟩,
              by rw [Nat.add_right_comm, Nat.add_assoc]⟩
          · rintro ⟨index, p, first, rfl⟩
            cases index with
            | zero =>
                rw [firstUnplaced_zero, hwords] at first
                exact absurd first.symm (Option.some_ne_none p)
            | succ index =>
                exact ⟨index, p, (firstUnplaced_succ.mp first).2,
                  by rw [Nat.add_right_comm, Nat.add_assoc]⟩

/-- Which listings of bytes are programs. In every registry that comes of declarations
    offered one after the other and has only names that can be written: the listing of
    a byte string is a program exactly if no move that the bytes encode reaches a fallback,
    and then it is the program of these moves; otherwise it is refused on the line of the
    first move that does, for the fallback that it reaches. -/
theorem disassembly_assembles_iff (decls : List ModuleDecl)
    (names : ∀ p ∈ (Registry.empty.offerAll decls).ports, isName p.name.toList = true)
    (bytes : List UInt8) :
    let r := Registry.empty.offerAll decls
    (∀ program, ofListing r (disassemble r bytes) = .ok program ↔
      program = ofBytes bytes ∧ ∀ words ∈ (ofBytes bytes).words, unplaced? r words = none) ∧
    ∀ error, ofListing r (disassemble r bytes) = .error error ↔
      ∃ index p, FirstUnplaced r (ofBytes bytes).words index p ∧
        error = ⟨1 + index, .noAddress p.name⟩ := by
  intro r
  have legible : Legible r := ⟨Registry.sound_offerAll decls, names⟩
  -- The listing is refused at the first word served by a fallback, if there is one.
  rw [ofListing_disassemble_eq legible]
  constructor
  · intro program
    rw [← refusal?_eq_none_iff 1]
    cases refusal? r 1 (ofBytes bytes).words with
    | none => simp [eq_comm]
    | some error => simp
  · intro error
    rw [← refusal?_eq_some_iff 1]
    cases refusal? r 1 (ofBytes bytes).words with
    | none => simp
    | some refused => simp

/-- A module with one port, its fallback. -/
def wild : ModuleDecl where
  id := 0x30
  stem := "x"
  cells := 0
  ports := [{ name := "any", position := .fallback, capability := .readWrite, accessor := .handler 0 }]
  kind := .dispatched Module.Sample.bank

-- A move that does not reach the fallback, one that writes to it, and one that reads it.
theorem disassembly_assembles_iff_wild :
    let r := Registry.empty.offerAll [wild]
    (∀ p ∈ r.ports, isName p.name.toList = true) ∧
    ofListing r (disassemble r [0x11, 0x00, 0x00, 0x0A, 0x02, 0x00, 0x00, 0x00,
        0x11, 0x00, 0x00, 0x0A, 0x30, 0x00, 0x00, 0x05,
        0x30, 0x00, 0x00, 0x05, 0x00, 0x00, 0x00, 0x00]) = .error ⟨2, .noAddress "x.any"⟩ := by
  have names : ∀ p ∈ (Registry.empty.offerAll [wild]).ports, isName p.name.toList = true := by
    decide
  refine ⟨names, ((disassembly_assembles_iff [wild] names _).2 _).mpr ?_⟩
  exact ⟨1, ⟨0x30, .fallback, "x.any", [], .readWrite, .handler 0⟩,
    firstUnplaced_succ.mpr ⟨by decide +kernel, firstUnplaced_zero.mpr (by decide +kernel)⟩, rfl⟩

/-- The listing of a move from a fallback is refused. -/
theorem disassembly_refused :
    ¬ ∀ decls : List ModuleDecl,
      (∀ p ∈ (Registry.empty.offerAll decls).ports, isName p.name.toList = true) →
      ∀ bytes, ∃ program, ofListing (Registry.empty.offerAll decls)
        (disassemble (Registry.empty.offerAll decls) bytes) = .ok program := by
  intro assembled
  rcases assembled [wild] (by decide) [0x30, 0x00, 0x00, 0x05, 0x00, 0x00, 0x00, 0x00] with
    ⟨program, hprogram⟩
  have refused : (ofListing (Registry.empty.offerAll [wild])
      (disassemble (Registry.empty.offerAll [wild])
        [0x30, 0x00, 0x00, 0x05, 0x00, 0x00, 0x00, 0x00])).toOption = none := by decide +kernel
  rw [hprogram] at refused
  contradiction

end Program

end Transport
