import Transport.Proofs.Listing.Piece

/-!
# Numbers of a Listing

What the numbers of a listing stand for. A number takes in all word characters behind its
mark, and what it stands for is decided by these alone: the number they denote in the base
of the mark, if the operand has room for it. Else it is an error, and which one depends on
what is met first from the left, a character that is no digit or a value that is beyond 32
bits. A literal has less room than that, so that a value can be read as a whole and be too
wide all the same.

## Main definitions

* `Piece.Verdict`: What a digit string stands for, in a base and under a bound.
* `Piece.judge`: How literals and raw words are read alike.
* `Item.Reads`: A text is one number, and stands for the verdict on its digits.

## Theorems

* `verdict_iff`: What is read is the verdict, and there is no other.
* `readLiteral_eq_judge`, `readWord_eq_judge`: Literals and raw words are read so.
* `values_decimal`, `values_raw`: Numbers that are written are read back.
* `numbers_are_what_they_spell`: The four forms of a number, and numbers that are written.
-/

namespace Transport

namespace Piece

open Numeral

/-! ## Verdicts -/

section Verdicts

variable (base bound : Nat) (token : Word → Token) (tooWide : LexicalError) (digits : List Char)

/-- What a digit string stands for: the number it denotes if that is within a bound, and
    else what is wrong with it. -/
inductive Verdict : Except LexicalError Token → Prop
  /-- The number is denoted, and within the bound. -/
  | number {value : Word} (nonempty : digits ≠ []) (denotes : Denotes base digits value.toNat)
      (fits : value.toNat ≤ bound) : Verdict (.ok (token value))
  /-- There are no digits. -/
  | empty (none : digits = []) : Verdict (.error .emptyNumeric)
  /-- A character is no digit, and those in front of it are within 32 bits. -/
  | invalid (broken : Broken base 0x100000000 digits) : Verdict (.error .invalidNumeric)
  /-- None of this. -/
  | tooWide (nonempty : digits ≠ []) (unbroken : ¬Broken base 0x100000000 digits)
      (beyond : ∀ value ≤ bound, ¬Denotes base digits value) : Verdict (.error tooWide)

/-- How literals and raw words are read alike. -/
def judge : Except LexicalError Token :=
  match read base 0x100000000 digits with
  | .ok value => if value ≤ bound then .ok (token (UInt32.ofNat value)) else .error tooWide
  | .error .empty => .error .emptyNumeric
  | .error .badDigit => .error .invalidNumeric
  | .error .overflow => .error tooWide

/-- What is read is the verdict, and there is no other. -/
theorem verdict_iff (small : base ≤ 16) (bounded : bound < 0x100000000)
    {verdict : Except LexicalError Token} :
    Verdict base bound token tooWide digits verdict ↔
      verdict = judge base bound token tooWide digits := by
  have positive : 0 < 0x100000000 := by decide
  constructor
  · intro h
    rw [judge]
    cases h with
    | number nonempty denotes fits =>
        rw [(read_eq_ok_iff small positive).mpr ⟨nonempty, denotes, UInt32.toNat_lt _⟩]
        simp [fits]
    | empty none => rw [read_eq_empty_iff.mpr none]
    | invalid broken => rw [(read_eq_badDigit_iff small positive).mpr broken]
    | tooWide nonempty unbroken beyond =>
        -- What is read is beyond the bound, if not beyond 32 bits.
        split
        · next value hread =>
          have hvalue := (read_eq_ok_iff small positive).mp hread
          rw [if_neg fun fits => beyond value fits hvalue.2.1]
        · next hread => exact absurd (read_eq_empty_iff.mp hread) nonempty
        · next hread => exact absurd ((read_eq_badDigit_iff small positive).mp hread) unbroken
        · rfl
  · rintro rfl
    rw [judge]
    split
    · next value hread =>
      rcases (read_eq_ok_iff small positive).mp hread with ⟨nonempty, denotes, fits32⟩
      split
      · next fits =>
        have hvalue : (UInt32.ofNat value).toNat = value := UInt32.toNat_ofNat_of_lt' fits32
        exact .number nonempty (hvalue.symm ▸ denotes) (hvalue.symm ▸ fits)
      · next beyond =>
        refine .tooWide nonempty (not_broken_of_denotes denotes) fun other fits hother => ?_
        exact beyond (denotes_unique small denotes hother ▸ fits)
    · next hread => exact .empty (read_eq_empty_iff.mp hread)
    · next hread => exact .invalid ((read_eq_badDigit_iff small positive).mp hread)
    · next hread =>
      rcases (read_eq_overflow_iff small positive).mp hread with ⟨nonempty, unbroken, beyond⟩
      exact .tooWide nonempty unbroken fun value fits =>
        beyond value (Nat.lt_of_le_of_lt fits bounded)

end Verdicts

/-! ## Numbers -/

theorem readWord_eq_judge {base : Nat} (small : base ≤ 16) (digits : List Char) :
    (readWord base digits).map .raw = judge base 0xFFFFFFFF .raw .wordTooWide digits := by
  rw [readWord, judge]
  cases hread : read base 0x100000000 digits with
  | ok value =>
      have fits := ((read_eq_ok_iff small (by decide)).mp hread).2.2
      dsimp only
      rw [if_pos (by omega)]
      rfl
  | error defect => cases defect <;> rfl

theorem readLiteral_eq_judge {base : Nat} (small : base ≤ 16) (digits : List Char) :
    readLiteral base digits = judge base 0xFFFFFF .literal .literalTooWide digits := by
  rw [readLiteral, readWord, judge]
  cases hread : read base 0x100000000 digits with
  | ok value =>
      -- The mask is the largest literal, so exceeding it is exceeding 24 bits.
      have fits := ((read_eq_ok_iff small (by decide)).mp hread).2.2
      have hmask : offsetMask < UInt32.ofNat value ↔ ¬value ≤ 0xFFFFFF := by
        rw [UInt32.lt_iff_toNat_lt, UInt32.toNat_ofNat_of_lt' fits, Nat.not_le]
        rfl
      dsimp only
      split
      · next beyond => rw [if_neg (hmask.mp beyond)]
      · next within => rw [if_pos (Decidable.not_not.mp (mt hmask.mpr within))]
  | error defect => cases defect <;> rfl

/-- A text that is one piece stands for what that piece does. -/
theorem values_of_mem_pattern {kind : Kind} {cs : List Char} {value : Except LexicalError Token}
    (member : cs ∈ kind.pattern) (hmeaning : meaning? ⟨kind, cs⟩ = some value) :
    Item.values (String.ofList cs) = [value] := by
  rw [values_eq_meanings, String.toList_ofList, meanings, cut_of_mem_pattern member]
  simp [hmeaning]

end Piece

namespace Item

open Piece Numeral

/-- A text is one number, and stands for the verdict on its digits and nothing else. -/
def Reads (text : String) (base bound : Nat) (token : Word → Token) (tooWide : LexicalError)
    (digits : List Char) : Prop :=
  ∃ verdict, values text = [verdict] ∧
    ∀ other, Verdict base bound token tooWide digits other ↔ other = verdict

section Reads

variable {base bound : Nat} {token : Word → Token} {tooWide : LexicalError} {digits : List Char}

theorem reads_of_mem_pattern {kind : Kind} {cs : List Char} (small : base ≤ 16)
    (bounded : bound < 0x100000000) (member : cs ∈ kind.pattern)
    (hmeaning : meaning? ⟨kind, cs⟩ = some (judge base bound token tooWide digits)) :
    Reads (String.ofList cs) base bound token tooWide digits :=
  ⟨_, values_of_mem_pattern member hmeaning, fun _ => verdict_iff _ _ _ _ _ small bounded⟩

/-- A number within the bound is read from any string that denotes it. -/
theorem Reads.values_eq {text : String} (h : Reads text base bound token tooWide digits)
    {value : Word} (nonempty : digits ≠ []) (denotes : Denotes base digits value.toNat)
    (fits : value.toNat ≤ bound) : values text = [.ok (token value)] := by
  rcases h with ⟨verdict, hvalues, honly⟩
  rw [hvalues, ← (honly _).mp (.number nonempty denotes fits)]

end Reads

section Forms

variable {c : Char} {digits : List Char}

theorem reads_decimal (member : '#' :: digits ∈ Kind.decimal.pattern) :
    Reads (String.ofList ('#' :: digits)) 10 0xFFFFFF .literal .literalTooWide digits := by
  refine reads_of_mem_pattern (by decide) (by decide) member ?_
  rw [← readLiteral_eq_judge (by decide)]
  rfl

theorem reads_hexadecimal (member : '#' :: c :: digits ∈ Kind.hexadecimal.pattern) :
    Reads (String.ofList ('#' :: c :: digits)) 16 0xFFFFFF .literal .literalTooWide digits := by
  refine reads_of_mem_pattern (by decide) (by decide) member ?_
  rw [← readLiteral_eq_judge (by decide)]
  rfl

theorem reads_raw_hexadecimal (mark : isHexMark c = true)
    (member : '@' :: c :: digits ∈ Kind.raw.pattern) :
    Reads (String.ofList ('@' :: c :: digits)) 16 0xFFFFFFFF .raw .wordTooWide digits := by
  refine reads_of_mem_pattern (by decide) (by decide) member ?_
  rw [← readWord_eq_judge (by decide)]
  simp [meaning?, readRaw, mark]

theorem reads_raw_decimal (unmarked : ∀ d ∈ digits.head?, isHexMark d = false)
    (member : '@' :: digits ∈ Kind.raw.pattern) :
    Reads (String.ofList ('@' :: digits)) 10 0xFFFFFFFF .raw .wordTooWide digits := by
  refine reads_of_mem_pattern (by decide) (by decide) member ?_
  rw [← readWord_eq_judge (by decide)]
  cases digits with
  | nil => rfl
  | cons d digits => simp [meaning?, readRaw, unmarked d rfl]

end Forms

/-- Literals are read back from their decimal digits, also from behind zeros. -/
theorem values_decimal {value : Word} (fits : value ≤ offsetMask) (zeros : Nat) :
    values (String.ofList ('#' :: (List.replicate zeros '0' ++ write 10 value.toNat))) =
      [.ok (.literal value)] := by
  have hdenotes : Denotes 10 (List.replicate zeros '0' ++ write 10 value.toNat) value.toNat :=
    denotes_zeros_append (by decide) (by decide) zeros (denotes_write (by decide) (by decide) _)
  have hne : List.replicate zeros '0' ++ write 10 value.toNat ≠ [] := by simp [write_ne_nil]
  exact (reads_decimal (mem_decimal_of_denotes hne hdenotes)).values_eq hne hdenotes
    (UInt32.le_iff_toNat_le.mp fits)

/-- Words are read back from their hexadecimal digits. -/
theorem values_raw (word : Word) (zeros : Nat) :
    values (String.ofList ('@' :: 'x' ::
      (List.replicate zeros '0' ++ writePadded 16 8 word.toNat))) = [.ok (.raw word)] := by
  have hdenotes : Denotes 16 (List.replicate zeros '0' ++ writePadded 16 8 word.toNat)
      word.toNat :=
    denotes_zeros_append (by decide) (by decide) zeros
      (denotes_writePadded (by decide) (by decide) 8 _)
  have hne : List.replicate zeros '0' ++ writePadded 16 8 word.toNat ≠ [] := by
    simp [writePadded, write_ne_nil]
  exact (reads_raw_hexadecimal rfl (mem_raw_of_denotes hdenotes)).values_eq hne hdenotes
    (Nat.le_of_lt_succ word.toNat_lt)

/-- Numbers mean what they spell, in all of their forms: behind `#` in decimal if a digit
    of any script follows and in hexadecimal behind an `x`, as a literal of 24 bits; and
    behind `@` in hexadecimal or decimal, as a word of 32 bits. Each stands for the number
    that its digits denote, if that is within the bound, and else for the error that the
    verdict on its digits says. So a literal that is written in decimal is read back, and a
    word that is written in eight hexadecimal digits, with any number of zeros in front. -/
theorem numbers_are_what_they_spell :
    (∀ c digits, CharClass.isDigit c = true → (∀ d ∈ digits, CharClass.isWord d = true) →
      Reads (String.ofList ('#' :: c :: digits)) 10 0xFFFFFF .literal .literalTooWide
        (c :: digits)) ∧
    (∀ c digits, c = 'x' ∨ c = 'X' → (∀ d ∈ digits, CharClass.isWord d = true) →
      Reads (String.ofList ('#' :: c :: digits)) 16 0xFFFFFF .literal .literalTooWide digits ∧
      Reads (String.ofList ('@' :: c :: digits)) 16 0xFFFFFFFF .raw .wordTooWide digits) ∧
    (∀ digits, (∀ d ∈ digits, CharClass.isWord d = true) →
      digits.head? ≠ some 'x' → digits.head? ≠ some 'X' →
      Reads (String.ofList ('@' :: digits)) 10 0xFFFFFFFF .raw .wordTooWide digits) ∧
    (∀ (value : Word) (zeros : Nat), value ≤ offsetMask →
      values (String.ofList ('#' :: (List.replicate zeros '0' ++ write 10 value.toNat))) =
        [.ok (.literal value)]) ∧
    ∀ (word : Word) (zeros : Nat), (writePadded 16 8 word.toNat).length = 8 ∧
      values (String.ofList ('@' :: 'x' ::
        (List.replicate zeros '0' ++ writePadded 16 8 word.toNat))) = [.ok (.raw word)] := by
  have hmark : ∀ {c : Char}, isHexMark c = true ↔ c = 'x' ∨ c = 'X' := by simp [isHexMark]
  refine ⟨fun c digits digit word => ?_, fun c digits hc word => ?_,
    fun digits word lower upper => ?_, fun value zeros fits => values_decimal fits zeros,
    fun word zeros => ⟨length_writePadded word.toNat_lt, values_raw word zeros⟩⟩
  · -- Decimal literals, hexadecimal ones and raw words have patterns of their own.
    exact reads_decimal (cons_mem_decimal_iff.mpr ⟨rfl, c, digits, rfl, digit, word⟩)
  · have mark := hmark.mpr hc
    constructor
    · exact reads_hexadecimal (cons_mem_hexadecimal_iff.mpr ⟨rfl, c, digits, rfl, mark, word⟩)
    · refine reads_raw_hexadecimal mark (cons_mem_raw_iff.mpr ⟨rfl, ?_⟩)
      exact List.forall_mem_cons.mpr ⟨isWord_of_isHexMark mark, word⟩
  · refine reads_raw_decimal (fun d hd => ?_) (cons_mem_raw_iff.mpr ⟨rfl, word⟩)
    -- A raw word is decimal when no mark stands in front of its digits.
    rw [Option.mem_def.mp hd] at lower upper
    rw [Bool.eq_false_iff, ne_eq, hmark, not_or]
    exact ⟨fun h => lower (h ▸ rfl), fun h => upper (h ▸ rfl)⟩

-- Zeros in front, a digit of another script, and a letter behind more than 32 bits.
theorem numbers_are_what_they_spell_mixed :
    values "#000016777215" = [.ok (.literal 0xFFFFFF)] ∧ values "#٣" = [.error .invalidNumeric] ∧
    values "@4294967296z" = [.error .wordTooWide] ∧
      ¬Broken 10 0x100000000 "4294967296z".toList := by
  rcases numbers_are_what_they_spell with ⟨hdecimal, _, hraw, hliteral, _⟩
  refine ⟨?_, ?_, ?_⟩
  · have htext : String.ofList ('#' :: (List.replicate 4 '0' ++ write 10 (0xFFFFFF : Word).toNat)) =
        "#000016777215" := by decide +kernel
    rw [← htext]
    exact hliteral 0xFFFFFF 4 (by decide)
  · rcases hdecimal '٣' [] (by decide) (by simp) with ⟨verdict, hvalues, honly⟩
    have hbroken : Broken 10 0x100000000 ['٣'] :=
      ⟨[], '٣', [], 0, rfl, denotes_nil_iff.mpr rfl, by decide, fun d h => by
        rw [← digitValue?_eq_some_iff (by decide)] at h
        contradiction⟩
    rw [(honly _).mp (.invalid hbroken)]
    exact hvalues
  · have hword : ∀ d ∈ "4294967296z".toList, CharClass.isWord d = true :=
      List.all_eq_true.mp (by decide)
    rcases hraw "4294967296z".toList hword (by decide) (by decide) with ⟨verdict, hvalues, honly⟩
    have hwide : values "@4294967296z" = [.error .wordTooWide] := by decide +kernel
    have hverdict : .error .wordTooWide = verdict :=
      (List.cons.inj (hwide.symm.trans hvalues)).1
    cases (honly _).mpr hverdict with
    | tooWide _ unbroken => exact ⟨hwide, unbroken⟩

end Item

end Transport
