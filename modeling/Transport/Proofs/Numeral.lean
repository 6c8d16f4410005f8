import Mathlib.Data.List.Forall2
import Mathlib.Data.List.Induction
import Mathlib.Data.Nat.Digits.Defs
import Transport.Numeral
import Transport.Text.CharClass

/-!
# What Numerals Denote

A digit string denotes a number in a base, if each of its characters stands for a digit
there. Said from its end, the string without the last character denotes the number of
which that character adds a digit; and the number in front is never the larger of the two.

So reading under a limit goes well exactly if a number below the limit is denoted, for
then all that is read on the way is below it as well. Else a character that stands for no
digit is what is wrong, if the digits in front of it are below the limit, and otherwise
the limit is. Writing a number gives a string that denotes it, and zeros in front denote
nothing more.

## Main definitions

* `Numeral.Stands`: The characters that stand for a digit.
* `Numeral.Denotes`: The number that a digit string denotes.
* `Numeral.Broken`: A string that has no digit where the limit is not reached yet.

## Theorems

* `digitValue?_eq_some_iff`: The digit that is read is the one that is stood for.
* `denotes_concat_iff`: One more digit.
* `read_eq_ok_iff`, `read_eq_empty_iff`, `read_eq_badDigit_iff`, `read_eq_overflow_iff`: What
  is read, and what is wrong first.
* `denotes_write`, `denotes_writePadded`: What is written denotes the number.
* `read_write`, `read_writePadded`: A number is read back, also from behind zeros.
* `length_writePadded`: How many digits are written.
* `isWord_of_denotes`: What stands for a digit is a word character.
-/

namespace Transport

namespace Numeral

variable {base limit : Nat}

/-! ## Digits and numbers -/

/-- A character stands for a digit of a base, letters in either case. -/
def Stands (base : Nat) (c : Char) (d : Nat) : Prop :=
  d < base ∧ ("0123456789abcdef".toList[d]? = some c ∨ "0123456789ABCDEF".toList[d]? = some c)

/-- The number that a digit string denotes, most significant digit first. -/
def Denotes (base : Nat) (cs : List Char) (value : Nat) : Prop :=
  ∃ ds, List.Forall₂ (Stands base) cs ds ∧ Nat.ofDigits base ds.reverse = value

/-- A character stands for no digit, and the digits in front of it are below the limit. -/
def Broken (base limit : Nat) (cs : List Char) : Prop :=
  ∃ left c right value, cs = left ++ c :: right ∧ Denotes base left value ∧ value < limit ∧
    ∀ d, ¬Stands base c d

theorem digitValue?_sixteen_iff (small : base ≤ 16) {c : Char} {d : Nat} :
    digitValue? base c = some d ↔ d < base ∧ digitValue? 16 c = some d := by
  simp only [digitValue?, Option.filter_eq_some_iff, decide_eq_true_eq]
  constructor
  · rintro ⟨hvalue, digit⟩
    exact ⟨digit, hvalue, by omega⟩
  · rintro ⟨digit, hvalue, _⟩
    exact ⟨hvalue, digit⟩

/-- The digit that is read from a character is the one that it stands for. -/
theorem digitValue?_eq_some_iff (small : base ≤ 16) {c : Char} {d : Nat} :
    digitValue? base c = some d ↔ Stands base c d := by
  rw [digitValue?_sixteen_iff small, Stands]
  refine and_congr_right fun _ => ⟨fun hread => ?_, fun stands => ?_⟩
  · have hdigit : ∀ d < 10, "0123456789abcdef".toList[d]? = some (Char.ofNat (48 + d)) := by
      decide
    have hupper : ∀ d < 16, 10 ≤ d →
        "0123456789ABCDEF".toList[d]? = some (Char.ofNat (55 + d)) := by decide
    have hlower : ∀ d < 16, 10 ≤ d →
        "0123456789abcdef".toList[d]? = some (Char.ofNat (87 + d)) := by decide
    have hcode : ∀ {code : Nat}, c.toNat = code → Char.ofNat code = c := by
      rintro code rfl
      exact Char.ofNat_toNat c
    simp only [digitValue?, Option.filter_eq_some_iff, decide_eq_true_eq] at hread
    rcases hread with ⟨hvalue, digit⟩
    -- The cases are the three ranges of characters.
    simp only [Char.le_def, UInt32.le_iff_toNat_le] at hvalue
    change (if 48 ≤ c.toNat ∧ c.toNat ≤ 57 then _ else if 65 ≤ c.toNat ∧ c.toNat ≤ 90 then _
      else if 97 ≤ c.toNat ∧ c.toNat ≤ 122 then _ else _) = _ at hvalue
    split at hvalue
    · cases hvalue
      rw [hdigit _ (by omega), hcode (by omega)]
      exact Or.inl rfl
    split at hvalue
    · cases hvalue
      rw [hupper _ digit (by omega), hcode (by omega)]
      exact Or.inr rfl
    split at hvalue
    · cases hvalue
      rw [hlower _ digit (by omega), hcode (by omega)]
      exact Or.inl rfl
    · contradiction
  · have hall : ∀ p ∈ "0123456789abcdef".toList.zipIdx ++ "0123456789ABCDEF".toList.zipIdx,
        digitValue? 16 p.1 = some p.2 := by decide
    rcases stands with lower | upper
    · exact hall (c, d) (List.mem_append_left _ (List.mem_zipIdx_iff_getElem?.mpr lower))
    · exact hall (c, d) (List.mem_append_right _ (List.mem_zipIdx_iff_getElem?.mpr upper))

theorem stands_digitChar (small : base ≤ 16) {d : Nat} (digit : d < base) :
    Stands base (digitChar d) d := by
  have hall : ∀ d < 16, "0123456789ABCDEF".toList[d]? = some (digitChar d) := by decide
  exact ⟨digit, Or.inr (hall d (by omega))⟩

theorem denotes_nil_iff {value : Nat} : Denotes base [] value ↔ value = 0 := by
  rw [Denotes]
  simp only [List.forall₂_nil_left_iff, exists_eq_left]
  exact eq_comm

/-- One more digit at the end. -/
theorem denotes_concat_iff {cs : List Char} {c : Char} {value : Nat} :
    Denotes base (cs ++ [c]) value ↔
      ∃ front d, Denotes base cs front ∧ Stands base c d ∧ front * base + d = value := by
  constructor
  · -- Digits are read from the front and numbers grow from the end, so lists are reversed twice.
    rintro ⟨ds, hds, rfl⟩
    rw [← List.forall₂_reverse_iff, List.reverse_concat] at hds
    rcases List.forall₂_cons_left_iff.mp hds with ⟨d, front, hd, hfront, hreverse⟩
    refine ⟨Nat.ofDigits base front, d, ⟨front.reverse, ?_, by rw [List.reverse_reverse]⟩, hd, ?_⟩
    · rwa [← List.forall₂_reverse_iff, List.reverse_reverse]
    · rw [hreverse, Nat.ofDigits_cons, Nat.mul_comm, Nat.add_comm]
  · rintro ⟨_, d, ⟨ds, hds, rfl⟩, hd, rfl⟩
    refine ⟨ds ++ [d], ?_, ?_⟩
    · rw [← List.forall₂_reverse_iff, List.reverse_concat, List.reverse_concat]
      exact List.Forall₂.cons hd (List.forall₂_reverse_iff.mpr hds)
    · rw [List.reverse_concat, Nat.ofDigits_cons, Nat.mul_comm, Nat.add_comm]

/-- All characters stand for digits. -/
theorem stands_of_denotes {cs : List Char} {value : Nat} (h : Denotes base cs value) :
    ∀ c ∈ cs, ∃ d, Stands base c d := by
  rcases h with ⟨ds, hds, -⟩
  induction hds with
  | nil => exact List.forall_mem_nil _
  | cons hd _ ih => exact List.forall_mem_cons.mpr ⟨⟨_, hd⟩, ih⟩

theorem not_broken_of_denotes {cs : List Char} {value : Nat} (h : Denotes base cs value) :
    ¬Broken base limit cs := by
  rintro ⟨left, c, right, _, rfl, _, _, hnone⟩
  rcases stands_of_denotes h c (by simp) with ⟨d, hd⟩
  exact hnone d hd

/-! ## Reading -/

theorem readFrom_append (ds : List Char) (cs : List Char) : ∀ v,
    readFrom base limit v (cs ++ ds) =
      (readFrom base limit v cs).bind (readFrom base limit · ds) := by
  -- Induction on what stands in front, for every value read so far.
  induction cs with
  | nil => intro v; rfl
  | cons c cs ih =>
      intro v
      simp only [List.cons_append, readFrom]
      cases digitValue? base c with
      | none => rfl
      | some d =>
          by_cases fits : v * base + d < limit
          · simpa only [fits, if_true] using ih _
          · simp only [fits, if_false]
            rfl

section Read

variable (small : base ≤ 16) (positive : 0 < limit)

include small positive

theorem readFrom_eq_ok_iff (cs : List Char) : ∀ value,
    readFrom base limit 0 cs = .ok value ↔ Denotes base cs value ∧ value < limit := by
  -- The induction is on the characters from the last one on.
  induction cs using List.reverseRecOn with
  | nil =>
      intro value
      rw [denotes_nil_iff, readFrom, Except.ok.injEq]
      constructor
      · rintro rfl
        exact ⟨rfl, positive⟩
      · exact fun h => h.1.symm
  | append_singleton cs c ih =>
      intro value
      rw [readFrom_append, denotes_concat_iff]
      constructor
      · intro h
        cases hfront : readFrom base limit 0 cs with
        | error defect => rw [hfront] at h; contradiction
        | ok front =>
            rw [hfront] at h
            cases hdigit : digitValue? base c with
            | none => simp [Except.bind, readFrom, hdigit] at h
            | some d =>
                simp only [Except.bind, readFrom, hdigit] at h
                split at h
                · next fits =>
                  cases h
                  have hstands := (digitValue?_eq_some_iff small).mp hdigit
                  exact ⟨⟨front, d, ((ih front).mp hfront).1, hstands, rfl⟩, fits⟩
                · contradiction
      · rintro ⟨⟨front, d, hfront, hstands, rfl⟩, fits⟩
        -- The number in front is not the larger one, since there are digits in the base.
        have hle : front ≤ front * base := Nat.le_mul_of_pos_right _ (Nat.zero_lt_of_lt hstands.1)
        rw [(ih front).mpr ⟨hfront, by omega⟩]
        simp [Except.bind, readFrom, (digitValue?_eq_some_iff small).mpr hstands, fits]

theorem readFrom_eq_badDigit_iff (cs : List Char) :
    readFrom base limit 0 cs = .error .badDigit ↔ Broken base limit cs := by
  constructor
  · intro h
    induction cs using List.reverseRecOn with
    | nil => contradiction
    | append_singleton cs c ih =>
        rw [readFrom_append] at h
        -- Either it is in front already, or it is the last character.
        cases hfront : readFrom base limit 0 cs with
        | error defect =>
            rw [hfront] at h
            cases h
            rcases ih hfront with ⟨left, e, right, value, rfl, hrest⟩
            exact ⟨left, e, right ++ [c], value, by simp, hrest⟩
        | ok front =>
            rw [hfront] at h
            have hvalue := (readFrom_eq_ok_iff small positive cs front).mp hfront
            refine ⟨cs, c, [], front, rfl, hvalue.1, hvalue.2, fun d hstands => ?_⟩
            simp only [Except.bind, readFrom, (digitValue?_eq_some_iff small).mpr hstands] at h
            split at h <;> contradiction
  · rintro ⟨left, c, right, value, rfl, hdenotes, fits, hnone⟩
    have hdigit : digitValue? base c = none := by
      cases hdigit : digitValue? base c with
      | none => rfl
      | some d => exact absurd ((digitValue?_eq_some_iff small).mp hdigit) (hnone d)
    rw [readFrom_append, (readFrom_eq_ok_iff small positive left value).mpr ⟨hdenotes, fits⟩]
    simp [Except.bind, readFrom, hdigit]

omit small positive in
theorem readFrom_ne_empty (cs : List Char) : ∀ v, readFrom base limit v cs ≠ .error .empty := by
  induction cs with
  | nil => simp [readFrom]
  | cons c cs ih =>
      intro v
      rw [readFrom]
      split
      · simp
      · split
        · exact ih _
        · simp

omit small positive in
theorem read_of_ne_nil {cs : List Char} (nonempty : cs ≠ []) :
    read base limit cs = readFrom base limit 0 cs := by
  cases cs with
  | nil => contradiction
  | cons c cs => rfl

/-- A number is read if it is below the limit. -/
theorem read_eq_ok_iff {cs : List Char} {value : Nat} : read base limit cs = .ok value ↔
    cs ≠ [] ∧ Denotes base cs value ∧ value < limit := by
  by_cases nonempty : cs = []
  · simp [nonempty, read]
  · rw [read_of_ne_nil nonempty, readFrom_eq_ok_iff small positive]
    simp [nonempty]

/-- What is wrong with a number, if it is not too large. -/
theorem read_eq_badDigit_iff {cs : List Char} :
    read base limit cs = .error .badDigit ↔ Broken base limit cs := by
  by_cases nonempty : cs = []
  · simp [nonempty, read, Broken]
  · rw [read_of_ne_nil nonempty, readFrom_eq_badDigit_iff small positive]

omit small positive in
theorem read_eq_empty_iff {cs : List Char} : read base limit cs = .error .empty ↔ cs = [] := by
  by_cases nonempty : cs = []
  · simp [nonempty, read]
  · rw [read_of_ne_nil nonempty]
    exact iff_of_false (readFrom_ne_empty cs 0) nonempty

/-- A number is too large if nothing else is wrong with it. -/
theorem read_eq_overflow_iff {cs : List Char} : read base limit cs = .error .overflow ↔
    cs ≠ [] ∧ ¬Broken base limit cs ∧ ∀ value < limit, ¬Denotes base cs value := by
  -- Reading has four outcomes, each with its condition, and this one is what the others leave.
  cases hread : read base limit cs with
  | ok value =>
      have hvalue := (read_eq_ok_iff small positive).mp hread
      exact iff_of_false (by simp) fun h => h.2.2 value hvalue.2.2 hvalue.2.1
  | error defect =>
      cases defect with
      | empty => exact iff_of_false (by simp) fun h => h.1 (read_eq_empty_iff.mp hread)
      | badDigit =>
          have hbroken := (read_eq_badDigit_iff small positive).mp hread
          exact iff_of_false (by simp) fun h => h.2.1 hbroken
      | overflow =>
          refine iff_of_true rfl ⟨fun none => ?_, fun broken => ?_, fun value fits denotes => ?_⟩
          · rw [read_eq_empty_iff.mpr none] at hread
            contradiction
          · rw [(read_eq_badDigit_iff small positive).mpr broken] at hread
            contradiction
          · have nonempty : cs ≠ [] := fun none => by
              rw [read_eq_empty_iff.mpr none] at hread
              contradiction
            rw [(read_eq_ok_iff small positive).mpr ⟨nonempty, denotes, fits⟩] at hread
            contradiction

omit positive in
/-- A string denotes one number. -/
theorem denotes_unique {cs : List Char} {v w : Nat} (hv : Denotes base cs v)
    (hw : Denotes base cs w) : v = w := by
  -- Both are read under a limit beyond them.
  have hlimit : 0 < v + w + 1 := by omega
  have hread := (readFrom_eq_ok_iff small hlimit cs v).mpr ⟨hv, by omega⟩
  rw [(readFrom_eq_ok_iff small hlimit cs w).mpr ⟨hw, by omega⟩] at hread
  exact (Except.ok.inj hread).symm

end Read

/-! ## Writing -/

section Write

variable (two : 2 ≤ base) (small : base ≤ 16)

include two small

/-- What is written denotes the number. -/
theorem denotes_write (n : Nat) : Denotes base (write base n) n := by
  fun_induction write base n with
  | case1 n short =>
      have hnone : Denotes base [] 0 := denotes_nil_iff.mpr rfl
      exact denotes_concat_iff.mpr ⟨0, n, hnone, stands_digitChar small (by omega), by omega⟩
  | case2 n long ih =>
      have hdigit : n % base < base := Nat.mod_lt _ (by omega)
      exact denotes_concat_iff.mpr
        ⟨n / base, n % base, ih, stands_digitChar small hdigit, Nat.div_add_mod' n base⟩

/-- Zeros in front of a digit string do not count. -/
theorem denotes_zeros_append {cs : List Char} (k : Nat) : ∀ {value}, Denotes base cs value →
    Denotes base (List.replicate k '0' ++ cs) value := by
  have hzero : Stands base '0' 0 := stands_digitChar small (by omega)
  -- Induction from the end, where digits are added; without digits only the zeros are left.
  induction cs using List.reverseRecOn with
  | nil =>
      intro value h
      cases denotes_nil_iff.mp h
      rw [List.append_nil]
      induction k with
      | zero => exact h
      | succ k ih =>
          rw [List.replicate_succ']
          exact denotes_concat_iff.mpr ⟨0, 0, ih, hzero, by omega⟩
  | append_singleton cs c ih =>
      intro value h
      rcases denotes_concat_iff.mp h with ⟨front, d, hfront, hstands, hvalue⟩
      rw [← List.append_assoc]
      exact denotes_concat_iff.mpr ⟨front, d, ih hfront, hstands, hvalue⟩

theorem denotes_writePadded (width n : Nat) : Denotes base (writePadded base width n) n :=
  denotes_zeros_append two small _ (denotes_write two small n)

end Write

theorem write_ne_nil (n : Nat) : write base n ≠ [] := by
  rw [write]
  split <;> simp

/-- A number below the limit is read back. -/
theorem read_write (two : 2 ≤ base) (small : base ≤ 16) {n : Nat} (fits : n < limit) :
    read base limit (write base n) = .ok n :=
  (read_eq_ok_iff small (by omega)).mpr ⟨write_ne_nil n, denotes_write two small n, fits⟩

theorem read_writePadded (two : 2 ≤ base) (small : base ≤ 16) (width : Nat) {n : Nat}
    (fits : n < limit) : read base limit (writePadded base width n) = .ok n := by
  have hne : writePadded base width n ≠ [] := by simp [writePadded, write_ne_nil]
  exact (read_eq_ok_iff small (by omega)).mpr ⟨hne, denotes_writePadded two small width n, fits⟩

/-- A number fits in a width if it is below that power of the base. -/
theorem length_write_le (n : Nat) : ∀ {k}, n < base ^ (k + 1) →
    (write base n).length ≤ k + 1 := by
  fun_induction write base n with
  | case1 n short => simp
  | case2 n long ih =>
      intro k fits
      rw [List.length_append, List.length_singleton]
      cases k with
      | zero => simp at fits; omega
      -- One digit more than the quotient has, which is within one power less.
      | succ k =>
          have hquotient : n / base < base ^ (k + 1) :=
            Nat.div_lt_of_lt_mul (by rwa [Nat.mul_comm, ← Nat.pow_succ])
          have hle := ih hquotient
          omega

theorem length_writePadded {k n : Nat} (fits : n < base ^ (k + 1)) :
    (writePadded base (k + 1) n).length = k + 1 := by
  have hle := length_write_le n fits
  rw [writePadded, List.length_append, List.length_replicate]
  omega

/-! ## The characters of numerals -/

/-- What holds of the digits of a base holds of the characters of a number. -/
theorem forall_of_denotes {p : Char → Bool} (all : ∀ d < base,
      ("0123456789abcdef".toList[d]?).all p = true ∧ ("0123456789ABCDEF".toList[d]?).all p = true)
    {cs : List Char} {value : Nat} (h : Denotes base cs value) : ∀ c ∈ cs, p c = true := by
  intro c member
  rcases stands_of_denotes h c member with ⟨d, digit, hd | hd⟩
  · have hlower := (all d digit).1
    rwa [hd] at hlower
  · have hupper := (all d digit).2
    rwa [hd] at hupper

theorem isWord_of_denotes (small : base ≤ 16) {cs : List Char} {value : Nat}
    (h : Denotes base cs value) : ∀ c ∈ cs, CharClass.isWord c = true := by
  have hall : ∀ d < 16, ("0123456789abcdef".toList[d]?).all CharClass.isWord = true ∧
      ("0123456789ABCDEF".toList[d]?).all CharClass.isWord = true := by decide
  exact forall_of_denotes (fun d digit => hall d (by omega)) h

theorem isDigit_of_denotes_ten {cs : List Char} {value : Nat} (h : Denotes 10 cs value) :
    ∀ c ∈ cs, CharClass.isDigit c = true :=
  forall_of_denotes (by decide) h

end Numeral

end Transport
