import Mathlib.Computability.Language
import Transport.Listing.Piece

/-!
# The Patterns of Pieces

What a piece of each kind may be, as a regular language, apart from how a text is cut.
Cutting looks at the first characters of a text and then runs on as far as one kind of
piece goes. That is to take the longest beginning of the text that is in any pattern: no
two patterns ever have beginnings of one text, so the first characters decide on the
pattern, and what is run over is the longest that the pattern has.

## Main definitions

* `Piece.one`: The texts of one character of a class.
* `Piece.Kind.pattern`: The texts that a piece of a kind can be.
* `Piece.nameTail`: What a name goes on with behind its first character.
* `Piece.Kind.continues`: The characters that a piece goes on with.

## Theorems

* `mem_nameTail_iff`: A name goes on with what is run over as a whole.
* `mem_pattern_of_extent`: What is cut off is in the pattern of its kind.
* `extent_of_mem_pattern`: A beginning that is in a pattern is cut off, or a longer one.
* `continues_of_mem_pattern`: What the texts of a pattern go on with.
-/

namespace Transport

namespace Piece

open scoped Computability

/-! ## Patterns -/

/-- The texts of one character of a class. -/
def one (p : Char → Bool) : Language Char := {cs | ∃ c, cs = [c] ∧ p c = true}

/-- A part of a name. -/
def namePart : Language Char := one CharClass.isNameStart * (one CharClass.isWord)∗

/-- The texts that a piece of a kind can be. -/
def Kind.pattern : Kind → Language Char
  | .blank => one isBlank * (one isBlank)∗
  | .decimal => one (· = '#') * (one CharClass.isDigit * (one CharClass.isWord)∗)
  | .hexadecimal => one (· = '#') * (one isHexMark * (one CharClass.isWord)∗)
  | .raw => one (· = '@') * ((1 + one isHexMark) * (one CharClass.isWord)∗)
  | .name => namePart * (one (· = '.') * namePart)∗
  | .arrow => one (· = '-') * one (· = '>')
  | .comment => one (· = ';') * (one (· != '\n'))∗
  | .newline => (1 + one (· = '\r')) * one (· = '\n')
  | .stray => 0

theorem mem_one_iff {p : Char → Bool} {cs : List Char} :
    cs ∈ one p ↔ ∃ c, cs = [c] ∧ p c = true := Iff.rfl

theorem mem_star_one_iff {p : Char → Bool} {cs : List Char} :
    cs ∈ (one p)∗ ↔ ∀ c ∈ cs, p c = true := by
  rw [Language.mem_kstar]
  constructor
  · rintro ⟨singles, rfl, members⟩ c member
    rcases List.mem_flatten.mp member with ⟨single, hsingle, hc⟩
    rcases members single hsingle with ⟨d, rfl, hd⟩
    rw [List.mem_singleton.mp hc]
    exact hd
  · intro all
    -- Every character is a member of its own.
    refine ⟨cs.map ([·]), ?_, ?_⟩
    · rw [← List.flatMap_def, List.flatMap_singleton']
    · rw [List.forall_mem_map]
      exact fun c member => ⟨c, rfl, all c member⟩

theorem cons_mem_one_mul_iff {p : Char → Bool} {l : Language Char} {c : Char} {cs : List Char} :
    c :: cs ∈ one p * l ↔ p c = true ∧ cs ∈ l := by
  rw [Language.mem_mul]
  constructor
  · rintro ⟨_, ⟨d, rfl, hd⟩, rest, member, htext⟩
    cases htext
    exact ⟨hd, member⟩
  · rintro ⟨hc, member⟩
    exact ⟨[c], ⟨c, rfl, hc⟩, cs, member, rfl⟩

theorem nil_notMem_one_mul {p : Char → Bool} {l : Language Char} : [] ∉ one p * l := by
  rw [Language.mem_mul]
  rintro ⟨_, ⟨d, rfl, _⟩, rest, _, htext⟩
  contradiction

/-! ## Names -/

/-- What a name goes on with behind its first character. -/
def nameTail : Language Char :=
  (one CharClass.isWord)∗ * (one (· = '.') * namePart)∗

/-- A name goes on with a word character, or with a dot and the beginning of a part, and
    then as it did before. -/
theorem nameTail_eq : nameTail = 1 + one (· = '.') * (one CharClass.isNameStart * nameTail) +
    one CharClass.isWord * nameTail := by
  have hparts : (one (· = '.') * namePart)∗ =
      1 + one (· = '.') * (one CharClass.isNameStart * nameTail) := by
    conv_lhs => rw [← Language.one_add_self_mul_kstar_eq_kstar]
    rw [namePart, nameTail, namePart, mul_assoc, mul_assoc]
  have hword : (one CharClass.isWord)∗ = 1 + one CharClass.isWord * (one CharClass.isWord)∗ :=
    (Language.one_add_self_mul_kstar_eq_kstar _).symm
  conv_lhs => rw [nameTail, hword, add_mul, one_mul, mul_assoc, ← nameTail, hparts]

theorem nil_mem_nameTail : [] ∈ nameTail := by
  rw [nameTail_eq, add_assoc]
  exact Or.inl Language.nil_mem_one

theorem cons_mem_nameTail_iff {c : Char} {cs : List Char} : c :: cs ∈ nameTail ↔
    c = '.' ∧ cs ∈ one CharClass.isNameStart * nameTail ∨
      CharClass.isWord c = true ∧ cs ∈ nameTail := by
  conv_lhs => rw [nameTail_eq, Language.mem_add, Language.mem_add, cons_mem_one_mul_iff,
    cons_mem_one_mul_iff]
  simp

/-- What a name goes on with is what is run over as a whole. -/
theorem mem_nameTail_iff (cs : List Char) : cs ∈ nameTail ↔ nameRun cs = cs.length := by
  have hdot : ¬CharClass.isWord '.' = true := by decide
  fun_induction nameRun cs with
  | case1 => exact iff_of_true nil_mem_nameTail rfl
  | case2 d cs start ih => simp [cons_mem_nameTail_iff, cons_mem_one_mul_iff, hdot, start, ih]
  | case3 d cs start => simp [cons_mem_nameTail_iff, cons_mem_one_mul_iff, hdot, start]
  | case4 c cs dotless word ih =>
      have hne : c ≠ '.' := by
        rintro rfl
        exact hdot word
      simp [cons_mem_nameTail_iff, hne, word, ih]
  | case5 c cs dotless word =>
      -- A character that neither goes on with a part nor begins one ends the name.
      refine iff_of_false ?_ (by simp)
      rw [cons_mem_nameTail_iff]
      rintro (⟨rfl, member⟩ | ⟨hword, _⟩)
      · -- A part would begin behind the dot.
        cases cs with
        | nil => exact nil_notMem_one_mul member
        | cons d cs => exact dotless d cs rfl rfl
      · exact word hword

theorem nameRun_cons_of_isWord {c : Char} (word : CharClass.isWord c = true) (cs : List Char) :
    nameRun (c :: cs) = nameRun cs + 1 := by
  rw [nameRun]
  · rw [if_pos word]
  · rintro d later rfl
    exact absurd word (by decide)

/-- A beginning that a name goes on with is run over, whatever is behind it. -/
theorem le_nameRun_append {cs : List Char} (whole : nameRun cs = cs.length) (rest : List Char) :
    cs.length ≤ nameRun (cs ++ rest) := by
  fun_induction nameRun cs with
  | case1 => exact Nat.zero_le _
  | case2 d cs start ih =>
      have hrest := ih (by simpa using whole)
      simpa [nameRun, start] using hrest
  | case3 | case5 => simp at whole
  | case4 c cs dotless word ih =>
      have hrest := ih (by simpa using whole)
      rw [List.cons_append, nameRun_cons_of_isWord word]
      exact Nat.succ_le_succ hrest

theorem nameRun_le (cs : List Char) : nameRun cs ≤ cs.length := by
  fun_induction nameRun cs with
  | case1 => exact Nat.le_refl _
  | case2 e cs start ih => exact Nat.succ_le_succ (Nat.succ_le_succ ih)
  | case3 | case5 => exact Nat.zero_le _
  | case4 c cs dotless word ih => exact Nat.succ_le_succ ih

/-- What is run over is what a name goes on with. -/
theorem nameRun_take (cs : List Char) : nameRun (cs.take (nameRun cs)) = nameRun cs := by
  fun_induction nameRun cs with
  | case1 | case3 | case5 => rfl
  | case2 d cs start ih => simp [nameRun, start, ih]
  | case4 c cs dotless word ih => rw [List.take_succ_cons, nameRun_cons_of_isWord word, ih]

/-! ## What is cut off -/

theorem take_takeWhile (p : Char → Bool) (cs : List Char) :
    cs.take (cs.takeWhile p).length = cs.takeWhile p :=
  (List.prefix_iff_eq_take.mp (List.takeWhile_prefix p)).symm

theorem le_length_takeWhile_append {p : Char → Bool} {cs : List Char} (all : ∀ c ∈ cs, p c = true)
    (rest : List Char) : cs.length ≤ ((cs ++ rest).takeWhile p).length := by
  rw [List.takeWhile_append_of_pos all, List.length_append]
  exact Nat.le_add_right _ _

/-- No pattern has the empty text. -/
theorem nil_notMem_pattern (kind : Kind) : [] ∉ kind.pattern := by
  cases kind
  case name => rw [Kind.pattern, namePart, mul_assoc]; exact nil_notMem_one_mul
  case newline =>
      rw [Kind.pattern, add_mul, one_mul, Language.mem_add, not_or]
      refine ⟨?_, nil_notMem_one_mul⟩
      rintro ⟨c, htext, _⟩
      contradiction
  case stray => exact Language.notMem_zero _
  all_goals exact nil_notMem_one_mul

theorem isWord_of_isHexMark {c : Char} (mark : isHexMark c = true) : CharClass.isWord c = true := by
  simp only [isHexMark, Bool.or_eq_true, decide_eq_true_eq] at mark
  rcases mark with rfl | rfl <;> decide

theorem isDigit_of_isHexMark {c : Char} (mark : isHexMark c = true) :
    CharClass.isDigit c = false := by
  simp only [isHexMark, Bool.or_eq_true, decide_eq_true_eq] at mark
  rcases mark with rfl | rfl <;> decide

-- A letter or an underscore begins no other kind of piece.
theorem extent_of_isNameStart {c : Char} (start : CharClass.isNameStart c = true) :
    isBlank c = false ∧ ∀ cs, extent c cs = (.name, nameRun cs) := by
  have hnone : [' ', '\t', '#', '@'].all (fun d => !CharClass.isNameStart d) = true := by decide
  have hother : ∀ d ∈ [' ', '\t', '#', '@'], c ≠ d := by
    rintro d member rfl
    have hnot := List.all_eq_true.mp hnone c member
    rw [start] at hnot
    contradiction
  simp only [List.forall_mem_cons] at hother
  rcases hother with ⟨hspace, htab, hsharp, hat, _⟩
  have unblank : isBlank c = false := by simp [isBlank, hspace, htab]
  exact ⟨unblank, fun cs => by simp [extent, unblank, hsharp, hat, start]⟩

section Members

variable {c : Char} {cs : List Char}

theorem cons_mem_blank_iff : c :: cs ∈ Kind.blank.pattern ↔
    isBlank c = true ∧ ∀ d ∈ cs, isBlank d = true := by
  rw [Kind.pattern, cons_mem_one_mul_iff, mem_star_one_iff]

theorem cons_mem_decimal_iff : c :: cs ∈ Kind.decimal.pattern ↔
    c = '#' ∧ ∃ d ds, cs = d :: ds ∧ CharClass.isDigit d = true ∧
      ∀ e ∈ ds, CharClass.isWord e = true := by
  rw [Kind.pattern, cons_mem_one_mul_iff, decide_eq_true_eq]
  cases cs <;> simp [nil_notMem_one_mul, cons_mem_one_mul_iff, mem_star_one_iff]

theorem cons_mem_hexadecimal_iff : c :: cs ∈ Kind.hexadecimal.pattern ↔
    c = '#' ∧ ∃ d ds, cs = d :: ds ∧ isHexMark d = true ∧
      ∀ e ∈ ds, CharClass.isWord e = true := by
  rw [Kind.pattern, cons_mem_one_mul_iff, decide_eq_true_eq]
  cases cs <;> simp [nil_notMem_one_mul, cons_mem_one_mul_iff, mem_star_one_iff]

/-- The mark of hexadecimal digits is a word character itself. -/
theorem cons_mem_raw_iff : c :: cs ∈ Kind.raw.pattern ↔
    c = '@' ∧ ∀ d ∈ cs, CharClass.isWord d = true := by
  rw [Kind.pattern, cons_mem_one_mul_iff, decide_eq_true_eq, add_mul, one_mul, Language.mem_add,
    mem_star_one_iff]
  refine and_congr_right fun _ => ⟨?_, Or.inl⟩
  rintro (word | marked)
  · exact word
  · cases cs with
    | nil => exact absurd marked nil_notMem_one_mul
    | cons d cs =>
        rw [cons_mem_one_mul_iff, mem_star_one_iff] at marked
        exact List.forall_mem_cons.mpr ⟨isWord_of_isHexMark marked.1, marked.2⟩

theorem cons_mem_name_iff : c :: cs ∈ Kind.name.pattern ↔
    CharClass.isNameStart c = true ∧ nameRun cs = cs.length := by
  rw [Kind.pattern, namePart, mul_assoc, cons_mem_one_mul_iff, ← mem_nameTail_iff, nameTail,
    namePart]

theorem cons_mem_arrow_iff : c :: cs ∈ Kind.arrow.pattern ↔ c = '-' ∧ cs = ['>'] := by
  rw [Kind.pattern, cons_mem_one_mul_iff, mem_one_iff]
  simp

theorem cons_mem_comment_iff : c :: cs ∈ Kind.comment.pattern ↔ c = ';' ∧ '\n' ∉ cs := by
  rw [Kind.pattern, cons_mem_one_mul_iff, mem_star_one_iff]
  simp only [decide_eq_true_eq, bne_iff_ne, ne_eq]
  exact and_congr_right fun _ =>
    ⟨fun h member => h _ member rfl, fun h d member hd => h (hd ▸ member)⟩

theorem cons_mem_newline_iff : c :: cs ∈ Kind.newline.pattern ↔
    c = '\n' ∧ cs = [] ∨ c = '\r' ∧ cs = ['\n'] := by
  rw [Kind.pattern, add_mul, one_mul, Language.mem_add, cons_mem_one_mul_iff, mem_one_iff,
    mem_one_iff]
  simp

theorem notMem_stray : cs ∉ Kind.stray.pattern := Language.notMem_zero cs

end Members

/-- What is cut off is in the pattern of its kind, but for a character that begins nothing. -/
theorem mem_pattern_of_extent {c : Char} {cs : List Char} {kind : Kind} {n : Nat}
    (h : extent c cs = (kind, n)) :
    n ≤ cs.length ∧ (kind = .stray ∧ n = 0 ∨ c :: cs.take n ∈ kind.pattern) := by
  have hstray : ∀ {kind n}, (Kind.stray, 0) = (kind, n) →
      n ≤ cs.length ∧ (kind = .stray ∧ n = 0 ∨ c :: cs.take n ∈ kind.pattern) := by
    rintro kind n heq
    cases heq
    exact ⟨Nat.zero_le _, Or.inl ⟨rfl, rfl⟩⟩
  have hrun : ∀ (p : Char → Bool) (cs : List Char), (cs.takeWhile p).length ≤ cs.length ∧
      ∀ d ∈ cs.take (cs.takeWhile p).length, p d = true := by
    intro p cs
    rw [take_takeWhile]
    exact ⟨(List.takeWhile_prefix p).length_le, List.all_eq_true.mp List.all_takeWhile⟩
  -- The cases are the kinds, each with what it goes on with.
  unfold extent at h
  split at h
  · next blank =>
    cases h
    exact ⟨(hrun _ cs).1, Or.inr (cons_mem_blank_iff.mpr ⟨blank, (hrun _ cs).2⟩)⟩
  split at h
  · next sharp =>
    cases cs with
    | nil => exact hstray h
    | cons d ds =>
        dsimp only at h
        split at h
        · next digit =>
          cases h
          have hlength : wordRun (d :: ds) = wordRun ds + 1 := by
            rw [wordRun, List.takeWhile_cons_of_pos (CharClass.isWord_of_isDigit digit)]
            rfl
          rw [hlength]
          exact ⟨Nat.succ_le_succ (hrun _ ds).1,
            Or.inr (cons_mem_decimal_iff.mpr ⟨sharp, d, _, rfl, digit, (hrun _ ds).2⟩)⟩
        split at h
        · next mark =>
          cases h
          exact ⟨Nat.succ_le_succ (hrun _ ds).1,
            Or.inr (cons_mem_hexadecimal_iff.mpr ⟨sharp, d, _, rfl, mark, (hrun _ ds).2⟩)⟩
        · exact hstray h
  split at h
  · next mark =>
    cases h
    exact ⟨(hrun _ cs).1, Or.inr (cons_mem_raw_iff.mpr ⟨mark, (hrun _ cs).2⟩)⟩
  split at h
  · next start =>
    cases h
    refine ⟨nameRun_le cs, Or.inr (cons_mem_name_iff.mpr ⟨start, ?_⟩)⟩
    rw [nameRun_take, List.length_take_of_le (nameRun_le cs)]
  split at h
  · next dash =>
    split at h
    · next arrow =>
      cases cs with
      | nil => contradiction
      | cons d ds =>
          cases h
          cases arrow
          exact ⟨Nat.succ_le_succ (Nat.zero_le _), Or.inr (cons_mem_arrow_iff.mpr ⟨dash, rfl⟩)⟩
    · exact hstray h
  split at h
  · next semicolon =>
    cases h
    refine ⟨(hrun _ cs).1, Or.inr (cons_mem_comment_iff.mpr ⟨semicolon, fun member => ?_⟩)⟩
    exact absurd ((hrun _ cs).2 _ member) (by simp)
  split at h
  · next hreturn =>
    split at h
    · next fed =>
      cases cs with
      | nil => contradiction
      | cons d ds =>
          cases h
          cases fed
          exact ⟨Nat.succ_le_succ (Nat.zero_le _),
            Or.inr (cons_mem_newline_iff.mpr (Or.inr ⟨hreturn, rfl⟩))⟩
    · exact hstray h
  split at h
  · next feed =>
    cases h
    exact ⟨Nat.zero_le _, Or.inr (cons_mem_newline_iff.mpr (Or.inl ⟨feed, rfl⟩))⟩
  · exact hstray h

/-- A beginning that is in a pattern is cut off, or a longer one of the same kind. -/
theorem extent_of_mem_pattern {kind : Kind} {c : Char} {cs : List Char}
    (member : c :: cs ∈ kind.pattern) (rest : List Char) :
    ∃ n, extent c (cs ++ rest) = (kind, n) ∧ cs.length ≤ n := by
  have hword : ∀ {cs : List Char}, (∀ d ∈ cs, CharClass.isWord d = true) →
      cs.length ≤ wordRun (cs ++ rest) := fun word => le_length_takeWhile_append word rest
  -- What is left of the pattern is a run of its class, which goes at least that far in the text.
  cases kind with
  | blank =>
      rcases cons_mem_blank_iff.mp member with ⟨blank, blanks⟩
      exact ⟨_, by simp [extent, blank], le_length_takeWhile_append blanks rest⟩
  | decimal =>
      rcases cons_mem_decimal_iff.mp member with ⟨rfl, d, ds, rfl, digit, word⟩
      refine ⟨wordRun (d :: ds ++ rest), by simp [extent, isBlank, digit], hword ?_⟩
      exact List.forall_mem_cons.mpr ⟨CharClass.isWord_of_isDigit digit, word⟩
  | hexadecimal =>
      rcases cons_mem_hexadecimal_iff.mp member with ⟨rfl, d, ds, rfl, mark, word⟩
      exact ⟨wordRun (ds ++ rest) + 1, by simp [extent, isBlank, isDigit_of_isHexMark mark, mark],
        Nat.succ_le_succ (hword word)⟩
  | raw =>
      rcases cons_mem_raw_iff.mp member with ⟨rfl, word⟩
      exact ⟨_, rfl, hword word⟩
  | name =>
      rcases cons_mem_name_iff.mp member with ⟨start, whole⟩
      exact ⟨_, (extent_of_isNameStart start).2 _, le_nameRun_append whole rest⟩
  | arrow =>
      rcases cons_mem_arrow_iff.mp member with ⟨rfl, rfl⟩
      exact ⟨1, rfl, Nat.le_refl _⟩
  | comment =>
      rcases cons_mem_comment_iff.mp member with ⟨rfl, unended⟩
      refine ⟨_, rfl, le_length_takeWhile_append (fun d hd => ?_) rest⟩
      rw [bne_iff_ne]
      rintro rfl
      exact unended hd
  | newline =>
      rcases cons_mem_newline_iff.mp member with ⟨rfl, rfl⟩ | ⟨rfl, rfl⟩
      · exact ⟨0, rfl, Nat.le_refl _⟩
      · exact ⟨1, rfl, Nat.le_refl _⟩
  | stray => exact absurd member notMem_stray

/-! ## What patterns go on with -/

/-- The characters that a piece of a kind can have behind its first. -/
def Kind.continues : Kind → Char → Bool
  | .blank, d => isBlank d
  | .decimal, d | .hexadecimal, d | .raw, d => CharClass.isWord d
  | .name, d => CharClass.isWord d || d = '.'
  | .arrow, d => d = '>'
  | .comment, d => d != '\n'
  | .newline, d => d = '\n'
  | .stray, _ => false

theorem continues_name_of_nameRun {cs : List Char} (whole : nameRun cs = cs.length) :
    ∀ d ∈ cs, Kind.name.continues d = true := by
  fun_induction nameRun cs with
  | case1 => exact List.forall_mem_nil _
  | case2 d cs start ih =>
      rw [List.forall_mem_cons, List.forall_mem_cons]
      refine ⟨rfl, ?_, ih (by simpa using whole)⟩
      simp [Kind.continues, CharClass.isWord_of_isNameStart start]
  | case3 | case5 => simp at whole
  | case4 c cs dotless word ih =>
      rw [List.forall_mem_cons]
      exact ⟨by simp [Kind.continues, word], ih (by simpa using whole)⟩

theorem continues_of_mem_pattern {kind : Kind} {c : Char} {cs : List Char}
    (member : c :: cs ∈ kind.pattern) : ∀ d ∈ cs, kind.continues d = true := by
  have hword : ∀ {e : Char} {es : List Char}, CharClass.isWord e = true →
      (∀ d ∈ es, CharClass.isWord d = true) → ∀ d ∈ e :: es, CharClass.isWord d = true :=
    fun he hes => List.forall_mem_cons.mpr ⟨he, hes⟩
  cases kind with
  | blank => exact (cons_mem_blank_iff.mp member).2
  | decimal =>
      rcases cons_mem_decimal_iff.mp member with ⟨_, e, es, rfl, digit, word⟩
      exact hword (CharClass.isWord_of_isDigit digit) word
  | hexadecimal =>
      rcases cons_mem_hexadecimal_iff.mp member with ⟨_, e, es, rfl, mark, word⟩
      exact hword (isWord_of_isHexMark mark) word
  | raw => exact (cons_mem_raw_iff.mp member).2
  | name => exact continues_name_of_nameRun (cons_mem_name_iff.mp member).2
  | arrow =>
      rw [(cons_mem_arrow_iff.mp member).2]
      simp [Kind.continues]
  | comment =>
      rintro d hd
      rw [Kind.continues, bne_iff_ne]
      rintro rfl
      exact (cons_mem_comment_iff.mp member).2 hd
  | newline =>
      rcases cons_mem_newline_iff.mp member with ⟨_, rfl⟩ | ⟨_, rfl⟩ <;> simp [Kind.continues]
  | stray => exact absurd member notMem_stray

/-- A line end is in no pattern but its own. -/
theorem eq_newline_of_mem_pattern {kind : Kind} {c : Char} {cs : List Char}
    (member : c :: cs ∈ kind.pattern) (newline : '\n' ∈ c :: cs) : kind = .newline := by
  rcases List.mem_cons.mp newline with rfl | later
  · rcases extent_of_mem_pattern member [] with ⟨n, hextent, _⟩
    exact (congrArg Prod.fst hextent).symm
  · have hcontinues := continues_of_mem_pattern member _ later
    cases kind
    case newline => rfl
    all_goals exact absurd hcontinues (by decide)

end Piece

end Transport
