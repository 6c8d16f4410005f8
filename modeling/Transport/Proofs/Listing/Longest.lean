import Transport.Proofs.Listing.Pattern

/-!
# The Longest Piece

A text begins with the longest piece that any pattern has, and with a single character
that begins nothing if no pattern has a beginning of the text. So what the first piece is
can be said without looking at how it is found, and a text is cut into pieces each of
which is the longest of what is left there.

It follows when the first piece stays the same though the text behind it changes: as
long as no pattern goes on into what is there now. Blanks, semicolons and carriage returns
are gone on with by blanks and comments alone, so other pieces end in front of them. And
a piece stays the first when nothing at all is behind it, so its text is cut into that
piece again.

## Main definitions

* `Piece.Leads`: A piece is the longest that a text begins with.
* `Piece.Separates`: The characters that only blanks and comments go on with.

## Theorems

* `leads_iff`: The piece that is cut off is the longest.
* `Leads.follow`, `Leads.follow_of_separates`: It stays the first when the text behind it
  changes.
* `Leads.eq_of_newline_mem`, `Leads.comment_cases`: Line ends and comments.
* `cut_of_leads`, `cut_induction`, `leads_of_cut_eq`: All pieces of a text.
* `cut_chars`: The text of a piece is that piece again.
-/

namespace Transport

namespace Piece

/-! ## The longest piece -/

/-- The piece that a text begins with: the longest beginning that any pattern has, or a
    single character if no pattern has a beginning of the text. -/
inductive Leads (cs : List Char) : Piece → Prop
  /-- No beginning that is in a pattern is longer. -/
  | longest {kind : Kind} {chars : List Char} (begins : chars <+: cs)
      (member : chars ∈ kind.pattern)
      (longest : ∀ (other : Kind), ∀ longer ∈ other.pattern, longer <+: cs →
        longer.length ≤ chars.length) : Leads cs ⟨kind, chars⟩
  /-- No beginning is in a pattern. -/
  | stray {c : Char} {later : List Char} (text : cs = c :: later)
      (unmatched : ∀ (kind : Kind), ∀ chars ∈ kind.pattern, ¬chars <+: cs) :
      Leads cs ⟨.stray, [c]⟩

/-- All beginnings of a text that are in patterns are of one kind, that of its first piece,
    and go no further than it does. -/
theorem prefix_first_of_mem_pattern {kind : Kind} {chars : List Char} {c : Char} {cs : List Char}
    (member : chars ∈ kind.pattern) (begins : chars <+: c :: cs) :
    (first c cs).kind = kind ∧ chars <+: (first c cs).chars := by
  cases chars with
  | nil => exact absurd member (nil_notMem_pattern kind)
  | cons d ds =>
      rcases begins with ⟨rest, hrest⟩
      rcases List.cons.inj hrest with ⟨rfl, rfl⟩
      rcases extent_of_mem_pattern member rest with ⟨n, hextent, hle⟩
      rw [List.append_eq, first, hextent]
      refine ⟨rfl, ?_⟩
      rw [List.prefix_cons_inj, List.take_append, List.take_of_length_le hle]
      exact List.prefix_append _ _

theorem mem_pattern_first (c : Char) (cs : List Char) :
    first c cs = ⟨.stray, [c]⟩ ∨ (first c cs).chars ∈ (first c cs).kind.pattern := by
  rcases hextent : extent c cs with ⟨kind, n⟩
  simp only [first, hextent]
  rcases (mem_pattern_of_extent hextent).2 with ⟨rfl, rfl⟩ | member
  · exact Or.inl rfl
  · exact Or.inr member

/-- The first piece of a text is the longest. -/
theorem leads_iff {c : Char} {cs : List Char} {piece : Piece} :
    Leads (c :: cs) piece ↔ piece = first c cs := by
  have hbegins : (first c cs).chars <+: c :: cs := ⟨_, chars_first_append c cs⟩
  constructor
  · rintro (⟨begins, member, longest⟩ | ⟨text, unmatched⟩)
    · -- The longest match begins with the kind of `first`, and neither of the two is the longer.
      rcases prefix_first_of_mem_pattern member begins with ⟨rfl, hwithin⟩
      have hmember := (mem_pattern_first c cs).resolve_left fun stray => by
        rw [stray] at member
        exact notMem_stray member
      rw [hwithin.eq_of_length_le (longest _ _ hmember hbegins)]
    · cases text
      exact ((mem_pattern_first c cs).resolve_right fun member =>
        unmatched _ _ member hbegins).symm
  · rintro rfl
    -- Conversely a longer match would have the kind of `first`, whose extent is maximal.
    rcases mem_pattern_first c cs with stray | member
    · rw [stray]
      refine .stray rfl fun kind chars hchars begins => ?_
      rw [← (prefix_first_of_mem_pattern hchars begins).1, stray] at hchars
      exact notMem_stray hchars
    · exact .longest hbegins member fun other longer hlonger begins =>
        (prefix_first_of_mem_pattern hlonger begins).2.length_le

section Leads

variable {piece : Piece} {before behind rest : List Char}

theorem Leads.begins (h : Leads before piece) : piece.chars <+: before := by
  cases h with
  | longest begins => exact begins
  | stray text =>
      subst text
      exact ⟨_, rfl⟩

theorem Leads.chars_ne_nil (h : Leads before piece) : piece.chars ≠ [] := by
  cases h with
  | longest _ member =>
      rintro rfl
      exact nil_notMem_pattern _ member
  | stray => exact List.cons_ne_nil _ _

/-- A piece leads another text that it begins, if patterns have no other beginnings of that. -/
theorem Leads.transfer (h : Leads before piece) (begins : piece.chars <+: behind)
    (known : ∀ (kind : Kind), ∀ chars ∈ kind.pattern, chars <+: behind → chars <+: before) :
    Leads behind piece := by
  cases h with
  | longest _ member longest =>
      exact .longest begins member fun other longer hlonger hbegins =>
        longest other longer hlonger (known other longer hlonger hbegins)
  | stray text unmatched =>
      rcases begins with ⟨later, rfl⟩
      exact .stray rfl fun kind chars hchars hbegins =>
        unmatched kind chars hchars (known kind chars hchars hbegins)

/-- A piece is the first of any part of the text that it is within. -/
theorem Leads.within (h : Leads (before ++ behind) piece) (within : piece.chars <+: before) :
    Leads before piece :=
  h.transfer within fun _ _ _ begins => begins.trans (List.prefix_append _ _)

/-- It stays the first when the text behind that part changes, if no pattern goes on into
    what is there then. -/
theorem Leads.follow (h : Leads (before ++ behind) piece) (within : piece.chars <+: before)
    {d : Char} (unmatched : ∀ (kind : Kind) (more : List Char), before ++ d :: more ∉ kind.pattern)
    (rest : List Char) : Leads (before ++ d :: rest) piece := by
  refine (h.within within).transfer (within.trans (List.prefix_append _ _)) ?_
  rintro kind chars member ⟨later, htext⟩
  rcases List.append_eq_append_iff.mp htext with ⟨more, rfl, _⟩ | ⟨more, rfl, hmore⟩
  · exact List.prefix_append _ _
  · cases more with
    | nil => simp
    | cons e more =>
        cases hmore
        exact absurd member (unmatched kind more)

/-- A text that is in a pattern is led by itself, and by nothing longer if the pattern
    does not go on with what is behind it. -/
theorem leads_of_mem_pattern {kind : Kind} {chars : List Char} (member : chars ∈ kind.pattern) :
    Leads chars ⟨kind, chars⟩ :=
  .longest (List.prefix_refl _) member fun _ _ _ begins => begins.length_le

theorem leads_of_continues {kind : Kind} {chars : List Char} {d : Char}
    (member : chars ∈ kind.pattern) (ends : kind.continues d = false) (rest : List Char) :
    Leads (chars ++ d :: rest) ⟨kind, chars⟩ := by
  -- Alone, the characters are their own longest match; what follows must only not prolong it.
  have hwhole : Leads (chars ++ []) ⟨kind, chars⟩ := by
    rw [List.append_nil]
    exact leads_of_mem_pattern member
  refine hwhole.follow (List.prefix_refl _) (fun other more longer => ?_) rest
  cases chars with
  | nil => exact nil_notMem_pattern kind member
  | cons c cs =>
      have hbegins := List.prefix_append (c :: cs) (d :: more)
      have hkind := (prefix_first_of_mem_pattern member hbegins).1
      have hother := (prefix_first_of_mem_pattern longer (List.prefix_refl _)).1
      have hcontinues := continues_of_mem_pattern longer d (by simp)
      -- A longer match has the kind of this one, which `d` ends.
      rw [← hother, hkind, ends] at hcontinues
      contradiction

theorem Leads.kind_of_isBlank {c : Char} (h : Leads (c :: rest) piece) (blank : isBlank c = true) :
    piece.kind = .blank := by
  rw [leads_iff.mp h]
  simp [first, extent, blank]

theorem Leads.kind_of_semicolon (h : Leads (';' :: rest) piece) : piece.kind = .comment := by
  rw [leads_iff.mp h]
  rfl

/-- The characters that only blanks and comments go on with. -/
def Separates (d : Char) : Prop :=
  ∀ kind : Kind, kind.continues d = true → kind = .blank ∨ kind = .comment

theorem separates_of_isBlank {d : Char} (blank : isBlank d = true) : Separates d := by
  simp only [isBlank, Bool.or_eq_true, decide_eq_true_eq] at blank
  rcases blank with rfl | rfl <;> intro kind <;> cases kind <;> decide

theorem separates_semicolon : Separates ';' := by
  intro kind
  cases kind <;> decide

theorem separates_return : Separates '\r' := by
  intro kind
  cases kind <;> decide

/-- Any other piece stays the first of a text when such a character comes behind it. -/
theorem Leads.follow_of_separates {d : Char} (separates : Separates d)
    (h : Leads (before ++ behind) piece) (within : piece.chars <+: before)
    (other : piece.kind ≠ .blank ∧ piece.kind ≠ .comment) (rest : List Char) :
    Leads (before ++ d :: rest) piece := by
  refine h.follow within (fun kind more member => ?_) rest
  cases before with
  | nil => exact h.chars_ne_nil (List.prefix_nil.mp within)
  | cons c cs =>
      have hcontinues := continues_of_mem_pattern member d (by simp)
      rcases separates kind hcontinues with rfl | rfl
      · exact other.1 (h.kind_of_isBlank (cons_mem_blank_iff.mp member).1)
      · cases (cons_mem_comment_iff.mp member).1
        exact other.2 h.kind_of_semicolon

/-- A piece is in the pattern of its kind, if the kind has one. -/
theorem Leads.mem_pattern (h : Leads before piece) (other : piece.kind ≠ .stray) :
    piece.chars ∈ piece.kind.pattern := by
  cases h with
  | longest _ member => exact member
  | stray => exact absurd rfl other

theorem Leads.forall_isBlank (h : Leads before piece) (blank : piece.kind = .blank) :
    ∀ c ∈ piece.chars, isBlank c = true := by
  have hmember := h.mem_pattern (by simp [blank])
  rw [blank] at hmember
  cases hchars : piece.chars with
  | nil => exact List.forall_mem_nil _
  | cons c cs =>
      rw [hchars] at hmember
      exact List.forall_mem_cons.mpr (cons_mem_blank_iff.mp hmember)

/-- A line end is in no piece but its own. -/
theorem Leads.eq_of_newline_mem (h : Leads before piece) (newline : '\n' ∈ piece.chars) :
    piece = ⟨.newline, ['\n']⟩ ∨ piece = ⟨.newline, ['\r', '\n']⟩ := by
  cases h with
  | @longest kind chars _ member =>
      cases chars with
      | nil => contradiction
      | cons c cs =>
          -- Newlines are the only pattern with a line feed in it.
          cases eq_newline_of_mem_pattern member newline
          rcases cons_mem_newline_iff.mp member with ⟨rfl, rfl⟩ | ⟨rfl, rfl⟩
          · exact Or.inl rfl
          · exact Or.inr rfl
  | stray text unmatched =>
      cases List.mem_singleton.mp newline
      subst text
      -- A line feed is a match of its own, so it never strays.
      have hmember : ['\n'] ∈ Kind.newline.pattern := cons_mem_newline_iff.mpr (Or.inl ⟨rfl, rfl⟩)
      exact absurd ⟨_, rfl⟩ (unmatched .newline ['\n'] hmember)

/-- A carriage return is in comments and line ends, or begins nothing. -/
theorem Leads.kind_of_return_mem (h : Leads before piece) (returned : '\r' ∈ piece.chars) :
    piece.kind = .comment ∨ piece.kind = .newline ∨ piece.kind = .stray := by
  cases h with
  | @longest kind chars _ member =>
      cases chars with
      | nil => contradiction
      | cons c cs =>
          -- In front a carriage return is a newline or stray, and inside only comments have one.
          rcases List.mem_cons.mp returned with rfl | later
          · rcases extent_of_mem_pattern member [] with ⟨n, hextent, _⟩
            have hreturn : extent '\r' (cs ++ []) =
                if (cs ++ []).head? = some '\n' then (.newline, 1) else (.stray, 0) := rfl
            rw [hreturn] at hextent
            split at hextent <;> cases hextent
            · exact Or.inr (Or.inl rfl)
            · exact Or.inr (Or.inr rfl)
          · rcases separates_return kind (continues_of_mem_pattern member _ later) with rfl | rfl
            · exact absurd ((cons_mem_blank_iff.mp member).2 _ later) (by decide)
            · exact Or.inl rfl
  | stray => exact Or.inr (Or.inr rfl)

theorem Leads.newline_mem (h : Leads before piece) (newline : piece.kind = .newline) :
    '\n' ∈ piece.chars := by
  have hmember := h.mem_pattern (by simp [newline])
  rw [newline] at hmember
  cases hchars : piece.chars with
  | nil => exact absurd hchars h.chars_ne_nil
  | cons c cs =>
      rw [hchars] at hmember
      rcases cons_mem_newline_iff.mp hmember with ⟨rfl, rfl⟩ | ⟨rfl, rfl⟩ <;> simp

/-- A comment is all that is there up to a line end. -/
theorem Leads.comment_cases (h : Leads (piece.chars ++ rest) piece)
    (comment : piece.kind = .comment) : (∃ cs, piece.chars = ';' :: cs ∧ '\n' ∉ cs) ∧
      (rest = [] ∨ ∃ later, rest = '\n' :: later) := by
  have hmember := h.mem_pattern (by simp [comment])
  rw [comment] at hmember
  cases hchars : piece.chars with
  | nil => exact absurd hchars h.chars_ne_nil
  | cons c cs =>
      rw [hchars] at hmember
      rcases cons_mem_comment_iff.mp hmember with ⟨rfl, unended⟩
      refine ⟨⟨cs, rfl, unended⟩, ?_⟩
      cases rest with
      | nil => exact Or.inl rfl
      | cons d later =>
          refine Or.inr ⟨later, ?_⟩
          by_contra hne
          -- With the next character it would still be a comment, and a longer one.
          have hlonger : ';' :: (cs ++ [d]) ∈ Kind.comment.pattern := by
            refine cons_mem_comment_iff.mpr ⟨rfl, ?_⟩
            rw [List.mem_append, List.mem_singleton, not_or]
            exact ⟨unended, fun hd => hne (by rw [hd])⟩
          cases h with
          | longest _ _ longest =>
              cases hchars
              have hle := longest .comment _ hlonger ⟨later, by simp⟩
              simp only [List.length_cons, List.length_append, List.length_nil] at hle
              omega
          | stray => contradiction

/-! ## Cutting -/

/-- The first piece is cut off. -/
theorem cut_of_leads (h : Leads (piece.chars ++ rest) piece) :
    cut (piece.chars ++ rest) = piece :: cut rest := by
  cases htext : piece.chars ++ rest with
  | nil => exact absurd (List.append_eq_nil_iff.mp htext).1 h.chars_ne_nil
  | cons c cs =>
      rw [htext] at h
      have hfirst := leads_iff.mp h
      have happend := chars_first_append c cs
      rw [← hfirst, ← htext] at happend
      rw [cut, ← hfirst, List.append_cancel_left happend]

/-- A text is cut by cutting off its first piece, as long as there is one. -/
@[elab_as_elim]
theorem cut_induction {motive : List Char → Prop} (nil : motive [])
    (append : ∀ (piece : Piece) (rest : List Char), Leads (piece.chars ++ rest) piece →
      motive rest → motive (piece.chars ++ rest)) (cs : List Char) : motive cs := by
  induction cs using cut.induct with
  | case1 => exact nil
  | case2 c cs ih =>
      have happend := append (first c cs) (behindFirst c cs)
      rw [chars_first_append] at happend
      exact happend (leads_iff.mpr rfl) ih

/-- The pieces of a text stand one behind the other, and each is the longest of what is
    left there. -/
theorem leads_of_cut_eq {cs : List Char} {front back : List Piece}
    (h : cut cs = front ++ piece :: back) :
    Leads (piece.chars ++ back.flatMap Piece.chars) piece := by
  induction cs using cut_induction generalizing front with
  | nil => simp [cut] at h
  | append p rest leads ih =>
      rw [cut_of_leads leads] at h
      cases front with
      | nil =>
          cases h
          rw [flatMap_chars_cut]
          exact leads
      | cons q front => exact ih (List.cons.inj h).2

/-- The text of a piece is that piece again, by itself. -/
theorem cut_chars (h : Leads before piece) : cut piece.chars = [piece] := by
  have halone : Leads (piece.chars ++ []) piece := by
    refine h.transfer (List.prefix_append _ _) fun kind chars _ begins => ?_
    rw [List.append_nil] at begins
    exact begins.trans h.begins
  have hcut := cut_of_leads halone
  rw [List.append_nil, cut] at hcut
  exact hcut

/-- A text that is in a pattern is one piece. -/
theorem cut_of_mem_pattern {kind : Kind} {chars : List Char} (member : chars ∈ kind.pattern) :
    cut chars = [⟨kind, chars⟩] := cut_chars (leads_of_mem_pattern member)

end Leads

end Piece

end Transport
