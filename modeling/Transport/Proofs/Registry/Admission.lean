import Transport.Registry

/-!
# What a Registry Takes Up

A declaration is taken up exactly if its id is free and each of its ports gets
along with the ports before it: with those of its own module over places, and
with all that are known over names. Only ports that serve a common direction can
be in each other's way. Registration looks at one port after the other and at
one direction after the other; here the same is said of the declaration as a
whole, so that no later proof follows the checks again.

Declarations are offered to a registry one after the other. One that is refused
leaves the registry as it was.

## Main definitions

* `Port.Apart`: Two ports of a module that are at different places.
* `Port.Unlike`: Two ports that share no label.
* `Registry.Admits`: What a registry asks of a declaration.
* `Registry.offer`, `Registry.offerAll`: The registry after declarations, each of
  them taken up or refused.

## Theorems

* `checkPorts_eq_ok_iff`: When the ports of a declaration pass.
* `register_eq_ok_iff`: When a declaration is taken up, and with what result.
* `offerAll_induction`: What holds at first and is kept by registration holds of
  all registries that come of offers.
-/

namespace Transport

theorem Direction.forall_iff {P : Direction → Prop} : (∀ d, P d) ↔ P .read ∧ P .write := by
  refine ⟨fun h => ⟨h .read, h .write⟩, fun h d => ?_⟩
  cases d with
  | read => exact h.1
  | write => exact h.2

namespace Port

/-- The ports are at different places, as far as they serve a common direction. -/
def Apart (p q : Port) : Prop :=
  ∀ direction, p.allows direction = true → q.allows direction = true → p.position ≠ q.position

/-- The ports share no label, as far as they serve a common direction. -/
def Unlike (p q : Port) : Prop :=
  ∀ direction, p.allows direction = true → q.allows direction = true →
    ∀ label ∈ p.labels, label ∉ q.labels

/-- The offset of a port, if it has one, fits in 24 bits. -/
def OffsetFits (p : Port) : Prop := ∀ offset, p.position = .fixed offset → offset ≤ offsetMask

/-- The cell of a port, if it has one, is among the cells of its module. -/
def CellFits (cells : UInt16) (p : Port) : Prop := ∀ cell, p.accessor = .cell cell → cell < cells

theorem exists_allows (p : Port) : ∃ direction, p.allows direction = true := by
  unfold allows
  cases p.capability with
  | read => exact ⟨.read, rfl⟩
  | write => exact ⟨.write, rfl⟩
  | readWrite => exact ⟨.read, rfl⟩

end Port

namespace Registry

/-! ## The checks of one port -/

theorem answersTo_iff {p : Port} {name : String} {direction : Direction} :
    answersTo p name direction = true ↔ p.allows direction = true ∧ name ∈ p.labels := by
  simp only [answersTo, Bool.and_eq_true, List.contains_iff_mem]

theorem firstTaken?_eq_none_iff {labels : List String} :
    ∀ {taken : String → Bool}, firstTaken? taken labels = none ↔
      labels.Nodup ∧ ∀ label ∈ labels, taken label = false := by
  induction labels with
  | nil => intro taken; simp [firstTaken?]
  | cons label labels ih =>
      intro taken
      rw [firstTaken?]
      by_cases free : taken label = true
      · simp [free]
      · -- Behind the label everything is taken that was, and the label itself.
        rw [if_neg free, ih]
        simp only [Bool.or_eq_false_iff, decide_eq_false_iff_not, List.nodup_cons, List.mem_cons,
          forall_eq_or_imp, Bool.not_eq_true] at free ⊢
        constructor
        · rintro ⟨nodup, others⟩
          exact ⟨⟨fun member => (others label member).2 rfl, nodup⟩, free,
            fun other member => (others other member).1⟩
        · rintro ⟨⟨new, nodup⟩, _, others⟩
          refine ⟨nodup, fun other member => ⟨others other member, ?_⟩⟩
          rintro rfl
          exact new member

theorem checkOffset_eq_ok_iff {p : Port} : checkOffset p = .ok () ↔ p.OffsetFits := by
  unfold checkOffset Port.OffsetFits
  cases p.position with
  | fixed offset =>
      by_cases wide : offsetMask < offset
      · simp [wide, UInt32.not_le]
      · simp [wide, UInt32.not_lt.mp wide]
  | fallback => simp

theorem checkCell_eq_ok_iff {cells : UInt16} {p : Port} :
    checkCell cells p = .ok () ↔ p.CellFits cells := by
  unfold checkCell Port.CellFits
  cases p.accessor with
  | cell cell =>
      by_cases beyond : cells ≤ cell
      · simp [beyond, UInt16.not_lt]
      · simp [beyond, UInt16.not_le.mp beyond]
  | handler key => simp

theorem checkPlace_eq_ok_iff {earlier : List Port} {p : Port} {direction : Direction} :
    checkPlace earlier p direction = .ok () ↔
      ∀ q ∈ earlier, q.allows direction = true → q.position ≠ p.position := by
  unfold checkPlace
  cases hfound : earlier.find? fun q => q.allows direction && q.position = p.position with
  | none =>
      rw [List.find?_eq_none] at hfound
      simpa using hfound
  | some q =>
      -- Whichever of the two errors it is, it names a port at the same place.
      have hsame := List.find?_some hfound
      have hmember := List.mem_of_find?_eq_some hfound
      simp only [Bool.and_eq_true, decide_eq_true_eq] at hsame
      constructor
      · intro passed
        cases haddress : p.address? <;> simp [haddress] at passed
      · intro apart
        exact absurd hsame.2 (apart q hmember hsame.1)

theorem checkLabels_eq_ok_iff {known : List Port} {p : Port} {direction : Direction} :
    checkLabels known p direction = .ok () ↔ p.labels.Nodup ∧
      ∀ q ∈ known, q.allows direction = true → ∀ label ∈ q.labels, label ∉ p.labels := by
  have hfree : firstTaken? (fun label => known.any fun q => answersTo q label direction) p.labels =
      none ↔ p.labels.Nodup ∧
        ∀ q ∈ known, q.allows direction = true → ∀ label ∈ q.labels, label ∉ p.labels := by
    rw [firstTaken?_eq_none_iff]
    simp only [List.any_eq_false, answersTo_iff, not_and]
    exact and_congr_right fun _ =>
      ⟨fun h q member serves label shared own => h label own q member serves shared,
        fun h label own q member serves shared => h q member serves label shared own⟩
  unfold checkLabels
  rw [← hfree]
  cases firstTaken? (fun label => known.any fun q => answersTo q label direction) p.labels <;> simp

theorem checkDirection_eq_ok_iff {known earlier : List Port} {p : Port} {direction : Direction} :
    checkDirection known earlier p direction = .ok () ↔ (p.allows direction = true →
      checkPlace earlier p direction = .ok () ∧ checkLabels (known ++ earlier) p direction = .ok ())
    := by
  unfold checkDirection
  by_cases serves : p.allows direction = true
  · rw [if_pos serves]
    cases checkPlace earlier p direction <;> simp [serves, bind, Except.bind]
  · simp [serves]

/-- A port passes if it is sound by itself, at no place of an earlier port of its
    module, and under no label of a known one. -/
theorem checkPort_eq_ok_iff {cells : UInt16} {known earlier : List Port} {p : Port} :
    checkPort cells known earlier p = .ok () ↔
      (p.OffsetFits ∧ p.CellFits cells ∧ p.labels.Nodup) ∧ (∀ q ∈ earlier, q.Apart p) ∧
        ∀ q ∈ known ++ earlier, q.Unlike p := by
  -- Each check by itself; the two directions are checked in turn, but independently.
  have hsteps : checkPort cells known earlier p = .ok () ↔ checkOffset p = .ok () ∧
      checkCell cells p = .ok () ∧ ∀ direction, checkDirection known earlier p direction = .ok () := by
    unfold checkPort
    rw [Direction.forall_iff]
    cases checkOffset p <;> cases checkCell cells p <;>
      cases checkDirection known earlier p .read <;> simp [bind, Except.bind]
  rw [hsteps, checkOffset_eq_ok_iff, checkCell_eq_ok_iff]
  simp only [checkDirection_eq_ok_iff, checkPlace_eq_ok_iff, checkLabels_eq_ok_iff]
  constructor
  · rintro ⟨offset, cell, serves⟩
    rcases p.exists_allows with ⟨direction, allowed⟩
    exact ⟨⟨offset, cell, (serves direction allowed).2.1⟩,
      fun q member direction hq hp => (serves direction hp).1 q member hq,
      fun q member direction hq hp => (serves direction hp).2.2 q member hq⟩
  · rintro ⟨⟨offset, cell, nodup⟩, apart, unlike⟩
    exact ⟨offset, cell, fun direction hp =>
      ⟨fun q member hq => apart q member direction hq hp, nodup,
        fun q member hq => unlike q member direction hq hp⟩⟩

/-- The ports of a declaration pass if each is sound by itself and all get along,
    with each other and with the ports before them. -/
theorem checkPorts_eq_ok_iff {cells : UInt16} {known ports : List Port} :
    ∀ {earlier : List Port}, checkPorts cells known earlier ports = .ok () ↔
      (∀ p ∈ ports, p.OffsetFits ∧ p.CellFits cells ∧ p.labels.Nodup) ∧
        (∀ p ∈ ports, ∀ q ∈ earlier, q.Apart p) ∧ ports.Pairwise Port.Apart ∧
        (∀ p ∈ ports, ∀ q ∈ known ++ earlier, q.Unlike p) ∧ ports.Pairwise Port.Unlike := by
  induction ports with
  | nil => simp [checkPorts]
  | cons p ports ih =>
      intro earlier
      have hsteps : checkPorts cells known earlier (p :: ports) = .ok () ↔
          checkPort cells known earlier p = .ok () ∧
            checkPorts cells known (earlier ++ [p]) ports = .ok () := by
        rw [checkPorts]
        cases checkPort cells known earlier p <;> simp [bind, Except.bind]
      rw [hsteps, ih, checkPort_eq_ok_iff]
      -- To the ports behind it, the first port is one of the earlier ones.
      simp only [List.mem_append, List.mem_singleton, List.pairwise_cons, List.forall_mem_cons,
        or_imp, forall_and, forall_eq]
      constructor
      · rintro ⟨⟨⟨h₁, h₂, h₃⟩, h₄, h₅, h₆⟩, ⟨k₁, k₂, k₃⟩, ⟨k₄, h₇⟩, k₇, ⟨k₅, k₆, h₈⟩, k₈⟩
        exact ⟨⟨⟨h₁, k₁⟩, ⟨h₂, k₂⟩, h₃, k₃⟩, ⟨h₄, k₄⟩, ⟨h₇, k₇⟩, ⟨⟨h₅, k₅⟩, h₆, k₆⟩, h₈, k₈⟩
      · rintro ⟨⟨⟨h₁, k₁⟩, ⟨h₂, k₂⟩, h₃, k₃⟩, ⟨h₄, k₄⟩, ⟨h₇, k₇⟩, ⟨⟨h₅, k₅⟩, h₆, k₆⟩, h₈, k₈⟩
        exact ⟨⟨⟨h₁, h₂, h₃⟩, h₄, h₅, h₆⟩, ⟨k₁, k₂, k₃⟩, ⟨k₄, h₇⟩, k₇, ⟨k₅, k₆, h₈⟩, k₈⟩

/-- What a registry asks of a declaration: a free id, and ports that are sound by
    themselves and get along with each other and, over labels, with all others. -/
structure Admits (r : Registry) (decl : ModuleDecl) : Prop where
  unreserved : decl.id ≠ literalTag
  free : ∀ m ∈ r.modules, m.decl.id ≠ decl.id
  sound : ∀ p ∈ decl.ports.map decl.port, p.OffsetFits ∧ p.CellFits decl.cells ∧ p.labels.Nodup
  apart : (decl.ports.map decl.port).Pairwise Port.Apart
  unlike : (decl.ports.map decl.port).Pairwise Port.Unlike
  known : ∀ p ∈ decl.ports.map decl.port, ∀ q ∈ r.ports, q.Unlike p

theorem checkId_eq_ok_iff {r : Registry} {id : UInt8} :
    r.checkId id = .ok () ↔ id ≠ literalTag ∧ ∀ m ∈ r.modules, m.decl.id ≠ id := by
  unfold checkId module?
  by_cases reserved : id = literalTag
  · simp [reserved]
  · cases hfound : r.modules.find? fun m => m.decl.id = id with
    | none =>
        rw [List.find?_eq_none] at hfound
        simpa [reserved] using hfound
    | some m =>
        -- The module found has this very id.
        have hid := List.find?_some hfound
        have hmember := List.mem_of_find?_eq_some hfound
        simpa [reserved] using ⟨m, hmember, of_decide_eq_true hid⟩

/-- A declaration is taken up if the registry admits it. Its module comes behind
    the others, with its ports under their full names. -/
theorem register_eq_ok_iff {r r' : Registry} {decl : ModuleDecl} :
    r.register decl = .ok r' ↔
      r.Admits decl ∧ r' = ⟨r.modules ++ [⟨decl, decl.ports.map decl.port⟩]⟩ := by
  have hsteps : r.register decl = .ok r' ↔ (r.checkId decl.id = .ok () ∧
      checkPorts decl.cells r.ports [] (decl.ports.map decl.port) = .ok ()) ∧
        r' = ⟨r.modules ++ [⟨decl, decl.ports.map decl.port⟩]⟩ := by
    unfold register
    dsimp only
    cases r.checkId decl.id <;>
      cases checkPorts decl.cells r.ports [] (decl.ports.map decl.port) <;>
        simp [bind, Except.bind, pure, Except.pure, eq_comm]
  rw [hsteps, checkId_eq_ok_iff, checkPorts_eq_ok_iff]
  refine and_congr_left fun _ => ⟨?_, ?_⟩
  · rintro ⟨⟨unreserved, free⟩, sound, _, apart, known, unlike⟩
    exact ⟨unreserved, free, sound, apart, unlike, by simpa using known⟩
  · intro h
    exact ⟨⟨h.unreserved, h.free⟩, h.sound, by simp, h.apart, by simpa using h.known, h.unlike⟩

/-! ## Offers -/

/-- The registry after a declaration was offered: with its module, or as it was. -/
def offer (r : Registry) (decl : ModuleDecl) : Registry := (r.register decl).toOption.getD r

/-- The registry after declarations were offered, one after the other. -/
def offerAll (r : Registry) (decls : List ModuleDecl) : Registry := decls.foldl offer r

theorem offer_cases (r : Registry) (decl : ModuleDecl) :
    r.offer decl = r ∨ r.Admits decl ∧
      r.offer decl = ⟨r.modules ++ [⟨decl, decl.ports.map decl.port⟩]⟩ := by
  unfold offer
  cases hregister : r.register decl with
  | error rejection => exact Or.inl rfl
  | ok r' =>
      rcases register_eq_ok_iff.mp hregister with ⟨admits, rfl⟩
      exact Or.inr ⟨admits, rfl⟩

/-- What holds of a registry and is kept when a declaration is taken up holds after
    any offers. -/
theorem offerAll_induction {P : Registry → Prop}
    (kept : ∀ r decl, P r → r.Admits decl →
      P ⟨r.modules ++ [⟨decl, decl.ports.map decl.port⟩]⟩) (decls : List ModuleDecl) :
    ∀ r, P r → P (r.offerAll decls) := by
  -- Induction on the declarations; one that is refused leaves the registry as it is.
  induction decls with
  | nil => exact fun _ h => h
  | cons decl decls ih =>
      intro r h
      refine ih _ ?_
      rcases r.offer_cases decl with same | ⟨admits, taken⟩
      · rw [same]
        exact h
      · rw [taken]
        exact kept r decl h admits

end Registry

end Transport
