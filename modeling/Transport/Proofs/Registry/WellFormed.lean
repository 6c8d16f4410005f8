import Mathlib.Data.List.Nodup
import Transport.Proofs.Registry.Lookup

/-!
# Well-Formed Declarations

Which declarations a registry takes up, and why it refuses the others, said of a
declaration as a whole. Registration goes from port to port and from direction to
direction, with the ports before it in hand. What it comes to is about lists: in each
direction, the offsets and the labels of all ports that serve it have no repetition,
and there is one fallback at most.

A declaration that is refused is refused for its first offence, and there is only one
such. The relation that says which one does not run any check: it names the port that
is in the way.

## Main definitions

* `Registry.Orderly`: What is asked of the ports of a declaration.
* `Registry.WellFormed`: What is asked of a declaration.
* `Registry.Clash`, `Registry.Offends`: The first thing that is wrong with a port.
* `Registry.Refuses`: Why a registry refuses a declaration.

## Theorems

* `checkPorts_eq_ok_iff_orderly`, `checkPorts_eq_error_iff`: When the ports of a
  declaration pass, and which of them fails.
* `admits_iff_wellFormed`, `register_eq_error_iff`: When a declaration is taken up, and
  for what it is refused.
* `registration_is_exact_and_atomic`: Both, and what stays as it was.
-/

namespace Transport

namespace Port

/-- The offset that a port is fixed at. -/
def offset? (p : Port) : Option Word :=
  match p.position with
  | .fixed offset => some offset
  | .fallback => none

end Port

namespace Registry

/-- The ports that serve a direction. -/
def serving (direction : Direction) (ports : List Port) : List Port :=
  ports.filter fun p => p.allows direction

/-- The names and aliases that ports have in a direction. -/
def labelsIn (direction : Direction) (ports : List Port) : List String :=
  (serving direction ports).flatMap Port.labels

theorem mem_serving {direction : Direction} {ports : List Port} {p : Port} :
    p ∈ serving direction ports ↔ p ∈ ports ∧ p.allows direction = true := List.mem_filter

theorem mem_labelsIn {direction : Direction} {ports : List Port} {label : String} :
    label ∈ labelsIn direction ports ↔
      ∃ p ∈ ports, p.allows direction = true ∧ label ∈ p.labels := by
  simp only [labelsIn, List.mem_flatMap, mem_serving, and_assoc]

/-- What is asked of ports that are declared together, next to those known before:
    offsets and cells that exist, and in each direction different offsets, one fallback
    at most, and labels that are new and different. -/
structure Orderly (cells : UInt16) (known ports : List Port) : Prop where
  offsets : ∀ p ∈ ports, p.OffsetFits
  cells : ∀ p ∈ ports, p.CellFits cells
  places : ∀ direction, ((serving direction ports).filterMap Port.offset?).Nodup
  fallbacks : ∀ direction, (serving direction ports).countP Port.isFallback ≤ 1
  names : ∀ direction, (labelsIn direction ports).Nodup
  fresh : ∀ direction, ∀ label ∈ labelsIn direction ports, label ∉ labelsIn direction known

theorem pairwise_forall_iff {α ι : Type} {R : ι → α → α → Prop} {l : List α} :
    l.Pairwise (fun a b => ∀ i, R i a b) ↔ ∀ i, l.Pairwise (R i) := by
  simp only [List.pairwise_iff_getElem]
  exact ⟨fun h i j k hj hk hjk => h j k hj hk hjk i, fun h j k hj hk hjk i => h i j k hj hk hjk⟩

/-- At most one passes a test if no two do. -/
theorem countP_le_one_iff {α : Type} {test : α → Bool} {l : List α} :
    l.countP test ≤ 1 ↔ l.Pairwise fun a b => ¬ (test a = true ∧ test b = true) := by
  induction l with
  | nil => simp
  | cons a l ih =>
      rw [List.pairwise_cons, List.countP_cons, ← ih]
      -- An element that passes is the only one, so that none may pass behind it.
      by_cases passes : test a = true
      · rw [if_pos passes, Nat.succ_le_succ_iff, Nat.le_zero, List.countP_eq_zero]
        simp only [passes, true_and]
        refine ⟨fun h => ⟨h, ?_⟩, fun h => h.1⟩
        rw [List.countP_eq_zero.mpr h]
        exact Nat.zero_le 1
      · simp [passes]

/-- Ports are apart if in no direction an offset stands twice or there are two
    fallbacks. -/
theorem pairwise_apart_iff {ports : List Port} :
    ports.Pairwise Port.Apart ↔ (∀ direction,
      ((serving direction ports).filterMap Port.offset?).Nodup) ∧
        ∀ direction, (serving direction ports).countP Port.isFallback ≤ 1 := by
  simp only [countP_le_one_iff, List.Nodup, List.pairwise_filterMap, serving, List.pairwise_filter,
    ← pairwise_forall_iff, ← List.pairwise_and_iff]
  refine List.Pairwise.iff fun p q => ?_
  -- Two places are equal if they are one offset or both the fallback.
  have hsame : p.position = q.position ↔ (∃ offset, p.offset? = some offset ∧
      q.offset? = some offset) ∨ p.isFallback = true ∧ q.isFallback = true := by
    unfold Port.offset? Port.isFallback
    cases p.position <;> cases q.position <;> simp [eq_comm]
  constructor
  · intro apart
    refine ⟨fun direction hp hq offset hoffset offset' hoffset' equal => ?_,
      fun direction hp hq both => apart direction hp hq (hsame.mpr (Or.inr both))⟩
    rw [equal] at hoffset
    exact apart direction hp hq (hsame.mpr (Or.inl ⟨offset', hoffset, hoffset'⟩))
  · rintro ⟨offsets, fallbacks⟩ direction hp hq same
    rcases hsame.mp same with ⟨offset, hoffset, hoffset'⟩ | both
    · exact offsets direction hp hq offset hoffset offset hoffset' rfl
    · exact fallbacks direction hp hq both

/-- Ports share no label if in no direction a label stands twice. -/
theorem pairwise_unlike_iff {ports : List Port} :
    ((∀ p ∈ ports, p.labels.Nodup) ∧ ports.Pairwise Port.Unlike) ↔
      ∀ direction, (labelsIn direction ports).Nodup := by
  simp only [labelsIn, List.nodup_flatMap, forall_and, mem_serving]
  simp only [serving, List.pairwise_filter, ← pairwise_forall_iff]
  refine and_congr ⟨fun nodup _ p member => nodup p member.1, fun nodup p member => ?_⟩
    (List.Pairwise.iff fun p q => ?_)
  · -- Every port serves some direction.
    rcases p.exists_allows with ⟨direction, serves⟩
    exact nodup direction p ⟨member, serves⟩
  · exact ⟨fun unlike direction hp hq label own other => unlike direction hp hq label own other,
      fun disjoint direction hp hq label own other => disjoint direction hp hq own other⟩

/-- The ports of a declaration pass if they are orderly. -/
theorem checkPorts_eq_ok_iff_orderly {cells : UInt16} {known ports : List Port} :
    checkPorts cells known [] ports = .ok () ↔ Orderly cells known ports := by
  rw [checkPorts_eq_ok_iff]
  constructor
  · -- Sound ports, places apart and names unlike, each regrouped by direction.
    rintro ⟨sound, _, apart, unlike, pairwise⟩
    rw [pairwise_apart_iff] at apart
    exact ⟨fun p hp => (sound p hp).1, fun p hp => (sound p hp).2.1, apart.1, apart.2,
      pairwise_unlike_iff.mp ⟨fun p hp => (sound p hp).2.2, pairwise⟩,
      fun direction label hlabel hknown => by
        rcases mem_labelsIn.mp hlabel with ⟨p, hp, serves, own⟩
        rcases mem_labelsIn.mp hknown with ⟨q, hq, servesq, other⟩
        exact unlike p hp q (List.mem_append_left _ hq) direction servesq serves label other own⟩
  · intro h
    have hnames := pairwise_unlike_iff.mpr h.names
    refine ⟨fun p hp => ⟨h.offsets p hp, h.cells p hp, hnames.1 p hp⟩, by simp,
      pairwise_apart_iff.mpr ⟨h.places, h.fallbacks⟩, fun p hp q hq => ?_, hnames.2⟩
    intro direction servesq serves label other own
    rw [List.append_nil] at hq
    exact h.fresh direction label (mem_labelsIn.mpr ⟨p, hp, serves, own⟩)
      (mem_labelsIn.mpr ⟨q, hq, servesq, other⟩)

/-! ## The first offence -/

/-- What is wrong with a port in a direction that it serves, next to the ports known
    before its declaration and those declared before it: its place is taken, or else
    one of its labels, of which the first counts. -/
inductive Clash (known earlier : List Port) (p : Port) (direction : Direction) :
    Rejection → Prop where
  | address {q : Port} {offset : Word} (member : q ∈ serving direction earlier)
      (there : q.position = .fixed offset) (here : p.position = .fixed offset) :
      Clash known earlier p direction
        (.duplicateAddress (.of p.owner offset) direction q.name p.name)
  | fallback {q : Port} (member : q ∈ serving direction earlier)
      (there : q.position = .fallback) (here : p.position = .fallback) :
      Clash known earlier p direction (.duplicateFallback p.owner direction)
  | label {before after : List String} {label : String}
      (apart : ∀ q ∈ serving direction earlier, q.position ≠ p.position)
      (split : p.labels = before ++ label :: after) (nodup : before.Nodup)
      (free : ∀ other ∈ before, other ∉ labelsIn direction (known ++ earlier))
      (taken : label ∈ before ∨ label ∈ labelsIn direction (known ++ earlier)) :
      Clash known earlier p direction (.duplicateName label direction)

/-- The first thing that is wrong with a port. -/
inductive Offends (cells : UInt16) (known earlier : List Port) (p : Port) : Rejection → Prop where
  | offset {offset : Word} (here : p.position = .fixed offset) (wide : offsetMask < offset) :
      Offends cells known earlier p (.offsetOutOfRange p.name offset)
  | cell {cell : UInt16} (fits : p.OffsetFits) (here : p.accessor = .cell cell)
      (beyond : cells ≤ cell) : Offends cells known earlier p (.cellOutOfRange p.name cell cells)
  | reading {rejection : Rejection} (fits : p.OffsetFits) (cell : p.CellFits cells)
      (serves : p.allows .read = true) (clash : Clash known earlier p .read rejection) :
      Offends cells known earlier p rejection
  | writing {rejection : Rejection} (fits : p.OffsetFits) (cell : p.CellFits cells)
      (unread : p.allows .read = true → ∀ other, ¬ Clash known earlier p .read other)
      (serves : p.allows .write = true) (clash : Clash known earlier p .write rejection) :
      Offends cells known earlier p rejection

-- The induction is over all ways to be taken, since a label counts as taken behind itself.
theorem firstTaken?_eq_some_iff {label : String} {labels : List String} :
    ∀ {taken : String → Bool}, firstTaken? taken labels = some label ↔
      ∃ before after, labels = before ++ label :: after ∧ before.Nodup ∧
        (∀ other ∈ before, taken other = false) ∧ (label ∈ before ∨ taken label = true) := by
  induction labels with
  | nil => intro taken; simp [firstTaken?]
  | cons head labels ih =>
      intro taken
      rw [firstTaken?]
      by_cases free : taken head = true
      · rw [if_pos free, Option.some.injEq]
        constructor
        · rintro rfl
          exact ⟨[], labels, rfl, List.nodup_nil, by simp, Or.inr free⟩
        · rintro ⟨_ | ⟨other, before⟩, after, hsplit, _, hfree, _⟩
          · exact (List.cons.inj hsplit).1
          · rw [(List.cons.inj hsplit).1] at free
            rw [hfree other List.mem_cons_self] at free
            contradiction
      · rw [if_neg free, ih]
        rw [Bool.not_eq_true] at free
        simp only [Bool.or_eq_false_iff, Bool.or_eq_true, decide_eq_false_iff_not,
          decide_eq_true_eq]
        -- The rest of the labels is searched with the head counted as taken. A label that is
        -- taken there is so before the declaration, or it repeats the head.
        constructor
        · rintro ⟨before, after, rfl, nodup, hfree, htaken⟩
          refine ⟨head :: before, after, rfl, List.nodup_cons.mpr ⟨fun own => ?_, nodup⟩, ?_, ?_⟩
          · exact (hfree head own).2 rfl
          · exact List.forall_mem_cons.mpr ⟨free, fun other own => (hfree other own).1⟩
          · rcases htaken with own | taken | rfl
            · exact Or.inl (List.mem_cons_of_mem _ own)
            · exact Or.inr taken
            · exact Or.inl List.mem_cons_self
        · rintro ⟨_ | ⟨other, before⟩, after, hsplit, nodup, hfree, htaken⟩
          · rw [(List.cons.inj hsplit).1] at free
            rcases htaken with own | taken
            · exact absurd own List.not_mem_nil
            · rw [free] at taken
              contradiction
          · rcases List.cons.inj hsplit with ⟨rfl, rfl⟩
            rw [List.nodup_cons] at nodup
            refine ⟨before, after, rfl, nodup.2, fun other own => ⟨?_, ?_⟩, ?_⟩
            · exact hfree other (List.mem_cons_of_mem _ own)
            · rintro rfl
              exact nodup.1 own
            · rcases htaken with own | taken
              · rcases List.mem_cons.mp own with rfl | own
                · exact Or.inr (Or.inr rfl)
                · exact Or.inl own
              · exact Or.inr (Or.inl taken)

theorem checkOffset_eq_error_iff {p : Port} {rejection : Rejection} :
    checkOffset p = .error rejection ↔ ∃ offset, p.position = .fixed offset ∧
      offsetMask < offset ∧ rejection = .offsetOutOfRange p.name offset := by
  unfold checkOffset
  cases p.position with
  | fixed offset =>
      by_cases wide : offsetMask < offset <;> simp [wide, eq_comm]
  | fallback => simp

theorem checkCell_eq_error_iff {cells : UInt16} {p : Port} {rejection : Rejection} :
    checkCell cells p = .error rejection ↔ ∃ cell, p.accessor = .cell cell ∧
      cells ≤ cell ∧ rejection = .cellOutOfRange p.name cell cells := by
  unfold checkCell
  cases p.accessor with
  | cell cell =>
      by_cases beyond : cells ≤ cell <;> simp [beyond, eq_comm]
  | handler key => simp

theorem checkPlace_eq_error_iff {earlier : List Port} {p : Port} {direction : Direction}
    (apart : earlier.Pairwise Port.Apart) {rejection : Rejection} :
    checkPlace earlier p direction = .error rejection ↔
      ∃ q ∈ serving direction earlier, q.position = p.position ∧
        ((∃ offset, p.position = .fixed offset ∧
          rejection = .duplicateAddress (.of p.owner offset) direction q.name p.name) ∨
        p.position = .fallback ∧ rejection = .duplicateFallback p.owner direction) := by
  unfold checkPlace
  cases hfound : earlier.find? fun q => q.allows direction && q.position = p.position with
  | none =>
      simp only [reduceCtorEq, false_iff]
      rintro ⟨q, hq, same, _⟩
      rw [mem_serving] at hq
      exact List.find?_eq_none.mp hfound q hq.1 (by simp [hq.2, same])
  | some q =>
      have hmember := List.mem_of_find?_eq_some hfound
      have hsame := List.find?_some hfound
      simp only [Bool.and_eq_true, decide_eq_true_eq] at hsame
      -- The port that the search came to is the only one at this place.
      have honly : ∀ q' ∈ serving direction earlier, q'.position = p.position → q' = q := by
        intro q' hq' same
        rw [mem_serving] at hq'
        exact Port.Apart.eq_of_pairwise apart hq'.1 hmember hq'.2 hsame.1
          (same.trans hsame.2.symm)
      have hplace : (∃ q' ∈ serving direction earlier, q'.position = p.position ∧
          ((∃ offset, p.position = .fixed offset ∧
            rejection = .duplicateAddress (.of p.owner offset) direction q'.name p.name) ∨
          p.position = .fallback ∧ rejection = .duplicateFallback p.owner direction)) ↔
          ((∃ offset, p.position = .fixed offset ∧
            rejection = .duplicateAddress (.of p.owner offset) direction q.name p.name) ∨
          p.position = .fallback ∧ rejection = .duplicateFallback p.owner direction) := by
        constructor
        · rintro ⟨q', hq', same, h⟩
          rw [honly q' hq' same] at h
          exact h
        · exact fun h => ⟨q, mem_serving.mpr ⟨hmember, hsame.1⟩, hsame.2, h⟩
      rw [hplace]
      unfold Port.address?
      cases p.position <;> simp [eq_comm]

theorem checkLabels_eq_error_iff {known : List Port} {p : Port} {direction : Direction}
    {rejection : Rejection} :
    checkLabels known p direction = .error rejection ↔
      ∃ before after label, p.labels = before ++ label :: after ∧ before.Nodup ∧
        (∀ other ∈ before, other ∉ labelsIn direction known) ∧
        (label ∈ before ∨ label ∈ labelsIn direction known) ∧
        rejection = .duplicateName label direction := by
  -- A label is known if some port answers to it, which is a list to look in.
  have htaken : ∀ label, (known.any fun q => answersTo q label direction) = true ↔
      label ∈ labelsIn direction known := by
    intro label
    simp only [List.any_eq_true, answersTo_iff, mem_labelsIn]
  have hfree : ∀ label, (known.any fun q => answersTo q label direction) = false ↔
      label ∉ labelsIn direction known := by
    intro label
    rw [← htaken, Bool.not_eq_true]
  have hfirst : ∀ label,
      firstTaken? (fun label => known.any fun q => answersTo q label direction) p.labels =
        some label ↔ ∃ before after, p.labels = before ++ label :: after ∧ before.Nodup ∧
          (∀ other ∈ before, other ∉ labelsIn direction known) ∧
          (label ∈ before ∨ label ∈ labelsIn direction known) := by
    intro label
    simp only [firstTaken?_eq_some_iff, htaken, hfree]
  unfold checkLabels
  cases hfound : firstTaken? (fun label => known.any fun q => answersTo q label direction)
    p.labels with
  | none =>
      simp only [reduceCtorEq, false_iff]
      rintro ⟨before, after, label, split, nodup, free, taken, _⟩
      rw [(hfirst label).mpr ⟨before, after, split, nodup, free, taken⟩] at hfound
      contradiction
  | some found =>
      simp only [Except.error.injEq]
      constructor
      · rintro rfl
        rcases (hfirst found).mp hfound with ⟨before, after, split, nodup, free, taken⟩
        exact ⟨before, after, found, split, nodup, free, taken, rfl⟩
      · rintro ⟨before, after, label, split, nodup, free, taken, rfl⟩
        rw [(hfirst label).mpr ⟨before, after, split, nodup, free, taken⟩] at hfound
        rw [Option.some.inj hfound]

/-- What is wrong in one direction is the clash, if the earlier ports do not clash with
    each other over places. -/
theorem checkDirection_eq_error_iff {known earlier : List Port} {p : Port} {direction : Direction}
    (apart : earlier.Pairwise Port.Apart) {rejection : Rejection} :
    checkDirection known earlier p direction = .error rejection ↔
      p.allows direction = true ∧ Clash known earlier p direction rejection := by
  -- A direction is checked by the place first, and the labels only when that is free.
  have hsteps : checkDirection known earlier p direction = .error rejection ↔
      p.allows direction = true ∧ (checkPlace earlier p direction = .error rejection ∨
        checkPlace earlier p direction = .ok () ∧
          checkLabels (known ++ earlier) p direction = .error rejection) := by
    unfold checkDirection
    by_cases serves : p.allows direction = true
    · rw [if_pos serves]
      cases checkPlace earlier p direction <;> simp [serves, bind, Except.bind]
    · simp [serves]
  rw [hsteps, checkPlace_eq_error_iff apart, checkPlace_eq_ok_iff, checkLabels_eq_error_iff]
  refine and_congr_right fun _ => ⟨?_, ?_⟩
  · rintro (⟨q, member, same, ⟨offset, here, rfl⟩ | ⟨here, rfl⟩⟩ |
      ⟨apart, before, after, label, split, nodup, free, taken, rfl⟩)
    · exact .address member (same.trans here) here
    · exact .fallback member (same.trans here) here
    · exact .label (fun q hq => apart q (mem_serving.mp hq).1 (mem_serving.mp hq).2)
        split nodup free taken
  · intro clash
    cases clash with
    | address member there here =>
        exact Or.inl ⟨_, member, there.trans here.symm, Or.inl ⟨_, here, rfl⟩⟩
    | fallback member there here =>
        exact Or.inl ⟨_, member, there.trans here.symm, Or.inr ⟨here, rfl⟩⟩
    | label apart split nodup free taken =>
        exact Or.inr ⟨fun q hq serves => apart q (mem_serving.mpr ⟨hq, serves⟩),
          _, _, _, split, nodup, free, taken, rfl⟩

/-- A check fails in no way exactly if it passes. -/
theorem eq_ok_iff_forall_ne_error {ε : Type} {x : Except ε Unit} :
    x = .ok () ↔ ∀ e, x ≠ .error e := by
  cases x <;> simp

theorem checkPort_eq_error_iff {cells : UInt16} {known earlier : List Port} {p : Port}
    (apart : earlier.Pairwise Port.Apart) {rejection : Rejection} :
    checkPort cells known earlier p = .error rejection ↔
      Offends cells known earlier p rejection := by
  have hsteps : checkPort cells known earlier p = .error rejection ↔
      checkOffset p = .error rejection ∨ checkOffset p = .ok () ∧
        (checkCell cells p = .error rejection ∨ checkCell cells p = .ok () ∧
          (checkDirection known earlier p .read = .error rejection ∨
            checkDirection known earlier p .read = .ok () ∧
              checkDirection known earlier p .write = .error rejection)) := by
    unfold checkPort
    cases checkOffset p <;> cases checkCell cells p <;>
      cases checkDirection known earlier p .read <;> simp [bind, Except.bind]
  -- Writing is looked at only if reading passes, which is that it does not clash at all.
  rw [hsteps, checkOffset_eq_error_iff, checkOffset_eq_ok_iff, checkCell_eq_error_iff,
    checkCell_eq_ok_iff, eq_ok_iff_forall_ne_error (x := checkDirection known earlier p .read)]
  simp only [ne_eq, checkDirection_eq_error_iff apart, not_and]
  constructor
  · rintro (⟨offset, here, wide, rfl⟩ | ⟨fits, ⟨cell, here, beyond, rfl⟩ |
      ⟨cell, ⟨serves, clash⟩ | ⟨unread, serves, clash⟩⟩⟩)
    · exact .offset here wide
    · exact .cell fits here beyond
    · exact .reading fits cell serves clash
    · exact .writing fits cell (fun serves other => unread other serves) serves clash
  · intro offends
    cases offends with
    | offset here wide => exact Or.inl ⟨_, here, wide, rfl⟩
    | cell fits here beyond => exact Or.inr ⟨fits, Or.inl ⟨_, here, beyond, rfl⟩⟩
    | reading fits cell serves clash =>
        exact Or.inr ⟨fits, Or.inr ⟨cell, Or.inl ⟨serves, clash⟩⟩⟩
    | writing fits cell unread serves clash =>
        exact Or.inr ⟨fits, Or.inr ⟨cell, Or.inr
          ⟨fun other serves => unread serves other, serves, clash⟩⟩⟩

/-- The ports of a declaration fail with the first of them that does, next to those
    before it, which pass. -/
theorem checkPorts_eq_error_iff {cells : UInt16} {known ports : List Port}
    {rejection : Rejection} :
    ∀ {earlier : List Port}, checkPorts cells known earlier ports = .error rejection ↔
      ∃ passed p later, ports = passed ++ p :: later ∧
        checkPorts cells known earlier passed = .ok () ∧
        checkPort cells known (earlier ++ passed) p = .error rejection := by
  induction ports with
  | nil => intro earlier; simp [checkPorts]
  | cons p ports ih =>
      intro earlier
      rw [checkPorts]
      -- Either the first port is refused, or the refused one is behind it.
      cases hp : checkPort cells known earlier p with
      | error first =>
          simp only [bind, Except.bind, Except.error.injEq]
          constructor
          · rintro rfl
            exact ⟨[], p, ports, rfl, rfl, by rw [List.append_nil, hp]⟩
          · rintro ⟨_ | ⟨q, passed⟩, p', later, hsplit, hpassed, hp'⟩
            · rw [← (List.cons.inj hsplit).1, List.append_nil, hp] at hp'
              exact Except.error.inj hp'
            · -- The port is the first of those that passed, but it did not pass.
              rw [checkPorts, ← (List.cons.inj hsplit).1, hp] at hpassed
              contradiction
      | ok _ =>
          simp only [bind, Except.bind, ih]
          constructor
          · rintro ⟨passed, p', later, rfl, hpassed, hp'⟩
            refine ⟨p :: passed, p', later, rfl, ?_, by simpa using hp'⟩
            rw [checkPorts, hp]
            exact hpassed
          · rintro ⟨_ | ⟨q, passed⟩, p', later, hsplit, hpassed, hp'⟩
            · rw [← (List.cons.inj hsplit).1, List.append_nil, hp] at hp'
              contradiction
            · rcases List.cons.inj hsplit with ⟨rfl, rfl⟩
              rw [checkPorts, hp] at hpassed
              exact ⟨passed, p', later, rfl, hpassed, by simpa using hp'⟩

/-! ## Declarations as a whole -/

/-- What a registry asks of a declaration, said of the declaration as a whole. -/
structure WellFormed (r : Registry) (decl : ModuleDecl) : Prop where
  unreserved : decl.id ≠ literalTag
  unused : r.module? decl.id = none
  ports : Orderly decl.cells r.ports (decl.ports.map decl.port)

/-- Why a registry refuses a declaration: for its id, or else for the first of its
    ports that offends, next to those before it. -/
inductive Refuses (r : Registry) (decl : ModuleDecl) : Rejection → Prop where
  | reserved (reserved : decl.id = literalTag) : Refuses r decl (.reservedModule decl.id)
  | used (unreserved : decl.id ≠ literalTag) (used : r.module? decl.id ≠ none) :
      Refuses r decl (.duplicateModule decl.id)
  | port {earlier later : List Port} {p : Port} {rejection : Rejection}
      (unreserved : decl.id ≠ literalTag) (unused : r.module? decl.id = none)
      (split : decl.ports.map decl.port = earlier ++ p :: later)
      (orderly : Orderly decl.cells r.ports earlier)
      (offends : Offends decl.cells r.ports earlier p rejection) : Refuses r decl rejection

theorem module?_eq_none_iff {r : Registry} {id : UInt8} :
    r.module? id = none ↔ ∀ m ∈ r.modules, m.decl.id ≠ id := by
  simp [module?]

/-- What a registry admits is what is well-formed. -/
theorem admits_iff_wellFormed {r : Registry} {decl : ModuleDecl} :
    r.Admits decl ↔ r.WellFormed decl := by
  -- The checks by port and the conditions on the list are the same.
  have hports : (∀ p ∈ decl.ports.map decl.port, p.OffsetFits ∧ p.CellFits decl.cells ∧
        p.labels.Nodup) ∧ (decl.ports.map decl.port).Pairwise Port.Apart ∧
      (decl.ports.map decl.port).Pairwise Port.Unlike ∧
      (∀ p ∈ decl.ports.map decl.port, ∀ q ∈ r.ports, q.Unlike p) ↔
      Orderly decl.cells r.ports (decl.ports.map decl.port) := by
    rw [← checkPorts_eq_ok_iff_orderly, checkPorts_eq_ok_iff]
    constructor
    · rintro ⟨sound, apart, unlike, known⟩
      exact ⟨sound, by simp, apart, by simpa using known, unlike⟩
    · rintro ⟨sound, _, apart, known, unlike⟩
      exact ⟨sound, apart, unlike, by simpa using known⟩
  constructor
  · intro h
    exact ⟨h.unreserved, module?_eq_none_iff.mpr h.free,
      hports.mp ⟨h.sound, h.apart, h.unlike, h.known⟩⟩
  · intro h
    rcases hports.mpr h.ports with ⟨sound, apart, unlike, known⟩
    exact ⟨h.unreserved, module?_eq_none_iff.mp h.unused, sound, apart, unlike, known⟩

theorem checkId_eq_error_iff {r : Registry} {id : UInt8} {rejection : Rejection} :
    r.checkId id = .error rejection ↔ id = literalTag ∧ rejection = .reservedModule id ∨
      id ≠ literalTag ∧ r.module? id ≠ none ∧ rejection = .duplicateModule id := by
  unfold checkId
  by_cases reserved : id = literalTag
  · simp [reserved, eq_comm]
  · cases r.module? id <;> simp [reserved, eq_comm]

/-- A refused declaration is refused for one reason only. -/
theorem register_eq_error_iff {r : Registry} {decl : ModuleDecl} {rejection : Rejection} :
    r.register decl = .error rejection ↔ r.Refuses decl rejection := by
  have hsteps : r.register decl = .error rejection ↔ r.checkId decl.id = .error rejection ∨
      r.checkId decl.id = .ok () ∧
        checkPorts decl.cells r.ports [] (decl.ports.map decl.port) = .error rejection := by
    unfold register
    dsimp only
    cases r.checkId decl.id <;>
      cases checkPorts decl.cells r.ports [] (decl.ports.map decl.port) <;>
        simp [bind, Except.bind, pure, Except.pure]
  -- The ports before the first that fails have passed, so they are orderly themselves.
  have hport : ∀ earlier p, Orderly decl.cells r.ports earlier →
      (checkPort decl.cells r.ports earlier p = .error rejection ↔
        Offends decl.cells r.ports earlier p rejection) := fun earlier p orderly =>
    checkPort_eq_error_iff (pairwise_apart_iff.mpr ⟨orderly.places, orderly.fallbacks⟩)
  rw [hsteps, checkId_eq_error_iff, checkId_eq_ok_iff, ← module?_eq_none_iff,
    checkPorts_eq_error_iff]
  simp only [checkPorts_eq_ok_iff_orderly, List.nil_append]
  constructor
  · rintro ((⟨reserved, rfl⟩ | ⟨unreserved, used, rfl⟩) |
      ⟨⟨unreserved, unused⟩, earlier, p, later, split, orderly, failed⟩)
    · exact .reserved reserved
    · exact .used unreserved used
    · exact .port unreserved unused split orderly ((hport earlier p orderly).mp failed)
  · intro refuses
    cases refuses with
    | reserved reserved => exact Or.inl (Or.inl ⟨reserved, rfl⟩)
    | used unreserved used => exact Or.inl (Or.inr ⟨unreserved, used, rfl⟩)
    | port unreserved unused split orderly offends =>
        exact Or.inr ⟨⟨unreserved, unused⟩, _, _, _, split, orderly,
          (hport _ _ orderly).mpr offends⟩

/-- A duplicate address is that of an earlier port, which the rejection names. -/
theorem Clash.exists_earlier {known earlier : List Port} {p : Port} {d direction : Direction}
    {address : Address} {existing name : String} (siblings : ∀ q ∈ earlier, q.owner = p.owner)
    (h : Clash known earlier p d (.duplicateAddress address direction existing name)) :
    d = direction ∧ p.address? = some address ∧ p.name = name ∧
      ∃ q ∈ serving direction earlier, q.address? = some address ∧ q.name = existing := by
  cases h with
  | address member there here =>
      refine ⟨rfl, by rw [Port.address?, here], rfl, _, member, ?_, rfl⟩
      rw [Port.address?, there, siblings _ (mem_serving.mp member).1]

theorem Offends.exists_earlier {cells : UInt16} {known earlier : List Port} {p : Port}
    {direction : Direction} {address : Address} {existing name : String}
    (siblings : ∀ q ∈ earlier, q.owner = p.owner)
    (h : Offends cells known earlier p (.duplicateAddress address direction existing name)) :
    p.allows direction = true ∧ p.address? = some address ∧ p.name = name ∧
      ∃ q ∈ serving direction earlier, q.address? = some address ∧ q.name = existing := by
  cases h with
  | reading fits cell serves clash =>
      rcases clash.exists_earlier siblings with ⟨rfl, found⟩
      exact ⟨serves, found⟩
  | writing fits cell unread serves clash =>
      rcases clash.exists_earlier siblings with ⟨rfl, found⟩
      exact ⟨serves, found⟩

theorem Refuses.exists_earlier {r : Registry} {decl : ModuleDecl} {direction : Direction}
    {address : Address} {existing name : String}
    (h : r.Refuses decl (.duplicateAddress address direction existing name)) :
    ∃ earlier p later, decl.ports.map decl.port = earlier ++ p :: later ∧
      p.allows direction = true ∧ p.address? = some address ∧ p.name = name ∧
      ∃ q ∈ serving direction earlier, q.address? = some address ∧ q.name = existing := by
  cases h with
  | port unreserved unused split orderly offends =>
      rename_i earlier later p
      -- All ports of the declaration belong to its module.
      have howner : ∀ q ∈ earlier ++ p :: later, q.owner = decl.id := by
        intro q hq
        rw [← split] at hq
        rcases List.mem_map.mp hq with ⟨_, _, rfl⟩
        rfl
      refine ⟨earlier, p, later, split, offends.exists_earlier fun q hq => ?_⟩
      rw [howner q (List.mem_append_left _ hq), howner p (by simp)]

/-! ## Other modules -/

section Append

variable {r : Registry} {m : RegisteredModule}

theorem module?_append_of_ne {id : UInt8} (other : id ≠ m.decl.id) :
    module? ⟨r.modules ++ [m]⟩ id = r.module? id := by
  have hnew : [m].find? (fun m => decide (m.decl.id = id)) = none := by
    simpa using other.symm
  rw [module?, List.find?_append, hnew, Option.or_none, module?]

/-- What is at the addresses of other modules stays there. -/
theorem atWord?_append_of_ne {word : Word} (other : (word >>> 24).toUInt8 ≠ m.decl.id)
    (direction : Direction) :
    atWord? ⟨r.modules ++ [m]⟩ word direction = r.atWord? word direction := by
  have hmodule : module? ⟨r.modules ++ [m]⟩ (⟨word⟩ : Address).moduleId =
      r.module? (⟨word⟩ : Address).moduleId := module?_append_of_ne other
  unfold atWord?
  dsimp only
  rw [hmodule]

/-- A name that is bound stays bound to the same port. -/
theorem named?_append_of_eq_some {name : String} {direction : Direction} {p : Port}
    (bound : r.named? name direction = some p) :
    named? ⟨r.modules ++ [m]⟩ name direction = some p := by
  unfold named? at bound ⊢
  rw [ports_append, List.find?_append, bound, Option.some_or]

end Append

/-- Registration takes up exactly what is well-formed, and takes it up as a whole.
    Whatever was offered to a registry before, it takes up a declaration if its id is
    neither reserved nor used, its offsets and cells exist, and in each direction its
    ports have different places and labels that are new. Otherwise the rejection is
    that of the id, or that of the first port that offends next to those before it,
    and there is no other; a duplicate address comes with the name of the port that was
    declared earlier at that address. A refused declaration leaves the registry as it
    was. One that is taken up changes no answer for the addresses of other modules and
    for names that were bound. -/
theorem registration_is_exact_and_atomic (decls : List ModuleDecl) (decl : ModuleDecl) :
    let r := empty.offerAll decls
    ((∃ r', r.register decl = .ok r') ↔ r.WellFormed decl) ∧
    (∀ rejection, r.register decl = .error rejection ↔ r.Refuses decl rejection) ∧
    (∀ address direction existing name,
      r.register decl = .error (.duplicateAddress address direction existing name) →
      ∃ earlier p later, decl.ports.map decl.port = earlier ++ p :: later ∧
        p.allows direction = true ∧ p.address? = some address ∧ p.name = name ∧
        ∃ q ∈ serving direction earlier, q.address? = some address ∧ q.name = existing) ∧
    (∀ rejection, r.register decl = .error rejection → r.offer decl = r) ∧
    ∀ r', r.register decl = .ok r' → r.offer decl = r' ∧
      r'.ports = r.ports ++ decl.ports.map decl.port ∧
      (∀ id, id ≠ decl.id → r'.module? id = r.module? id) ∧
      (∀ word : Word, (word >>> 24).toUInt8 ≠ decl.id → ∀ direction,
        r'.atWord? word direction = r.atWord? word direction) ∧
      ∀ name direction p, r.named? name direction = some p → r'.named? name direction = some p := by
  intro r
  -- Acceptance, the errors, the port that was there first, and both outcomes of offering.
  refine ⟨?_, fun _ => register_eq_error_iff, fun _ _ _ _ refused => ?_,
    fun rejection refused => ?_, fun r' taken => ?_⟩
  · rw [← admits_iff_wellFormed]
    simp only [register_eq_ok_iff, exists_and_left, exists_eq, and_true]
  · exact (register_eq_error_iff.mp refused).exists_earlier
  · rw [offer, refused]
    rfl
  · have hoffer : r.offer decl = r' := by
      rw [offer, taken]
      rfl
    rcases register_eq_ok_iff.mp taken with ⟨_, rfl⟩
    exact ⟨hoffer, ports_append r _, fun _ other => module?_append_of_ne other,
      fun _ other direction => atWord?_append_of_ne other direction,
      fun _ _ _ bound => named?_append_of_eq_some bound⟩

end Registry

end Transport
