import Transport.Proofs.Dialogue
import Transport.Proofs.Registry.Lookup
import Transport.Registry.Catalogue

/-!
# Tables Answer Like Lists

A catalogue finds ports through tables of places, a registry by searching its lists. Here
the tables are shown to answer like the lists, so that whatever is known of a registry is
known of the tables.

A table says of every key where the first port is that the key is of. Its places are
counted from a number on: that of the ports in front of the module, or of all known ports
while a declaration is entered. Two tables whose ports follow each other make one table,
and that is all that happens to tables, one port at a time in a draft, and a draft at a
time in a catalogue. A check against tables is then the check against the lists that they
are of, down to the error; so the catalogue takes up what the registry does, and what it
holds afterwards is the same again.

## Main definitions

* `Finds`: A table leads to the ports of a list.
* `Catalogue.Drafts`, `Catalogue.Entered`: What has been entered of a declaration.
* `Catalogue.Represents`: A catalogue is the tables of a registry.

## Theorems

* `finds_append`: Tables of ports that follow each other.
* `enterDirection_outcomes`, `enterPorts_outcomes`: To enter ports is to check them.
* `register_outcomes`, `represents_offerAll`: A catalogue takes up what a registry does.
* `atWord?_of_represents`, `named?_of_represents`: It answers like the registry.
* `lookups_are_exact`: What a catalogue finds, whatever was offered to it.
-/

namespace Transport

/-! ## Tables -/

namespace Sides

variable {α : Type}

theorem get_modify (sides : Sides α) (change : α → α) (direction other : Direction) :
    (sides.modify change direction).get other =
      if other = direction then change (sides.get other) else sides.get other := by
  cases direction <;> cases other <;> rfl

end Sides

namespace Places

variable {κ : Type} [BEq κ]

theorem find?_insert [LawfulBEq κ] [DecidableEq κ] (places : Places κ) (key other : κ)
    (place : Nat) :
    (places.insert key place).find? other =
      if other = key then some place else places.find? other := by
  unfold find? insert
  rw [List.lookup_cons]
  by_cases same : other = key
  · rw [if_pos same, beq_iff_eq.mpr same]
  · rw [if_neg same, beq_false_of_ne same]

theorem find?_extend (places more : Places κ) (key : κ) :
    (places.extend more).find? key = (more.find? key).or (places.find? key) :=
  List.lookup_append

end Places

/-- The place of the port at a position. -/
def PortTable.at? (table : PortTable) : Position → Option Nat
  | .fixed offset => table.fixed.find? offset
  | .fallback => table.fallback

/-- The first that passes a test is where it was first found. -/
theorem find?_eq_bind_findIdx? {α : Type} (l : List α) (test : α → Bool) :
    l.find? test = (l.findIdx? test).bind (l[·]?) := by
  induction l with
  | nil => rfl
  | cons a l ih =>
      rw [List.find?_cons, List.findIdx?_cons]
      cases test a with
      | true => rfl
      | false =>
          rw [ih]
          cases l.findIdx? test <;> rfl

/-- A table says of every key where the first port is that the key is of. Places are counted
    from `base` on. -/
def Finds {κ : Type} (base : Nat) (ports : List Port) (owns : κ → Port → Bool)
    (table : κ → Option Nat) : Prop :=
  ∀ key, table key = (ports.findIdx? (owns key)).map (base + ·)

section Finds

variable {κ : Type} {base : Nat} {ports more : List Port} {owns : κ → Port → Bool}
  {table table' : κ → Option Nat}

theorem finds_singleton (p : Port) :
    Finds base [p] owns fun key => if owns key p then some base else none := by
  intro key
  rw [List.findIdx?_singleton]
  dsimp only
  split <;> rfl

/-- Tables of ports that follow each other are one table, in which those in front come
    first. -/
theorem finds_append (h : Finds base ports owns table)
    (h' : Finds (base + ports.length) more owns table') :
    Finds base (ports ++ more) owns fun key => (table key).or (table' key) := by
  intro key
  dsimp only
  rw [h key, h' key, List.findIdx?_append, Option.map_or, Option.map_map]
  congr 2
  funext place
  simp only [Function.comp_apply]
  omega

/-- One more port is found under the keys that it has, if they led nowhere. -/
theorem finds_concat (h : Finds base ports owns table) {p : Port}
    (free : ∀ key, owns key p = true → table key = none)
    (h' : ∀ key, table' key = if owns key p then some (base + ports.length) else table key) :
    Finds base (ports ++ [p]) owns table' := by
  have happend := finds_append h (finds_singleton p)
  intro key
  rw [h' key, ← happend key]
  dsimp only
  split
  · next own => rw [free key own, Option.none_or]
  · rw [Option.or_none]

theorem isSome_of_finds (h : Finds base ports owns table) (key : κ) :
    (table key).isSome = ports.any (owns key) := by
  rw [h key, Option.isSome_map, List.findIdx?_isSome]

/-- What a table leads to is the first port that the key is of. -/
theorem getElem?_of_finds {before : List Port} (h : Finds before.length ports owns table)
    (after : List Port) (key : κ) :
    ((table key).bind fun place => (before ++ (ports ++ after))[place]?) =
      ports.find? (owns key) := by
  rw [h key, find?_eq_bind_findIdx?]
  cases hplace : ports.findIdx? (owns key) with
  | none => rfl
  | some place =>
      -- The place is within the ports entered here, behind those in front.
      have inside := (List.findIdx?_eq_some_iff_findIdx_eq.mp hplace).1
      simp only [Option.map_some, Option.bind_some]
      rw [List.getElem?_append_right (by omega), List.getElem?_append_left (by omega)]
      congr 1
      omega

end Finds

/-- A port serves a direction at a position. -/
def Port.sits (direction : Direction) (position : Position) (p : Port) : Bool :=
  p.allows direction && p.position = position

/-- A port serves a direction under a name. -/
def Port.answers (direction : Direction) (name : String) (p : Port) : Bool :=
  Registry.answersTo p name direction

namespace Port

variable {p : Port} {direction : Direction}

theorem sits_iff (serves : p.allows direction = true) {position : Position} :
    p.sits direction position = true ↔ position = p.position := by
  rw [sits, serves, Bool.true_and, decide_eq_true_eq, eq_comm]

theorem answers_iff (serves : p.allows direction = true) {name : String} :
    p.answers direction name = true ↔ name ∈ p.labels := by
  rw [answers, Registry.answersTo_iff, and_iff_right serves]

theorem sits_of_not_allows (idle : ¬p.allows direction = true) (position : Position) :
    p.sits direction position = false := by
  rw [sits, Bool.eq_false_iff.mpr idle, Bool.false_and]

theorem answers_of_not_allows (idle : ¬p.allows direction = true) (name : String) :
    p.answers direction name = false := by
  rw [answers, Registry.answersTo, Bool.eq_false_iff.mpr idle, Bool.false_and]

end Port

namespace Catalogue

open Registry

/-! ## Drafts -/

/-- The tables of a draft in one direction lead to the ports that were entered, which are to
    stand behind all known ones. -/
structure Drafts (c : Catalogue) (direction : Direction) (seen : List Port) (draft : Draft) :
    Prop where
  positions : Finds c.ports.size seen (Port.sits direction) (draft.tables.get direction).at?
  names : Finds c.ports.size seen (Port.answers direction) (draft.names.get direction).find?

/-- Ports have been entered into a draft. -/
structure Entered (c : Catalogue) (seen : List Port) (draft : Draft) : Prop where
  ports : draft.ports.toList = seen
  drafts : ∀ direction, c.Drafts direction seen draft

/-- The place of a port has been entered at its position, and nothing else. -/
structure Placed (direction : Direction) (position : Position) (place : Nat)
    (before after : Draft) : Prop where
  ports : after.ports = before.ports
  names : after.names = before.names
  others : ∀ other, other ≠ direction → after.tables.get other = before.tables.get other
  free : (before.tables.get direction).at? position = none
  found : ∀ other, (after.tables.get direction).at? other =
    if other = position then some place else (before.tables.get direction).at? other

/-- The place of a port has been entered under labels, and nothing else. -/
structure Labelled (direction : Direction) (labels : List String) (place : Nat)
    (before after : Draft) : Prop where
  ports : after.ports = before.ports
  tables : after.tables = before.tables
  others : ∀ other, other ≠ direction → after.names.get other = before.names.get other
  free : ∀ label ∈ labels, (before.names.get direction).find? label = none
  found : ∀ label, (after.names.get direction).find? label =
    if label ∈ labels then some place else (before.names.get direction).find? label

variable {c : Catalogue} {known seen : List Port} {draft : Draft} {direction : Direction}

/-- The port at a place behind the known ones is one of the draft. -/
theorem nameAt_of_getElem? {place : Nat} {q : Port} (h : draft.ports.toList[place]? = some q) :
    c.nameAt draft (c.ports.size + place) = q.name := by
  have hq : draft.ports[place]? = some q := by rw [← Array.getElem?_toList, h]
  simp only [nameAt, Nat.le_add_right, if_true, Nat.add_sub_cancel_left, hq, Option.map_some,
    Option.getD_some]

/-- A free position is entered. -/
theorem enterPosition_of_free {p : Port} (place : Nat)
    (free : (draft.tables.get direction).at? p.position = none) :
    ∃ after, c.enterPosition p place direction draft = .ok after ∧
      Placed direction p.position place draft after := by
  unfold enterPosition
  -- A fixed offset is entered in the table, and a fallback is kept beside it.
  cases hposition : p.position with
  | fixed offset =>
      rw [hposition] at free
      simp only [PortTable.at?] at free
      simp only [free]
      refine ⟨_, rfl, rfl, rfl, fun other ne => ?_, free, fun other => ?_⟩
      · rw [Sides.get_modify, if_neg ne]
      · rw [Sides.get_modify, if_pos rfl]
        cases other with
        | fixed other =>
            simp only [PortTable.at?, Places.find?_insert, Position.fixed.injEq]
        | fallback => rfl
  | fallback =>
      rw [hposition] at free
      simp only [PortTable.at?] at free
      simp only [free]
      refine ⟨_, rfl, rfl, rfl, fun other ne => ?_, free, fun other => ?_⟩
      · rw [Sides.get_modify, if_neg ne]
      · rw [Sides.get_modify, if_pos rfl]
        cases other <;> rfl

/-- To enter the position of a port is to check it. -/
theorem enterPosition_outcomes (drafts : c.Drafts direction seen draft)
    (hports : draft.ports.toList = seen) (p : Port) (place : Nat) :
    Outcomes (fun after _ => Placed direction p.position place draft after)
      (c.enterPosition p place direction draft) (checkPlace seen p direction) := by
  have hat := drafts.positions p.position
  have hfind : (seen.find? fun q => q.allows direction && q.position = p.position) =
      (seen.findIdx? (Port.sits direction p.position)).bind (seen[·]?) :=
    find?_eq_bind_findIdx? seen _
  unfold checkPlace
  rw [hfind]
  cases hplace : seen.findIdx? (Port.sits direction p.position) with
  | none =>
      rw [hplace] at hat
      rcases enterPosition_of_free (c := c) place hat with ⟨after, hafter, placed⟩
      rw [hafter]
      exact Outcomes.ok placed
  | some i =>
      -- The place that was found is that of a port of the draft, whose name is in the error.
      have inside := (List.findIdx?_eq_some_iff_findIdx_eq.mp hplace).1
      have hq : seen[i]? = some seen[i] := List.getElem?_eq_getElem inside
      have hname := nameAt_of_getElem? (c := c) (by rw [hports]; exact hq)
      rw [hplace, Option.map_some] at hat
      rw [Option.bind_some, hq]
      unfold enterPosition
      cases hposition : p.position with
      | fixed offset =>
          rw [hposition] at hat
          simp only [PortTable.at?] at hat
          simp only [hat, hname, Port.address?, hposition]
          exact Outcomes.error _
      | fallback =>
          rw [hposition] at hat
          simp only [PortTable.at?] at hat
          simp only [hat, Port.address?, hposition]
          exact Outcomes.error _

/-- To enter labels is to look for the first that is taken. -/
theorem enterLabels_outcomes (c : Catalogue) (place : Nat) (direction : Direction)
    (labels : List String) :
    ∀ (draft : Draft) (taken : String → Bool),
      (∀ label, taken label = ((c.names.get direction).contains label ||
        (draft.names.get direction).contains label)) →
      Outcomes (fun after _ => Labelled direction labels place draft after)
        (c.enterLabels place direction labels draft)
        (match firstTaken? taken labels with
        | none => .ok ()
        | some label => .error (.duplicateName label direction)) := by
  -- Induction on the labels. What is taken grows by each label that is entered.
  induction labels with
  | nil =>
      intro draft taken _
      exact Outcomes.ok ⟨rfl, rfl, fun _ _ => rfl, fun _ member => absurd member List.not_mem_nil,
        fun _ => rfl⟩
  | cons label labels ih =>
      intro draft taken htaken
      rw [enterLabels, firstTaken?, ← htaken label]
      by_cases free : taken label = true
      · rw [if_pos free, if_pos free]
        exact Outcomes.error _
      · rw [if_neg free, if_neg free]
        rw [htaken, Bool.not_eq_true, Bool.or_eq_false_iff] at free
        have hfree : (draft.names.get direction).find? label = none :=
          Option.isNone_iff_eq_none.mp (Option.isSome_eq_false_iff.mp free.2)
        have hget : ∀ other, ((draft.names.modify (fun names => names.insert label place)
            direction).get direction).find? other =
              if other = label then some place else (draft.names.get direction).find? other := by
          intro other
          rw [Sides.get_modify, if_pos rfl, Places.find?_insert]
        refine outcomes_mono (fun after _ labelled => ?_) (ih _ _ fun other => ?_)
        · refine ⟨labelled.ports, labelled.tables, fun other ne => ?_, ?_, fun other => ?_⟩
          · rw [labelled.others other ne, Sides.get_modify, if_neg ne]
          · -- Labels that come later were free in the draft with this one, all the more without it.
            intro other member
            rcases List.mem_cons.mp member with rfl | later
            · exact hfree
            · have hother := labelled.free other later
              rw [hget] at hother
              split at hother
              · contradiction
              · exact hother
          · rw [labelled.found other, hget]
            by_cases same : other = label
            · rw [if_pos same, if_pos (List.mem_cons.mpr (Or.inl same)), ite_self]
            · simp only [List.mem_cons, same, false_or, if_false]
        · -- Behind the label, the label is taken as well.
          rw [htaken]
          simp only [Places.contains, hget]
          by_cases same : other = label
          · simp only [same, if_true, Option.isSome_some, decide_true, Bool.or_true]
          · simp only [same, if_false, decide_false, Bool.or_false]

/-- To enter a port in one direction is to check it in that direction. -/
theorem enterDirection_outcomes (drafts : c.Drafts direction seen draft)
    (hports : draft.ports.toList = seen)
    (names : Finds 0 known (Port.answers direction) (c.names.get direction).find?) (p : Port) :
    Outcomes (fun after _ => c.Drafts direction (seen ++ [p]) after ∧ after.ports = draft.ports ∧
        ∀ other, other ≠ direction → after.tables.get other = draft.tables.get other ∧
          after.names.get other = draft.names.get other)
      (c.enterDirection p (c.ports.size + seen.length) direction draft)
      (checkDirection known seen p direction) := by
  unfold enterDirection checkDirection
  by_cases serves : p.allows direction = true
  · rw [if_pos serves, if_pos serves]
    -- The position is entered first, and labels are checked against ports and draft alike.
    refine outcomes_bind (enterPosition_outcomes drafts hports p _) fun between _ placed => ?_
    have hnames := drafts.names
    rw [← placed.names] at hnames
    have htaken : ∀ label, ((known ++ seen).any fun q => answersTo q label direction) =
        ((c.names.get direction).contains label ||
          (between.names.get direction).contains label) := by
      intro label
      rw [List.any_append, Places.contains, Places.contains, isSome_of_finds names,
        isSome_of_finds hnames]
      rfl
    refine outcomes_mono (fun after _ labelled => ?_)
      (enterLabels_outcomes c (c.ports.size + seen.length) direction p.labels between _ htaken)
    refine ⟨⟨finds_concat drafts.positions ?_ ?_, finds_concat hnames ?_ ?_⟩, ?_, ?_⟩
    · intro position sits
      rw [(Port.sits_iff serves).mp sits]
      exact placed.free
    · intro position
      rw [labelled.tables, placed.found position]
      simp only [Port.sits_iff serves]
    · exact fun name answers => labelled.free name ((Port.answers_iff serves).mp answers)
    · intro name
      rw [labelled.found name]
      simp only [Port.answers_iff serves]
    · rw [labelled.ports, placed.ports]
    · intro other ne
      rw [labelled.tables, placed.others other ne, labelled.others other ne, placed.names]
      exact ⟨rfl, rfl⟩
  · -- A port that does not serve the direction is under no key of it.
    rw [if_neg serves, if_neg serves]
    refine Outcomes.ok ⟨⟨finds_concat drafts.positions ?_ ?_, finds_concat drafts.names ?_ ?_⟩,
      rfl, fun _ _ => ⟨rfl, rfl⟩⟩
    · intro position sits
      rw [Port.sits_of_not_allows serves] at sits
      contradiction
    · intro position
      rw [Port.sits_of_not_allows serves, if_neg Bool.false_ne_true]
    · intro name answers
      rw [Port.answers_of_not_allows serves] at answers
      contradiction
    · intro name
      rw [Port.answers_of_not_allows serves, if_neg Bool.false_ne_true]

/-- To enter a port is to check it. -/
theorem enterPort_outcomes (entered : c.Entered seen draft)
    (names : ∀ direction, Finds 0 known (Port.answers direction) (c.names.get direction).find?)
    (cells : UInt16) (p : Port) :
    Outcomes (fun after _ => c.Entered (seen ++ [p]) after) (c.enterPort cells p draft)
      (checkPort cells known seen p) := by
  have hsize : draft.ports.size = seen.length := by rw [← entered.ports, Array.length_toList]
  have hlast : checkPort cells known seen p = (do
      checkOffset p
      checkCell cells p
      checkDirection known seen p .read
      checkDirection known seen p .write
      return ()) := by
    simp only [checkPort, bind_pure_unit]
  rw [hlast]
  unfold enterPort
  refine outcomes_bind (outcomes_refl (fun _ => rfl) (checkOffset p)) fun _ _ _ => ?_
  refine outcomes_bind (outcomes_refl (fun _ => rfl) (checkCell cells p)) fun _ _ _ => ?_
  dsimp only
  rw [hsize]
  refine outcomes_bind (enterDirection_outcomes (entered.drafts .read) entered.ports
    (names .read) p) ?_
  rintro between _ ⟨reads, hbetween, others⟩
  -- What is entered for reads leaves the tables for writes as they were.
  have writes : c.Drafts .write seen between := by
    rcases others .write (by decide) with ⟨htables, hnames⟩
    refine ⟨?_, ?_⟩
    · rw [htables]
      exact (entered.drafts .write).positions
    · rw [hnames]
      exact (entered.drafts .write).names
  refine outcomes_bind (enterDirection_outcomes writes (by rw [hbetween, entered.ports])
    (names .write) p) ?_
  rintro after _ ⟨writes, hafter, others⟩
  refine Outcomes.ok ⟨?_, Direction.forall_iff.mpr ⟨?_, ⟨writes.positions, writes.names⟩⟩⟩
  · rw [Array.toList_push, hafter, hbetween, entered.ports]
  · rcases others .read (by decide) with ⟨htables, hnames⟩
    refine ⟨?_, ?_⟩
    · change Finds _ _ _ (after.tables.get .read).at?
      rw [htables]
      exact reads.positions
    · change Finds _ _ _ (after.names.get .read).find?
      rw [hnames]
      exact reads.names

/-- To enter ports one after the other is to check them. -/
theorem enterPorts_outcomes
    (names : ∀ direction, Finds 0 known (Port.answers direction) (c.names.get direction).find?)
    (cells : UInt16) (ports : List Port) :
    ∀ (seen : List Port) (draft : Draft), c.Entered seen draft →
      Outcomes (fun after _ => c.Entered (seen ++ ports) after) (c.enterPorts cells ports draft)
        (checkPorts cells known seen ports) := by
  -- Induction on the ports, with those entered so far in front.
  induction ports with
  | nil =>
      intro seen draft entered
      rw [List.append_nil]
      exact Outcomes.ok entered
  | cons p ports ih =>
      intro seen draft entered
      rw [enterPorts, checkPorts, ← List.singleton_append, ← List.append_assoc]
      exact outcomes_bind (enterPort_outcomes entered names cells p) fun after _ h =>
        ih (seen ++ [p]) after h

theorem entered_empty (c : Catalogue) : c.Entered [] {} :=
  ⟨rfl, fun direction => by cases direction <;> exact ⟨fun position => by cases position <;> rfl,
    fun _ => rfl⟩⟩

/-! ## Catalogues -/

/-- An entry is that of a registered module: its tables lead to the ports of the module, which
    stand behind those of the modules registered before. -/
def Holds (r : Registry) (entry : CatalogueEntry) (m : RegisteredModule) : Prop :=
  entry.decl = m.decl ∧ ∃ before after, r.modules = before ++ m :: after ∧
    ∀ direction, Finds (before.flatMap RegisteredModule.ports).length m.ports
      (Port.sits direction) (entry.tables.get direction).at?

/-- A catalogue is the tables of a registry. -/
structure Represents (c : Catalogue) (r : Registry) : Prop where
  ports : c.ports.toList = r.ports
  entries : ∀ id, Option.Rel (Holds r) (c.module? id) (r.module? id)
  names : ∀ direction, Finds 0 r.ports (Port.answers direction) (c.names.get direction).find?

theorem represents_empty : Represents empty Registry.empty where
  ports := rfl
  entries id := by
    have hnone : empty.module? id = none := by
      rw [module?, empty, Vector.getElem?_replicate]
      split <;> rfl
    rw [hnone]
    exact Option.Rel.none
  names direction := by
    intro name
    cases direction <;> rfl

variable {r : Registry}

theorem module?_commit (c : Catalogue) (decl : ModuleDecl) (draft : Draft) (id : UInt8) :
    (c.commit decl draft).module? id =
      if id = decl.id then some ⟨decl, draft.tables⟩ else c.module? id := by
  have hlt : decl.id.toNat < 256 := decl.id.toNat_lt
  rw [module?, commit, Vector.getElem?_setIfInBounds]
  by_cases same : id = decl.id
  · rw [if_pos (congrArg UInt8.toNat same.symm), if_pos hlt, if_pos same]
    rfl
  · rw [if_neg fun h => same (UInt8.toNat_inj.mp h.symm), if_neg same]
    rfl

/-- An id is free in a catalogue if it is in the registry. -/
theorem checkId_of_represents (represents : c.Represents r) (id : UInt8) :
    c.checkId id = r.checkId id := by
  unfold checkId Registry.checkId
  have hrel := represents.entries id
  generalize c.module? id = entry at hrel
  generalize r.module? id = m at hrel
  cases hrel <;> rfl

/-- With one more module behind them, the ports of a module stand where they stood. -/
theorem holds_append {entry : CatalogueEntry} {m : RegisteredModule} (holds : Holds r entry m)
    (more : RegisteredModule) : Holds ⟨r.modules ++ [more]⟩ entry m := by
  rcases holds with ⟨hdecl, before, after, hmodules, hfinds⟩
  refine ⟨hdecl, before, after ++ [more], ?_, hfinds⟩
  rw [hmodules, List.append_assoc, List.cons_append]

/-- The modules of a catalogue that took up a draft are those of the registry with one more
    module. -/
theorem entries_commit (represents : c.Represents r) {decl : ModuleDecl}
    (admits : r.Admits decl) {draft : Draft}
    (entered : c.Entered (decl.ports.map decl.port) draft) (id : UInt8) :
    Option.Rel (Holds ⟨r.modules ++ [⟨decl, decl.ports.map decl.port⟩]⟩)
      ((c.commit decl draft).module? id)
      (Registry.module? ⟨r.modules ++ [⟨decl, decl.ports.map decl.port⟩]⟩ id) := by
  have hmodule : Registry.module? ⟨r.modules ++ [⟨decl, decl.ports.map decl.port⟩]⟩ id =
      (r.module? id).or (if decl.id = id then some ⟨decl, decl.ports.map decl.port⟩
        else none) := by
    simp only [Registry.module?, List.find?_append, List.find?_singleton, decide_eq_true_eq]
  rw [hmodule, module?_commit]
  by_cases same : id = decl.id
  · have hfree : r.module? id = none := by
      rw [Registry.module?, List.find?_eq_none]
      intro m hm
      rw [same, decide_eq_true_eq]
      exact admits.free m hm
    rw [if_pos same, if_pos same.symm, hfree, Option.none_or]
    refine Option.Rel.some ⟨rfl, r.modules, [], rfl, fun direction => ?_⟩
    have hpositions := (entered.drafts direction).positions
    -- The places of the draft were counted on from the ports of all modules before.
    rw [← Array.length_toList, represents.ports] at hpositions
    exact hpositions
  · rw [if_neg same, if_neg (Ne.symm same), Option.or_none]
    have hrel := represents.entries id
    generalize c.module? id = entry at hrel
    generalize r.module? id = m at hrel
    cases hrel with
    | none => exact Option.Rel.none
    | some holds => exact Option.Rel.some (holds_append holds _)

/-- The names of a catalogue that took up a draft lead to the ports it knew and to those of
    the draft. -/
theorem names_commit (represents : c.Represents r) {decl : ModuleDecl}
    (admits : r.Admits decl) {draft : Draft}
    (entered : c.Entered (decl.ports.map decl.port) draft) (direction : Direction) :
    Finds 0 (r.ports ++ decl.ports.map decl.port) (Port.answers direction)
      ((c.commit decl draft).names.get direction).find? := by
  have hdraft := (entered.drafts direction).names
  rw [← Array.length_toList, represents.ports, ← Nat.zero_add r.ports.length] at hdraft
  intro name
  rw [← finds_append (represents.names direction) hdraft name]
  have hget : ((c.commit decl draft).names.get direction).find? name =
      ((draft.names.get direction).find? name).or ((c.names.get direction).find? name) := by
    cases direction <;> exact Places.find?_extend _ _ _
  dsimp only
  rw [hget]
  -- No name leads to two places, since a known port and a new one have none in common.
  cases hknown : (c.names.get direction).find? name with
  | none => rw [Option.or_none, Option.none_or]
  | some place =>
      cases hnew : (draft.names.get direction).find? name with
      | none => rfl
      | some other =>
          exfalso
          have hq := isSome_of_finds (represents.names direction) name
          have hp := isSome_of_finds hdraft name
          rw [hknown, Option.isSome_some, eq_comm, List.any_eq_true] at hq
          rw [hnew, Option.isSome_some, eq_comm, List.any_eq_true] at hp
          rcases hq with ⟨q, hq, hqname⟩
          rcases hp with ⟨p, hp, hpname⟩
          rw [Port.answers, answersTo_iff] at hqname hpname
          exact admits.known p hp q hq direction hqname.1 hpname.1 name hqname.2 hpname.2

/-- What a draft becomes is the tables of the registry with one more module. -/
theorem represents_commit (represents : c.Represents r) {decl : ModuleDecl}
    (admits : r.Admits decl) {draft : Draft}
    (entered : c.Entered (decl.ports.map decl.port) draft) :
    (c.commit decl draft).Represents ⟨r.modules ++ [⟨decl, decl.ports.map decl.port⟩]⟩ where
  ports := by rw [ports_append, commit, Array.toList_append, represents.ports, entered.ports]
  entries := entries_commit represents admits entered
  names direction := by
    rw [ports_append]
    exact names_commit represents admits entered direction

/-- A catalogue takes up what the registry does, and refuses the rest for the same reason. -/
theorem register_outcomes (represents : c.Represents r) (decl : ModuleDecl) :
    Outcomes Represents (c.register decl) (r.register decl) := by
  have hentered := enterPorts_outcomes represents.names decl.cells (decl.ports.map decl.port) []
    {} (entered_empty c)
  have hregister : r.register decl = (do
      r.checkId decl.id
      checkPorts decl.cells r.ports [] (decl.ports.map decl.port)
      return ⟨r.modules ++ [⟨decl, decl.ports.map decl.port⟩]⟩) := rfl
  rw [register, checkId_of_represents represents]
  -- The id is checked before any port is, on both sides.
  cases hid : r.checkId decl.id with
  | error rejection =>
      rw [hregister, hid]
      exact Outcomes.error rejection
  | ok =>
      generalize c.enterPorts decl.cells (decl.ports.map decl.port) {} = entered at hentered
      generalize hchecked : checkPorts decl.cells r.ports [] (decl.ports.map decl.port) = checked
        at hentered
      rw [hid, hchecked] at hregister
      rw [hregister]
      cases hentered with
      | error rejection => exact Outcomes.error rejection
      | ok entered =>
          have admits := (register_eq_ok_iff.mp hregister).1
          exact Outcomes.ok (represents_commit represents admits entered)

/-! ## Offers -/

/-- The catalogue after a declaration was offered: with its module, or as it was. -/
def offer (c : Catalogue) (decl : ModuleDecl) : Catalogue := (c.register decl).toOption.getD c

/-- The catalogue after declarations were offered, one after the other. -/
def offerAll (c : Catalogue) (decls : List ModuleDecl) : Catalogue := decls.foldl offer c

theorem represents_offer (represents : c.Represents r) (decl : ModuleDecl) :
    (c.offer decl).Represents (r.offer decl) := by
  have houtcomes := register_outcomes represents decl
  unfold offer Registry.offer
  generalize c.register decl = result at houtcomes
  generalize r.register decl = result' at houtcomes
  cases houtcomes with
  | error => exact represents
  | ok represents' => exact represents'

/-- Whatever was offered to both, a catalogue is the tables of the registry. -/
theorem represents_offerAll (decls : List ModuleDecl) :
    (empty.offerAll decls).Represents (Registry.empty.offerAll decls) := by
  have hall : ∀ (c : Catalogue) (r : Registry), c.Represents r →
      (c.offerAll decls).Represents (r.offerAll decls) := by
    induction decls with
    | nil => exact fun _ _ h => h
    | cons decl decls ih => exact fun c r h => ih _ _ (represents_offer h decl)
  exact hall _ _ represents_empty

/-! ## Lookups -/

/-- The fallback is the second choice. -/
theorem portAt?_eq_or (m : RegisteredModule) (offset : Word) (direction : Direction) :
    m.portAt? offset direction =
      (m.ports.find? (Port.sits direction (.fixed offset))).or
        (m.ports.find? (Port.sits direction .fallback)) := by
  have hsits : ∀ position, Port.sits direction position =
      fun p => p.allows direction && p.position = position := fun _ => rfl
  unfold RegisteredModule.portAt? Port.isFallback
  rw [hsits, hsits]
  cases m.ports.find? fun p => p.allows direction && p.position = .fixed offset <;> rfl

/-- Tables find the port that a search finds at an address. -/
theorem atWord?_of_represents (represents : c.Represents r) (word : Word)
    (direction : Direction) : c.atWord? word direction = r.atWord? word direction := by
  have hrel := represents.entries (⟨word⟩ : Address).moduleId
  unfold atWord? Registry.atWord?
  dsimp only
  generalize c.module? (⟨word⟩ : Address).moduleId = entry at hrel
  generalize r.module? (⟨word⟩ : Address).moduleId = m at hrel
  cases hrel with
  | none => rfl
  | @some entry m holds =>
      rcases holds with ⟨_, before, after, hmodules, hfinds⟩
      have hports : c.ports.toList = before.flatMap RegisteredModule.ports ++
          (m.ports ++ after.flatMap RegisteredModule.ports) := by
        rw [represents.ports, Registry.ports, hmodules, List.flatMap_append, List.flatMap_cons]
      have hget : ∀ position,
          (((entry.tables.get direction).at? position).bind fun place => c.ports[place]?) =
            m.ports.find? (Port.sits direction position) := by
        intro position
        rw [← getElem?_of_finds (hfinds direction) (after.flatMap RegisteredModule.ports)]
        simp only [← Array.getElem?_toList, hports]
      have hfixed := isSome_of_finds (hfinds direction) (.fixed (⟨word⟩ : Address).offset)
      dsimp only
      rw [portAt?_eq_or, ← hget, ← hget]
      change (((entry.tables.get direction).at? (.fixed (⟨word⟩ : Address).offset)).or
        ((entry.tables.get direction).at? .fallback)).bind (fun place => c.ports[place]?) = _
      cases hplace : (entry.tables.get direction).at? (.fixed (⟨word⟩ : Address).offset) with
      | none => rfl
      | some place =>
          -- A port is fixed there, so that no one asks for the fallback.
          rw [← List.isSome_find?, ← hget, hplace, Option.bind_some, Option.isSome_some,
            eq_comm] at hfixed
          rw [Option.some_or, Option.bind_some, Option.or_of_isSome hfixed]

/-- Tables find the port that a search finds under a name. -/
theorem named?_of_represents (represents : c.Represents r) (name : String)
    (direction : Direction) : c.named? name direction = r.named? name direction := by
  have hports : c.ports.toList = [] ++ (r.ports ++ []) := by
    rw [List.append_nil, List.nil_append, represents.ports]
  have hget : r.named? name direction = _ :=
    (@getElem?_of_finds _ _ _ _ [] (represents.names direction) [] name).symm
  have hplaces : (fun place => c.ports.toList[place]?) = fun place : Nat => c.ports[place]? :=
    funext fun _ => Array.getElem?_toList
  rw [hget, ← hports, hplaces]
  rfl

/-- A listing is shown the same. -/
theorem explain?_of_represents (represents : c.Represents r) (word : Word)
    (direction : Direction) : c.explain? word direction = r.explain? word direction := by
  have hat := atWord?_of_represents represents word direction
  cases direction <;> cases hsource : Source.ofWord word <;>
    simp only [explain?, Registry.explain?, hsource, hat]

/-- The modules are the same. -/
theorem module?_of_represents (represents : c.Represents r) (id : UInt8) :
    (c.module? id).map CatalogueEntry.decl = (r.module? id).map RegisteredModule.decl := by
  have hrel := represents.entries id
  generalize c.module? id = entry at hrel
  generalize r.module? id = m at hrel
  cases hrel with
  | none => rfl
  | some holds => exact congrArg some holds.1

/-- So is their order by ids. -/
theorem inIdOrder_of_represents (represents : c.Represents r) :
    c.inIdOrder = r.inIdOrder.map RegisteredModule.decl := by
  -- The entries are the modules of the 256 ids, in their order.
  have hentries : c.entries.toList = (List.range 256).map fun id => c.module? (UInt8.ofNat id) := by
    apply List.ext_getElem?
    intro id
    rw [Vector.getElem?_toList, List.getElem?_map]
    by_cases inside : id < 256
    · have hid : (UInt8.ofNat id).toNat = id := UInt8.toNat_ofNat_of_lt inside
      rw [List.getElem?_range inside, Option.map_some, module?, hid,
        Vector.getElem?_eq_getElem inside]
      rfl
    · rw [Vector.getElem?_eq_none (Nat.not_lt.mp inside),
        List.getElem?_eq_none (by rw [List.length_range]; omega)]
      rfl
  have hdecls := funext fun id : Nat => module?_of_represents represents (UInt8.ofNat id)
  rw [inIdOrder, hentries, Registry.inIdOrder, List.filterMap_map, List.map_filterMap]
  exact congrArg (List.filterMap · _) hdecls

/-- Lookups answer exactly. Whatever declarations were offered to a catalogue, and whichever
    of them it took up with all of their ports: the port that the tables lead to from an
    address is the registered one that has it and serves the direction, and where there is
    none, the fallback of the module; the port that they lead to from a name is the
    registered one that has it as its name or an alias and serves the direction. So every
    registered port is found, alone, under each of its labels and at its address, or, being
    a fallback, wherever its module has no other. Nothing is found under the literal tag. -/
theorem lookups_are_exact (decls : List ModuleDecl) :
    let c := empty.offerAll decls
    let ports := c.ports.toList
    (∀ decl, (c.offer decl).ports.toList = match c.register decl with
      | .ok _ => ports ++ decl.ports.map decl.port
      | .error _ => ports) ∧
    (∀ word direction p, c.atWord? word direction = some p ↔
      p ∈ ports ∧ p.owner = (word >>> 24).toUInt8 ∧ p.allows direction = true ∧
        (p.address? = some ⟨word⟩ ∨ p.isFallback = true ∧
          ∀ q ∈ ports, q.owner = p.owner → q.allows direction = true →
            q.address? ≠ some ⟨word⟩)) ∧
    (∀ name direction p, c.named? name direction = some p ↔
      p ∈ ports ∧ p.allows direction = true ∧ (name = p.name ∨ name ∈ p.aliases)) ∧
    ports.Nodup ∧
    (∀ p ∈ ports, ∀ direction, p.allows direction = true →
      (∀ name ∈ p.labels, c.named? name direction = some p) ∧
      (∀ address, p.address? = some address → c.atWord? address.word direction = some p) ∧
      (p.isFallback = true → ∀ word : Word, (word >>> 24).toUInt8 = p.owner →
        (∀ q ∈ ports, q.owner = p.owner → q.allows direction = true →
          q.address? ≠ some ⟨word⟩) → c.atWord? word direction = some p)) ∧
    ∀ word : Word, (word >>> 24).toUInt8 = literalTag →
      ∀ direction, c.atWord? word direction = none := by
  intro c ports
  have represents : c.Represents (Registry.empty.offerAll decls) := represents_offerAll decls
  have hat := atWord?_of_represents represents
  have hnamed := named?_of_represents represents
  have hports : ports = (Registry.empty.offerAll decls).ports := represents.ports
  rcases Registry.lookups_of_offerAll decls with ⟨hoffer, hrest⟩
  refine ⟨fun decl => ?_, ?_⟩
  · -- Both refuse or both accept, and then the ports are appended.
    have houtcomes := register_outcomes represents decl
    have hoffer := hoffer decl
    rw [(represents_offer represents decl).ports, hoffer]
    generalize c.register decl = result at houtcomes
    generalize (Registry.empty.offerAll decls).register decl = result' at houtcomes
    cases houtcomes <;> simp only [hports]
  · simp only [hat, hnamed, hports]
    exact hrest

end Catalogue

end Transport
