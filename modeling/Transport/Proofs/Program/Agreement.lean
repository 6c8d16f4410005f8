import Transport.Module.Sample
import Transport.Proofs.Program.Moves
import Transport.Proofs.Registry.Order
import Transport.Proofs.Segment.Refinement

/-!
# Assembler and Compiler Agree on Names

The assembler looks a port up by its name and keeps nothing but the word of its
address. The compiler is given the word and looks the port up again, by address, and
puts a slot in the place of the module. What a line says and what an op does are
therefore joined by words alone, and a word could be taken for a literal, for a control
operation, for a fallback or for a port without an instance.

None of this happens in a registry that extends the standard one by modules with
instances. A named port has an address, under which the same port is found again; no
module is registered under the literal tag; the control words are those of the three
ports of `jmp`; and every other module has a slot. So an accepted listing compiles, but
for jumps that no program could make.

What a line means is stated by the ports of the registry and by the tables of the
segment, without looking anything up.

## Main definitions

* `Registry.Served`: Every module but `jmp` has instances.
* `Registry.Houses`: A slot holds the instance of a port's module.
* `Registry.Reaches`: A store goes through a port to the instance of its module.
* `Program.Loads`, `Program.Stores`: The access that an operand asks for.
* `Program.Lands`: The place in a segment that a jump asks for.
* `Program.Renders`: The op that a move asks for.
* `Program.misjump?`: What is wrong with a jump that no program can make.

## Theorems

* `served_offerAll`: Modules with instances may be added to the standard ones.
* `portWord_eq_ok_iff`, `ofWord?_of_named`: What the word of a name stands for.
* `shapeOf_of_move`: A move compiles as its operands ask, or misjumps.
* `compilation_agrees_with_listing`: All moves of a listing do.
-/

namespace Transport

/-! ## The ports of control operations -/

namespace Control

/-- The name of a control operation in a listing. -/
def name : Control → String
  | .branch => "jmp.branch"
  | .nonneg => "jmp.nonneg"
  | .zero => "jmp.zero"

/-- The port that gives a control operation its name. -/
def port : Control → Port
  | .branch => Module.Jump.decl.port (Module.Jump.controlPort "branch" .branch 0)
  | .nonneg => Module.Jump.decl.port (Module.Jump.controlPort "nonneg" .nonneg 1)
  | .zero => Module.Jump.decl.port (Module.Jump.controlPort "zero" .zero 2)

theorem mem_jump_ports_iff {p : Port} :
    p ∈ Module.Jump.decl.registered.ports ↔ ∃ operation : Control, p = operation.port := by
  constructor
  · intro member
    simp only [ModuleDecl.registered, Module.Jump.decl, List.map_cons, List.map_nil,
      List.mem_cons, List.not_mem_nil, or_false] at member
    rcases member with rfl | rfl | rfl
    · exact ⟨.branch, rfl⟩
    · exact ⟨.nonneg, rfl⟩
    · exact ⟨.zero, rfl⟩
  · rintro ⟨operation, rfl⟩
    cases operation <;> simp [ModuleDecl.registered, Module.Jump.decl, port]

theorem labels_port (operation : Control) : operation.port.labels = [operation.name] := by
  cases operation <;> rfl

theorem allows_port (operation : Control) :
    operation.port.allows .write = true ∧ operation.port.allows .read = false := by
  cases operation <;> exact ⟨rfl, rfl⟩

theorem address?_port (operation : Control) :
    operation.port.address? = some ⟨operation.word⟩ := by
  cases operation <;> rfl

end Control

namespace Registry

/-! ## Registries without further inline modules -/

/-- Offers add the modules of some of the declarations, in order. -/
theorem exists_sublist_offerAll (decls : List ModuleDecl) :
    ∀ r : Registry, ∃ taken : List ModuleDecl, taken.Sublist decls ∧
      (r.offerAll decls).modules = r.modules ++ taken.map ModuleDecl.registered := by
  induction decls with
  | nil =>
      intro r
      exact ⟨[], List.Sublist.refl [], (List.append_nil _).symm⟩
  | cons decl decls ih =>
      intro r
      rcases ih (r.offer decl) with ⟨taken, hsublist, hmodules⟩
      -- An offer that is refused leaves the declaration out.
      rcases r.offer_cases decl with same | ⟨_, added⟩
      · rw [same] at hmodules
        refine ⟨taken, hsublist.cons decl, ?_⟩
        rw [← hmodules, offerAll, List.foldl_cons, same]
        rfl
      · refine ⟨decl :: taken, hsublist.cons_cons decl, ?_⟩
        rw [added] at hmodules
        rw [offerAll, List.foldl_cons, added, ← offerAll, hmodules]
        simp [ModuleDecl.registered]

/-- Every module but that of the control operations has instances. -/
structure Served (r : Registry) : Prop where
  sound : r.Sound
  jump : Module.Jump.decl.registered ∈ r.modules
  others : ∀ m ∈ r.modules, m = Module.Jump.decl.registered ∨
    ∃ behaviour, m.decl.kind = .dispatched behaviour

theorem served_offerAll {further : List ModuleDecl}
    (dispatched : ∀ decl ∈ further, ∃ behaviour, decl.kind = .dispatched behaviour) :
    (standard.offerAll further).Served := by
  rcases exists_sublist_offerAll further standard with ⟨taken, hsublist, hmodules⟩
  constructor
  · -- Offering more modules to the standard registry is offering all of them to the empty one.
    have hoffers : standard.offerAll further = empty.offerAll (standardDecls ++ further) := by
      rw [offerAll, offerAll, List.foldl_append]
      rfl
    rw [hoffers]
    exact sound_offerAll _
  · rw [hmodules]
    refine List.mem_append_left _ ?_
    simp [standard, standardDecls, ModuleDecl.registered]
  · rw [hmodules, List.forall_mem_append]
    constructor
    · simp only [standard, standardDecls, List.map_cons, List.map_nil, List.forall_mem_cons]
      exact ⟨Or.inr ⟨_, rfl⟩, Or.inr ⟨_, rfl⟩, Or.inr ⟨_, rfl⟩, Or.inr ⟨_, rfl⟩, Or.inl rfl,
        by simp⟩
    · intro m hm
      rcases List.mem_map.mp hm with ⟨decl, hdecl, rfl⟩
      exact Or.inr (dispatched decl (hsublist.subset hdecl))

/-! ## Slots -/

/-- A registered port serves the direction and has the name as one of its labels. -/
def Names (r : Registry) (direction : Direction) (name : String) (p : Port) : Prop :=
  p ∈ r.ports ∧ p.allows direction = true ∧ name ∈ p.labels

/-- The slot holds the instance of the module that the port belongs to. -/
def Houses (r : Registry) (slot : Nat) (p : Port) : Prop :=
  ∃ m behaviour, m ∈ r.modules ∧ p ∈ m.ports ∧ m.decl.kind = .dispatched behaviour ∧
    r.dispatched[slot]? = some (m.decl.id, behaviour) ∧
    (Context.fresh r).instances[slot]? = some ⟨behaviour, behaviour.fresh⟩

/-- The store goes through the accessor of a port, at the instance of the port's module. -/
inductive Reaches (r : Registry) (p : Port) : Store → Prop
  | cell {slot : Nat} {index : UInt16} (houses : r.Houses slot p)
      (accessor : p.accessor = .cell index) : Reaches r p (.cell slot index)
  | call {slot : Nat} {key : UInt16} {address : Address} (houses : r.Houses slot p)
      (accessor : p.accessor = .handler key) (placed : p.address? = some address) :
      Reaches r p (.call slot key address)

section Sound

variable {r : Registry} (sound : r.Sound)

include sound

theorem dispatches_of_mem {m : RegisteredModule} (hm : m ∈ r.modules) {behaviour : Behaviour}
    (hkind : m.decl.kind = .dispatched behaviour) :
    Interpreter.dispatches r m.decl.id = true := by
  rw [Interpreter.dispatches, (module?_eq_some_iff sound).mpr ⟨hm, rfl⟩, Option.any_some, hkind]

/-- The slot of a module holds the instance that the module begins with. -/
theorem exists_instance_of_slot? {m : RegisteredModule} {slot : Nat} (hm : m ∈ r.modules)
    (h : slot? r.slotIds m.decl.id = some slot) :
    ∃ behaviour, m.decl.kind = .dispatched behaviour ∧
      r.dispatched[slot]? = some (m.decl.id, behaviour) ∧
      (Context.fresh r).instances[slot]? = some ⟨behaviour, behaviour.fresh⟩ := by
  rcases seats_of_slot? h with ⟨behaviour, hentry⟩
  rcases mem_dispatched_iff.mp (List.mem_of_getElem? hentry) with ⟨m', hm', hkind⟩
  -- An id has one module only.
  have same := (module?_eq_some_iff sound).mpr ⟨hm, rfl⟩
  rw [hm', Option.some.injEq] at same
  subst same
  refine ⟨behaviour, hkind, hentry, ?_⟩
  rw [Context.fresh, List.getElem?_toArray, List.getElem?_map, hentry, Option.map_some]

theorem houses_of_slot? {m : RegisteredModule} {p : Port} {slot : Nat} (hm : m ∈ r.modules)
    (hp : p ∈ m.ports) (h : slot? r.slotIds p.owner = some slot) : r.Houses slot p := by
  rw [owner_of_mem sound hm hp] at h
  rcases exists_instance_of_slot? sound hm h with ⟨behaviour, houses⟩
  exact ⟨m, behaviour, hm, hp, houses⟩

/-- A port that has an address is found there. -/
theorem atWord?_of_address? {direction : Direction} {p : Port} {word : Word} (hp : p ∈ r.ports)
    (serves : p.allows direction = true) (haddress : p.address? = some ⟨word⟩) :
    r.atWord? word direction = some p := by
  rw [atWord?_eq_some_iff sound]
  have fits := offsetFits_of_mem sound hp
  exact ⟨hp, ((Port.address?_eq_some_iff fits).mp haddress).1, serves, Or.inl haddress⟩

/-- The address of a port whose module has a slot is resolved to that slot. -/
theorem resolve_of_slot? {direction : Direction} {p : Port} {word : Word} {slot : Nat}
    (hp : p ∈ r.ports) (serves : p.allows direction = true) (haddress : p.address? = some ⟨word⟩)
    (hslot : slot? r.slotIds p.owner = some slot) :
    Segment.resolve r r.slotIds ⟨word⟩ direction = .ok (slot, p.accessor) := by
  simp only [Segment.resolve, atWord?_of_address? sound hp serves haddress, hslot]

/-- The address of a port with an instance is resolved to that port. -/
theorem exists_resolve {direction : Direction} {p : Port} {word : Word} (hp : p ∈ r.ports)
    (serves : p.allows direction = true) (haddress : p.address? = some ⟨word⟩)
    (dispatches : Interpreter.dispatches r p.owner = true) :
    ∃ slot, r.Houses slot p ∧
      Segment.resolve r r.slotIds ⟨word⟩ direction = .ok (slot, p.accessor) := by
  rcases exists_slot? dispatches with ⟨slot, hslot⟩
  rcases mem_ports_iff.mp hp with ⟨m, hm, hmp⟩
  exact ⟨slot, houses_of_slot? sound hm hmp hslot, resolve_of_slot? sound hp serves haddress hslot⟩

/-- The address of a port to write with an instance is compiled into a store that reaches
    the port. -/
theorem exists_storeOf {p : Port} {word : Word} (hp : p ∈ r.ports)
    (serves : p.allows .write = true) (haddress : p.address? = some ⟨word⟩)
    (dispatches : Interpreter.dispatches r p.owner = true) :
    ∃ store, Segment.storeOf r r.slotIds ⟨word⟩ = .ok store ∧ r.Reaches p store := by
  rcases exists_resolve sound hp serves haddress dispatches with ⟨slot, houses, hresolve⟩
  simp only [Segment.storeOf, hresolve, bind, Except.bind]
  cases haccessor : p.accessor with
  | cell index => exact ⟨_, rfl, .cell houses haccessor⟩
  | handler key => exact ⟨_, rfl, .call houses haccessor haddress⟩

end Sound

section Served

variable {r : Registry} (served : r.Served)

include served

theorem mem_ports_control (operation : Control) : operation.port ∈ r.ports :=
  mem_ports_iff.mpr ⟨_, served.jump, Control.mem_jump_ports_iff.mpr ⟨operation, rfl⟩⟩

/-- Every port has an instance behind it or gives a control operation its name. -/
theorem dispatches_or_eq_port {p : Port} (hp : p ∈ r.ports) :
    Interpreter.dispatches r p.owner = true ∨ ∃ operation : Control, p = operation.port := by
  rcases mem_ports_iff.mp hp with ⟨m, hm, hp⟩
  rcases served.others m hm with rfl | ⟨behaviour, hkind⟩
  · exact Or.inr (Control.mem_jump_ports_iff.mp hp)
  · left
    rw [owner_of_mem served.sound hm hp]
    exact dispatches_of_mem served.sound hm hkind

/-- The word of a named destination is a control word exactly if the name is that of
    the control operation. -/
theorem ofWord?_of_named {name : String} {p : Port} {word : Word} {operation : Control}
    (named : r.Names .write name p) (haddress : p.address? = some ⟨word⟩) :
    Control.ofWord? word = some operation ↔ name = operation.name := by
  have hport := mem_ports_control served operation
  rw [Control.ofWord?_eq_some]
  constructor
  · rintro rfl
    -- There is one port at the word, and it has one name.
    have same := atWord?_of_address? served.sound hport operation.allows_port.1 operation.address?_port
    rw [atWord?_of_address? served.sound named.1 named.2.1 haddress, Option.some.injEq] at same
    have own := named.2.2
    rw [same, operation.labels_port, List.mem_singleton] at own
    exact own
  · rintro rfl
    -- There is one port of the name, and it is at one word.
    have same : r.named? operation.name .write = some operation.port :=
      (named?_eq_some_iff served.sound).mpr
        ⟨hport, operation.allows_port.1, by simp [operation.labels_port]⟩
    rw [(named?_eq_some_iff served.sound).mpr named, Option.some.injEq] at same
    rw [same, operation.address?_port, Option.some.injEq, Address.mk.injEq] at haddress
    exact haddress.symm

end Served

end Registry

namespace Program

/-! ## What a move asks for -/

/-- The load that a source asks for: the constant that it is, or the accessor of the
    port that it names, at the instance of the port's module. -/
inductive Loads (r : Registry) : Token → Load → Prop
  | literal (value : Word) : Loads r (.literal value) (.const value)
  | cell {name : String} {p : Port} {slot : Nat} {index : UInt16} (named : r.Names .read name p)
      (houses : r.Houses slot p) (accessor : p.accessor = .cell index) :
      Loads r (.name name) (.cell slot index)
  | call {name : String} {p : Port} {slot : Nat} {key : UInt16} {address : Address}
      (named : r.Names .read name p) (houses : r.Houses slot p)
      (accessor : p.accessor = .handler key) (placed : p.address? = some address) :
      Loads r (.name name) (.call slot key address)

/-- The store that a destination asks for: the accessor of the port that it names, at the
    instance of the port's module. -/
inductive Stores (r : Registry) : Token → Store → Prop
  | cell {name : String} {p : Port} {slot : Nat} {index : UInt16} (named : r.Names .write name p)
      (houses : r.Houses slot p) (accessor : p.accessor = .cell index) :
      Stores r (.name name) (.cell slot index)
  | call {name : String} {p : Port} {slot : Nat} {key : UInt16} {address : Address}
      (named : r.Names .write name p) (houses : r.Houses slot p)
      (accessor : p.accessor = .handler key) (placed : p.address? = some address) :
      Stores r (.name name) (.call slot key address)

/-- Where a jump to an offset leads in a segment: to the first op of the instruction that
    begins there, or out of the segment. -/
inductive Lands (segment : Segment) (target : Word) : Target → Prop
  | inside {index op : Nat} (there : target = Segment.offsetOf segment.start index)
      (entry : segment.entries[index]? = some op) : Lands segment target (.inside op)
  | outside (beyond : ¬(segment.start ≤ target ∧ target < segment.stop)) :
      Lands segment target (.outside target)

/-- The op that a move asks for, at an offset of a segment. -/
inductive Renders (r : Registry) (segment : Segment) (offset : Word) : Token → Token → Op → Prop
  | move {s d : Token} {load : Load} {store : Store} (loads : Loads r s load)
      (stores : Stores r d store) : Renders r segment offset s d (.move offset load store)
  | branch {target : Word} {place : Target} (aligned : target % 8 = 0)
      (lands : Lands segment target place) :
      Renders r segment offset (.literal target) (.name Control.branch.name) (.branch place)
  | nonneg {s : Token} {load : Load} (loads : Loads r s load) :
      Renders r segment offset s (.name Control.nonneg.name) (.test offset load .nonneg)
  | zero {s : Token} {load : Load} (loads : Loads r s load) :
      Renders r segment offset s (.name Control.zero.name) (.test offset load .zero)

/-- Why a move is a jump that no program can make: it takes its target from a port, or the
    target is no multiple of eight. -/
def misjump? (source destination : Token) : Option Obstacle :=
  if destination = .name Control.branch.name then
    match source with
    | .name _ => some .dynamicJump
    | .literal target => if target % 8 = 0 then none else some (.misalignedJump target)
    | _ => none
  else none

/-- A token as listings without raw words have it. -/
def Spelled (token : Token) : Prop :=
  (∀ word, token ≠ .raw word) ∧ ∀ value, token = .literal value → value ≤ offsetMask

section Moves

variable {r : Registry} (served : r.Served)

/-! ## Operands -/

theorem ofWord_literal {value : Word} (fits : value ≤ offsetMask) :
    Source.ofWord (literalTag.toUInt32 <<< 24 ||| value) = .literal value := by
  have hclassified := Source.ofWord_word_literal value
  rw [Source.word, Word.and_offsetMask_eq_iff.mpr fits] at hclassified
  exact hclassified

include served

theorem exists_names_of_portWord {name : String} {direction : Direction} {word : Word}
    (h : portWord r name direction = .ok word) :
    ∃ p, r.Names direction name p ∧ p.address? = some ⟨word⟩ := by
  unfold portWord at h
  cases hnamed : r.named? name direction with
  | none => simp only [hnamed, reduceCtorEq] at h
  | some p =>
      cases haddress : p.address? with
      | none => simp only [hnamed, haddress, reduceCtorEq] at h
      | some address =>
          simp only [hnamed, haddress, Except.ok.injEq] at h
          subst h
          exact ⟨p, (Registry.named?_eq_some_iff served.sound).mp hnamed, haddress⟩

/-- A source is a literal or the address of a named port, and its word is read as that. -/
theorem source_of_sourceWord {s : Token} {word : Word} (spelled : Spelled s)
    (h : sourceWord r s = .ok word) :
    (∃ value, s = .literal value ∧ Source.ofWord word = .literal value) ∨
      ∃ name p, s = .name name ∧ r.Names .read name p ∧ p.address? = some ⟨word⟩ ∧
        Source.ofWord word = .port ⟨word⟩ := by
  cases s with
  | literal value =>
      cases h
      exact Or.inl ⟨value, rfl, ofWord_literal (spelled.2 value rfl)⟩
  | raw w => exact absurd rfl (spelled.1 w)
  | name name =>
      rcases exists_names_of_portWord served h with ⟨p, named, haddress⟩
      refine Or.inr ⟨name, p, rfl, named, haddress, if_neg ?_⟩
      -- No port is under the literal tag.
      have fits := Registry.offsetFits_of_mem served.sound named.1
      have howner := ((Port.address?_eq_some_iff fits).mp haddress).1
      exact fun tagged => Registry.owner_ne_literalTag served.sound named.1 (howner.trans tagged)
  | arrow => contradiction
  | comment => contradiction
  | newline => contradiction

theorem destination_of_destinationWord {d : Token} {word : Word} (spelled : Spelled d)
    (h : destinationWord r d = .ok word) :
    ∃ name p, d = .name name ∧ r.Names .write name p ∧ p.address? = some ⟨word⟩ := by
  cases d with
  | raw w => exact absurd rfl (spelled.1 w)
  | name name =>
      rcases exists_names_of_portWord served h with ⟨p, named, haddress⟩
      exact ⟨name, p, rfl, named, haddress⟩
  | literal value => contradiction
  | arrow => contradiction
  | comment => contradiction
  | newline => contradiction

theorem exists_loads {s : Token} {word : Word} (spelled : Spelled s)
    (h : sourceWord r s = .ok word) :
    ∃ load, Segment.loadOf r r.slotIds (.ofWord word) = .ok load ∧ Loads r s load := by
  -- The operand is written as a literal or as a name, and decodes as what it was encoded from.
  rcases source_of_sourceWord served spelled h with
    ⟨value, rfl, hsource⟩ | ⟨name, p, rfl, named, haddress, hsource⟩
  · exact ⟨.const value, by rw [hsource]; rfl, .literal value⟩
  · -- A port that can be read is none of those that name control operations.
    have dispatches : Interpreter.dispatches r p.owner = true := by
      rcases Registry.dispatches_or_eq_port served named.1 with dispatches | ⟨operation, rfl⟩
      · exact dispatches
      · have serves := named.2.1
        rw [operation.allows_port.2] at serves
        contradiction
    rcases Registry.exists_resolve served.sound named.1 named.2.1 haddress dispatches with
      ⟨slot, houses, hresolve⟩
    rw [hsource]
    simp only [Segment.loadOf, hresolve, bind, Except.bind]
    cases haccessor : p.accessor with
    | cell index => exact ⟨_, rfl, .cell named houses haccessor⟩
    | handler key => exact ⟨_, rfl, .call named houses haccessor haddress⟩

theorem exists_stores {name : String} {p : Port} {word : Word} (named : r.Names .write name p)
    (haddress : p.address? = some ⟨word⟩)
    (dispatches : Interpreter.dispatches r p.owner = true) :
    ∃ store, Segment.storeOf r r.slotIds ⟨word⟩ = .ok store ∧ Stores r (.name name) store := by
  rcases Registry.exists_storeOf served.sound named.1 named.2.1 haddress dispatches with
    ⟨store, hstore, reaches⟩
  refine ⟨store, hstore, ?_⟩
  cases reaches with
  | cell houses accessor => exact .cell named houses accessor
  | call houses accessor placed => exact .call named houses accessor placed

/-! ## Moves -/

/-- A move is compiled into the op that its operands ask for, unless it is a jump that
    no program can make. -/
theorem shapeOf_of_move {s d : Token} {i : Instruction} (hs : Spelled s) (hd : Spelled d)
    (h : move r s d = .ok i) (offset : Word) {segment : Segment} {start stop : Word}
    {stride : Nat} (lands : ∀ target, target % 8 = 0 →
      Lands segment target (Segment.targetOf start stop stride target)) :
    (∃ cause, misjump? s d = some cause ∧ Segment.shapeOf r r.slotIds i = .error cause) ∨
      misjump? s d = none ∧ ∃ shape, Segment.shapeOf r r.slotIds i = .ok shape ∧
        ∀ source destination, Renders r segment offset s d
          (Segment.opOf (Segment.targetOf start stop stride) ⟨offset, source, destination, shape⟩) := by
  rcases words_of_move h with ⟨source, destination, hsource, hdestination, rfl⟩
  rcases exists_loads served hs hsource with ⟨load, hload, loads⟩
  rcases destination_of_destinationWord served hd hdestination with ⟨name, p, rfl, named, haddress⟩
  have hcontrol : ∀ operation, Control.ofWord? destination = some operation ↔
      name = operation.name := fun _ => Registry.ofWord?_of_named served named haddress
  have unjumped : name ≠ Control.branch.name → misjump? s (.name name) = none :=
    fun other => if_neg fun same => other (Token.name.inj same)
  simp only [Segment.shapeOf, Instruction.ofWords, Destination.ofWord]
  -- The compiler tells control operations by the word, the listing by the name.
  cases hoperation : Control.ofWord? destination with
  | none =>
      have other : ∀ operation : Control, name ≠ operation.name := by
        intro operation same
        rw [(hcontrol operation).mpr same] at hoperation
        contradiction
      have dispatches : Interpreter.dispatches r p.owner = true := by
        rcases Registry.dispatches_or_eq_port served named.1 with dispatches | ⟨operation, rfl⟩
        · exact dispatches
        · have own := named.2.2
          rw [operation.labels_port, List.mem_singleton] at own
          exact absurd own (other operation)
      rcases exists_stores served named haddress dispatches with ⟨store, hstore, stores⟩
      refine Or.inr ⟨unjumped (other .branch), .move load store, ?_, fun _ _ => ?_⟩
      · simp only [hload, hstore, bind, Except.bind, pure, Except.pure]
      · exact .move loads stores
  | some operation =>
      obtain rfl := (hcontrol operation).mp hoperation
      cases operation with
      | branch =>
          rcases source_of_sourceWord served hs hsource with
            ⟨target, rfl, hliteral⟩ | ⟨_, _, rfl, _, _, hport⟩
          · simp only [hliteral, Segment.branchOf]
            by_cases aligned : target % 8 = 0
            · refine Or.inr ⟨?_, .branch target, ?_, fun _ _ =>
                .branch aligned (lands target aligned)⟩
              · rw [misjump?, if_pos rfl]
                exact if_pos aligned
              · rw [if_pos aligned]
                rfl
            · refine Or.inl ⟨.misalignedJump target, ?_, ?_⟩
              · rw [misjump?, if_pos rfl]
                exact if_neg aligned
              · rw [if_neg aligned]
                rfl
          · simp only [hport, Segment.branchOf]
            exact Or.inl ⟨.dynamicJump, if_pos rfl, rfl⟩
      | nonneg =>
          refine Or.inr ⟨unjumped (by decide), .test load .nonneg, ?_, fun _ _ => .nonneg loads⟩
          simp only [hload, bind, Except.bind, pure, Except.pure]
      | zero =>
          refine Or.inr ⟨unjumped (by decide), .test load .zero, ?_, fun _ _ => .zero loads⟩
          simp only [hload, bind, Except.bind, pure, Except.pure]

end Moves

/-! ## Listings -/

theorem lands_targetOf (r : Registry) (options : Options) {ram : Ram}
    {start stop target : Word} (valid : Segment.validRange ram start stop = true)
    (aligned : target % 8 = 0) :
    Lands (Segment.layout r options ram start stop) target
      (Segment.targetOf start stop options.stride target) := by
  unfold Segment.targetOf
  by_cases within : start ≤ target ∧ target < stop
  · rcases Segment.offsetOf_countOf_of_mem valid aligned within with ⟨hindex, htarget⟩
    rw [if_pos within]
    refine .inside htarget.symm ?_
    rw [Segment.getElem?_entries_layout, if_pos hindex]
  · rw [if_neg within]
    exact .outside within

/-- The range of a program that is not too long is valid, and has a slot for every move. -/
theorem validRange_image {program : Program} (short : program.size < 0x20000000) :
    Segment.validRange program.image 0 (UInt32.ofNat program.bytes.length) = true ∧
      Segment.countOf 0 (UInt32.ofNat program.bytes.length) = program.size := by
  have hstop : (UInt32.ofNat program.bytes.length).toNat = 8 * program.size := by
    rw [UInt32.toNat_ofNat', length_bytes]
    exact Nat.mod_eq_of_lt (by omega)
  have hsize : program.image.size = 8 * program.size := by
    rw [← length_bytes, Ram.size, image, List.size_toArray]
  constructor
  · rw [Segment.validRange_iff, hstop, hsize, UInt32.toNat_zero]
    omega
  · rw [Segment.countOf_eq, hstop, UInt32.toNat_zero]
    omega

/-- The slot of a move in an image is classified as what its two words stand for. -/
theorem slotAt_image {r : Registry} {program : Program} {index : Nat} {i : Instruction}
    (h : program.instructions[index]? = some i) (short : program.size < 0x20000000) :
    Segment.slotAt r r.slotIds program.image (Segment.offsetOf 0 index) =
      ⟨Segment.offsetOf 0 index, i.source.word, i.destination.word,
        Segment.classify r r.slotIds (.ofWords i.source.word i.destination.word)⟩ := by
  have inside : index < program.size := (List.getElem?_eq_some_iff.mp h).1
  have hwords : Segment.wordsAt program.image (Segment.offsetOf 0 index) = i.words :=
    wordsAt_image h (by omega)
  rw [Segment.slotAt, hwords]
  rfl

theorem spelled_of_mem_operands {text : String}
    (unraw : ∀ word, .ok (.raw word) ∉ Item.values text) {s d : Token}
    (h : (s, d) ∈ operands text) : Spelled s ∧ Spelled d := by
  have hspelled : ∀ token, .ok token ∈ Item.values text → Spelled token := by
    intro token member
    constructor
    · rintro word rfl
      exact unraw word member
    · rintro value rfl
      exact le_offsetMask_of_mem_values member
  rcases mem_values_of_mem_operands h with ⟨hs, hd⟩
  exact ⟨hspelled s hs, hspelled d hd⟩

/-- The slot of a move in an accepted listing is what its operands ask for, or has the
    error of a jump that no program can make. -/
theorem slot_of_operands {r : Registry} (served : r.Served) {text : String}
    (unraw : ∀ word, .ok (.raw word) ∉ Item.values text) {program : Program}
    (accepted : ofListing r text = .ok program) (short : program.size < 0x20000000)
    (options : Options) (index : Nat) (s d : Token) (h : (operands text)[index]? = some (s, d)) :
    let stop := UInt32.ofNat program.bytes.length
    let slot := Segment.slotAt r r.slotIds program.image (Segment.offsetOf 0 index)
    (∃ cause, misjump? s d = some cause ∧
        Segment.slotError? slot = some (cause.errorAt (Segment.offsetOf 0 index))) ∨
      misjump? s d = none ∧ Segment.slotError? slot = none ∧
        Renders r (Segment.layout r options program.image 0 stop) (Segment.offsetOf 0 index) s d
          (Segment.opFor r options program.image 0 stop index) := by
  intro stop slot
  -- The operands at the index, the move of them and its slot are about one line.
  rcases List.forall₂_iff_get.mp (forall₂_of_ofListing accepted) with ⟨hlength, hmove⟩
  rcases List.getElem?_eq_some_iff.mp h with ⟨inside, hoperands⟩
  have hi : program.instructions[index]? = some program.instructions[index] :=
    List.getElem?_eq_getElem (hlength ▸ inside)
  have hmove := hmove index inside (hlength ▸ inside)
  rw [List.get_eq_getElem, List.get_eq_getElem, hoperands] at hmove
  generalize program.instructions[index] = i at hi hmove
  rcases spelled_of_mem_operands unraw (List.mem_of_getElem? h) with ⟨hs, hd⟩
  have valid := (validRange_image short).1
  have hslot := slotAt_image (r := r) hi short
  rw [(decoded_of_move hmove).ofWords_words] at hslot
  rcases shapeOf_of_move served hs hd hmove (Segment.offsetOf 0 index)
      (fun target aligned => lands_targetOf r options valid aligned) with
    ⟨cause, misjumps, hshape⟩ | ⟨jumps, shape, hshape, renders⟩
  · refine Or.inl ⟨cause, misjumps, ?_⟩
    simp only [slot, hslot, Segment.slotError?, Segment.classify, hshape]
  · have hclassify : Segment.classify r r.slotIds i = shape := by
      simp only [Segment.classify, hshape]
    rw [hclassify] at hslot
    refine Or.inr ⟨jumps, ?_, ?_⟩
    · -- No move asks for a trap.
      simp only [slot, hslot, Segment.slotError?]
      cases shape with
      | trap cause => cases renders 0 0
      | move load store => rfl
      | test load test => rfl
      | branch target => rfl
    · rw [Segment.opFor, hslot]
      exact renders _ _

/-- Assembler and compiler agree on names. In every registry that comes of the standard
    one by offers of modules with instances, for every listing without raw words that is
    accepted and has fewer than 2^29 moves: a strict compilation of the bytes of the program
    over their whole length is a segment that has, for the operands on each line with a
    move, the op that they ask for; or it fails because of the first jump that no program
    can make. -/
theorem compilation_agrees_with_listing (further : List ModuleDecl)
    (dispatched : ∀ decl ∈ further, ∃ behaviour, decl.kind = .dispatched behaviour)
    (text : String) (unraw : ∀ word, .ok (.raw word) ∉ Item.values text) (program : Program)
    (accepted : ofListing (Registry.standard.offerAll further) text = .ok program)
    (short : program.size < 0x20000000) (singleStep : Bool) :
    let r := Registry.standard.offerAll further
    let stop := UInt32.ofNat program.bytes.length
    let compiled := Segment.compile r ⟨true, singleStep⟩ program.image 0 stop
    (operands text).length = program.size ∧
    ((∃ segment, compiled = .ok segment ∧ segment.size = program.size ∧
        ∀ index s d, (operands text)[index]? = some (s, d) →
          misjump? s d = none ∧ ∃ op, segment.opAt? index = some op ∧
            Renders r segment (UInt32.ofNat (8 * index)) s d op) ∨
      ∃ index s d cause, (operands text)[index]? = some (s, d) ∧ misjump? s d = some cause ∧
        compiled = .error (cause.errorAt (UInt32.ofNat (8 * index))) ∧
        ∀ before, before < index → ∀ s d, (operands text)[before]? = some (s, d) →
          misjump? s d = none) := by
  intro r stop compiled
  have served : r.Served := Registry.served_offerAll dispatched
  have hlength : (operands text).length = program.size :=
    (forall₂_of_ofListing accepted).length_eq
  have hoffset : ∀ index, Segment.offsetOf 0 index = UInt32.ofNat (8 * index) :=
    fun index => UInt32.zero_add _
  rcases validRange_image short with ⟨valid, hcount⟩
  have hslot := slot_of_operands served unraw accepted short ⟨true, singleStep⟩
  refine ⟨hlength, ?_⟩
  cases hcompiled : compiled with
  | ok segment =>
      rcases Segment.compile_eq_ok_iff.mp hcompiled with ⟨_, clean, rfl⟩
      refine Or.inl ⟨_, rfl, (Segment.size_layout r _ _).trans hcount, fun index s d h => ?_⟩
      have inside : index < Segment.countOf 0 stop := by
        rw [hcount, ← hlength]
        exact (List.getElem?_eq_some_iff.mp h).1
      rcases hslot index s d h with ⟨cause, _, failed⟩ | ⟨jumps, _, renders⟩
      · rw [clean rfl index inside] at failed
        contradiction
      · rw [hoffset] at renders
        exact ⟨jumps, _, Segment.opAt?_layout inside, renders⟩
  | error error =>
      -- The range is valid, so one slot has an error and those before it have none.
      rcases Segment.compile_eq_error_iff.mp hcompiled with
        ⟨invalid, _⟩ | ⟨_, _, index, inside, failed, earlier⟩
      · rw [valid] at invalid
        contradiction
      · right
        rw [hcount, ← hlength] at inside
        have h := List.getElem?_eq_getElem inside
        generalize (operands text)[index] = operands at h
        rcases operands with ⟨s, d⟩
        rcases hslot index s d h with ⟨cause, misjumps, failed'⟩ | ⟨_, clean, _⟩
        · rw [failed', hoffset, Option.some.injEq] at failed
          refine ⟨index, s, d, cause, h, misjumps, failed ▸ rfl, fun before hbefore s' d' h' => ?_⟩
          rcases hslot before s' d' h' with ⟨_, _, failed⟩ | ⟨jumps, _⟩
          · rw [earlier before hbefore] at failed
            contradiction
          · exact jumps
        · rw [clean] at failed
          contradiction

/-- A module with instances, a port under two names and a fallback. -/
def bankDecl : ModuleDecl where
  id := 0x60
  stem := "bank"
  cells := 4
  ports := [
    { name := "first", aliases := ["a"], position := .fixed 0x20, capability := .readWrite,
      accessor := .cell 0 },
    { name := "any", position := .fallback, capability := .write, accessor := .handler 1 }]
  kind := .dispatched Module.Sample.bank

-- Aliases on both sides and a jump; with a second jump, from a port, it would not compile.
theorem compilation_agrees_with_listing_bank :
    let r := Registry.standard.offerAll [bankDecl]
    let text := "bank.a -> mem.addr ; by other names\n\n#8 -> jmp.branch"
    ∃ program, ofListing r text = .ok program ∧ program.size = 2 ∧
      ∃ segment, Segment.compile r ⟨true, true⟩ program.image 0 16 = .ok segment ∧
        ∃ first second, segment.opAt? 0 = some first ∧ segment.opAt? 1 = some second ∧
          Renders r segment 0 (.name "bank.a") (.name "mem.addr") first ∧
          Renders r segment 8 (.literal 8) (.name "jmp.branch") second := by
  intro r text
  have dispatched : ∀ decl ∈ [bankDecl], ∃ behaviour, decl.kind = .dispatched behaviour := by
    rw [List.forall_mem_singleton]
    exact ⟨_, rfl⟩
  have htokens : (Item.values text).map Except.toOption = [some (.name "bank.a"), some .arrow,
      some (.name "mem.addr"), some .comment, some .newline, some .newline, some (.literal 8),
      some .arrow, some (.name "jmp.branch")] := by decide +kernel
  -- No value of the text is a raw word.
  have unraw : ∀ word, .ok (.raw word) ∉ Item.values text := by
    intro word member
    have hraw := List.mem_map_of_mem (f := Except.toOption) member
    rw [htokens] at hraw
    simp [Except.toOption] at hraw
  have hoperands : operands text = [(.name "bank.a", .name "mem.addr"),
      (.literal 8, .name "jmp.branch")] := by decide +kernel
  have hlisting : (ofListing r text).toOption = some ⟨[
      ⟨.port ⟨0x60000020⟩, .port ⟨0x13000001⟩⟩, ⟨.literal 8, .control .branch⟩]⟩ := by
    decide +kernel
  cases haccepted : ofListing r text with
  | error error =>
      rw [haccepted] at hlisting
      contradiction
  | ok program =>
      rw [haccepted] at hlisting
      cases hlisting
      rcases compilation_agrees_with_listing [bankDecl] dispatched text unraw _ haccepted
        (by decide) true with
        ⟨_, ⟨segment, hcompiled, _, hops⟩ | ⟨index, s, d, cause, h, failed, _⟩⟩
      · rw [hoperands] at hops
        rcases hops 0 _ _ rfl with ⟨_, first, hfirst, renders⟩
        rcases hops 1 _ _ rfl with ⟨_, second, hsecond, renders'⟩
        exact ⟨_, rfl, rfl, segment, hcompiled, first, second, hfirst, hsecond, renders, renders'⟩
      · -- Neither of the two moves is a jump that no program can make.
        rw [hoperands] at h
        have hclean : [(Token.name "bank.a", Token.name "mem.addr"),
            (.literal 8, .name "jmp.branch")].all (fun operands =>
              (misjump? operands.1 operands.2).isNone) = true := by decide
        have hnone := List.all_eq_true.mp hclean _ (List.mem_of_getElem? h)
        rw [failed] at hnone
        contradiction

end Program

end Transport
