import Transport.Proofs.Program.Disassembly
import Transport.Registry.Standard
import Transport.Segment.Compilation

/-!
# The Order of Registration Does Not Matter

Declarations that a registry takes up one after the other, it takes up in every other
order too, and then it answers the same. What registration asks of a declaration is
something about the declaration alone and something about it next to each module that
came before; and the second is symmetric, so it does not matter which came before.

The order still shows in the list of modules and in the list of ports. Lookups do not
depend on it, because no two ports are in each other's way: they are determined by
which ports there are. All else that is made of a registry (the slots of instances,
listings, programs and segments) is made of lookups.

## Main definitions

* `ModuleDecl.Sound`: What is asked of a declaration by itself.
* `RegisteredModule.Beside`: What is asked of two modules.
* `Registry.Alike`: Two registries that answer the same.

## Theorems

* `registerAll_eq_ok_iff`: When declarations are taken up, and with what result.
* `alike_of_perm`: Registries of the same modules answer the same.
* `compile_of_alike`, `ofListing_of_alike`, `disassemble_of_alike`: What is made of them.
* `registration_order_is_irrelevant`: All of it.
-/

namespace Transport

/-- The module that a declaration becomes. -/
def ModuleDecl.registered (decl : ModuleDecl) : RegisteredModule :=
  ⟨decl, decl.ports.map decl.port⟩

/-- What a registry asks of a declaration by itself. -/
structure ModuleDecl.Sound (decl : ModuleDecl) : Prop where
  unreserved : decl.id ≠ literalTag
  sound : ∀ p ∈ decl.registered.ports, p.OffsetFits ∧ p.CellFits decl.cells ∧ p.labels.Nodup
  apart : decl.registered.ports.Pairwise Port.Apart
  unlike : decl.registered.ports.Pairwise Port.Unlike

/-- Two modules that a registry can hold: of different ids, and without a common label. -/
def RegisteredModule.Beside (m m' : RegisteredModule) : Prop :=
  m.decl.id ≠ m'.decl.id ∧ ∀ p ∈ m.ports, ∀ q ∈ m'.ports, p.Unlike q

instance : Std.Symm RegisteredModule.Beside where
  symm _ _ h := ⟨h.1.symm, fun q hq p hp direction servesq serves label own other =>
    h.2 p hp q hq direction serves servesq label other own⟩

namespace Registry

theorem admits_iff {r : Registry} {decl : ModuleDecl} :
    r.Admits decl ↔ decl.Sound ∧ ∀ m ∈ r.modules, m.Beside decl.registered := by
  constructor
  · intro h
    exact ⟨⟨h.unreserved, h.sound, h.apart, h.unlike⟩, fun m hm =>
      ⟨h.free m hm, fun q hq p hp => h.known p hp q (mem_ports_iff.mpr ⟨m, hm, hq⟩)⟩⟩
  · rintro ⟨sound, beside⟩
    refine ⟨sound.unreserved, fun m hm => (beside m hm).1, sound.sound, sound.apart, sound.unlike,
      fun p hp q hq => ?_⟩
    rcases mem_ports_iff.mp hq with ⟨m, hm, hq⟩
    exact (beside m hm).2 q hq p hp

/-- Declarations are taken up if each of them is sound and no two of them are in each
    other's way, nor one of them and a module that was there before. -/
theorem registerAll_eq_ok_iff {decls : List ModuleDecl} :
    ∀ {r r' : Registry}, r.registerAll decls = .ok r' ↔ (∀ decl ∈ decls, decl.Sound) ∧
      (∀ m ∈ r.modules, ∀ decl ∈ decls, m.Beside decl.registered) ∧
      (decls.map ModuleDecl.registered).Pairwise RegisteredModule.Beside ∧
      r' = ⟨r.modules ++ decls.map ModuleDecl.registered⟩ := by
  induction decls with
  | nil =>
      intro r r'
      simp only [registerAll, List.foldlM_nil, pure, Except.pure, Except.ok.injEq, List.not_mem_nil,
        false_implies, implies_true, List.map_nil, List.Pairwise.nil, List.append_nil, true_and]
      exact eq_comm
  | cons decl decls ih =>
      intro r r'
      have hsteps : r.registerAll (decl :: decls) = .ok r' ↔ r.Admits decl ∧
          registerAll ⟨r.modules ++ [decl.registered]⟩ decls = .ok r' := by
        unfold registerAll
        rw [List.foldlM_cons]
        cases hregister : r.register decl with
        | error rejection =>
            -- Nothing that is admitted is refused.
            simp only [bind, Except.bind, reduceCtorEq, false_iff, not_and]
            intro admits
            rw [register_eq_ok_iff.mpr ⟨admits, rfl⟩] at hregister
            contradiction
        | ok r₁ =>
            rcases register_eq_ok_iff.mp hregister with ⟨admits, rfl⟩
            exact (and_iff_right admits).symm
      rw [hsteps, admits_iff, ih]
      simp only [List.forall_mem_append, List.forall_mem_cons, List.not_mem_nil, false_implies,
        implies_true, and_true, List.map_cons, List.pairwise_cons, List.forall_mem_map,
        List.append_assoc, List.singleton_append, forall_and]
      -- What the first leaves to the others is that they get along with it.
      constructor
      · rintro ⟨⟨sound, beside⟩, sounds, ⟨besides, first⟩, pairwise, rfl⟩
        exact ⟨⟨sound, sounds⟩, ⟨beside, besides⟩, ⟨first, pairwise⟩, rfl⟩
      · rintro ⟨⟨sound, sounds⟩, ⟨beside, besides⟩, ⟨first, pairwise⟩, rfl⟩
        exact ⟨⟨sound, beside⟩, sounds, ⟨besides, first⟩, pairwise, rfl⟩

/-- What is taken up in one order is taken up in every order. -/
theorem exists_registerAll_of_perm {r r₁ : Registry} {decls decls' : List ModuleDecl}
    (permuted : decls.Perm decls') (taken : r.registerAll decls = .ok r₁) :
    ∃ r₂, r.registerAll decls' = .ok r₂ ∧ r₂.modules.Perm r₁.modules := by
  rcases registerAll_eq_ok_iff.mp taken with ⟨sound, beside, pairwise, rfl⟩
  have hregistered := permuted.map ModuleDecl.registered
  refine ⟨_, registerAll_eq_ok_iff.mpr ⟨fun decl member => ?_, fun m hm decl member => ?_, ?_, rfl⟩,
    (hregistered.append_left r.modules).symm⟩
  · exact sound decl (permuted.mem_iff.mpr member)
  · exact beside m hm decl (permuted.mem_iff.mpr member)
  · -- Which of two modules came first does not matter for being beside each other.
    exact (hregistered.pairwise_iff fun h => Std.Symm.symm _ _ h).mp pairwise

theorem sound_registerAll {decls : List ModuleDecl} :
    ∀ {r r' : Registry}, r.Sound → r.registerAll decls = .ok r' → r'.Sound := by
  -- Each registration that is taken keeps the registry sound.
  induction decls with
  | nil =>
      intro r r' sound taken
      cases taken
      exact sound
  | cons decl decls ih =>
      intro r r' sound taken
      unfold registerAll at taken
      rw [List.foldlM_cons] at taken
      cases hregister : r.register decl with
      | error rejection =>
          rw [hregister] at taken
          contradiction
      | ok r₁ =>
          rw [hregister] at taken
          rcases register_eq_ok_iff.mp hregister with ⟨admits, rfl⟩
          exact ih (sound_append sound admits) taken

/-! ## Registries that answer the same -/

/-- Two registries that give the same answers. -/
structure Alike (r r' : Registry) : Prop where
  atWord : r'.atWord? = r.atWord?
  named : r'.named? = r.named?
  module : r'.module? = r.module?

/-- Which ports and modules there are determines the answers. -/
theorem alike_of_perm {r r' : Registry} (sound : r.Sound) (sound' : r'.Sound)
    (permuted : r'.modules.Perm r.modules) : Alike r r' := by
  -- Every lookup is by membership, which does not see the order.
  have hports : ∀ p, p ∈ r'.ports ↔ p ∈ r.ports := fun p => (permuted.flatMap_right _).mem_iff
  constructor
  · funext word direction
    refine Option.ext fun p => ?_
    simp only [atWord?_eq_some_iff sound, atWord?_eq_some_iff sound', hports]
  · funext name direction
    refine Option.ext fun p => ?_
    simp only [named?_eq_some_iff sound, named?_eq_some_iff sound', hports]
  · funext id
    refine Option.ext fun m => ?_
    simp only [module?_eq_some_iff sound, module?_eq_some_iff sound', permuted.mem_iff]

section Alike

variable {r r' : Registry} (alike : Alike r r')

include alike

theorem explain?_of_alike : r'.explain? = r.explain? := by
  funext word direction
  unfold explain?
  rw [alike.atWord]

theorem inIdOrder_of_alike : r'.inIdOrder = r.inIdOrder := by
  unfold inIdOrder
  rw [alike.module]

/-- Instances are numbered by the ids of their modules, not by the order of
    registration. -/
theorem dispatched_of_alike : r'.dispatched = r.dispatched := by
  unfold dispatched
  rw [inIdOrder_of_alike alike]

theorem fresh_of_alike : Context.fresh r' = Context.fresh r := by
  unfold Context.fresh
  rw [dispatched_of_alike alike]

theorem disassemble_of_alike (bytes : List UInt8) :
    Program.disassemble r' bytes = Program.disassemble r bytes := by
  have hmove : Program.moveText r' = Program.moveText r := by
    funext source destination
    unfold Program.moveText Program.operandText
    rw [explain?_of_alike alike]
  unfold Program.disassemble
  congr 1
  -- The lines are the same one by one, as each is written by the lookups.
  fun_induction Program.disassemblyLines r bytes with
  | case1 s0 s1 s2 s3 d0 d1 d2 d3 rest ih => rw [Program.disassemblyLines, hmove, ih]
  | case2 bytes incomplete =>
      rw [Program.disassemblyLines]
      exact incomplete

theorem move_of_alike : Program.move r' = Program.move r := by
  have hport : Program.portWord r' = Program.portWord r := by
    funext name direction
    unfold Program.portWord
    rw [alike.named]
  have hsource : Program.sourceWord r' = Program.sourceWord r := by
    funext token
    cases token <;> unfold Program.sourceWord <;> rw [hport]
  have hdestination : Program.destinationWord r' = Program.destinationWord r := by
    funext token
    cases token <;> unfold Program.destinationWord <;> rw [hport]
  funext source destination
  unfold Program.move
  rw [hsource, hdestination]

theorem ofListing_of_alike (text : String) :
    Program.ofListing r' text = Program.ofListing r text := by
  have hline : Program.lineMoves r' = Program.lineMoves r := by
    funext line
    unfold Program.lineMoves
    rw [move_of_alike alike]
  -- Lines that cannot be read are refused for the same cause, in the same line.
  have hlisting : ∀ listing number,
      Program.listingMoves r' number listing = Program.listingMoves r number listing := by
    intro listing
    induction listing with
    | nil => intro number; rfl
    | cons line later ih =>
        intro number
        unfold Program.listingMoves
        rw [hline]
        cases Program.lineMoves r line with
        | error cause => rfl
        | ok moves => exact congrArg (Except.map (moves ++ ·)) (ih (number + 1))
  rw [Program.ofListing_eq_listingMoves, Program.ofListing_eq_listingMoves, hlisting]

/-- A segment depends on a registry by its lookups and the slots of its instances. -/
theorem compile_of_alike (options : Options) (ram : Ram) (start stop : Word) :
    Segment.compile r' options ram start stop = Segment.compile r options ram start stop := by
  -- Compilation looks at the registry for the slots and for ports, both of which are the same.
  have hids : r'.slotIds = r.slotIds := by
    unfold slotIds
    rw [dispatched_of_alike alike]
  have hresolve : Segment.resolve r' = Segment.resolve r := by
    funext ids address direction
    unfold Segment.resolve
    rw [alike.atWord]
  have hload : Segment.loadOf r' = Segment.loadOf r := by
    funext ids source
    cases source <;> unfold Segment.loadOf <;> rw [hresolve]
  have hstore : Segment.storeOf r' = Segment.storeOf r := by
    funext ids address
    unfold Segment.storeOf
    rw [hresolve]
  have hclassify : Segment.classify r' = Segment.classify r := by
    funext ids i
    unfold Segment.classify Segment.shapeOf
    rw [hload, hstore]
  have hextend : Segment.Plan.extend r' options ram start stop =
      Segment.Plan.extend r options ram start stop := by
    funext plan offset
    unfold Segment.Plan.extend
    rw [hids, hclassify]
  unfold Segment.compile Segment.plan
  rw [hextend]

end Alike

/-- The order of registration does not matter. Declarations that a registry takes up
    in one order, whatever was offered to it before, it takes up in every order, and
    then it gives the same port for every address and every name, the same text for
    every operand, the same modules, the same listing of every byte string, the same
    program for every listing, and for every range of every RAM the same segment or
    the same error, to be run against the same instances. -/
theorem registration_order_is_irrelevant (offered : List ModuleDecl)
    {decls decls' : List ModuleDecl} (permuted : decls.Perm decls') {r₁ : Registry}
    (taken : (empty.offerAll offered).registerAll decls = .ok r₁) :
    ∃ r₂, (empty.offerAll offered).registerAll decls' = .ok r₂ ∧
      (∀ word direction, r₂.atWord? word direction = r₁.atWord? word direction) ∧
      (∀ name direction, r₂.named? name direction = r₁.named? name direction) ∧
      (∀ word direction, r₂.explain? word direction = r₁.explain? word direction) ∧
      (∀ id, r₂.module? id = r₁.module? id) ∧ r₂.inIdOrder = r₁.inIdOrder ∧
      (∀ bytes, Program.disassemble r₂ bytes = Program.disassemble r₁ bytes) ∧
      (∀ text, Program.ofListing r₂ text = Program.ofListing r₁ text) ∧
      Context.fresh r₂ = Context.fresh r₁ ∧
      ∀ options ram start stop, Segment.compile r₂ options ram start stop =
        Segment.compile r₁ options ram start stop := by
  -- The same modules are found in the one order as in the other.
  rcases exists_registerAll_of_perm permuted taken with ⟨r₂, taken', hmodules⟩
  have sound := sound_offerAll offered
  have alike : Alike r₁ r₂ :=
    alike_of_perm (sound_registerAll sound taken) (sound_registerAll sound taken') hmodules
  exact ⟨r₂, taken', fun word direction => by rw [alike.atWord],
    fun name direction => by rw [alike.named],
    fun word direction => by rw [explain?_of_alike alike], fun id => by rw [alike.module],
    inIdOrder_of_alike alike, disassemble_of_alike alike, ofListing_of_alike alike,
    fresh_of_alike alike, compile_of_alike alike⟩

-- Three standard modules behind the first, which is offered twice and taken up once.
theorem registration_order_is_irrelevant_reversed :
    let offered := [Module.System.decl, Module.System.decl]
    let decls := [Module.Memory.decl, Module.Arithmetic.decl, Module.Jump.decl]
    let r₁ : Registry := ⟨(Module.System.decl :: decls).map ModuleDecl.registered⟩
    let r₂ : Registry := ⟨(Module.System.decl :: decls.reverse).map ModuleDecl.registered⟩
    decls.Perm decls.reverse ∧ (empty.offerAll offered).registerAll decls = .ok r₁ ∧
      (empty.offerAll offered).registerAll decls.reverse = .ok r₂ ∧
      r₁.ports.map Port.name ≠ r₂.ports.map Port.name ∧
      (∀ word direction, r₂.atWord? word direction = r₁.atWord? word direction) ∧
      (∀ name direction, r₂.named? name direction = r₁.named? name direction) ∧
      (∀ bytes, Program.disassemble r₂ bytes = Program.disassemble r₁ bytes) ∧
      (∀ text, Program.ofListing r₂ text = Program.ofListing r₁ text) ∧
      ∀ options ram start stop, Segment.compile r₂ options ram start stop =
        Segment.compile r₁ options ram start stop := by
  intro offered decls r₁ r₂
  have permuted : decls.Perm decls.reverse := decls.reverse_perm.symm
  have taken : (empty.offerAll offered).registerAll decls = .ok r₁ := rfl
  have taken' : (empty.offerAll offered).registerAll decls.reverse = .ok r₂ := rfl
  rcases registration_order_is_irrelevant offered permuted taken with
    ⟨r, hr, word, name, _, _, _, bytes, text, _, compiled⟩
  obtain rfl : r = r₂ := Except.ok.inj (hr.symm.trans taken')
  exact ⟨permuted, taken, taken', by decide, word, name, bytes, text, compiled⟩

end Registry

end Transport
