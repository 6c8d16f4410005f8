import Mathlib.Data.List.Pairwise
import Transport.Proofs.Instruction
import Transport.Proofs.Registry.Admission

/-!
# Lookups Answer Exactly

Which port a registry gives for an address or a name is decided by the ports
alone: the one that is registered there, and no other. A lookup takes the first
port that fits, but whatever was offered to the registry before, no two of its
ports are in each other's way, so that the first is the only one.

The invariant says of a registry what registration asked of each declaration when
it came: ids are apart, places are apart inside a module, and labels are apart all
over. A registry without modules has it, and it is kept.

## Main definitions

* `Registry.Sound`: The invariant.

## Theorems

* `sound_offerAll`: Registries that come of offers have the invariant.
* `address?_eq_some_iff`: Which port has an address.
* `atWord?_eq_some_iff`, `named?_eq_some_iff`: What lookups find, under the invariant.
* `lookups_of_offerAll`: What lookups find in every registry that comes of offers.
-/

namespace Transport

namespace Port

instance : Std.Symm Apart where
  symm _ _ h direction hq hp same := h direction hp hq same.symm

instance : Std.Symm Unlike where
  symm _ _ h direction hq hp label own other := h direction hp hq label other own

theorem Apart.eq_of_pairwise {ports : List Port} (h : ports.Pairwise Apart) {p q : Port}
    (hp : p ∈ ports) (hq : q ∈ ports) {direction : Direction} (servesp : p.allows direction = true)
    (servesq : q.allows direction = true) (same : p.position = q.position) : p = q := by
  by_contra different
  exact h.forall hp hq different direction servesp servesq same

theorem Unlike.eq_of_pairwise {ports : List Port} (h : ports.Pairwise Unlike) {p q : Port}
    (hp : p ∈ ports) (hq : q ∈ ports) {direction : Direction} (servesp : p.allows direction = true)
    (servesq : q.allows direction = true) {label : String} (ownp : label ∈ p.labels)
    (ownq : label ∈ q.labels) : p = q := by
  by_contra different
  exact h.forall hp hq different direction servesp servesq label ownp ownq

/-- The ports without an address are the fallbacks. -/
theorem address?_eq_none_iff {p : Port} : p.address? = none ↔ p.isFallback = true := by
  unfold address? isFallback
  cases p.position <;> simp

/-- A port has an address if it sits there, in the module that the address names. -/
theorem address?_eq_some_iff {p : Port} (fits : p.OffsetFits) {address : Address} :
    p.address? = some address ↔
      p.owner = address.moduleId ∧ p.position = .fixed address.offset := by
  unfold address?
  unfold OffsetFits at fits
  cases hposition : p.position with
  | fallback => simp
  | fixed offset =>
      -- The offset has no more than 24 bits, so the address keeps all of it.
      have hkept := Word.and_offsetMask_eq_iff.mpr (fits offset hposition)
      simp only [Option.some.injEq, Position.fixed.injEq]
      constructor
      · rintro rfl
        rw [Address.moduleId_of, Address.offset_of, hkept]
        exact ⟨rfl, rfl⟩
      · rintro ⟨howner, rfl⟩
        rw [howner]
        exact Address.of_moduleId_offset address

end Port

/-- The first that passes a test is the only one that does. -/
theorem find?_eq_some_iff_of_unique {α : Type} {l : List α} {test : α → Bool}
    (unique : ∀ a ∈ l, ∀ b ∈ l, test a = true → test b = true → a = b) {a : α} :
    l.find? test = some a ↔ a ∈ l ∧ test a = true := by
  constructor
  · intro found
    exact ⟨List.mem_of_find?_eq_some found, List.find?_some found⟩
  · rintro ⟨member, passes⟩
    cases hfound : l.find? test with
    | none => exact absurd passes (List.find?_eq_none.mp hfound a member)
    | some b =>
        rw [unique b (List.mem_of_find?_eq_some hfound) a member (List.find?_some hfound) passes]

namespace Registry

/-- No two modules have one id, and none the literal tag; the ports of a module are
    those it declared, at places that exist and are apart; and labels are apart all
    over. -/
structure Sound (r : Registry) : Prop where
  ids : r.modules.Pairwise fun m m' => m.decl.id ≠ m'.decl.id
  unreserved : ∀ m ∈ r.modules, m.decl.id ≠ literalTag
  declared : ∀ m ∈ r.modules, m.ports = m.decl.ports.map m.decl.port
  offsets : ∀ m ∈ r.modules, ∀ p ∈ m.ports, p.OffsetFits
  places : ∀ m ∈ r.modules, m.ports.Pairwise Port.Apart
  labels : r.ports.Pairwise Port.Unlike

theorem sound_empty : empty.Sound := by
  constructor <;> simp [empty, ports]

theorem ports_append (r : Registry) (m : RegisteredModule) :
    ports ⟨r.modules ++ [m]⟩ = r.ports ++ m.ports := by
  simp [ports]

/-- A declaration that is taken up adds all of its ports, and one that is refused
    adds none. -/
theorem ports_offer (r : Registry) (decl : ModuleDecl) :
    (r.offer decl).ports = match r.register decl with
      | .ok _ => r.ports ++ decl.ports.map decl.port
      | .error _ => r.ports := by
  unfold offer
  cases hregister : r.register decl with
  | error rejection => rfl
  | ok r' =>
      rcases register_eq_ok_iff.mp hregister with ⟨_, rfl⟩
      exact ports_append r _

/-- A declaration that is taken up keeps the invariant. -/
theorem sound_append {r : Registry} (sound : r.Sound) {decl : ModuleDecl} (h : r.Admits decl) :
    Sound ⟨r.modules ++ [⟨decl, decl.ports.map decl.port⟩]⟩ where
  ids := by
    rw [List.pairwise_append]
    exact ⟨sound.ids, List.pairwise_singleton _ _, by simpa using h.free⟩
  unreserved := List.forall_mem_append.mpr ⟨sound.unreserved, by simpa using h.unreserved⟩
  declared := List.forall_mem_append.mpr ⟨sound.declared, by simp⟩
  offsets := List.forall_mem_append.mpr
    ⟨sound.offsets, by simpa using fun p member => (h.sound (decl.port p) (by simpa using
      ⟨p, member, rfl⟩)).1⟩
  places := List.forall_mem_append.mpr ⟨sound.places, by simpa using h.apart⟩
  labels := by
    rw [ports_append, List.pairwise_append]
    exact ⟨sound.labels, h.unlike, fun q hq p hp => h.known p hp q hq⟩

/-- Whatever was offered to it, a registry has the invariant. -/
theorem sound_offerAll (decls : List ModuleDecl) : (empty.offerAll decls).Sound :=
  offerAll_induction (fun _ _ sound admits => sound_append sound admits) decls empty sound_empty

section Lookups

variable {r : Registry} (sound : r.Sound)

theorem mem_ports_iff {p : Port} : p ∈ r.ports ↔ ∃ m ∈ r.modules, p ∈ m.ports :=
  List.mem_flatMap

include sound

theorem owner_of_mem {m : RegisteredModule} (hm : m ∈ r.modules) {p : Port} (hp : p ∈ m.ports) :
    p.owner = m.decl.id := by
  rw [sound.declared m hm] at hp
  rcases List.mem_map.mp hp with ⟨_, _, rfl⟩
  rfl

theorem offsetFits_of_mem {p : Port} (hp : p ∈ r.ports) : p.OffsetFits := by
  rcases mem_ports_iff.mp hp with ⟨m, hm, hp⟩
  exact sound.offsets m hm p hp

theorem owner_ne_literalTag {p : Port} (hp : p ∈ r.ports) : p.owner ≠ literalTag := by
  rcases mem_ports_iff.mp hp with ⟨m, hm, hp⟩
  rw [owner_of_mem sound hm hp]
  exact sound.unreserved m hm

theorem module?_eq_some_iff {id : UInt8} {m : RegisteredModule} :
    r.module? id = some m ↔ m ∈ r.modules ∧ m.decl.id = id := by
  unfold module?
  rw [find?_eq_some_iff_of_unique ?_, decide_eq_true_eq]
  intro m hm m' hm' same same'
  simp only [decide_eq_true_eq] at same same'
  have : Std.Symm fun m m' : RegisteredModule => m.decl.id ≠ m'.decl.id := ⟨fun _ _ => Ne.symm⟩
  by_contra different
  exact sound.ids.forall hm hm' different (same.trans same'.symm)

/-- The port of a name is the one that has it among its labels. -/
theorem named?_eq_some_iff {name : String} {direction : Direction} {p : Port} :
    r.named? name direction = some p ↔
      p ∈ r.ports ∧ p.allows direction = true ∧ name ∈ p.labels := by
  unfold named?
  rw [find?_eq_some_iff_of_unique ?_, answersTo_iff]
  intro p hp q hq answers answers'
  rw [answersTo_iff] at answers answers'
  exact Port.Unlike.eq_of_pairwise sound.labels hp hq answers.1 answers'.1 answers.2 answers'.2

/-- The port at an offset of a module is the one that is fixed there, and where none
    is, the fallback. -/
theorem portAt?_eq_some_iff {m : RegisteredModule} (hm : m ∈ r.modules) {offset : Word}
    {direction : Direction} {p : Port} :
    m.portAt? offset direction = some p ↔ p ∈ m.ports ∧ p.allows direction = true ∧
      (p.position = .fixed offset ∨ p.position = .fallback ∧
        ∀ q ∈ m.ports, q.allows direction = true → q.position ≠ .fixed offset) := by
  -- Places of a module are apart, so that there is one port at most at each position.
  have hunique : ∀ position : Position, ∀ p ∈ m.ports, ∀ q ∈ m.ports,
      (p.allows direction && decide (p.position = position)) = true →
      (q.allows direction && decide (q.position = position)) = true → p = q := by
    intro position p hp q hq there there'
    simp only [Bool.and_eq_true, decide_eq_true_eq] at there there'
    exact Port.Apart.eq_of_pairwise (sound.places m hm) hp hq there.1 there'.1
      (there.2.trans there'.2.symm)
  unfold RegisteredModule.portAt? Port.isFallback
  cases hfixed : m.ports.find? fun p => p.allows direction && p.position = .fixed offset with
  | some q =>
      have hq := (find?_eq_some_iff_of_unique (hunique (.fixed offset))).mp hfixed
      simp only [Bool.and_eq_true, decide_eq_true_eq] at hq
      simp only [Option.some.injEq]
      constructor
      · rintro rfl
        exact ⟨hq.1, hq.2.1, Or.inl hq.2.2⟩
      · rintro ⟨hp, serves, there | ⟨_, nowhere⟩⟩
        · exact Port.Apart.eq_of_pairwise (sound.places m hm) hq.1 hp hq.2.1 serves
            (hq.2.2.trans there.symm)
        · exact absurd hq.2.2 (nowhere q hq.1 hq.2.1)
  | none =>
      -- No port is at the offset, which is when the fallback serves it.
      have hnowhere : ∀ q ∈ m.ports, q.allows direction = true → q.position ≠ .fixed offset := by
        intro q hq serves there
        exact List.find?_eq_none.mp hfixed q hq (by simp [serves, there])
      rw [find?_eq_some_iff_of_unique (hunique .fallback)]
      simp only [Bool.and_eq_true, decide_eq_true_eq]
      constructor
      · rintro ⟨hp, serves, fallback⟩
        exact ⟨hp, serves, Or.inr ⟨fallback, hnowhere⟩⟩
      · rintro ⟨hp, serves, there | ⟨fallback, _⟩⟩
        · exact absurd there (hnowhere p hp serves)
        · exact ⟨hp, serves, fallback⟩

/-- The modules of a registry are told apart by the owners of their ports. -/
theorem mem_of_owner_eq {m : RegisteredModule} (hm : m ∈ r.modules) {p q : Port} (hp : p ∈ m.ports)
    (hq : q ∈ r.ports) (same : q.owner = p.owner) : q ∈ m.ports := by
  rcases mem_ports_iff.mp hq with ⟨m', hm', hq⟩
  rw [owner_of_mem sound hm hp, owner_of_mem sound hm' hq] at same
  have hmodule := (module?_eq_some_iff sound).mpr ⟨hm', same⟩
  rw [(module?_eq_some_iff sound).mpr ⟨hm, rfl⟩, Option.some.injEq] at hmodule
  rw [hmodule]
  exact hq

/-- The port at an address is the one that has it, and where none does, the fallback
    of the module that the address names. -/
theorem atWord?_eq_some_iff {word : Word} {direction : Direction} {p : Port} :
    r.atWord? word direction = some p ↔
      p ∈ r.ports ∧ p.owner = (word >>> 24).toUInt8 ∧ p.allows direction = true ∧
        (p.address? = some ⟨word⟩ ∨ p.isFallback = true ∧
          ∀ q ∈ r.ports, q.owner = p.owner → q.allows direction = true →
            q.address? ≠ some ⟨word⟩) := by
  have hmodule : r.atWord? word direction = some p ↔ ∃ m ∈ r.modules,
      m.decl.id = (word >>> 24).toUInt8 ∧
        m.portAt? (⟨word⟩ : Address).offset direction = some p := by
    unfold atWord?
    dsimp only
    constructor
    · intro found
      cases hfound : r.module? (⟨word⟩ : Address).moduleId with
      | none => simp [hfound] at found
      | some m =>
          rw [hfound] at found
          rw [module?_eq_some_iff sound] at hfound
          exact ⟨m, hfound.1, hfound.2, found⟩
    · rintro ⟨m, hm, hid, found⟩
      have hfound : r.module? (⟨word⟩ : Address).moduleId = some m :=
        (module?_eq_some_iff sound).mpr ⟨hm, hid⟩
      rw [hfound]
      exact found
  -- In the module of the word, a port has its address if it is fixed at its offset.
  have haddress : ∀ q ∈ r.ports, q.owner = (word >>> 24).toUInt8 →
      (q.address? = some ⟨word⟩ ↔ q.position = .fixed (⟨word⟩ : Address).offset) := by
    intro q hq howner
    rw [Port.address?_eq_some_iff (offsetFits_of_mem sound hq)]
    exact and_iff_right howner
  rw [hmodule]
  constructor
  · rintro ⟨m, hm, hid, found⟩
    rcases (portAt?_eq_some_iff sound hm).mp found with ⟨hp, serves, place⟩
    have hports : p ∈ r.ports := mem_ports_iff.mpr ⟨m, hm, hp⟩
    have howner : p.owner = (word >>> 24).toUInt8 := (owner_of_mem sound hm hp).trans hid
    refine ⟨hports, howner, serves, ?_⟩
    rcases place with there | ⟨fallback, nowhere⟩
    · exact Or.inl ((haddress p hports howner).mpr there)
    · refine Or.inr ⟨decide_eq_true fallback, fun q hq same servesq hword => ?_⟩
      exact nowhere q (mem_of_owner_eq sound hm hp hq same) servesq
        ((haddress q hq (same.trans howner)).mp hword)
  · rintro ⟨hports, howner, serves, place⟩
    rcases mem_ports_iff.mp hports with ⟨m, hm, hp⟩
    refine ⟨m, hm, (owner_of_mem sound hm hp).symm.trans howner, ?_⟩
    rw [portAt?_eq_some_iff sound hm]
    refine ⟨hp, serves, ?_⟩
    rcases place with hword | ⟨fallback, nowhere⟩
    · exact Or.inl ((haddress p hports howner).mp hword)
    · refine Or.inr ⟨of_decide_eq_true fallback, fun q hq servesq there => ?_⟩
      have hqports : q ∈ r.ports := mem_ports_iff.mpr ⟨m, hm, hq⟩
      have same : q.owner = p.owner :=
        (owner_of_mem sound hm hq).trans (owner_of_mem sound hm hp).symm
      exact nowhere q hqports same servesq ((haddress q hqports (same.trans howner)).mpr there)

/-- No port is at an address under the literal tag. -/
theorem atWord?_of_literalTag {word : Word} (tagged : (word >>> 24).toUInt8 = literalTag)
    (direction : Direction) : r.atWord? word direction = none := by
  rw [Option.eq_none_iff_forall_ne_some]
  intro p found
  rw [atWord?_eq_some_iff sound] at found
  exact owner_ne_literalTag sound found.1 (found.2.1.trans tagged)

/-- No port is registered twice. -/
theorem nodup_ports : r.ports.Nodup := by
  refine sound.labels.imp ?_
  rintro p _ unlike rfl
  rcases p.exists_allows with ⟨direction, serves⟩
  exact unlike direction serves serves p.name List.mem_cons_self List.mem_cons_self

end Lookups

/-- Lookups answer exactly. Whatever declarations were offered to a registry, and
    whichever of them it took up with all of their ports: the port of an address is
    the registered one that has it and serves the direction, and where there is none,
    the fallback of the module; the port of a name is the registered one that has it
    as its name or an alias and serves the direction. So every registered port is
    found, alone, under each of its labels and at its address, or, being a fallback,
    wherever its module has no other. Nothing is found under the literal tag. -/
theorem lookups_of_offerAll (decls : List ModuleDecl) :
    let r := empty.offerAll decls
    (∀ decl, (r.offer decl).ports = match r.register decl with
      | .ok _ => r.ports ++ decl.ports.map decl.port
      | .error _ => r.ports) ∧
    (∀ word direction p, r.atWord? word direction = some p ↔
      p ∈ r.ports ∧ p.owner = (word >>> 24).toUInt8 ∧ p.allows direction = true ∧
        (p.address? = some ⟨word⟩ ∨ p.isFallback = true ∧
          ∀ q ∈ r.ports, q.owner = p.owner → q.allows direction = true →
            q.address? ≠ some ⟨word⟩)) ∧
    (∀ name direction p, r.named? name direction = some p ↔
      p ∈ r.ports ∧ p.allows direction = true ∧ (name = p.name ∨ name ∈ p.aliases)) ∧
    r.ports.Nodup ∧
    (∀ p ∈ r.ports, ∀ direction, p.allows direction = true →
      (∀ name ∈ p.labels, r.named? name direction = some p) ∧
      (∀ address, p.address? = some address → r.atWord? address.word direction = some p) ∧
      (p.isFallback = true → ∀ word : Word, (word >>> 24).toUInt8 = p.owner →
        (∀ q ∈ r.ports, q.owner = p.owner → q.allows direction = true →
          q.address? ≠ some ⟨word⟩) → r.atWord? word direction = some p)) ∧
    ∀ word : Word, (word >>> 24).toUInt8 = literalTag →
      ∀ direction, r.atWord? word direction = none := by
  intro r
  have sound : r.Sound := sound_offerAll decls
  refine ⟨ports_offer r, fun _ _ _ => atWord?_eq_some_iff sound, fun name direction p => ?_,
    nodup_ports sound, fun p hp direction serves => ⟨fun name own => ?_, fun address haddress => ?_,
      fun fallback word howner nowhere => ?_⟩,
    fun _ tagged direction => atWord?_of_literalTag sound tagged direction⟩
  · rw [named?_eq_some_iff sound, Port.labels, List.mem_cons]
  · exact (named?_eq_some_iff sound).mpr ⟨hp, serves, own⟩
  · -- The owner of a port is the top byte of its address.
    have howner := ((Port.address?_eq_some_iff (offsetFits_of_mem sound hp)).mp haddress).1
    exact (atWord?_eq_some_iff sound).mpr ⟨hp, howner, serves, Or.inl haddress⟩
  · exact (atWord?_eq_some_iff sound).mpr
      ⟨hp, howner.symm, serves, Or.inr ⟨fallback, nowhere⟩⟩

end Registry

end Transport
