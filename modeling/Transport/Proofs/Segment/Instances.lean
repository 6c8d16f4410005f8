import Transport.Proofs.Registry.Lookup
import Transport.Proofs.Segment.Attachment
import Transport.Proofs.Segment.Refinement

/-!
# Slots and Instances

An op names an instance by its slot, which was looked up when the op was compiled, in a
list that the context does not know. It is the same list that the context was made from:
a fresh context has one instance for every dispatched module, in the order of their ids,
and nothing that happens to a context adds, removes or moves an instance. Devices are
wired and handlers run, but what an instance does stays what it did.

So in every context that a registry gives rise to, the slot in an op is that of an
instance, and the instance is of the module that the operand names.

## Main definitions

* `Context.Instantiates`: The instances are those of the dispatched modules.
* `Context.Steady`: A property of contexts that no state of an instance matters to.
* `Context.Arises`: A context comes of a registry, and of runs.
* `Talk.Keeps`: A computation keeps a property of its state.
* `Op.slot?`: The slot of the instance that serves an operand.

## Theorems

* `keeps_bind`: Keeping goes through sequencing.
* `instantiates_runFor`: Runs keep the instances.
* `instantiates_of_arises`: Every context that comes of a registry instantiates it.
* `exists_instance_of_seats`: What is in the slot of a module.
* `seats_of_opFor`: The slots in an op belong to the modules of its operands.
-/

namespace Transport

universe u

/-! ## Properties kept -/

namespace Dialogue

variable {α β : Type}

/-- Dialogues that agree come to related ends with every host, and leave it alike. -/
theorem converse_of_agree {R : α → β → Prop} {d : Dialogue α} {e : Dialogue β} (h : Agree R d e)
    (host : Host η) : ∀ state, R (d.converse host state).1 (e.converse host state).1 ∧
      (d.converse host state).2 = (e.converse host state).2 := by
  induction h with
  | done related => exact fun _ => ⟨related, rfl⟩
  | ask r _ ih => exact fun state => ih (host.answer r state).1 (host.answer r state).2

end Dialogue

namespace Talk

variable {σ α β : Type} {Q : σ → Prop} {R : α → Prop} {S : β → Prop}

/-- The two states are one, which has a property. -/
def Alike (Q : σ → Prop) (s t : σ) : Prop := s = t ∧ Q s

/-- From states with a property, the states left behind have it too, and the values
    have another. -/
def Keeps (Q : σ → Prop) (R : α → Prop) (x : Talk σ α) : Prop :=
  Mirrors (Alike Q) (fun a b => a = b ∧ R a) x x

theorem keeps_pure {a : α} (here : R a) : Keeps Q R (pure a : Talk σ α) :=
  mirrors_pure ⟨rfl, here⟩

theorem keeps_throw (trap : Trap) : Keeps Q R (throw trap : Talk σ α) := mirrors_throw trap

theorem keeps_get : Keeps Q Q (get : Talk σ σ) := mirrors_get

theorem keeps_modify {f : σ → σ} (h : ∀ s, Q s → Q (f s)) :
    Keeps Q (fun _ => True) (modify f : Talk σ PUnit) := by
  intro s _ hs
  rcases hs with ⟨rfl, hs⟩
  exact Dialogue.Agree.done ⟨Outcomes.ok ⟨rfl, trivial⟩, rfl, h s hs⟩

theorem keeps_ask (r : Request) : Keeps Q (fun _ => True) (ask r : Talk σ r.Answer) :=
  fun _ _ h => Dialogue.Agree.ask r fun _ => Dialogue.Agree.done ⟨Outcomes.ok ⟨rfl, trivial⟩, h⟩

/-- Keeping goes through sequencing. -/
theorem keeps_bind {x : Talk σ α} {f : α → Talk σ β} (hx : Keeps Q R x)
    (hf : ∀ a, R a → Keeps Q S (f a)) : Keeps Q S (x >>= f) := by
  refine mirrors_bind hx ?_
  rintro a _ ⟨rfl, ha⟩
  exact hf a ha

/-- What is kept in all dialogues is kept with every host. -/
theorem converse_of_keeps {η : Type u} {x : Talk σ α} (hx : Keeps Q R x) {s : σ} (hs : Q s)
    (host : Host η) (state : η) : Q ((x s).converse host state).1.2 ∧
      ∀ a, ((x s).converse host state).1.1 = .ok a → R a := by
  rcases (Dialogue.converse_of_agree (hx s s ⟨rfl, hs⟩) host state).1 with ⟨houtcome, _, hkept⟩
  refine ⟨hkept, fun a ha => ?_⟩
  -- A talk that is compared with itself has the same value on both sides.
  rw [ha] at houtcome
  cases houtcome with
  | ok related => exact related.2

end Talk

/-! ## Contexts -/

namespace Context

/-- Each slot holds an instance of the dispatched module that it belongs to. -/
def Instantiates (registry : Registry) (context : Context) : Prop :=
  ∀ slot : Nat, context.instances[slot]?.map Instance.behaviour =
    registry.dispatched[slot]?.map Prod.snd

/-- A context comes of a registry: it is fresh, or one that came of it was attached to a
    host, or a segment was run in it. -/
inductive Arises (registry : Registry) : Context → Prop
  | fresh : Arises registry (Context.fresh registry)
  | bind {context : Context} (before : Arises registry context) {η : Type u} (host : Host η)
      (state : η) : Arises registry (context.bind.converse host state).1
  /-- The run may have trapped, or not have come to its end. -/
  | run {context : Context} (before : Arises registry context) {η : Type u} (host : Host η)
      (segment : Segment) (count op : Nat) (state : η) :
      Arises registry (segment.runFor host count op context state).2.1

variable {registry : Registry} {context : Context}

theorem size_of_instantiates (h : context.Instantiates registry) :
    context.instances.size = registry.dispatched.length := by
  -- Neither has anything in a slot where the other has nothing.
  have hnone : ∀ slot, context.instances.size ≤ slot ↔ registry.dispatched.length ≤ slot := by
    intro slot
    rw [← Array.getElem?_eq_none_iff, ← List.getElem?_eq_none_iff,
      ← Option.map_eq_none_iff (f := Instance.behaviour), h slot, Option.map_eq_none_iff]
  exact Nat.le_antisymm ((hnone _).mpr (Nat.le_refl _)) ((hnone _).mp (Nat.le_refl _))

theorem instantiates_fresh (registry : Registry) : (fresh registry).Instantiates registry := by
  intro slot
  simp only [fresh, List.getElem?_toArray, List.getElem?_map, Option.map_map]
  rfl

theorem instantiates_attached {after : Context} (h : context.Instantiates registry)
    (attached : Attached context after) : after.Instantiates registry := by
  intro slot
  rw [← h slot]
  exact behaviour_of_attached attached slot

/-- What an instance holds does not matter to a property of contexts. -/
def Steady (Q : Context → Prop) : Prop :=
  ∀ (context : Context) (slot : Nat) (change : ModuleState → ModuleState), Q context →
    Q { context with
      instances := context.instances.modify slot fun i => { i with state := change i.state } }

/-- What an instance holds says nothing about what it does. -/
theorem steady_instantiates (registry : Registry) : Steady (Instantiates registry) := by
  intro context slot change h slot'
  rw [← h slot']
  simp only [Array.getElem?_modify]
  split
  · rw [Option.map_map]
    rfl
  · rfl

end Context

/-! ## Ops -/

open Talk Context

variable {registry : Registry} {Q : Context → Prop} (steady : Steady Q)

include steady

theorem Exec.keeps_call {α : Type} (slot : Nat) (default : α) (handler : Behaviour → Handler α) :
    Talk.Keeps Q (fun _ => True) (Exec.call slot default handler) := by
  intro context _ hcontext
  rcases hcontext with ⟨rfl, hcontext⟩
  unfold Exec.call
  cases context.instances[slot]? with
  | none => exact Dialogue.Agree.done ⟨Outcomes.ok ⟨rfl, trivial⟩, rfl, hcontext⟩
  | some i =>
      -- Whatever the handler comes to, only the state of the instance is put back.
      refine Dialogue.agree_bind (Dialogue.agree_refl (R := Eq) (fun _ => rfl) _) ?_
      rintro ⟨result, state⟩ _ rfl
      refine Dialogue.Agree.done ⟨outcomes_refl (fun _ => ⟨rfl, trivial⟩) _, rfl, ?_⟩
      exact steady context slot (fun _ => state) hcontext

theorem Load.keeps_value (offset : Word) (load : Load) :
    Talk.Keeps Q (fun _ => True) (load.value offset) := by
  cases load with
  | const value => exact keeps_pure trivial
  | cell slot index => exact keeps_bind keeps_get fun _ _ => keeps_pure trivial
  | call slot key address =>
      exact Exec.keeps_call steady slot 0 fun b => b.read key ⟨offset, address⟩

theorem Store.keeps_put (offset value : Word) (store : Store) :
    Talk.Keeps Q (fun _ => True) (store.put offset value) := by
  cases store with
  | cell slot index =>
      refine keeps_bind (keeps_modify fun context h => ?_) fun _ _ => keeps_pure trivial
      exact steady context slot (fun state => state.setCell index value) h
  | call slot key address =>
      exact Exec.keeps_call steady slot Effect.proceed fun b => b.write key value ⟨offset, address⟩

omit steady

/-- An op jumps to the target that it has. -/
def Op.Yields (op : Op) (flow : Flow) : Prop := ∀ target, flow = .jump target → op = .branch target

theorem Op.yields_of_ne {op : Op} {flow : Flow} (h : ∀ target, flow ≠ .jump target) :
    op.Yields flow := fun target jumps => absurd jumps (h target)

/-- Every op keeps the instances. -/
theorem Op.keeps_perform (op : Op) :
    Talk.Keeps (Instantiates registry) op.Yields op.perform := by
  have steady := steady_instantiates registry
  cases op with
  | suspend offset =>
      refine keeps_bind (keeps_ask _) fun answer _ => ?_
      cases answer with
      | error reason => exact keeps_throw reason
      | ok _ => exact keeps_pure (yields_of_ne (by simp))
  | move offset load store =>
      refine keeps_bind (Load.keeps_value steady offset load) fun value _ => ?_
      refine keeps_bind (Store.keeps_put steady offset value store) fun effect _ => ?_
      cases effect <;> exact keeps_pure (yields_of_ne (by simp))
  | test offset load kind =>
      refine keeps_bind (Load.keeps_value steady offset load) fun value _ => ?_
      refine keeps_bind (keeps_modify fun _ h => h) fun _ _ => ?_
      exact keeps_pure (yields_of_ne (by simp))
  | branch target =>
      -- The one op that jumps, if it is taken.
      refine keeps_bind keeps_get fun context _ => ?_
      refine keeps_bind (keeps_modify fun _ h => h) fun _ _ => keeps_pure ?_
      rintro other jumps
      split at jumps <;> cases jumps
      rfl
  | trap offset cause source destination =>
      refine keeps_bind (keeps_ask _) fun answer _ => ?_
      cases answer with
      | error reason => exact keeps_throw reason
      | ok currentSource =>
          refine keeps_bind (keeps_ask _) fun answer _ => ?_
          cases answer with
          | error reason => exact keeps_throw reason
          | ok currentDestination => exact keeps_throw _

/-- Every step of a segment keeps the instances. -/
theorem Segment.keeps_step (segment : Segment) (op : Nat) :
    Talk.Keeps (Instantiates registry) (fun _ => True) (segment.step op) := by
  unfold Segment.step
  split
  · exact keeps_pure trivial
  · exact keeps_bind (Op.keeps_perform _) fun _ _ => keeps_pure trivial

/-- Runs keep the instances. -/
theorem Segment.instantiates_runFor {η : Type u} (host : Host η) (segment : Segment) (fuel : Nat) :
    ∀ op context state, Instantiates registry context →
      Instantiates registry (segment.runFor host fuel op context state).2.1 := by
  induction fuel with
  | zero => exact fun _ _ _ h => h
  | succ fuel ih =>
      intro op context state h
      -- The rest of the run begins in the context that the first step leaves.
      have hkept := (converse_of_keeps (segment.keeps_step op) h host state).1
      rw [runFor]
      generalize (segment.step op context).converse host state = reached at hkept ⊢
      rcases reached with ⟨⟨trap | next | exit, context'⟩, state'⟩
      · exact hkept
      · exact ih next context' state' hkept
      · exact hkept

/-- Every context that comes of a registry has the instances of its modules. -/
theorem Context.instantiates_of_arises {context : Context} (h : context.Arises registry) :
    context.Instantiates registry := by
  induction h with
  | fresh => exact instantiates_fresh registry
  | bind _ host state ih =>
      exact instantiates_attached ih (Dialogue.converse_of_ends (ends_bind_context _) host state)
  | run _ host segment count op state ih =>
      exact segment.instantiates_runFor host count op _ state ih

/-! ## Slots -/

/-- The slot of the instance that a load asks. -/
def Load.slot? : Load → Option Nat
  | .const _ => none
  | .cell slot _ => some slot
  | .call slot _ _ => some slot

/-- The slot of the instance that a store goes to. -/
def Store.slot? : Store → Option Nat
  | .cell slot _ => some slot
  | .call slot _ _ => some slot

/-- The slot of the instance that serves an operand. -/
def Op.slot? : Op → Direction → Option Nat
  | .move _ load _, .read => load.slot?
  | .move _ _ store, .write => store.slot?
  | .test _ load _, .read => load.slot?
  | _, _ => none

/-- The operand of a move on one side. -/
def Direction.operand (words : Word × Word) : Direction → Word
  | .read => words.1
  | .write => words.2

namespace Registry

/-- There are no more slots than ids. -/
theorem length_dispatched_le (r : Registry) : r.dispatched.length ≤ 256 := by
  refine Nat.le_trans (List.length_filterMap_le _ _) ?_
  refine Nat.le_trans (List.length_filterMap_le _ _) ?_
  exact Nat.le_of_eq List.length_range

end Registry

/-- In a context with the instances of a registry, the slot of a module holds an instance
    of the module. -/
theorem Context.exists_instance_of_seats {context : Context}
    (h : context.Instantiates registry) {id : UInt8} {slot : Nat} (seats : registry.Seats id slot) :
    slot < 256 ∧ ∃ i m, context.instances[slot]? = some i ∧ registry.module? id = some m ∧
      m.decl.kind = .dispatched i.behaviour ∧
        registry.dispatched[slot]? = some (id, i.behaviour) := by
  rcases seats with ⟨behaviour, hentry⟩
  have inside := (List.getElem?_eq_some_iff.mp hentry).1
  -- The context has an instance where the registry has a dispatched module.
  have hinstance := h slot
  rw [hentry, Option.map_some, Option.map_eq_some_iff] at hinstance
  rcases hinstance with ⟨i, hi, rfl⟩
  rcases Registry.mem_dispatched_iff.mp (List.mem_of_getElem? hentry) with ⟨m, hm, hkind⟩
  exact ⟨Nat.lt_of_lt_of_le inside registry.length_dispatched_le, i, m, hi, hm, hkind, hentry⟩

theorem Destination.ofWord_eq_port {word : Word} {address : Address}
    (h : ofWord word = .port address) : address = ⟨word⟩ := by
  unfold ofWord at h
  split at h <;> cases h
  rfl

namespace Segment

/-- An operand is resolved to the slot of the module that its top byte names. -/
theorem seats_of_resolve (sound : registry.Sound) {word : Word} {direction : Direction}
    {slot : Nat} {accessor : Accessor}
    (h : resolve registry registry.slotIds ⟨word⟩ direction = .ok (slot, accessor)) :
    registry.Seats (word >>> 24).toUInt8 slot := by
  unfold resolve at h
  split at h
  · contradiction
  · next p hport =>
    split at h
    · contradiction
    · next found hfound =>
      cases h
      -- The slot found for the owner of the port, which is the top byte of the word.
      rw [← ((Registry.atWord?_eq_some_iff sound).mp hport).2.1]
      exact Registry.seats_of_slot? hfound

theorem seats_of_loadOf (sound : registry.Sound) {word : Word} {load : Load} {slot : Nat}
    (h : loadOf registry registry.slotIds (.ofWord word) = .ok load)
    (hslot : load.slot? = some slot) : registry.Seats (word >>> 24).toUInt8 slot := by
  -- A literal has no slot, and a port that of its module.
  unfold Source.ofWord at h
  split at h
  · cases h
    contradiction
  · simp only [loadOf] at h
    cases hresolve : resolve registry registry.slotIds ⟨word⟩ .read with
    | error cause => rw [hresolve] at h; cases h
    | ok found =>
        rcases found with ⟨slot', accessor⟩
        have hseats := seats_of_resolve sound hresolve
        rw [hresolve] at h
        cases accessor <;> cases h <;> cases hslot <;> exact hseats

theorem seats_of_storeOf (sound : registry.Sound) {word : Word} {store : Store} {slot : Nat}
    (h : storeOf registry registry.slotIds ⟨word⟩ = .ok store)
    (hslot : store.slot? = some slot) : registry.Seats (word >>> 24).toUInt8 slot := by
  -- The port was resolved to a slot, which is the one the store names.
  simp only [storeOf] at h
  cases hresolve : resolve registry registry.slotIds ⟨word⟩ .write with
  | error cause => rw [hresolve] at h; cases h
  | ok found =>
      rcases found with ⟨slot', accessor⟩
      have hseats := seats_of_resolve sound hresolve
      rw [hresolve] at h
      cases accessor <;> cases h <;> cases hslot <;> exact hseats

/-- The slots in an op belong to the modules of the operands of its instruction. -/
theorem seats_of_opFor (sound : registry.Sound) {options : Options} {ram : Ram}
    {start stop : Word} {index : Nat} {direction : Direction} {slot : Nat}
    (h : (opFor registry options ram start stop index).slot? direction = some slot) :
    registry.Seats
      (direction.operand (wordsAt ram (offsetOf start index)) >>> 24).toUInt8 slot := by
  unfold opFor opOf at h
  rcases compiles_or_trap registry ram (offsetOf start index) with compiles | ⟨cause, htrap⟩
  · -- The cases are those of classification, with the operands as they were decoded.
    generalize hshape : (slotAt registry registry.slotIds ram (offsetOf start index)).shape = shape
      at h compiles
    generalize hi : instructionAt ram (offsetOf start index) = i at compiles
    cases compiles with
    | branch aligned => cases direction <;> contradiction
    | nonneg loads | zero loads =>
        rw [← (Instruction.mk.inj hi).1] at loads
        cases direction with
        | read => exact seats_of_loadOf sound loads h
        | write => contradiction
    | move loads stores =>
        rw [← (Instruction.mk.inj hi).1] at loads
        rw [Destination.ofWord_eq_port (Instruction.mk.inj hi).2] at stores
        cases direction with
        | read => exact seats_of_loadOf sound loads h
        | write => exact seats_of_storeOf sound stores h
  · -- A trap has no operands.
    rw [htrap] at h
    cases direction <;> contradiction

end Segment

end Transport
