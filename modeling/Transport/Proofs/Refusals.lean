import Transport.Proofs.Segment.Attachment
import Transport.Registry.Standard

/-!
# Refusals Passed On

The host may refuse a store. A handler that heeds refusals asks nothing of it but
to be told so: whatever else it asks behind the refused store, it ends in the trap
that the host gave. All standard handlers do. Then so does every op, and with it
every step of a segment, as long as the instances come from such modules.

## Main definitions

* `Request.refusal?`: The trap with which a host refuses a store.
* `Talk.Heeds`: A refused store ends the computation, with the host's trap.
* `Registry.Heeds`: The handlers of all modules heed refusals.
* `Context.Serves`: What the instances of a context do has a property.

## Theorems

* `heeds_bind`: Heeding goes through sequencing.
* `heeds_standard`: The standard modules heed refusals.
* `serves_fresh`, `serves_attached`, `serves_setState`: What instances do is what their modules do, whatever
  they hold.
* `heeds_step`: So does every step of a segment.
-/

namespace Transport

/-- The trap with which the host refuses a store, if an answer is one. -/
def Request.refusal? : (r : Request) → r.Answer → Option Trap
  | .storeWord _ _, .error trap => some trap
  | _, _ => none

namespace Dialogue

variable {α β σ : Type}

/-- A refused store leads to the host's trap, however the dialogue goes on. The
    states that are left behind have a property. -/
inductive Heeds (Q : σ → Prop) : Dialogue (Except Trap α × σ) → Prop
  | done (outcome : Except Trap α) {s : σ} (here : Q s) : Heeds Q (.done (outcome, s))
  /-- Something is asked, and a refusal is passed on. -/
  | ask (r : Request) {next : r.Answer → Dialogue (Except Trap α × σ)}
      (rest : ∀ answer, Heeds Q (next answer))
      (refused : ∀ answer trap, r.refusal? answer = some trap →
        Ends (fun p => p.1 = .error trap) (next answer)) : Heeds Q (.ask r next)

end Dialogue

namespace Talk

variable {σ α β : Type} {Q : σ → Prop}

/-- From states with a property, a refused store leads to the host's trap, and the
    states left behind have the property. -/
def Heeds (Q : σ → Prop) (x : Talk σ α) : Prop := ∀ s, Q s → Dialogue.Heeds Q (x s)

theorem heeds_pure (a : α) : Heeds Q (pure a : Talk σ α) :=
  fun _ => Dialogue.Heeds.done (.ok a)

theorem heeds_throw (trap : Trap) : Heeds Q (throw trap : Talk σ α) :=
  fun _ => Dialogue.Heeds.done (.error trap)

theorem heeds_get : Heeds Q (get : Talk σ σ) :=
  fun s => Dialogue.Heeds.done (.ok s)

theorem heeds_modify {f : σ → σ} (h : ∀ s, Q s → Q (f s)) : Heeds Q (modify f : Talk σ PUnit) :=
  fun s hs => Dialogue.Heeds.done (.ok ()) (h s hs)

/-- What is no store is not refused in this sense. -/
theorem heeds_ask {r : Request} (h : ∀ answer, r.refusal? answer = none) :
    Heeds Q (ask r : Talk σ r.Answer) := by
  intro s hs
  refine Dialogue.Heeds.ask r (fun answer => Dialogue.Heeds.done (.ok answer) hs) ?_
  intro answer trap refused
  rw [h answer] at refused
  cases refused

/-- Heeding goes through sequencing: the first talk ends in the trap of a store
    refused in it, which ends the whole. -/
theorem heeds_bind {x : Talk σ α} {f : α → Talk σ β} (hx : Heeds Q x) (hf : ∀ a, Heeds Q (f a)) :
    Heeds Q (x >>= f) := by
  intro s hs
  have hxs := hx s hs
  rw [bind_apply]
  generalize x s = d at hxs
  induction hxs with
  | done outcome here =>
      cases outcome with
      | error trap => exact Dialogue.Heeds.done (.error trap) here
      | ok a => exact hf a _ here
  | ask r _ refused ih =>
      refine Dialogue.Heeds.ask r ih fun answer trap hrefused => ?_
      refine Dialogue.ends_bind (refused answer trap hrefused) fun p failed => ?_
      -- What follows is not begun behind a trap.
      simp only [failed]
      exact Dialogue.Ends.done rfl

end Talk

/-! ## Handlers -/

/-- All handlers of a behaviour heed refusals. -/
structure Behaviour.Heeds (b : Behaviour) : Prop where
  read : ∀ key access, Talk.Heeds (fun _ => True) (b.read key access)
  write : ∀ key value access, Talk.Heeds (fun _ => True) (b.write key value access)

/-- The handlers of all modules heed refusals. -/
def Registry.Heeds (r : Registry) : Prop :=
  ∀ m ∈ r.modules, ∀ b, m.decl.kind = .dispatched b → b.Heeds

namespace Handler

variable {Q : ModuleState → Prop}

open Talk

/-- The trap of a refused answer is thrown. -/
theorem heeds_settle {α : Type} (answer : Except Trap α) : Heeds Q (settle answer) := by
  cases answer with
  | error trap => exact heeds_throw trap
  | ok value => exact heeds_pure value

theorem heeds_readWord (offset : Word) : Heeds Q (readWord offset) :=
  heeds_bind (heeds_ask fun _ => rfl) heeds_settle

theorem heeds_suspend (offset : Word) : Heeds Q (suspend offset) :=
  heeds_bind (heeds_ask fun _ => rfl) heeds_settle

/-- The one request that a host refuses a store in. -/
theorem heeds_storeWord (offset value : Word) : Heeds Q (storeWord offset value) := by
  intro state hstate
  refine Dialogue.Heeds.ask _ ?_ ?_
  · intro answer
    cases answer with
    | error trap => exact Dialogue.Heeds.done (.error trap) hstate
    | ok _ => exact Dialogue.Heeds.done (.ok ()) hstate
  · intro answer trap refused
    cases answer with
    | error _ =>
        cases refused
        exact Dialogue.Ends.done rfl
    | ok _ => cases refused

theorem heeds_getCell (index : UInt16) : Heeds Q (getCell index) :=
  heeds_bind heeds_get fun state => heeds_pure (state.cell index)

theorem heeds_setCell (index : UInt16) (value : Word) :
    Heeds (fun _ => True) (setCell index value) :=
  heeds_modify fun _ _ => trivial

end Handler

section Standard

open Talk Handler

theorem heeds_system : Module.System.behaviour.Heeds where
  read _ _ := heeds_pure 0
  write key _ access := by
    simp only [Module.System.behaviour]
    split
    · exact heeds_pure _
    · split
      · exact heeds_bind (heeds_suspend _) fun _ => heeds_pure _
      · exact heeds_pure _

theorem heeds_arithmetic : Module.Arithmetic.behaviour.Heeds where
  read _ _ := heeds_pure 0
  write key value _ := by
    simp only [Module.Arithmetic.behaviour]
    split
    · exact heeds_bind (heeds_ask fun _ => rfl) fun _ => heeds_pure _
    · refine heeds_bind (heeds_getCell _) fun operand => ?_
      split
      · exact heeds_bind (heeds_setCell _ _) fun _ => heeds_pure _
      · exact heeds_pure _

theorem heeds_memory : Module.Memory.behaviour.Heeds where
  read _ _ := heeds_pure 0
  write key value _ := by
    simp only [Module.Memory.behaviour]
    split
    · refine heeds_bind (heeds_readWord _) fun word => ?_
      exact heeds_bind (heeds_setCell _ _) fun _ => heeds_pure _
    · split
      · refine heeds_bind (heeds_getCell _) fun pointer => ?_
        exact heeds_bind (heeds_storeWord _ _) fun _ => heeds_pure _
      · exact heeds_pure _

theorem heeds_exchange : Module.Exchange.behaviour.Heeds where
  read key _ := by
    simp only [Module.Exchange.behaviour]
    split
    · refine heeds_bind heeds_get fun state => ?_
      split
      · refine heeds_bind (heeds_ask fun _ => rfl) fun waits => ?_
        split <;> exact heeds_pure _
      · exact heeds_pure _
    · exact heeds_pure _
  write key value _ := by
    simp only [Module.Exchange.behaviour]
    refine heeds_bind heeds_get fun state => ?_
    split
    · split
      · exact heeds_bind (heeds_ask fun _ => rfl) fun _ => heeds_pure _
      · split
        · refine heeds_bind (heeds_ask fun _ => rfl) fun byte => ?_
          exact heeds_bind (heeds_setCell _ _) fun _ => heeds_pure _
        · exact heeds_pure _
    · exact heeds_pure _

/-- The standard modules heed refusals. -/
theorem heeds_standard : Registry.standard.Heeds := by
  intro m hm b hb
  simp only [Registry.standard, Registry.standardDecls, List.map_cons, List.map_nil,
    List.mem_cons, List.not_mem_nil, or_false] at hm
  rcases hm with rfl | rfl | rfl | rfl | rfl <;> cases hb
  · exact heeds_system
  · exact heeds_arithmetic
  · exact heeds_memory
  · exact heeds_exchange

end Standard

/-! ## Ops -/

namespace Context

/-- The behaviours of the instances have a property, each in its slot. -/
def Serves (P : Nat → Behaviour → Prop) (context : Context) : Prop :=
  ∀ (slot : Nat) (i : Instance), context.instances[slot]? = some i → P slot i.behaviour

/-- An instance is made for each dispatched module, with the behaviour of the module. -/
theorem serves_fresh {registry : Registry} {P : Nat → Behaviour → Prop}
    (h : ∀ slot, ∀ m ∈ registry.modules, ∀ b, m.decl.kind = .dispatched b →
      registry.slotIds[slot]? = some m.decl.id → P slot b) : (fresh registry).Serves P := by
  intro slot i hi
  simp only [fresh, List.getElem?_toArray, List.getElem?_map, Option.map_eq_some_iff] at hi
  rcases hi with ⟨⟨id, behaviour⟩, hentry, rfl⟩
  -- The instance in a slot is that of the module whose id is there.
  have hid : registry.slotIds[slot]? = some id := by
    rw [Registry.slotIds, List.getElem?_map, hentry]
    rfl
  have hmem := List.mem_of_getElem? hentry
  simp only [Registry.dispatched, Registry.inIdOrder, List.mem_filterMap] at hmem
  rcases hmem with ⟨m, ⟨_, _, hm⟩, hkind⟩
  split at hkind
  · rename_i hdispatched
    cases hkind
    exact h slot m (List.mem_of_find?_eq_some hm) _ hdispatched hid
  · cases hkind

variable {context : Context} {P : Nat → Behaviour → Prop}

/-- Attaching changes no behaviour. -/
theorem serves_attached {after : Context} (h : context.Serves P) (attached : Attached context after) :
    after.Serves P := by
  intro slot i hi
  rcases exists_instance_of_attached attached hi with ⟨before, hbefore, hbehaviour⟩
  rw [hbehaviour]
  exact h slot before hbefore

/-- Nor does a change of what an instance holds. -/
theorem serves_setState (h : context.Serves P) (slot : Nat) (change : ModuleState → ModuleState) :
    ({ context with instances := context.instances.modify slot fun i =>
      { i with state := change i.state } } : Context).Serves P := by
  intro slot' i hi
  simp only [Array.getElem?_modify] at hi
  split at hi
  · rcases Option.map_eq_some_iff.mp hi with ⟨before, hbefore, rfl⟩
    exact h slot' before hbefore
  · exact h slot' i hi

end Context

/-- All instances come from behaviours that heed refusals. -/
def Context.Heeds (context : Context) : Prop :=
  ∀ (slot : Nat) (i : Instance), context.instances[slot]? = some i → i.behaviour.Heeds

namespace Context

variable {context : Context}

/-- Fresh instances of modules that heed refusals. -/
theorem heeds_fresh {registry : Registry} (h : registry.Heeds) : (fresh registry).Heeds :=
  serves_fresh (P := fun _ b => b.Heeds) fun _ m hm b hkind _ => h m hm b hkind

theorem heeds_attached {after : Context} (h : context.Heeds) (attached : Attached context after) :
    after.Heeds :=
  serves_attached (P := fun _ b => b.Heeds) h attached

theorem heeds_setState (h : context.Heeds) (slot : Nat) (change : ModuleState → ModuleState) :
    ({ context with instances := context.instances.modify slot fun i =>
      { i with state := change i.state } } : Context).Heeds :=
  serves_setState (P := fun _ b => b.Heeds) h slot change

end Context

open Talk

/-- A call ends in the trap of a store that is refused in its handler. -/
theorem Exec.heeds_call {α : Type} (slot : Nat) (default : α) {handler : Behaviour → Handler α}
    (h : ∀ b : Behaviour, b.Heeds → Talk.Heeds (fun _ => True) (handler b)) :
    Talk.Heeds Context.Heeds (Exec.call slot default handler) := by
  intro context hcontext
  unfold Exec.call
  cases hi : context.instances[slot]? with
  | none => exact Dialogue.Heeds.done (.ok default) hcontext
  | some i =>
      have hhandler := h i.behaviour (hcontext slot i hi) i.state trivial
      dsimp only
      generalize handler i.behaviour i.state = d at hhandler
      -- The induction is on the dialogue of the handler, whose end is put back in the
      -- context.
      induction hhandler with
      | done outcome _ =>
          exact Dialogue.Heeds.done outcome (Context.heeds_setState hcontext slot fun _ => _)
      | ask r _ refused ih =>
          refine Dialogue.Heeds.ask r ih fun answer trap hrefused => ?_
          exact Dialogue.ends_bind (refused answer trap hrefused) fun _ failed =>
            Dialogue.Ends.done failed

theorem Load.heeds_value (offset : Word) (load : Load) :
    Talk.Heeds Context.Heeds (load.value offset) := by
  cases load with
  | const value => exact heeds_pure value
  | cell slot index => exact heeds_bind heeds_get fun context => heeds_pure _
  | call slot key address => exact Exec.heeds_call slot 0 fun b h => h.read key _

theorem Store.heeds_put (offset value : Word) (store : Store) :
    Talk.Heeds Context.Heeds (store.put offset value) := by
  cases store with
  | cell slot index =>
      refine heeds_bind (heeds_modify fun context h => ?_) fun _ => heeds_pure _
      exact Context.heeds_setState h slot fun state => state.setCell index value
  | call slot key address => exact Exec.heeds_call slot .proceed fun b h => h.write key value _

/-- Every op heeds refusals. Only a move can store. -/
theorem Op.heeds_perform (op : Op) : Talk.Heeds Context.Heeds op.perform := by
  -- A branch asks nothing. The other ops end with the refusal they are answered with.
  cases op with
  | suspend offset =>
      refine heeds_bind (heeds_ask fun _ => rfl) fun answer => ?_
      cases answer with
      | error reason => exact heeds_throw reason
      | ok _ => exact heeds_pure _
  | move offset load store =>
      refine heeds_bind (Load.heeds_value offset load) fun value => ?_
      refine heeds_bind (Store.heeds_put offset value store) fun effect => ?_
      cases effect <;> exact heeds_pure _
  | test offset load kind =>
      refine heeds_bind (Load.heeds_value offset load) fun value => ?_
      exact heeds_bind (heeds_modify fun _ h => h) fun _ => heeds_pure _
  | branch target =>
      refine heeds_bind heeds_get fun context => ?_
      exact heeds_bind (heeds_modify fun _ h => h) fun _ => heeds_pure _
  | trap offset cause source destination =>
      refine heeds_bind (heeds_ask fun _ => rfl) fun answer => ?_
      cases answer with
      | error reason => exact heeds_throw reason
      | ok currentSource =>
          refine heeds_bind (heeds_ask fun _ => rfl) fun answer => ?_
          cases answer with
          | error reason => exact heeds_throw reason
          | ok currentDestination => exact heeds_throw _

/-- Every step of a segment heeds refusals. -/
theorem Segment.heeds_step (segment : Segment) (op : Nat) :
    Talk.Heeds Context.Heeds (segment.step op) := by
  unfold Segment.step
  split
  · exact heeds_pure _
  · exact heeds_bind (Op.heeds_perform _) fun flow => heeds_pure _

end Transport
