import Transport.Proofs.Refusals
import Transport.Proofs.Segment.Layout

/-!
# Where Programs Suspend

A handler can ask to pass a suspension point. Among the standard ones only that of
`sys.breakpoint` does, at the offset of the instruction that it serves. In a segment
without suspension points in front of its instructions, then, a step suspends at an
instruction that moves a value to `sys.breakpoint`, and nowhere else.

## Main definitions

* `Dialogue.Pauses`, `Talk.Pauses`: Suspension points are asked for at certain offsets
  only.
* `Registry.Breaks`: Of the handlers of all modules, only that of `sys.breakpoint`
  suspends.
* `Op.Breaks`, `Segment.Breaks`: An op moves a value to `sys.breakpoint`, and an op of a
  segment does.

## Theorems

* `pauses_bind`: Where a computation in two parts suspends.
* `breaks_standard`: The standard modules suspend by `sys.breakpoint` alone.
* `pauses_step`: Where a step of a segment suspends.
-/

namespace Transport

namespace Dialogue

variable {α σ : Type}

/-- Suspension points are asked for at offsets with a property only, and the states that
    are left behind have another. -/
inductive Pauses (P : Word → Prop) (Q : σ → Prop) : Dialogue (Except Trap α × σ) → Prop
  | done (outcome : Except Trap α) {s : σ} (here : Q s) : Pauses P Q (.done (outcome, s))
  | ask (r : Request) {next : r.Answer → Dialogue (Except Trap α × σ)}
      (here : ∀ offset, r = .suspend offset → P offset)
      (rest : ∀ answer, Pauses P Q (next answer)) : Pauses P Q (.ask r next)

theorem pauses_mono {P P' : Word → Prop} {Q : σ → Prop} (h : ∀ offset, P offset → P' offset)
    {d : Dialogue (Except Trap α × σ)} (hd : Pauses P Q d) : Pauses P' Q d := by
  induction hd with
  | done outcome here => exact Pauses.done outcome here
  | ask r here _ ih => exact Pauses.ask r (fun offset hr => h offset (here offset hr)) ih

end Dialogue

namespace Talk

variable {σ α β : Type} {P : Word → Prop} {Q : σ → Prop}

/-- From states with a property, suspension points are asked for at certain offsets
    only, and the states left behind have the property. -/
def Pauses (P : Word → Prop) (Q : σ → Prop) (x : Talk σ α) : Prop :=
  ∀ s, Q s → Dialogue.Pauses P Q (x s)

theorem pauses_pure (a : α) : Pauses P Q (pure a : Talk σ α) :=
  fun _ => Dialogue.Pauses.done (.ok a)

theorem pauses_throw (trap : Trap) : Pauses P Q (throw trap : Talk σ α) :=
  fun _ => Dialogue.Pauses.done (.error trap)

theorem pauses_get : Pauses P Q (get : Talk σ σ) :=
  fun s => Dialogue.Pauses.done (.ok s)

theorem pauses_modify {f : σ → σ} (h : ∀ s, Q s → Q (f s)) :
    Pauses P Q (modify f : Talk σ PUnit) :=
  fun s hs => Dialogue.Pauses.done (.ok ()) (h s hs)

theorem pauses_ask {r : Request} (here : ∀ offset, r = .suspend offset → P offset) :
    Pauses P Q (ask r : Talk σ r.Answer) :=
  fun _ hs => Dialogue.Pauses.ask r here fun answer => Dialogue.Pauses.done (.ok answer) hs

theorem pauses_bind {x : Talk σ α} {f : α → Talk σ β} (hx : Pauses P Q x)
    (hf : ∀ a, Pauses P Q (f a)) : Pauses P Q (x >>= f) := by
  intro s hs
  have hxs := hx s hs
  rw [bind_apply]
  generalize x s = d at hxs
  induction hxs with
  | done outcome here =>
      cases outcome with
      | error trap => exact Dialogue.Pauses.done (.error trap) here
      | ok a => exact hf a _ here
  | ask r here _ ih => exact Dialogue.Pauses.ask r here ih

end Talk

/-! ## Handlers -/

/-- A request is not one to pass a suspension point. -/
def Request.Passes (r : Request) : Prop := ∀ offset, r ≠ .suspend offset

/-- The handlers of a behaviour suspend for writes with certain keys only, and then at
    the instruction that makes the access. Nothing suspends while an instance is attached. -/
structure Behaviour.Pauses (b : Behaviour) (keys : UInt16 → Prop) : Prop where
  read : ∀ key access, Talk.Pauses (fun _ => False) (fun _ => True) (b.read key access)
  write : ∀ key value access,
    Talk.Pauses (fun offset => offset = access.offset ∧ keys key) (fun _ => True)
      (b.write key value access)
  attach : ∀ state, (b.attach state).Within Request.Passes

/-- The key of `sys.breakpoint` among the keys of a module. -/
def breaks (id : UInt8) (key : UInt16) : Prop :=
  id = Module.System.decl.id ∧ key = Module.System.breakpointKey

/-- Of the handlers of all modules, only that of `sys.breakpoint` suspends. -/
def Registry.Breaks (r : Registry) : Prop :=
  ∀ m ∈ r.modules, ∀ b, m.decl.kind = .dispatched b → b.Pauses (breaks m.decl.id)

namespace Handler

variable {P : Word → Prop} {Q : ModuleState → Prop}

open Talk

theorem pauses_settle {α : Type} (answer : Except Trap α) : Pauses P Q (settle answer) := by
  cases answer with
  | error trap => exact pauses_throw trap
  | ok value => exact pauses_pure value

theorem pauses_setCell (index : UInt16) (value : Word) :
    Pauses P (fun _ => True) (setCell index value) :=
  pauses_modify fun _ _ => trivial

theorem pauses_getCell (index : UInt16) : Pauses P Q (getCell index) :=
  pauses_bind pauses_get fun state => pauses_pure (state.cell index)

end Handler

section Standard

open Talk Handler

theorem breaks_system : Module.System.behaviour.Pauses (breaks Module.System.decl.id) where
  read _ _ := pauses_pure 0
  write key _ access := by
    simp only [Module.System.behaviour]
    split
    · exact pauses_pure _
    · split
      · rename_i hkey
        have hbreaks := fun offset (h : Request.suspend access.offset = .suspend offset) =>
          And.intro (Request.suspend.inj h).symm (show breaks _ key from ⟨rfl, hkey⟩)
        exact pauses_bind (pauses_bind (pauses_ask hbreaks) pauses_settle) fun _ => pauses_pure _
      · exact pauses_pure _
  attach state := .done state

theorem pauses_arithmetic (keys : UInt16 → Prop) : Module.Arithmetic.behaviour.Pauses keys where
  read _ _ := pauses_pure 0
  write key value _ := by
    simp only [Module.Arithmetic.behaviour]
    split
    · exact pauses_bind (pauses_ask fun _ h => by cases h) fun _ => pauses_pure _
    · refine pauses_bind (pauses_getCell _) fun operand => ?_
      split
      · exact pauses_bind (pauses_setCell _ _) fun _ => pauses_pure _
      · exact pauses_pure _
  attach state := .done state

theorem pauses_memory (keys : UInt16 → Prop) : Module.Memory.behaviour.Pauses keys where
  read _ _ := pauses_pure 0
  write key value _ := by
    simp only [Module.Memory.behaviour]
    split
    · refine pauses_bind (pauses_bind (pauses_ask fun _ h => by cases h) pauses_settle)
        fun word => ?_
      exact pauses_bind (pauses_setCell _ _) fun _ => pauses_pure _
    · split
      · refine pauses_bind (pauses_getCell _) fun pointer => ?_
        exact pauses_bind (pauses_bind (pauses_ask fun _ h => by cases h) pauses_settle)
          fun _ => pauses_pure _
      · exact pauses_pure _
  attach state := .done state

theorem pauses_exchange (keys : UInt16 → Prop) : Module.Exchange.behaviour.Pauses keys where
  read key _ := by
    -- Polling asks for a byte, and nothing it asks is a suspension.
    simp only [Module.Exchange.behaviour]
    split
    · refine pauses_bind pauses_get fun state => ?_
      split
      · refine pauses_bind (pauses_ask fun _ h => by cases h) fun waits => ?_
        split <;> exact pauses_pure _
      · exact pauses_pure _
    · exact pauses_pure _
  write key value _ := by
    simp only [Module.Exchange.behaviour]
    refine pauses_bind pauses_get fun state => ?_
    split
    · split
      · exact pauses_bind (pauses_ask fun _ h => by cases h) fun _ => pauses_pure _
      · split
        · refine pauses_bind (pauses_ask fun _ h => by cases h) fun byte => ?_
          exact pauses_bind (pauses_setCell _ _) fun _ => pauses_pure _
        · exact pauses_pure _
    · exact pauses_pure _
  attach state := .ask (fun _ h => by cases h) fun _ => .done _

/-- The standard modules suspend by `sys.breakpoint` alone. -/
theorem breaks_standard : Registry.standard.Breaks := by
  intro m hm b hb
  simp only [Registry.standard, Registry.standardDecls, List.map_cons, List.map_nil,
    List.mem_cons, List.not_mem_nil, or_false] at hm
  rcases hm with rfl | rfl | rfl | rfl | rfl <;> cases hb
  · exact breaks_system
  · exact pauses_arithmetic _
  · exact pauses_memory _
  · exact pauses_exchange _

end Standard

/-! ## Ops -/

/-- An instance that stands in the slot of a module suspends by `sys.breakpoint` alone. -/
def Context.Breaks (ids : List UInt8) (context : Context) : Prop :=
  context.Serves fun slot b => ∃ id, ids[slot]? = some id ∧ b.Pauses (breaks id)

/-- Fresh instances of modules that suspend by `sys.breakpoint` alone. -/
theorem Context.breaks_fresh {registry : Registry} (h : registry.Breaks) :
    (fresh registry).Breaks registry.slotIds :=
  serves_fresh fun _ m hm b hkind hid => ⟨m.decl.id, hid, h m hm b hkind⟩

theorem Context.breaks_attached {ids : List UInt8} {context after : Context}
    (h : context.Breaks ids) (attached : Attached context after) : after.Breaks ids :=
  serves_attached h attached

/-- Attaching such instances does not suspend. -/
theorem Context.within_of_breaks {ids : List UInt8} {context : Context} (h : context.Breaks ids) :
    context.bind.Within Request.Passes := by
  refine within_bind_context fun slot i hi => ?_
  rcases h slot i hi with ⟨_, _, hpauses⟩
  exact hpauses.attach i.state

/-- An op moves a value to `sys.breakpoint`, for the instruction at an offset. -/
def Op.Breaks (ids : List UInt8) (op : Op) (offset : Word) : Prop :=
  ∃ load slot address, op = .move offset load (.call slot Module.System.breakpointKey address) ∧
    ids[slot]? = some Module.System.decl.id

open Talk

variable {ids : List UInt8} {P : Word → Prop}

/-- A call suspends where the handler of the instance does. -/
theorem Exec.pauses_call {α : Type} (slot : Nat) (default : α) {handler : Behaviour → Handler α}
    (h : ∀ id, ids[slot]? = some id → ∀ b : Behaviour, b.Pauses (breaks id) →
      Talk.Pauses P (fun _ => True) (handler b)) :
    Talk.Pauses P (Context.Breaks ids) (Exec.call slot default handler) := by
  intro context hcontext
  unfold Exec.call
  cases hi : context.instances[slot]? with
  | none => exact Dialogue.Pauses.done (.ok default) hcontext
  | some i =>
      rcases hcontext slot i hi with ⟨id, hid, hpauses⟩
      -- The dialogue is followed request by request, and the instance keeps its behaviour.
      have hhandler := h id hid i.behaviour hpauses i.state trivial
      dsimp only
      generalize handler i.behaviour i.state = d at hhandler
      induction hhandler with
      | done outcome _ =>
          exact Dialogue.Pauses.done outcome (Context.serves_setState hcontext slot fun _ => _)
      | ask r here _ ih => exact Dialogue.Pauses.ask r here ih

theorem Load.pauses_value (offset : Word) (load : Load) :
    Talk.Pauses P (Context.Breaks ids) (load.value offset) := by
  cases load with
  | const value => exact pauses_pure value
  | cell slot index => exact pauses_bind pauses_get fun context => pauses_pure _
  | call slot key address =>
      exact Exec.pauses_call slot 0 fun id _ b h state hstate =>
        Dialogue.pauses_mono (fun _ => False.elim) (h.read key _ state hstate)

theorem Store.pauses_put (offset value : Word) (load : Load) (store : Store) :
    Talk.Pauses ((Op.move offset load store).Breaks ids) (Context.Breaks ids)
      (store.put offset value) := by
  cases store with
  | cell slot index =>
      refine pauses_bind (pauses_modify fun context h => ?_) fun _ => pauses_pure _
      exact Context.serves_setState h slot fun state => state.setCell index value
  | call slot key address =>
      change Talk.Pauses _ _
        (Exec.call slot .proceed fun b => b.write key value ⟨offset, address⟩)
      refine Exec.pauses_call slot _ fun id hid b h state hstate => ?_
      refine Dialogue.pauses_mono ?_ (h.write key value _ state hstate)
      rintro _ ⟨rfl, rfl, rfl⟩
      exact ⟨load, slot, address, rfl, hid⟩

/-- An op that is no suspension point suspends if it moves a value to
    `sys.breakpoint`. -/
theorem Op.pauses_perform (op : Op) (plain : ∀ offset, op ≠ .suspend offset) :
    Talk.Pauses (op.Breaks ids) (Context.Breaks ids) op.perform := by
  -- Only moves and tests call handlers; a trap reads its words.
  cases op with
  | suspend offset => exact absurd rfl (plain offset)
  | move offset load store =>
      refine pauses_bind (Load.pauses_value offset load) fun value => ?_
      refine pauses_bind (Store.pauses_put offset value load store) fun effect => ?_
      cases effect <;> exact pauses_pure _
  | test offset load kind =>
      refine pauses_bind (Load.pauses_value offset load) fun value => ?_
      exact pauses_bind (pauses_modify fun _ h => h) fun _ => pauses_pure _
  | branch target =>
      refine pauses_bind pauses_get fun context => ?_
      exact pauses_bind (pauses_modify fun _ h => h) fun _ => pauses_pure _
  | trap offset cause source destination =>
      refine pauses_bind (pauses_ask fun _ h => by cases h) fun answer => ?_
      cases answer with
      | error reason => exact pauses_throw reason
      | ok currentSource =>
          refine pauses_bind (pauses_ask fun _ h => by cases h) fun answer => ?_
          cases answer with
          | error reason => exact pauses_throw reason
          | ok currentDestination => exact pauses_throw _

namespace Segment

/-- An instruction of a segment moves a value to `sys.breakpoint`. -/
def Breaks (ids : List UInt8) (segment : Segment) (offset : Word) : Prop :=
  ∃ op ∈ segment.ops, op.Breaks ids offset

/-- A segment without suspension points in front of its instructions. -/
def Pointless (segment : Segment) : Prop := ∀ offset, Op.suspend offset ∉ segment.ops

/-- A step of such a segment suspends where a value is moved to `sys.breakpoint`. -/
theorem pauses_step {segment : Segment} (pointless : segment.Pointless) (op : Nat) :
    Talk.Pauses (segment.Breaks ids) (Context.Breaks ids) (segment.step op) := by
  unfold step
  split
  · exact pauses_pure _
  · rename_i current hop
    have hmem := Array.mem_of_getElem? hop
    have hplain : ∀ offset, current ≠ .suspend offset := by
      rintro offset rfl
      exact pointless offset hmem
    refine pauses_bind (fun context h => ?_) fun flow => pauses_pure _
    exact Dialogue.pauses_mono (fun offset breaks => ⟨current, hmem, breaks⟩)
      (Op.pauses_perform current hplain context h)

theorem pointless_of_compile {registry : Registry} {options : Options} {ram : Ram}
    {start stop : Word} {segment : Segment} (plain : options.singleStep = false)
    (compiled : compile registry options ram start stop = .ok segment) : segment.Pointless := by
  rcases compile_eq_ok_iff.mp compiled with ⟨_, _, rfl⟩
  intro offset hmem
  rcases Array.mem_iff_getElem?.mp hmem with ⟨index, hindex⟩
  have hinside := (Array.getElem?_eq_some_iff.mp hindex).1
  rw [size_ops_layout] at hinside
  rw [getElem?_ops_layout _ _ _ hinside, plain, Bool.false_and, if_neg Bool.false_ne_true] at hindex
  unfold opFor opOf at hindex
  split at hindex <;> cases hindex

end Segment

end Transport
