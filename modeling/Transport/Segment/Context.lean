import Transport.Registry
import Transport.Text.Layout

/-!
# Execution Contexts

What an execution carries from one segment to the next: an instance of every
dispatched module, and the condition.

The instances stand in slots, by ascending module id. The condition is set at
first and is made by tests; a jump uses it up.

## Main definitions

* `Context.fresh`: Fresh instances and a set condition.
* `Context.bind`: Attaches every instance to a host.
* `Context.cell`, `Context.setCell`: The cells of an instance.
* `Registry.slot?`: The slot of a module.
-/

namespace Transport

/-- An instance of a module. -/
structure Instance where
  /-- What the instance does. -/
  behaviour : Behaviour
  /-- What the instance holds. -/
  state : ModuleState

/-- What an execution carries from one segment to the next. -/
structure Context where
  /-- The instances, in their slots. -/
  instances : Array Instance
  /-- Whether the next jump is taken. -/
  condition : Bool

namespace Registry

/-- The ids of the modules that have instances, in slot order. -/
def slotIds (r : Registry) : List UInt8 := r.dispatched.map Prod.fst

/-- The slot of a module among the ids in slot order. -/
def slot? (ids : List UInt8) (id : UInt8) : Option Nat := ids.findIdx? (· = id)

end Registry

namespace Context

/-- Fresh instances of all dispatched modules, and a set condition. -/
def fresh (registry : Registry) : Context where
  instances := (registry.dispatched.map fun entry => ⟨entry.2, entry.2.fresh⟩).toArray
  condition := true

/-- Attaches instances to a host, one after the other. -/
def attachAll : List Instance → Dialogue (List Instance)
  | [] => return []
  | i :: later => do
    -- A later instance finds the host as the earlier ones left it.
    let state ← i.behaviour.attach i.state
    let later ← attachAll later
    return { i with state } :: later

/-- Attaches every instance to a host, in slot order. -/
def bind (context : Context) : Dialogue Context := do
  let instances ← attachAll context.instances.toList
  return { context with instances := instances.toArray }

/-- The value of a cell of an instance; one that does not exist reads as zero. -/
def cell (context : Context) (slot : Nat) (index : UInt16) : Word :=
  match context.instances[slot]? with
  | some i => i.state.cell index
  | none => 0

/-- Replaces what the instance in a slot holds. -/
def setState (context : Context) (slot : Nat) (state : ModuleState) : Context :=
  { context with
    instances := context.instances.modify slot fun i => { i with state } }

/-- Replaces a cell of an instance; one that does not exist ignores the value. -/
def setCell (context : Context) (slot : Nat) (index : UInt16) (value : Word) : Context :=
  { context with
    instances := context.instances.modify slot fun i =>
      { i with state := i.state.setCell index value } }

/-- The text a debugger shows: the number of instances, and the condition. -/
def description (context : Context) : String :=
  Layout.record "SegmentContext" [("modules", Numeral.decimal context.instances.size),
    ("cond", Layout.truth context.condition)]

end Context

end Transport
