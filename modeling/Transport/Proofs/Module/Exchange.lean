import Transport.Proofs.Machine.Chronicle
import Transport.Proofs.Machine.Devices
import Transport.Proofs.Machine.Stores
import Transport.Proofs.Program.Agreement

/-!
# Devices Are Kept Apart

A program reaches all devices through one port number that it can change between any two
accesses, while others push input into the devices. So bytes could be lost, be taken twice
or go to another device, and one would only see it in a long mixture of accesses.

An access is looked at through the port number, the value and the devices, which is all
that a program and those who hold the devices can see. It concerns the device that the
port number selects at that time, and no other; and a number of more than 16 bits selects
nothing, even if its lower half is the port of a device. Nothing remembers earlier
accesses, so whatever an access does, the books of every device balance behind it: what
was delivered, together with what waits, is what was pushed, and what was kept is what was
sent.

It does not matter to this whether a device is on one port or on several, which then all
select it.

## Main definitions

* `Outlet`, `Dealing`: What is done to the module and its devices.
* `Situation`: The instances and the devices, between two dealings.
* `Panel`: What can be seen of them.
* `Selects`: The device that a port number selects.
* `Deals`, `Polls`: What a dealing makes of a panel, and what a poll answers.
* `Situation.Orderly`: Every dealing comes to what it should.
* `delivered`, `sent`, `fed`, `gather`: The books of a device.
* `Boards`: Instances are attached to a host that offers the devices of a table.

## Theorems

* `settles_deal`: A dealing makes of a panel what it should.
* `balanced_of_deals`, `balanced_dealAll`: The books balance behind one dealing, and behind
  any number of them.
* `boarding_playAll`: What an execution attaches sees the devices of the machine.
* `devices_are_kept_apart`: All of this, from a fresh execution on.
-/

namespace Transport

namespace Context

variable {context : Context} {slot : Nat} {i : Instance}

/-- To replace a cell is to replace what the instance holds. -/
theorem setState_setCell (h : context.instances[slot]? = some i) (index : UInt16) (value : Word) :
    context.setState slot (i.state.setCell index value) = context.setCell slot index value := by
  have hsame : (context.instances.modify slot fun old =>
        { old with state := i.state.setCell index value }) =
      context.instances.modify slot fun old =>
        { old with state := old.state.setCell index value } := by
    -- The slots are compared one by one, and only `slot` is touched by either.
    apply Array.ext_getElem?
    intro j
    rw [Array.getElem?_modify, Array.getElem?_modify]
    split
    · next same =>
      subst same
      rw [h]
      rfl
    · rfl
  rw [setState, setCell, hsame]

theorem instances_setCell (h : context.instances[slot]? = some i) (index : UInt16)
    (value : Word) :
    (context.setCell slot index value).instances[slot]? =
      some ⟨i.behaviour, i.state.setCell index value⟩ := by
  rw [setCell, Array.getElem?_modify, if_pos rfl, h]
  rfl

theorem instances_setCell_of_ne {other : Nat} (ne : other ≠ slot) (index : UInt16)
    (value : Word) :
    (context.setCell slot index value).instances[other]? = context.instances[other]? := by
  rw [setCell, Array.getElem?_modify, if_neg (Ne.symm ne)]

theorem cell_of_instance (h : context.instances[slot]? = some i) (index : UInt16) :
    context.cell slot index = i.state.cell index := by
  rw [cell, h]

end Context

theorem ModuleState.cell_setCell {state : ModuleState} {index : UInt16}
    (fits : index.toNat < state.cells.size) (value : Word) (other : UInt16) :
    (state.setCell index value).cell other = if other = index then value else state.cell other := by
  unfold cell setCell
  rw [Array.getElem?_setIfInBounds]
  by_cases same : other = index
  · subst same
    rw [if_pos rfl, if_pos fits, if_pos rfl, Option.getD_some]
  · have hne : index.toNat ≠ other.toNat := fun h => same (UInt16.toNat_inj.mp h).symm
    rw [if_neg hne, if_neg same]

theorem Context.cell_setCell {context : Context} {slot : Nat} {i : Instance}
    (h : context.instances[slot]? = some i) {index : UInt16}
    (fits : index.toNat < i.state.cells.size) (value : Word) (other : UInt16) :
    (context.setCell slot index value).cell slot other =
      if other = index then value else context.cell slot other := by
  rw [cell_of_instance (instances_setCell h index value), cell_of_instance h,
    ModuleState.cell_setCell fits]

namespace Module.Exchange

/-! ## Dealings -/

/-- The ports of the module that take a value. -/
inductive Outlet where
  /-- `io.port` -/
  | port
  /-- `io.value` -/
  | value
  /-- `io.write` -/
  | write
  /-- `io.read` -/
  | read
  deriving DecidableEq, Repr

namespace Outlet

/-- The name of a port in a listing. -/
def name : Outlet → String
  | .port => "io.port"
  | .value => "io.value"
  | .write => "io.write"
  | .read => "io.read"

/-- The address of a port. -/
def address : Outlet → Address
  | .port => ⟨0x14000001⟩
  | .value => ⟨0x14000002⟩
  | .write => ⟨0x14000003⟩
  | .read => ⟨0x14000005⟩

/-- How a port is accessed. -/
def accessor : Outlet → Accessor
  | .port => .cell portCell
  | .value => .cell valueCell
  | .write => .handler writeKey
  | .read => .handler readKey

/-- The store of a move to a port, where the instance of the module is in a slot. -/
def store (slot : Nat) (outlet : Outlet) : Store :=
  match outlet.accessor with
  | .cell index => .cell slot index
  | .handler key => .call slot key outlet.address

end Outlet

/-- The address of `io.poll`. -/
def pollAddress : Address := ⟨0x14000004⟩

/-- The load of a move from `io.poll`, where the instance of the module is in a slot. -/
def pollLoad (slot : Nat) : Load := .call slot pollKey pollAddress

/-- Something that is done to the module or its devices. -/
inductive Dealing where
  /-- The instruction at an offset moves a value to a port. -/
  | store (outlet : Outlet) (here value : Word)
  /-- The instruction at an offset reads `io.poll`. -/
  | poll (here : Word)
  /-- Someone outside pushes bytes into a device. -/
  | feed (device : DeviceId) (bytes : List UInt8)
  deriving DecidableEq, Repr

/-- The instances of an execution and the devices. -/
structure Situation where
  /-- The instances, and the condition. -/
  context : Context
  /-- The devices. -/
  rack : Rack

namespace Situation

/-- Carries out a part of an op, which does not ask which devices there are. -/
def run {α : Type} (s : Situation) (x : Exec α) : Except Trap α × Situation :=
  let ((result, context), rack) := (x s.context).converse (Rack.host {}) s.rack
  (result, ⟨context, rack⟩)

/-- The situation behind a dealing. -/
def deal (slot : Nat) (s : Situation) : Dealing → Situation
  | .store outlet here value => (s.run ((outlet.store slot).put here value)).2
  | .poll here => (s.run ((pollLoad slot).value here)).2
  | .feed device bytes => { s with rack := s.rack.feed device bytes }

/-- The situation behind dealings, one after the other. -/
def dealAll (slot : Nat) (s : Situation) (dealings : List Dealing) : Situation :=
  dealings.foldl (deal slot) s

end Situation

/-! ## What can be seen -/

/-- What can be seen of the module and its devices. -/
structure Panel where
  /-- The value of `io.port`. -/
  port : Word
  /-- The value of `io.value`. -/
  value : Word
  /-- The devices by number. -/
  device : DeviceId → Device

namespace Panel

/-- Another device has a number. -/
def replace (p : Panel) (id : DeviceId) (device : Device) : Panel :=
  { p with device := fun other => if other = id then device else p.device other }

variable {p : Panel} {id : DeviceId} {device : Device}

theorem replace_self (h : p.device id = device) : p.replace id device = p := by
  have hsame : (fun other => if other = id then device else p.device other) = p.device := by
    funext other
    split
    · next same => rw [same, h]
    · rfl
  rw [replace, hsame]

theorem device_replace_self : (p.replace id device).device id = device := if_pos rfl

theorem device_replace_of_ne {other : DeviceId} (ne : other ≠ id) :
    (p.replace id device).device other = p.device other :=
  if_neg ne

end Panel

/-- What can be seen in a situation. -/
def Situation.panel (slot : Nat) (s : Situation) : Panel where
  port := s.context.cell slot portCell
  value := s.context.cell slot valueCell
  device := s.rack.get

/-- A port number selects a device: the number is one of 16 bits, and the device is on
    that port. -/
def Selects (table : DeviceTable) (port : Word) (device : DeviceId) : Prop :=
  port.toNat ≤ 0xFFFF ∧ table.find? port.toUInt16 = some device

instance (table : DeviceTable) (port : Word) (device : DeviceId) :
    Decidable (Selects table port device) :=
  inferInstanceAs (Decidable (_ ∧ _))

/-- What a dealing makes of a panel. -/
inductive Deals (table : DeviceTable) (p : Panel) : Dealing → Panel → Prop
  | port (here value : Word) : Deals table p (.store .port here value) { p with port := value }
  | value (here value : Word) : Deals table p (.store .value here value) { p with value }
  /-- The selected device gets the low byte. -/
  | sent {id : DeviceId} {input : List UInt8} {output : Array UInt8} (here value : Word)
      (selects : Selects table p.port id) (holds : p.device id = .buffered input output) :
      Deals table p (.store .write here value)
        (p.replace id (.buffered input (output.push value.toUInt8)))
  /-- The front byte of the selected device is the value. -/
  | received {id : DeviceId} {byte : UInt8} {input : List UInt8} {output : Array UInt8}
      (here ignored : Word) (selects : Selects table p.port id)
      (holds : p.device id = .buffered (byte :: input) output) :
      Deals table p (.store .read here ignored)
        { p.replace id (.buffered input output) with value := byte.toUInt32 }
  /-- The selected device has no byte. -/
  | drained {id : DeviceId} {output : Array UInt8} (here ignored : Word)
      (selects : Selects table p.port id) (holds : p.device id = .buffered [] output) :
      Deals table p (.store .read here ignored) { p with value := 0 }
  /-- No device is selected. -/
  | missed {outlet : Outlet} (here value : Word) (calls : outlet = .write ∨ outlet = .read)
      (unselected : ∀ id, ¬Selects table p.port id) : Deals table p (.store outlet here value) p
  | polled (here : Word) : Deals table p (.poll here) p
  | fed (id : DeviceId) (bytes : List UInt8) :
      Deals table p (.feed id bytes) (p.replace id ((p.device id).feed bytes))

/-- What `io.poll` answers. -/
inductive Polls (table : DeviceTable) (p : Panel) : Word → Prop
  | pending {id : DeviceId} {byte : UInt8} {input : List UInt8} {output : Array UInt8}
      (selects : Selects table p.port id)
      (holds : p.device id = .buffered (byte :: input) output) : Polls table p 1
  | idle {id : DeviceId} {output : Array UInt8} (selects : Selects table p.port id)
      (holds : p.device id = .buffered [] output) : Polls table p 2
  | absent (unselected : ∀ id, ¬Selects table p.port id) : Polls table p 0

/-- Two contexts differ in the instance in a slot at most. -/
structure Beside (slot : Nat) (before after : Context) : Prop where
  condition : after.condition = before.condition
  others : ∀ other, other ≠ slot → after.instances[other]? = before.instances[other]?

/-- Where a compute thread is about to do a part of an op, with the instances and the
    devices as they are in a situation, it does so in some number of small steps, and goes
    on with the instances and the devices as they are behind it. -/
def Situation.Carries {α : Type} (s : Situation) (x : Exec α) : Prop :=
  ∀ {ω : Type} (a : Audience ω) (session : Session ω) (segment : Segment)
    (k : α → Exec Progress) (value : α) (s' : Situation), s.run x = (.ok value, s') →
    session.machine.rack = s.rack →
    session.machine.thread = .working segment ((x >>= k) s.context) →
    ∃ count, session.after a count =
      session.modify (·.turn s'.rack (.working segment (k value s'.context)))

/-- Every dealing comes to what it should. -/
structure Situation.Orderly (table : DeviceTable) (slot : Nat) (s : Situation) : Prop where
  deals : ∀ dealing, Deals table (s.panel slot) dealing ((s.deal slot dealing).panel slot)
  beside : ∀ dealing, Beside slot s.context (s.deal slot dealing).context
  /-- No move traps, or ends the program. -/
  proceeds : ∀ outlet here value,
    (s.run ((Outlet.store slot outlet).put here value)).1 = .ok .proceed
  /-- To poll changes nothing. -/
  polls : ∀ here, ∃ answer, s.run ((pollLoad slot).value here) = (.ok answer, s) ∧
    Polls table (s.panel slot) answer
  /-- The machine does the same. -/
  carries_put : ∀ outlet here value, s.Carries ((Outlet.store slot outlet).put here value)
  carries_value : ∀ here, s.Carries ((pollLoad slot).value here)

/-! ## Handlers -/

/-- What the port number of an instance selects, in terms of what can be seen. -/
theorem selected?_eq_some_iff {table : DeviceTable} {state : ModuleState}
    (wired : ∀ port, state.devices.find? port = table.find? port) {id : DeviceId} :
    selected? state = some id ↔ Selects table (state.cell portCell) id := by
  have hle : state.cell portCell ≤ 0xFFFF ↔ (state.cell portCell).toNat ≤ 0xFFFF :=
    UInt32.le_iff_toNat_le
  simp only [selected?, Selects, wired, ← hle]
  split
  · next fits => simp only [fits, true_and]
  · next wide => simp only [wide, false_and, reduceCtorEq]

theorem write_missed {state : ModuleState} (h : selected? state = none) (key : UInt16)
    (value : Word) (access : Access) :
    behaviour.write key value access state = .done (.ok .proceed, state) := by
  simp only [behaviour]
  rw [Talk.get_bind_apply]
  rw [h]
  rfl

/-- A move to a port without a cell is a call of the handler. -/
theorem put_write (slot : Nat) (here value : Word) :
    (Outlet.store slot .write).put here value =
      Exec.call slot .proceed fun b => b.write writeKey value ⟨here, Outlet.write.address⟩ :=
  rfl

theorem put_read (slot : Nat) (here value : Word) :
    (Outlet.store slot .read).put here value =
      Exec.call slot .proceed fun b => b.write readKey value ⟨here, Outlet.read.address⟩ :=
  rfl

theorem value_poll (slot : Nat) (here : Word) :
    (pollLoad slot).value here =
      Exec.call slot 0 fun b => b.read pollKey ⟨here, pollAddress⟩ :=
  rfl

/-- `io.write` asks for the low byte to be sent. -/
theorem write_sent {state : ModuleState} {id : DeviceId} (h : selected? state = some id)
    (value : Word) (access : Access) :
    behaviour.write writeKey value access state =
      .ask (.sendByte id value.toUInt8) fun _ => .done (.ok .proceed, state) := by
  simp only [behaviour]
  rw [Talk.get_bind_apply]
  rw [h]
  rfl

/-- `io.read` asks for a byte. -/
theorem write_received {state : ModuleState} {id : DeviceId} (h : selected? state = some id)
    (value : Word) (access : Access) :
    behaviour.write readKey value access state =
      .ask (.takeByte id) fun byte =>
        .done (.ok .proceed, state.setCell valueCell byte.toUInt32) := by
  simp only [behaviour]
  rw [Talk.get_bind_apply]
  rw [h]
  rfl

/-- `io.poll` asks whether a byte waits. -/
theorem read_poll (state : ModuleState) (access : Access) :
    behaviour.read pollKey access state =
      match selected? state with
      | some id => .ask (.hasByte id) fun pending =>
          .done (.ok (if pending then pendingByte else idle), state)
      | none => .done (.ok absent, state) := by
  simp only [behaviour]
  -- Polling asks whether a byte is pending and leaves the state alone either way.
  rw [if_pos trivial, Talk.get_bind_apply]
  cases selected? state with
  | none => rfl
  | some id =>
      refine congrArg (Dialogue.ask _) (funext fun pending => ?_)
      cases pending <;> rfl

/-! ## One dealing -/

/-- The instance of the module is in a slot, with the devices of a table on its ports. -/
def Serves (table : DeviceTable) (slot : Nat) (context : Context) : Prop :=
  ∃ state : ModuleState, context.instances[slot]? = some ⟨behaviour, state⟩ ∧
    state.cells.size = 2 ∧ ∀ port, state.devices.find? port = table.find? port

/-- The module is served, and the devices on its ports lose nothing. -/
structure Situation.Wired (table : DeviceTable) (slot : Nat) (s : Situation) : Prop where
  serves : Serves table slot s.context
  buffered : ∀ port id, table.find? port = some id → (s.rack.get id).IsBuffered

/-- What a dealing comes to: the panel changes as it should, other instances do not, and
    the module is still served. -/
structure Settles (table : DeviceTable) (slot : Nat) (s : Situation) (dealing : Dealing)
    (s' : Situation) : Prop where
  deals : Deals table (s.panel slot) dealing (s'.panel slot)
  beside : Beside slot s.context s'.context
  serves : Serves table slot s'.context

/-- A device that loses nothing is still one behind a dealing. -/
theorem isBuffered_of_deals {table : DeviceTable} {p p' : Panel} {dealing : Dealing}
    (h : Deals table p dealing p') {id : DeviceId} (buffered : (p.device id).IsBuffered) :
    (p'.device id).IsBuffered := by
  -- A dealing replaces one device at most, by one that is buffered again.
  have hreplace : ∀ {other : DeviceId} {device : Device},
      (id = other → device.IsBuffered) → ((p.replace other device).device id).IsBuffered := by
    intro other device changed
    by_cases same : id = other
    · subst same
      rw [Panel.device_replace_self]
      exact changed rfl
    · rw [Panel.device_replace_of_ne same]
      exact buffered
  cases h with
  | port | value | drained | missed | polled => exact buffered
  | sent | received => exact hreplace fun _ => ⟨_, _, rfl⟩
  | fed other bytes =>
      refine hreplace fun same => ?_
      subst same
      rcases buffered with ⟨input, output, holds⟩
      rw [holds]
      exact ⟨_, _, rfl⟩

namespace Situation

variable {table : DeviceTable} {slot : Nat} {s : Situation}

theorem run_call {α : Type} {i : Instance} (h : s.context.instances[slot]? = some i)
    (default : α) (handler : Behaviour → Handler α) :
    s.run (Exec.call slot default handler) =
      let held := (handler i.behaviour i.state).converse (Rack.host {}) s.rack
      (held.1.1, ⟨s.context.setState slot held.1.2, held.2⟩) := by
  simp only [run, Exec.call, h]
  rw [Dialogue.converse_bind]
  rfl

/-- What asks nothing but devices is carried out by the compute thread. -/
theorem carries_of_devicewise {α : Type} {x : Exec α} (h : (x s.context).Devicewise) :
    s.Carries x := by
  intro ω a session segment k value s' hrun hrack hthread
  rw [Talk.bind_apply] at hthread
  -- The machine takes as many steps as the dialogue has requests, and ends with the same value.
  rcases Session.after_of_devicewise a h {} _ session hthread with ⟨count, hcount⟩
  refine ⟨count, ?_⟩
  rw [hcount, Session.modify, Session.modify, hrack]
  unfold run at hrun
  generalize (x s.context).converse (Rack.host {}) s.rack = held at hrun
  rcases held with ⟨⟨result, context⟩, rack⟩
  cases hrun
  rfl

/-- A call is carried out if the handler asks nothing but devices. -/
theorem carries_call {α : Type} {i : Instance} (h : s.context.instances[slot]? = some i)
    (default : α) {handler : Behaviour → Handler α} {d : Dialogue (Except Trap α × ModuleState)}
    (asks : handler i.behaviour i.state = d) (devicewise : d.Devicewise) :
    s.Carries (Exec.call slot default handler) := by
  refine carries_of_devicewise ?_
  simp only [Exec.call, h, asks]
  exact Dialogue.devicewise_bind devicewise fun _ => .done _

/-! ### Panels -/

theorem panel_setCell_port (serves : Serves table slot s.context) (value : Word) :
    (⟨s.context.setCell slot portCell value, s.rack⟩ : Situation).panel slot =
      { s.panel slot with port := value } := by
  rcases serves with ⟨state, hstate, hsize, _⟩
  have fits : portCell.toNat < state.cells.size := by rw [hsize]; decide
  simp only [panel, Context.cell_setCell hstate fits, if_pos, Panel.mk.injEq, and_true, true_and]
  exact if_neg (by decide)

theorem panel_setCell_value (serves : Serves table slot s.context) (value : Word) :
    (⟨s.context.setCell slot valueCell value, s.rack⟩ : Situation).panel slot =
      { s.panel slot with value } := by
  rcases serves with ⟨state, hstate, hsize, _⟩
  have fits : valueCell.toNat < state.cells.size := by rw [hsize]; decide
  simp only [panel, Context.cell_setCell hstate fits, if_pos, Panel.mk.injEq, and_true]
  exact if_neg (by decide)

/-- Where one device is changed, the panel has that device in place of the old one. -/
theorem panel_of_get {rack : Rack} {id : DeviceId} {device : Device}
    (h : ∀ other, rack.get other = if other = id then device else s.rack.get other) :
    (⟨s.context, rack⟩ : Situation).panel slot = (s.panel slot).replace id device := by
  simp only [panel, Panel.replace, Panel.mk.injEq, true_and]
  exact funext h

theorem serves_setCell (serves : Serves table slot s.context) (index : UInt16) (value : Word) :
    Serves table slot (s.context.setCell slot index value) := by
  rcases serves with ⟨state, hstate, hsize, hfind⟩
  refine ⟨_, Context.instances_setCell hstate index value, ?_, hfind⟩
  rw [← hsize]
  exact Array.size_setIfInBounds

theorem beside_setCell (slot : Nat) (context : Context) (index : UInt16) (value : Word) :
    Beside slot context (context.setCell slot index value) :=
  ⟨rfl, fun _ ne => Context.instances_setCell_of_ne ne index value⟩

theorem beside_refl (slot : Nat) (context : Context) : Beside slot context context :=
  ⟨rfl, fun _ _ => rfl⟩

/-- What the instance holds, and what it selects in terms of what can be seen. -/
theorem exists_state (serves : Serves table slot s.context) :
    ∃ state : ModuleState, s.context.instances[slot]? = some ⟨behaviour, state⟩ ∧
      s.context.setState slot state = s.context ∧
      ∀ id, selected? state = some id ↔ Selects table (s.panel slot).port id := by
  rcases serves with ⟨state, hstate, _, hfind⟩
  refine ⟨state, hstate, Context.setState_self hstate, fun id => ?_⟩
  rw [panel, Context.cell_of_instance hstate]
  exact selected?_eq_some_iff hfind

/-- A selected device is in the state of a buffered one. -/
theorem exists_buffered (wired : s.Wired table slot) {id : DeviceId}
    (selects : Selects table (s.panel slot).port id) :
    ∃ input output, s.rack.get id = .buffered input output :=
  wired.buffered _ id selects.2

/-! ### Accesses -/

/-- A move to a port is made: it neither traps nor ends the program, it settles, and the
    compute thread carries it out. -/
structure Puts (table : DeviceTable) (slot : Nat) (s : Situation) (outlet : Outlet)
    (here value : Word) (s' : Situation) : Prop where
  proceeds : s.run ((outlet.store slot).put here value) = (.ok .proceed, s')
  settles : Settles table slot s (.store outlet here value) s'
  carries : s.Carries ((outlet.store slot).put here value)

theorem puts_port (wired : s.Wired table slot) (here value : Word) :
    s.Puts table slot .port here value ⟨s.context.setCell slot portCell value, s.rack⟩ := by
  refine ⟨rfl, ⟨?_, ?_, ?_⟩, ?_⟩
  · rw [panel_setCell_port wired.serves]
    exact .port here value
  · exact beside_setCell slot s.context portCell value
  · exact serves_setCell wired.serves portCell value
  · exact carries_of_devicewise (.done _)

theorem puts_value (wired : s.Wired table slot) (here value : Word) :
    s.Puts table slot .value here value ⟨s.context.setCell slot valueCell value, s.rack⟩ := by
  refine ⟨rfl, ⟨?_, ?_, ?_⟩, ?_⟩
  · rw [panel_setCell_value wired.serves]
    exact .value here value
  · exact beside_setCell slot s.context valueCell value
  · exact serves_setCell wired.serves valueCell value
  · exact carries_of_devicewise (.done _)

/-- Without a selected device, a call changes nothing. -/
theorem puts_missed (wired : s.Wired table slot) {outlet : Outlet}
    (calls : outlet = .write ∨ outlet = .read)
    (unselected : ∀ id, ¬Selects table (s.panel slot).port id) (here value : Word) :
    s.Puts table slot outlet here value s := by
  rcases exists_state wired.serves with ⟨state, hstate, hself, hselected⟩
  -- With no device selected the module answers by itself and asks nothing.
  have hnone : selected? state = none :=
    Option.eq_none_iff_forall_ne_some.mpr fun id h => unselected id ((hselected id).mp h)
  have hrun : ∀ key access, s.run (Exec.call slot Effect.proceed fun b =>
      b.write key value access) = (.ok .proceed, s) := by
    intro key access
    rw [run_call hstate, write_missed hnone]
    simp only [Dialogue.converse, hself]
  have hcarries : ∀ key access, s.Carries (Exec.call slot Effect.proceed fun b =>
      b.write key value access) :=
    fun key access => carries_call hstate _ (write_missed hnone key value access) (.done _)
  rcases calls with rfl | rfl
  · exact ⟨hrun _ _, ⟨.missed here value (Or.inl rfl) unselected, beside_refl _ _, wired.serves⟩,
      hcarries _ _⟩
  · exact ⟨hrun _ _, ⟨.missed here value (Or.inr rfl) unselected, beside_refl _ _, wired.serves⟩,
      hcarries _ _⟩

theorem puts_sent (wired : s.Wired table slot) {id : DeviceId}
    (selects : Selects table (s.panel slot).port id) (here value : Word) :
    s.Puts table slot .write here value ⟨s.context, s.rack.send id value.toUInt8⟩ := by
  rcases exists_state wired.serves with ⟨state, hstate, hself, hselected⟩
  rcases exists_buffered wired selects with ⟨input, output, holds⟩
  -- What the state has selected is what the panel selects.
  have hselected := (hselected id).mpr selects
  have hget := fun other => s.rack.get_send id other value.toUInt8
  refine ⟨?_, ⟨?_, beside_refl _ _, wired.serves⟩, ?_⟩
  · rw [put_write, run_call hstate, write_sent hselected]
    simp only [Dialogue.converse, Rack.host, hself]
  · rw [panel_of_get hget, holds]
    exact .sent here value selects holds
  · rw [put_write]
    exact carries_call hstate _ (write_sent hselected _ _) (.sendByte (.done _))

theorem puts_received (wired : s.Wired table slot) {id : DeviceId}
    (selects : Selects table (s.panel slot).port id) (here ignored : Word) :
    s.Puts table slot .read here ignored
      ⟨s.context.setCell slot valueCell (s.rack.take id).1.toUInt32, (s.rack.take id).2⟩ := by
  rcases exists_state wired.serves with ⟨state, hstate, _, hselected⟩
  rcases exists_buffered wired selects with ⟨input, output, holds⟩
  have hselected := (hselected id).mpr selects
  have hget := fun other => s.rack.get_take id other
  -- What is run, what is seen of it afterwards, and what the machine does.
  refine ⟨?_, ⟨?_, ?_, ?_⟩, ?_⟩
  · rw [put_read, run_call hstate, write_received hselected]
    simp only [Dialogue.converse, Rack.host, Context.setState_setCell hstate]
  · -- The device is in the state that taking a byte leaves, and the value is that byte.
    rw [panel_setCell_value (s := ⟨s.context, (s.rack.take id).2⟩) wired.serves,
      panel_of_get hget]
    have hbyte : (s.rack.take id).1 = ((s.rack.get id).take).1 := rfl
    rw [hbyte, holds]
    cases input with
    | nil =>
        have htake : (Device.buffered [] output).take = (0, .buffered [] output) := rfl
        rw [htake, Panel.replace_self holds]
        exact .drained here ignored selects holds
    | cons byte input => exact .received here ignored selects holds
  · exact beside_setCell slot s.context valueCell _
  · exact serves_setCell wired.serves valueCell _
  · rw [put_read]
    exact carries_call hstate _ (write_received hselected _ _) (.takeByte fun _ => .done _)

/-- Every move to a port is made. -/
theorem exists_puts (wired : s.Wired table slot) (outlet : Outlet) (here value : Word) :
    ∃ s', s.Puts table slot outlet here value s' := by
  cases outlet with
  | port => exact ⟨_, puts_port wired here value⟩
  | value => exact ⟨_, puts_value wired here value⟩
  -- A write and a read depend on whether a device is selected, the two other ports do not.
  | write =>
      by_cases selected : ∃ id, Selects table (s.panel slot).port id
      · rcases selected with ⟨id, selects⟩
        exact ⟨_, puts_sent wired selects here value⟩
      · exact ⟨s, puts_missed wired (Or.inl rfl) (not_exists.mp selected) here value⟩
  | read =>
      by_cases selected : ∃ id, Selects table (s.panel slot).port id
      · rcases selected with ⟨id, selects⟩
        exact ⟨_, puts_received wired selects here value⟩
      · exact ⟨s, puts_missed wired (Or.inr rfl) (not_exists.mp selected) here value⟩

/-- To poll changes nothing, and the answer is about the selected device. -/
theorem exists_answer (wired : s.Wired table slot) (here : Word) :
    ∃ answer, s.run ((pollLoad slot).value here) = (.ok answer, s) ∧
      Polls table (s.panel slot) answer := by
  rcases exists_state wired.serves with ⟨state, hstate, hself, hselects⟩
  rw [value_poll, run_call hstate, read_poll]
  -- The answer is by what is selected, and then by what that device has left.
  cases hselected : selected? state with
  | none =>
      simp only [Dialogue.converse, hself]
      refine ⟨absent, rfl, .absent fun id selects => ?_⟩
      rw [← hselects, hselected] at selects
      contradiction
  | some id =>
      have selects := (hselects id).mp hselected
      rcases exists_buffered wired selects with ⟨input, output, holds⟩
      simp only [Dialogue.converse, Rack.host, s.rack.poll_of_buffered holds, hself]
      cases input with
      | nil => exact ⟨idle, rfl, .idle selects holds⟩
      | cons byte input => exact ⟨pendingByte, rfl, .pending selects holds⟩

theorem carries_poll (wired : s.Wired table slot) (here : Word) :
    s.Carries ((pollLoad slot).value here) := by
  rcases wired.serves with ⟨state, hstate, _, _⟩
  rw [value_poll]
  refine carries_call hstate _ (read_poll state _) ?_
  cases selected? state with
  | none => exact .done _
  | some id => exact .hasByte fun _ => .done _

/-- Every dealing settles. -/
theorem settles_deal (wired : s.Wired table slot) (dealing : Dealing) :
    Settles table slot s dealing (s.deal slot dealing) := by
  cases dealing with
  | store outlet here value =>
      rcases exists_puts wired outlet here value with ⟨s', puts⟩
      rw [deal, puts.proceeds]
      exact puts.settles
  | poll here =>
      rcases exists_answer wired here with ⟨answer, hrun, _⟩
      rw [deal, hrun]
      exact ⟨.polled here, beside_refl _ _, wired.serves⟩
  | feed id bytes =>
      have hget := fun other => s.rack.get_feed id other bytes
      refine ⟨?_, beside_refl _ _, wired.serves⟩
      rw [deal, panel_of_get hget]
      exact .fed id bytes

theorem orderly_of_wired (wired : s.Wired table slot) : s.Orderly table slot where
  deals dealing := (settles_deal wired dealing).deals
  beside dealing := (settles_deal wired dealing).beside
  proceeds outlet here value := by
    rcases exists_puts wired outlet here value with ⟨s', puts⟩
    rw [puts.proceeds]
  polls := exists_answer wired
  carries_put outlet here value := by
    rcases exists_puts wired outlet here value with ⟨s', puts⟩
    exact puts.carries
  carries_value := carries_poll wired

theorem wired_deal (wired : s.Wired table slot) (dealing : Dealing) :
    (s.deal slot dealing).Wired table slot := by
  have settles := settles_deal wired dealing
  exact ⟨settles.serves, fun port id found =>
    isBuffered_of_deals settles.deals (wired.buffered port id found)⟩

theorem wired_dealAll (dealings : List Dealing) :
    ∀ s : Situation, s.Wired table slot → (s.dealAll slot dealings).Wired table slot := by
  induction dealings with
  | nil => exact fun _ wired => wired
  | cons dealing dealings ih => exact fun s wired => ih _ (wired_deal wired dealing)

end Situation

/-! ## The books -/

/-- What a dealing delivers from a device, as the value shows it: a byte, if a read selects
    the device and one waits there. -/
def delivered (table : DeviceTable) (id : DeviceId) (before : Panel) (dealing : Dealing)
    (after : Panel) : List UInt8 :=
  match dealing with
  | .store .read _ _ =>
    if Selects table before.port id ∧ (before.device id).poll.1 then [after.value.toUInt8]
    else []
  | _ => []

/-- What a dealing sends to a device: the low byte of what is written, if the device is
    selected. -/
def sent (table : DeviceTable) (id : DeviceId) (before : Panel) (dealing : Dealing)
    (_ : Panel) : List UInt8 :=
  match dealing with
  | .store .write _ value => if Selects table before.port id then [value.toUInt8] else []
  | _ => []

/-- What a dealing pushes into a device from outside. -/
def fed (id : DeviceId) : Dealing → List UInt8
  | .feed other bytes => if other = id then bytes else []
  | _ => []

/-- What is noted of dealings, one after the other, given what can be seen before and after
    each. -/
def gather (slot : Nat) (note : Panel → Dealing → Panel → List UInt8) :
    Situation → List Dealing → List UInt8
  | _, [] => []
  | s, dealing :: dealings =>
    note (s.panel slot) dealing ((s.deal slot dealing).panel slot) ++
      gather slot note (s.deal slot dealing) dealings

/-- The books of a buffered device balance: what was delivered, together with what waits, is
    what waited and what was pushed; and what was kept is what had been kept and what was
    sent. -/
def Balanced (before after : Device) (delivered sent fed : List UInt8) : Prop :=
  ∃ input output input' output', before = .buffered input output ∧
    after = .buffered input' output' ∧ delivered ++ input' = input ++ fed ∧
    output'.toList = output.toList ++ sent

theorem balanced_refl {device : Device} (buffered : device.IsBuffered) :
    Balanced device device [] [] [] := by
  rcases buffered with ⟨input, output, holds⟩
  exact ⟨input, output, input, output, holds, holds, (List.append_nil _).symm,
    (List.append_nil _).symm⟩

/-- Books that balance are continued by books that balance. -/
theorem balanced_trans {before between after : Device} {d s f d' s' f' : List UInt8}
    (h : Balanced before between d s f) (h' : Balanced between after d' s' f') :
    Balanced before after (d ++ d') (s ++ s') (f ++ f') := by
  rcases h with ⟨input, output, input', output', hbefore, hbetween, hinput, houtput⟩
  rcases h' with ⟨input₁, output₁, input'', output'', hbetween', hafter, hinput', houtput'⟩
  -- What is in between is the same device, so that it holds the same bytes.
  rw [hbetween] at hbetween'
  rcases Device.buffered_injective hbetween' with ⟨rfl, rfl⟩
  refine ⟨input, output, input'', output'', hbefore, hafter, ?_, ?_⟩
  · rw [List.append_assoc, hinput', ← List.append_assoc, hinput, List.append_assoc]
  · rw [houtput', houtput, List.append_assoc]

/-- A port number selects one device at most. -/
theorem selects_unique {table : DeviceTable} {port : Word} {id other : DeviceId}
    (h : Selects table port id) (h' : Selects table port other) : id = other :=
  Option.some.inj (h.2.symm.trans h'.2)

/-- Behind one dealing, the books of a device that loses nothing balance. -/
theorem balanced_of_deals {table : DeviceTable} {p p' : Panel} {dealing : Dealing}
    (h : Deals table p dealing p') {id : DeviceId} (buffered : (p.device id).IsBuffered) :
    Balanced (p.device id) (p'.device id) (delivered table id p dealing p')
      (sent table id p dealing p') (fed id dealing) := by
  cases h with
  | port | value | polled => exact balanced_refl buffered
  | missed here value calls unselected =>
      rcases calls with rfl | rfl
      · rw [sent, if_neg (unselected id)]
        exact balanced_refl buffered
      · rw [delivered, if_neg fun h => unselected id h.1]
        exact balanced_refl buffered
  | sent here value selects holds =>
      next other input output =>
      rw [sent]
      by_cases same : id = other
      · subst same
        rw [if_pos selects, Panel.device_replace_self, holds]
        exact ⟨_, _, _, _, rfl, rfl, (List.append_nil _).symm, Array.toList_push⟩
      · rw [if_neg fun h => same (selects_unique h selects), Panel.device_replace_of_ne same]
        exact balanced_refl buffered
  | received here ignored selects holds =>
      next other byte input output =>
      rw [delivered]
      dsimp only
      by_cases same : id = other
      · subst same
        -- What the value shows is the byte that was in front.
        have pending : (p.device id).poll.1 = true := by rw [holds]; rfl
        rw [if_pos ⟨selects, pending⟩, UInt8.toUInt8_toUInt32, Panel.device_replace_self, holds]
        exact ⟨_, _, _, _, rfl, rfl, (List.append_nil _).symm, (List.append_nil _).symm⟩
      · rw [if_neg fun h => same (selects_unique h.1 selects), Panel.device_replace_of_ne same]
        exact balanced_refl buffered
  | drained here ignored selects holds =>
      next other output =>
      have silent : ¬(Selects table p.port id ∧ (p.device id).poll.1 = true) := by
        rintro ⟨selected, pending⟩
        rw [selects_unique selected selects, holds] at pending
        contradiction
      rw [delivered, if_neg silent]
      exact balanced_refl buffered
  | fed other bytes =>
      rw [fed]
      by_cases same : id = other
      · subst same
        rcases buffered with ⟨input, output, holds⟩
        rw [if_pos rfl, Panel.device_replace_self, holds]
        exact ⟨_, _, _, _, rfl, rfl, rfl, (List.append_nil _).symm⟩
      · rw [if_neg (Ne.symm same), Panel.device_replace_of_ne same]
        exact balanced_refl buffered

/-- Behind any number of dealings, the books of a device that lost nothing balance. -/
theorem balanced_dealAll {table : DeviceTable} {slot : Nat} {id : DeviceId}
    (dealings : List Dealing) :
    ∀ s : Situation, s.Wired table slot → (s.rack.get id).IsBuffered →
      Balanced (s.rack.get id) ((s.dealAll slot dealings).rack.get id)
        (gather slot (delivered table id) s dealings) (gather slot (sent table id) s dealings)
        (dealings.flatMap (fed id)) := by
  -- Induction on the dealings; the books of the first and of the others compose.
  induction dealings with
  | nil => exact fun _ _ buffered => balanced_refl buffered
  | cons dealing dealings ih =>
      intro s wired buffered
      have deals := (Situation.settles_deal wired dealing).deals
      rw [List.flatMap_cons]
      exact balanced_trans (balanced_of_deals deals buffered)
        (ih _ (Situation.wired_deal wired dealing) (isBuffered_of_deals deals buffered))

/-! ## Executions -/

/-- The declaration has every port. -/
theorem Outlet.exists_port (outlet : Outlet) :
    ∃ p ∈ decl.ports, p.capability.allows .write = true ∧ decl.fullName p.name = outlet.name ∧
      (decl.port p).address? = some outlet.address ∧ p.accessor = outlet.accessor := by
  cases outlet with
  | port => exact ⟨_, List.mem_of_getElem? (i := 0) rfl, rfl, rfl, by decide, rfl⟩
  | value => exact ⟨_, List.mem_of_getElem? (i := 1) rfl, rfl, rfl, by decide, rfl⟩
  | write => exact ⟨_, List.mem_of_getElem? (i := 2) rfl, rfl, rfl, by decide, rfl⟩
  | read => exact ⟨_, List.mem_of_getElem? (i := 4) rfl, rfl, rfl, by decide, rfl⟩

theorem exists_pollPort :
    ∃ p ∈ decl.ports, p.capability.allows .read = true ∧ decl.fullName p.name = "io.poll" ∧
      (decl.port p).address? = some pollAddress ∧ p.accessor = .handler pollKey :=
  ⟨_, List.mem_of_getElem? (i := 3) rfl, rfl, rfl, by decide, rfl⟩

section Registered

variable {r : Registry} (sound : r.Sound) (taken : decl.registered ∈ r.modules)

include sound taken

/-- A port of the module is found by its name, and by its address it is resolved to the slot
    of the instance. -/
theorem named?_and_resolve {slot : Nat} (hslot : Registry.slot? r.slotIds decl.id = some slot)
    {p : PortDecl} (hp : p ∈ decl.ports) {direction : Direction}
    (serves : p.capability.allows direction = true) {address : Address}
    (haddress : (decl.port p).address? = some address) :
    r.named? (decl.fullName p.name) direction = some (decl.port p) ∧
      Segment.resolve r r.slotIds address direction = .ok (slot, p.accessor) := by
  -- A port of a module that was taken up is among the ports, under its full name.
  have hport : decl.port p ∈ r.ports :=
    Registry.mem_ports_iff.mpr ⟨_, taken, List.mem_map_of_mem hp⟩
  exact ⟨(Registry.named?_eq_some_iff sound).mpr ⟨hport, serves, List.mem_cons_self⟩,
    Registry.resolve_of_slot? sound hport serves haddress hslot⟩

theorem storeOf_outlet {slot : Nat} (hslot : Registry.slot? r.slotIds decl.id = some slot)
    (outlet : Outlet) :
    (r.named? outlet.name .write).bind Port.address? = some outlet.address ∧
      Segment.storeOf r r.slotIds outlet.address = .ok (outlet.store slot) := by
  rcases outlet.exists_port with ⟨p, hp, serves, hname, haddress, haccessor⟩
  rcases named?_and_resolve sound taken hslot hp serves haddress with ⟨hnamed, hresolve⟩
  rw [← hname, hnamed, Option.bind_some]
  refine ⟨haddress, ?_⟩
  rw [haccessor] at hresolve
  simp only [Segment.storeOf, hresolve, bind, Except.bind, Outlet.store]
  cases outlet.accessor <;> rfl

theorem loadOf_poll {slot : Nat} (hslot : Registry.slot? r.slotIds decl.id = some slot) :
    (r.named? "io.poll" .read).bind Port.address? = some pollAddress ∧
      Segment.loadOf r r.slotIds (.port pollAddress) = .ok (pollLoad slot) := by
  rcases exists_pollPort with ⟨p, hp, serves, hname, haddress, haccessor⟩
  rcases named?_and_resolve sound taken hslot hp serves haddress with ⟨hnamed, hresolve⟩
  rw [← hname, hnamed, Option.bind_some]
  refine ⟨haddress, ?_⟩
  rw [haccessor] at hresolve
  simp only [Segment.loadOf, hresolve, bind, Except.bind]
  rfl

end Registered

/-! ### Attachment -/

/-- Fresh instances are being attached to a host that offers the devices of a table, whatever
    else it answers, and `rest` is left of it. -/
def Boards (r : Registry) (table : DeviceTable) (rest : Dialogue Context) : Prop :=
  ∃ answers, (Context.fresh r).bind.Leads answers rest ∧
    ∀ offered : DeviceTable, ⟨.offered, offered⟩ ∈ answers → offered = table

/-- What a machine has left to attach has been offered the devices of a table. -/
def Boarding (table : DeviceTable) (m : Machine) : Prop :=
  ∀ rest, m.thread.attachment? = some rest → Boards m.registry table rest

section Boards

variable {ω : Type} {s : Session ω}

/-- Fresh instances are attached in the end, to a host that has the devices. -/
theorem boards_converse (r : Registry) (table : DeviceTable) (rack : Rack) :
    Boards r table (.done ((Context.fresh r).bind.converse (Rack.host table) rack).1) := by
  rcases Dialogue.exists_leads_of_converse (Rack.host table) (Context.fresh r).bind rack with
    ⟨answers, leads, own⟩
  refine ⟨answers, leads, fun offered member => ?_⟩
  rcases own _ member with ⟨_, answered⟩
  exact answered

theorem boarding_of_attachment {table : DeviceTable} {m : Machine} {rest : Dialogue Context}
    (h : m.thread.attachment? = some rest) (boards : Boards m.registry table rest) :
    Boarding table m := by
  intro rest' h'
  rw [h] at h'
  cases h'
  exact boards

theorem boarding_of_none {table : DeviceTable} {m : Machine} (h : m.thread.attachment? = none) :
    Boarding table m := by
  intro rest h'
  rw [h] at h'
  contradiction

/-- One more request of an attachment is answered, as the machine does it. -/
theorem boards_answered (a : Audience ω) {request : Request}
    {next : request.Answer → Dialogue Context}
    (boards : Boards s.machine.registry s.machine.peripherals (.ask request next)) :
    Boards s.machine.registry s.machine.peripherals (next (s.answer a request).1) := by
  rcases boards with ⟨answers, leads, offers⟩
  refine ⟨_, Dialogue.leads_concat leads _, fun offered member => ?_⟩
  -- Of the answers to be justified only the last is new.
  rcases List.mem_append.mp member with earlier | last
  · exact offers offered earlier
  · cases List.mem_singleton.mp last
    rfl

theorem boarding_advance (a : Audience ω)
    (boarding : Boarding s.machine.peripherals s.machine) :
    Boarding s.machine.peripherals (s.advance a).2.machine := by
  have hchange := Session.change_advance a s
  generalize s.advance a = result at hchange ⊢
  -- Only an answered request changes what the attachment has left to ask.
  cases hchange with
  | stays => exact boarding
  | @answers request next asks =>
      have hregistry := (Session.guards_answer a s request).registry
      generalize hthread : s.machine.thread = thread at asks
      cases asks with
      | attaching outset request next =>
          refine boarding_of_attachment (Thread.attachment?_onAnswer outset request next _) ?_
          -- The answer comes from the table the device was looked up in, so boarding goes on.
          have boards := boards_answered a (boarding (.ask request next) (by rw [hthread]; rfl))
          rw [← hregistry] at boards
          exact boards
      | working segment request next =>
          refine boarding_of_none ?_
          unfold Session.modify Machine.setThread Thread.onAnswer
          dsimp only
          split <;> rfl
  | passes waits =>
      generalize hthread : s.machine.thread = thread at waits
      -- A suspension that is over hands the attachment back as it was.
      cases waits with
      | attaching => exact boarding_of_attachment rfl (boarding _ (by rw [hthread]; rfl))
      | working => exact boarding_of_none rfl
  | boards =>
      exact boarding_of_attachment rfl ⟨[], .all _, fun _ member => absurd member List.not_mem_nil⟩
  | turns | enters | continues | ends => exact boarding_of_none rfl

/-- What an execution attaches sees the devices that the machine has, as long as the machine
    has them and whatever else is done to it. -/
theorem boarding_playAll (a : Audience ω) {table : DeviceTable} (acts : List (Act ω)) :
    ∀ s : Session ω, Boarding table s.machine →
      (∀ earlier later, acts = earlier ++ later →
        (s.playAll a earlier).machine.peripherals = table) →
      Boarding table (s.playAll a acts).machine := by
  induction acts with
  | nil => exact fun _ boarding _ => boarding
  -- The offers may not change between two acts, or the attachment would meet another table.
  | cons act acts ih =>
      intro s boarding offers
      refine ih _ ?_ fun earlier later split => offers (act :: earlier) later (congrArg _ split)
      have now := offers [] (act :: acts) rfl
      by_cases advances : act = .advance
      · subst advances now
        exact boarding_advance a boarding
      · -- Another act leaves the thread where it is, or has it begin.
        have guards := Session.guards_play a s advances
        rcases guards.thread with same | ⟨_, starting⟩
        · intro rest h
          rw [guards.registry]
          exact boarding rest (by rw [← same]; exact h)
        · exact boarding_of_none (congrArg Thread.attachment? starting)

end Boards

/-- What was attached is what the dialogue of an instance came to, with some of the
    answers. -/
theorem exists_leads_of_attachAll {instances attached : List Instance}
    {answers : List Answered}
    (leads : (Context.attachAll instances).Leads answers (.done attached)) {slot : Nat}
    {i : Instance} (hi : instances[slot]? = some i) :
    ∃ given state, (∀ x ∈ given, x ∈ answers) ∧
      (i.behaviour.attach i.state).Leads given (.done state) ∧
      attached[slot]? = some { i with state } := by
  -- Each instance is given the answers behind those of the instances in front of it.
  induction instances generalizing attached answers slot with
  | nil => contradiction
  | cons first later ih =>
      rcases Dialogue.exists_leads_of_bind leads with ⟨state, given, rest, rfl, hgiven, leads⟩
      rcases Dialogue.exists_leads_of_bind leads with ⟨others, given', rest, rfl, hothers, leads⟩
      cases (Dialogue.leads_done_iff.mp leads).2
      cases slot with
      | zero =>
          cases hi
          exact ⟨given, state, fun x member => List.mem_append_left _ member, hgiven, rfl⟩
      | succ slot =>
          rcases ih hothers hi with ⟨given'', state', sub, hstate, hattached⟩
          refine ⟨given'', state', fun x member => ?_, hstate, hattached⟩
          exact List.mem_append_right _ (List.mem_append_left _ (sub x member))

/-- The devices that a host offers are wired to the module. -/
theorem wired_of_boards {r : Registry} {table : DeviceTable} {context : Context} {rack : Rack}
    (boards : Boards r table (.done context)) (sound : r.Sound)
    (taken : decl.registered ∈ r.modules) {slot : Nat}
    (hslot : Registry.slot? r.slotIds decl.id = some slot)
    (buffered : ∀ port id, table.find? port = some id → (rack.get id).IsBuffered) :
    (⟨context, rack⟩ : Situation).Wired table slot := by
  rcases Registry.exists_instance_of_slot? sound taken hslot with ⟨_, hkind, _, hfresh⟩
  cases hkind
  rcases boards with ⟨answers, leads, offers⟩
  rcases Dialogue.exists_leads_of_bind leads with ⟨attached, given, rest, rfl, hattached, leads⟩
  cases (Dialogue.leads_done_iff.mp leads).2
  rw [← Array.getElem?_toList] at hfresh
  rcases exists_leads_of_attachAll hattached hfresh with ⟨given', state, sub, hstate, hslot⟩
  rcases Dialogue.leads_ask_iff.mp hstate with ⟨offered, later, rfl, hlater⟩
  cases (Dialogue.leads_done_iff.mp hlater).2
  -- The one thing that the module asks is which devices there are.
  obtain rfl : offered = table :=
    offers offered (List.mem_append_left _ (sub _ List.mem_cons_self))
  refine ⟨⟨_, List.getElem?_toArray.trans hslot, rfl, fun port => ?_⟩, buffered⟩
  exact (DeviceTable.find?_merge {} offered port).trans Option.none_or

/-- The devices of a machine are kept apart, and lose nothing. Whatever was registered with
    the module, whatever buffered devices are attached to whichever ports when the instances
    of an execution are, and whatever was done to the module and to the devices since: the
    next dealing comes to what the port number says, concerns the device that it selects and
    no other, and the machine does it; and the books of every buffered device balance.
    `boarding_playAll` says that it is such contexts that executions begin with. -/
theorem devices_are_kept_apart {m : Machine} {decls : List ModuleDecl}
    (registered : m.registry = Registry.empty.offerAll decls)
    (taken : decl.registered ∈ m.registry.modules)
    (buffered : ∀ port id, m.peripherals.find? port = some id → (m.rack.get id).IsBuffered)
    {context : Context} (boards : Boards m.registry m.peripherals (.done context)) :
    let r := m.registry
    let table := m.peripherals
    ∃ slot, Registry.slot? r.slotIds decl.id = some slot ∧
      (∀ outlet : Outlet, (r.named? outlet.name .write).bind Port.address? = some outlet.address ∧
        Segment.storeOf r r.slotIds outlet.address = .ok (outlet.store slot)) ∧
      ((r.named? "io.poll" .read).bind Port.address? = some pollAddress ∧
        Segment.loadOf r r.slotIds (.port pollAddress) = .ok (pollLoad slot)) ∧
      ∀ dealings : List Dealing,
        let before : Situation := ⟨context, m.rack⟩
        let after := before.dealAll slot dealings
        after.Orderly table slot ∧
        ∀ id, (before.rack.get id).IsBuffered →
          Balanced (before.rack.get id) (after.rack.get id)
            (gather slot (delivered table id) before dealings)
            (gather slot (sent table id) before dealings) (dealings.flatMap (fed id)) := by
  intro r table
  have sound : r.Sound := by
    simp only [r, registered]
    exact Registry.sound_offerAll decls
  rcases Registry.exists_slot? (Registry.dispatches_of_mem sound taken rfl) with ⟨slot, hslot⟩
  -- Boarding is over, so what the module holds is where the table put it.
  have wired := wired_of_boards boards sound taken hslot buffered
  refine ⟨slot, hslot, storeOf_outlet sound taken hslot, loadOf_poll sound taken hslot, ?_⟩
  intro dealings before after
  exact ⟨Situation.orderly_of_wired (Situation.wired_dealAll dealings before wired),
    fun _ => balanced_dealAll dealings before wired⟩

-- A byte is echoed; then the number is one whose lower half is the port of the device, and
-- then that of another one.
theorem devices_are_kept_apart_echo :
    let m : Machine := { Machine.create default Registry.standard { ramSize := 32 } with
      peripherals := ⟨[(1, 0), (2, 1)]⟩
      rack := ⟨#[.buffered [104, 105] #[], .buffered [] #[]]⟩ }
    let dealings : List Dealing := [.store .port 0 1, .store .read 8 0, .store .write 16 0x168,
      .store .port 24 0x10001, .store .read 32 0, .store .write 40 7, .feed 0 [33],
      .store .port 48 2, .store .read 56 0, .store .write 64 9]
    ∃ context slot, Boards m.registry m.peripherals (.done context) ∧
      Segment.storeOf m.registry m.registry.slotIds ⟨0x14000003⟩ =
        .ok (.call slot 0 ⟨0x14000003⟩) ∧
      let after := (⟨context, m.rack⟩ : Situation).dealAll slot dealings
      after.rack.get 0 = .buffered [105, 33] #[104] ∧ after.rack.get 1 = .buffered [] #[9] := by
  intro m dealings
  have registered : m.registry = Registry.empty.offerAll Registry.standardDecls := rfl
  have taken : decl.registered ∈ m.registry.modules := by
    change decl.registered ∈ Registry.standard.modules
    simp [Registry.standard, Registry.standardDecls, ModuleDecl.registered]
  have buffered : ∀ port id, m.peripherals.find? port = some id → (m.rack.get id).IsBuffered := by
    intro port id found
    change List.lookup port [((1 : UInt16), 0), (2, 1)] = some id at found
    rw [List.lookup_cons, List.lookup_cons, List.lookup_nil] at found
    split at found
    · cases found
      exact ⟨_, _, rfl⟩
    · split at found
      · cases found
        exact ⟨_, _, rfl⟩
      · contradiction
  have boards := boards_converse m.registry m.peripherals m.rack
  rcases devices_are_kept_apart registered taken buffered boards with
    ⟨slot, hslot, stores, _, runs⟩
  obtain rfl : slot = 3 := by
    have hthree : Registry.slot? m.registry.slotIds decl.id = some 3 := by decide +kernel
    exact Option.some.inj (hslot.symm.trans hthree)
  have books := (runs dealings).2
  refine ⟨_, 3, boards, (stores .write).2, ?_⟩
  intro after
  have first : Balanced _ (after.rack.get 0) _ _ _ := books 0 ⟨_, _, rfl⟩
  have second : Balanced _ (after.rack.get 1) _ _ _ := books 1 ⟨_, _, rfl⟩
  generalize after.rack.get 0 = device at first ⊢
  generalize after.rack.get 1 = device' at second ⊢
  generalize hbefore : (⟨((Context.fresh m.registry).bind.converse (Rack.host m.peripherals)
    m.rack).1, m.rack⟩ : Situation) = before at first second
  have hdelivered : gather 3 (delivered m.peripherals 0) before dealings = [104] := by
    rw [← hbefore]
    decide +kernel
  have hsent : gather 3 (sent m.peripherals 0) before dealings = [104] := by
    rw [← hbefore]
    decide +kernel
  have hdelivered' : gather 3 (delivered m.peripherals 1) before dealings = [] := by
    rw [← hbefore]
    decide +kernel
  have hsent' : gather 3 (sent m.peripherals 1) before dealings = [9] := by
    rw [← hbefore]
    decide +kernel
  rw [hdelivered, hsent] at first
  rw [hdelivered', hsent'] at second
  rcases first with ⟨input, output, input', output', holds, rfl, hinput, houtput⟩
  rcases second with ⟨input₁, output₁, input₁', output₁', holds₁, rfl, hinput₁, houtput₁⟩
  rw [← hbefore] at holds holds₁
  rcases Device.buffered_injective holds with ⟨rfl, rfl⟩
  rcases Device.buffered_injective holds₁ with ⟨rfl, rfl⟩
  -- The books say what is in the devices now.
  obtain rfl : input' = [105, 33] := (List.cons.inj hinput).2
  obtain rfl : output' = #[104] := Array.toList_inj.mp houtput
  obtain rfl : input₁' = [] := hinput₁
  obtain rfl : output₁' = #[9] := Array.toList_inj.mp houtput₁
  exact ⟨rfl, rfl⟩

end Module.Exchange

end Transport
