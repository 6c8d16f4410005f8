import Transport.Proofs.Dialogue
import Transport.Proofs.Machine.Runs

/-!
# Devices of a Machine

A program knows a device by its number, and whatever it does to that device it does
through the rack, which has the others next to it. What is asked of a device has its answer
in the rack, and nothing else of the machine has a part in it. So a computation that asks
nothing but devices can be carried out on a rack alone; the compute thread comes to the
same, with a small step for every request, and goes on from there.

## Main definitions

* `Device.IsBuffered`: A device loses nothing.
* `Rack.host`: A host that has devices and nothing else.
* `Dialogue.Devicewise`: A dialogue asks nothing but devices.

## Theorems

* `buffered_injective`: What a buffered device holds can be read off it.
* `get_send`, `get_take`, `get_feed`: The other devices are left alone.
* `poll_of_buffered`: A buffered device is what it was when it has been asked.
* `find?_merge`: Where two tables are put together, the ports of the first come first.
* `after_of_devicewise`: The compute thread answers as a rack does.
-/

namespace Transport

namespace Device

/-- A device keeps all that it is sent and hands out all that it is fed. -/
def IsBuffered (device : Device) : Prop := ∃ input output, device = .buffered input output

/-- What a buffered device holds can be read off it. -/
theorem buffered_injective {input input' : List UInt8} {output output' : Array UInt8}
    (h : Device.buffered input output = .buffered input' output') :
    input = input' ∧ output = output' := by
  cases h
  exact ⟨rfl, rfl⟩

end Device

namespace Rack

variable (rack : Rack)

/-- A device is changed and the others are not. A number without a device stands for the
    null device, so that the change has to leave that one alone. -/
theorem get_set (id other : DeviceId) {change : Device → Device} (null : change .null = .null) :
    (rack.set id (change (rack.get id))).get other =
      if other = id then change (rack.get id) else rack.get other := by
  unfold set get
  rw [Array.getElem?_setIfInBounds]
  -- Behind the end of the rack every device is the null device, and setting one changes nothing.
  by_cases same : id = other
  · subst same
    rw [if_pos rfl, if_pos rfl]
    split
    · rfl
    · next outside =>
      rw [Array.getElem?_eq_none (Nat.not_lt.mp outside)]
      exact null.symm
  · rw [if_neg same, if_neg (Ne.symm same)]

/-- What a number stands for is there already. -/
theorem set_get (id : DeviceId) : rack.set id (rack.get id) = rack := by
  rcases rack with ⟨devices⟩
  simp only [set, get, mk.injEq]
  apply Array.ext_getElem?
  intro other
  rw [Array.getElem?_setIfInBounds]
  by_cases same : id = other
  · subst same
    rw [if_pos rfl]
    split
    · next inside => rw [Array.getElem?_eq_getElem inside, Option.getD_some]
    · next outside => exact (Array.getElem?_eq_none (Nat.not_lt.mp outside)).symm
  · rw [if_neg same]

theorem get_send (id other : DeviceId) (byte : UInt8) :
    (rack.send id byte).get other =
      if other = id then (rack.get id).send byte else rack.get other :=
  rack.get_set id other rfl

theorem get_take (id other : DeviceId) :
    (rack.take id).2.get other =
      if other = id then (rack.get id).take.2 else rack.get other :=
  @get_set rack id other (fun device => device.take.2) rfl

theorem get_feed (id other : DeviceId) (bytes : List UInt8) :
    (rack.feed id bytes).get other =
      if other = id then (rack.get id).feed bytes else rack.get other :=
  rack.get_set id other rfl

/-- A buffered device is what it was when it has been asked whether a byte waits. -/
theorem poll_of_buffered {id : DeviceId} {input : List UInt8} {output : Array UInt8}
    (h : rack.get id = .buffered input output) : rack.poll id = (!input.isEmpty, rack) := by
  have hpoll : (rack.get id).poll = (!input.isEmpty, rack.get id) := by
    rw [h]
    rfl
  rw [poll, hpoll]
  exact congrArg (Prod.mk _) (rack.set_get id)

/-- A rack as a host that has nothing but devices, on the ports of a table. -/
def host (table : DeviceTable) : Host Rack where
  answer
    | .readWord offset, rack => (.error (.ramOutOfBounds offset), rack)
    | .storeWord offset _, rack => (.error (.ramOutOfBounds offset), rack)
    | .suspend _, rack => (.ok (), rack)
    | .print _, rack => ((), rack)
    | .sendByte device byte, rack => ((), rack.send device byte)
    | .takeByte device, rack => rack.take device
    | .hasByte device, rack => rack.poll device
    | .offered, rack => (table, rack)

end Rack

namespace DeviceTable

/-- A device put on one port makes no difference to another. -/
theorem lookup_place_of_ne {port other : UInt16} (ne : other ≠ port) (device : DeviceId)
    (entries : List (UInt16 × DeviceId)) :
    (place port device entries).lookup other = entries.lookup other := by
  have hother : (other == port) = false := beq_false_of_ne ne
  -- Along the entries; the one of `port` is replaced or appended, which `other` does not meet.
  induction entries with
  | nil => rw [place, List.lookup_cons, hother]
  | cons entry entries ih =>
      rw [place]
      split
      · rw [List.lookup_cons, hother]
      · rw [List.lookup_cons, List.lookup_cons, ih]

/-- A device that is offered to a port is there, unless the port was taken. -/
theorem find?_getD_insert? (table : DeviceTable) (port : UInt16) (device : DeviceId)
    (other : UInt16) :
    ((table.insert? port device).getD table).find? other =
      (table.find? other).or (if other = port then some device else none) := by
  unfold insert?
  -- A port that is taken keeps its device.
  cases hfind : table.find? port with
  | some taken =>
      rw [Option.getD_none]
      split
      · next same =>
        rw [same, hfind]
        rfl
      · exact Option.or_none.symm
  | none =>
      rw [Option.getD_some]
      split
      · next same =>
        rw [same, hfind]
        exact lookup_place_self port device table.entries hfind
      · next ne =>
        rw [Option.or_none]
        exact lookup_place_of_ne ne device table.entries

/-- Where two tables are put together, the ports of the first come first. -/
theorem find?_merge (table offered : DeviceTable) (port : UInt16) :
    (table.merge offered).find? port = (table.find? port).or (offered.find? port) := by
  rcases offered with ⟨entries⟩
  unfold merge
  -- The induction goes along the offers, each made to the table that those before it left.
  induction entries generalizing table with
  | nil => exact Option.or_none.symm
  | cons entry entries ih =>
      rw [List.foldl_cons, ih, find?_getD_insert?, Option.or_assoc, find?, find?, find?,
        List.lookup_cons]
      congr 1
      by_cases same : port = entry.1
      · rw [if_pos same, beq_iff_eq.mpr same, Option.some_or]
      · rw [if_neg same, beq_false_of_ne same, Option.none_or]

end DeviceTable

namespace Dialogue

variable {α β : Type}

/-- A dialogue asks nothing but devices. -/
inductive Devicewise : Dialogue α → Prop
  | done (result : α) : Devicewise (.done result)
  | sendByte {device : DeviceId} {byte : UInt8} {next : Unit → Dialogue α}
      (rest : Devicewise (next ())) : Devicewise (.ask (.sendByte device byte) next)
  | takeByte {device : DeviceId} {next : UInt8 → Dialogue α}
      (rest : ∀ byte, Devicewise (next byte)) : Devicewise (.ask (.takeByte device) next)
  | hasByte {device : DeviceId} {next : Bool → Dialogue α}
      (rest : ∀ pending, Devicewise (next pending)) : Devicewise (.ask (.hasByte device) next)

theorem devicewise_bind {d : Dialogue α} (h : d.Devicewise) {f : α → Dialogue β}
    (later : ∀ a, (f a).Devicewise) : (d >>= f).Devicewise := by
  induction h with
  | done result => exact later result
  | sendByte _ ih => exact .sendByte ih
  | takeByte _ ih => exact .takeByte ih
  | hasByte _ ih => exact .hasByte ih

end Dialogue

namespace Machine

/-- Replaces the devices and what the compute thread is doing. -/
def turn (m : Machine) (rack : Rack) (thread : Thread) : Machine := { m with rack, thread }

end Machine

namespace Session

variable {ω : Type} {α : Type}

/-- The compute thread answers what is asked of devices as the rack of its machine does, and
    goes on with what is behind. Nothing else in the machine changes. -/
theorem after_of_devicewise (a : Audience ω) {segment : Segment} {d : Dialogue α}
    (devicewise : d.Devicewise) (table : DeviceTable) (rest : α → Remainder) :
    ∀ s : Session ω, s.machine.thread = .working segment (d >>= rest) →
      ∃ count, s.after a count =
        s.modify fun m =>
          m.turn (d.converse (Rack.host table) m.rack).2
            (.working segment (rest (d.converse (Rack.host table) m.rack).1)) := by
  -- Along the dialogue, one step of the machine for each request to a device.
  induction devicewise with
  | done result =>
      intro s h
      refine ⟨0, ?_⟩
      change s = { s with machine := s.machine.turn s.machine.rack (.working segment (rest result)) }
      have hthread : Thread.working segment (rest result) = s.machine.thread := h.symm
      rw [hthread]
      rfl
  | sendByte _ ih =>
      intro s h
      rcases ih _ (congrArg (fun step => step.2.machine.thread) (advance_working a h)) with
        ⟨count, hcount⟩
      refine ⟨count + 1, ?_⟩
      rw [after, hcount, advance_working a h]
      rfl
  | takeByte _ ih | hasByte _ ih =>
      intro s h
      rcases ih _ _ (congrArg (fun step => step.2.machine.thread) (advance_working a h)) with
        ⟨count, hcount⟩
      refine ⟨count + 1, ?_⟩
      rw [after, hcount, advance_working a h]
      rfl

end Session

end Transport
