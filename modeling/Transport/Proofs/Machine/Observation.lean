import Transport.Machine.Execution
import Transport.Proofs.Machine.Guards

/-!
# Observers

Listeners that do nothing to a machine but look at it. An observer may take notes
of everything it is told and of everything that the machine shows at that time,
and it may refuse; it gives no commands. What a machine shows is all of it but
what the compute thread is at, which code is live, and whether execution goes by
windows.

Told by an observer, a store and an arrival at a suspension point depend on what
the machine shows and on the notes, and on nothing else.

## Main definitions

* `Machine.bare`: What a machine shows.
* `Observer`: What listeners that only look do about events.
* `Observer.idle`: Those that note nothing down.
* `Observer.told`: The notes after an event, and the first refusal.

## Theorems

* `notify_eq`: Notifications change the notes alone.
* `store_eq`, `arrive_eq`: A store and an arrival, with observers.
-/

namespace Transport

namespace Machine

/-- What a machine shows: not the compute thread, not which code is live, and not
    whether execution goes by windows. -/
def bare (m : Machine) : Machine :=
  { m with config := { m.config with segmentSize := none }, liveCode := none, thread := .idle }

end Machine

/-- What listeners that only look do about events: what they note down, and whether
    they refuse. -/
structure Observer (ω : Type) where
  /-- The notes after an event, given what the machine shows, and a refusal. -/
  see : ListenerId → Event → Machine → ω → ω × Option String

namespace Observer

variable {ω : Type}

/-- Listeners that only look, as an audience. -/
def audience (o : Observer ω) : Audience ω where
  respond _ id event s :=
    match o.see id event s.machine.bare s.audience with
    | (notes, none) => .note notes .accept
    | (notes, some reason) => .note notes (.refuse reason)
  nesting := 0

/-- Listeners that note nothing down and refuse nothing. -/
def idle : Observer Unit := ⟨fun _ _ _ notes => (notes, none)⟩

/-- The notes after listeners were told of an event, up to the first that refuses. -/
def told (o : Observer ω) (event : Event) (shown : Machine) :
    List ListenerId → ω → Except String Unit × ω
  | [], notes => (.ok (), notes)
  | id :: later, notes =>
    match o.see id event shown notes with
    | (notes, none) => o.told event shown later notes
    | (notes, some reason) => (.error reason, notes)

/-- Notifications change the notes alone. -/
theorem notify_eq (o : Observer ω) (event : Event) (ids : List ListenerId) :
    ∀ s : Session ω, o.audience.notify event ids s =
      ((o.told event s.machine.bare ids s.audience).1,
        ⟨s.machine, (o.told event s.machine.bare ids s.audience).2⟩) := by
  induction ids with
  | nil => intro s; rfl
  | cons id later ih =>
      intro s
      unfold Audience.notify at ih ⊢
      simp only [Audience.tell, told, audience]
      rcases o.see id event s.machine.bare s.audience with ⟨notes, _ | reason⟩
      · exact ih ⟨s.machine, notes⟩
      · rfl

/-- A store that observers are told of. -/
theorem store_eq (o : Observer ω) (s : Session ω) (offset value : Word) :
    s.store o.audience offset value =
      match s.machine.checkStore offset 4 with
      | .error trap => (.error trap, s)
      | .ok () =>
        match o.told (.store offset value) s.machine.bare s.machine.memoryListeners s.audience with
        | (.error reason, notes) => (.error (.listener reason), ⟨s.machine, notes⟩)
        | (.ok (), notes) => (.ok (), ⟨s.machine.putBytes offset (Word.bytes value), notes⟩) := by
  unfold Session.store Session.storeWith
  cases hcheck : s.machine.checkStore offset 4 with
  | error trap => rfl
  | ok _ =>
      -- An observer leaves the machine alone, so the word still fits when it is written.
      have hfits := (Machine.checkStore_eq_ok_iff.mp hcheck).1
      simp only [notify_eq]
      rcases o.told (.store offset value) s.machine.bare s.machine.memoryListeners s.audience with
        ⟨_ | _, notes⟩
      · rfl
      · simp only [hfits, if_true, Session.modify]

/-- An arrival at a suspension point that observers are told of, without
    breakpoints. -/
theorem arrive_eq (o : Observer ω) {s : Session ω} (unbroken : s.machine.breakpoints = [])
    (offset : Word) :
    s.arrive o.audience offset =
      let m := s.machine.modifyControl fun state => { state with pc := offset }
      ((o.told .arrival m.bare m.executionListeners s.audience).1,
        ⟨m, (o.told .arrival m.bare m.executionListeners s.audience).2⟩) := by
  unfold Session.arrive Session.arriveWith
  simp only [notify_eq, Session.modify]
  rcases o.told .arrival (s.machine.modifyControl fun state => { state with pc := offset }).bare
    (s.machine.modifyControl fun state => { state with pc := offset }).executionListeners
    s.audience with ⟨_ | _, notes⟩
  · rfl
  · simp only [Machine.hitsBreakpoint, Machine.modifyControl, unbroken, List.any_nil,
      Bool.and_false, Bool.false_eq_true, if_false]

end Observer

end Transport
