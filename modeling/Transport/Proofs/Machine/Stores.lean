import Transport.Module.Memory
import Transport.Proofs.Dialogue
import Transport.Proofs.Machine.Enrolment
import Transport.Proofs.Machine.Observation
import Transport.Proofs.Machine.Runs
import Transport.Registry.Standard

/-!
# Stores Are Made as a Whole or Not at All

A store has three obstacles, in this order: the bounds of RAM, live code, and the memory
listeners. The first two are looked for before anyone is told. The listeners are those
that the machine has at that time, and each of them is told once, in the order in which
they were added and before RAM changes, up to the first that refuses. Only then are the
four bytes replaced, all at once.

This needs listeners that leave RAM alone when they are told; what else they do does not
matter. If the store comes from `mem.write`, its failure is the trap of the program, and
the instances are those that the op began with.

## Main definitions

* `Ram.Replaced`: The four bytes of a word are replaced, and no others.
* `Audience.Unobtrusive`: Listeners leave RAM alone when they are told of stores.
* `Audience.Accepted`: Listeners are told one after the other, and none refuses.
* `Session.StoreEnds`: What a store comes to.

## Theorems

* `accepted_or_refused`: What telling listeners comes to.
* `storeEnds_store`: What a store comes to.
* `advance_write`: What `mem.write` comes to.
* `stores_are_all_or_nothing`: All of it, for the listeners that a history leaves.
-/

namespace Transport

/-- One RAM comes from another by replacing the bytes of the word at an offset, the most
    significant first, and no others. -/
def Ram.Replaced (before after : Ram) (offset value : Word) : Prop :=
  after.size = before.size ∧ ∀ i, after.bytes[i]? =
    if offset.toNat ≤ i ∧ i < offset.toNat + 4 then (Word.bytes value)[i - offset.toNat]?
    else before.bytes[i]?

theorem Ram.replaced_put {ram : Ram} {offset : Word} (fits : offset.toNat + 4 ≤ ram.size)
    (value : Word) : ram.Replaced (ram.put offset (Word.bytes value)) offset value := by
  refine ⟨Ram.size_put _ _ _, fun i => ?_⟩
  have hlength := Word.length_bytes value
  rw [Ram.getElem?_put (by rwa [hlength]), hlength]

variable {ω : Type}

namespace Audience

/-- What comes of telling one listener of an event that did not come from a listener. -/
def told (a : Audience ω) (id : ListenerId) (event : Event) (s : Session ω) :
    Except String Unit × Session ω :=
  (a.respond a.nesting id event s).run (Session.perform a a.nesting) s

theorem notify_cons (a : Audience ω) (event : Event) (id : ListenerId) (later : List ListenerId)
    (s : Session ω) :
    a.notify event (id :: later) s =
      match a.told id event s with
      | (.ok (), s) => a.notify event later s
      | (.error reason, s) => (.error reason, s) := rfl

/-- Listeners leave RAM alone when they are told of a store. -/
def Unobtrusive (a : Audience ω) : Prop :=
  ∀ id offset value (s : Session ω),
    (a.told id (.store offset value) s).2.machine.ram = s.machine.ram

/-- Listeners are told of an event one after the other, each while RAM is as given, and
    none of them refuses. -/
inductive Accepted (a : Audience ω) (event : Event) (ram : Ram) :
    List ListenerId → Session ω → Session ω → Prop
  | nil {s : Session ω} (untouched : s.machine.ram = ram) : Accepted a event ram [] s s
  | cons {id : ListenerId} {later : List ListenerId} {s s' s'' : Session ω}
      (untouched : s.machine.ram = ram)
      (accepts : a.told id event s = (.ok (), s'))
      (rest : Accepted a event ram later s' s'') : Accepted a event ram (id :: later) s s''

theorem Accepted.ram_eq {a : Audience ω} {event : Event} {ram : Ram} {ids : List ListenerId}
    {s s' : Session ω} (h : a.Accepted event ram ids s s') : s'.machine.ram = ram := by
  induction h with
  | nil untouched => exact untouched
  | cons _ _ _ ih => exact ih

/-- Told of a store, all listeners accept, or one refuses behind others that accept. -/
theorem accepted_or_refused {a : Audience ω} (unobtrusive : a.Unobtrusive) {offset value : Word}
    {ram : Ram} (ids : List ListenerId) :
    ∀ s : Session ω, s.machine.ram = ram →
      (∃ s', a.Accepted (.store offset value) ram ids s s' ∧
        a.notify (.store offset value) ids s = (.ok (), s')) ∨
      ∃ before id later s' reason s'', ids = before ++ id :: later ∧
        a.Accepted (.store offset value) ram before s s' ∧
        a.told id (.store offset value) s' =
          (.error reason, s'') ∧
        a.notify (.store offset value) ids s = (.error reason, s'') ∧ s''.machine.ram = ram := by
  induction ids with
  | nil =>
      intro s untouched
      exact Or.inl ⟨s, .nil untouched, rfl⟩
  | cons id later ih =>
      intro s untouched
      have hram := unobtrusive id offset value s
      rw [notify_cons]
      cases hrun : a.told id (.store offset value) s with
      | mk result s₁ =>
          rw [hrun, untouched] at hram
          cases result with
          -- Whoever refuses is the last to be told, so the rest of the list stays unread.
          | error reason =>
              exact Or.inr ⟨[], id, later, s, reason, s₁, rfl, .nil untouched, hrun, rfl, hram⟩
          | ok _ =>
              rcases ih s₁ hram with ⟨s', accepted, htold⟩ |
                ⟨before, other, behind, s', reason, s'', rfl, accepted, refuses, htold, hram'⟩
              · exact Or.inl ⟨s', .cons untouched hrun accepted, htold⟩
              · exact Or.inr ⟨id :: before, other, behind, s', reason, s'', rfl,
                  .cons untouched hrun accepted, refuses, htold, hram'⟩

/-- Observers leave all of the machine alone. -/
theorem unobtrusive_observer (o : Observer ω) : o.audience.Unobtrusive := by
  intro id offset value s
  simp only [told, Observer.audience]
  rcases o.see id (.store offset value) s.machine.bare s.audience with ⟨notes, _ | reason⟩ <;> rfl

end Audience

namespace Session

/-- What a store comes to: it does not fit, and nothing happens; it fits but reaches into
    live code, of which the first compiled slot is blamed, and nothing happens; or it does
    neither, and the listeners are told. Then one of them refuses and RAM stays as it is,
    or none does and the bytes are replaced. -/
inductive StoreEnds (a : Audience ω) (s : Session ω) (offset value : Word) :
    Except Trap Unit × Session ω → Prop
  | outside (beyond : s.machine.ram.size < offset.toNat + 4) :
      StoreEnds a s offset value (.error (.ramOutOfBounds offset), s)
  | live {map : CodeMap} {index : Nat} (fits : offset.toNat + 4 ≤ s.machine.ram.size)
      (live : s.machine.liveCode = some map)
      (hit : map.Hit offset.toNat (offset.toNat + 4) index)
      (first : ∀ j, j < index → ¬map.Hit offset.toNat (offset.toNat + 4) j) :
      StoreEnds a s offset value
        (.error (.selfModifyingCode (UInt32.ofNat (map.slotStart index))), s)
  | refused {before later : List ListenerId} {id : ListenerId} {reason : String}
      {s' s'' : Session ω} (fits : offset.toNat + 4 ≤ s.machine.ram.size)
      (clear : ∀ map, s.machine.liveCode = some map →
        ∀ index, ¬map.Hit offset.toNat (offset.toNat + 4) index)
      (split : s.machine.memoryListeners = before ++ id :: later)
      (accepted : a.Accepted (.store offset value) s.machine.ram before s s')
      (refuses : a.told id (.store offset value) s' =
        (.error reason, s''))
      (untouched : s''.machine.ram = s.machine.ram) :
      StoreEnds a s offset value (.error (.listener reason), s'')
  | made {s' : Session ω} {ram : Ram} (fits : offset.toNat + 4 ≤ s.machine.ram.size)
      (clear : ∀ map, s.machine.liveCode = some map →
        ∀ index, ¬map.Hit offset.toNat (offset.toNat + 4) index)
      (accepted : a.Accepted (.store offset value) s.machine.ram s.machine.memoryListeners s s')
      (replaced : s.machine.ram.Replaced ram offset value) :
      StoreEnds a s offset value (.ok (), s'.modify fun m => { m with ram })

theorem storeEnds_store {a : Audience ω} (unobtrusive : a.Unobtrusive) (s : Session ω)
    (offset value : Word) : StoreEnds a s offset value (s.store a offset value) := by
  unfold store storeWith
  by_cases fits : s.machine.ram.holds offset 4 = true
  · have hfits := Ram.holds_iff.mp fits
    cases hcheck : s.machine.checkStore offset 4 with
    | error trap =>
        rcases Machine.exists_overlap_of_checkStore fits (by simp [hcheck]) with
          ⟨map, slot, hlive, hoverlap, hrefused⟩
        rw [hcheck, Except.error.injEq] at hrefused
        rcases CodeMap.overlap?_eq_some_first hoverlap with ⟨index, rfl, hit, first⟩
        subst hrefused
        exact .live hfits hlive hit first
    | ok _ =>
        have clear : ∀ map, s.machine.liveCode = some map →
            ∀ index, ¬map.Hit offset.toNat (offset.toNat + 4) index := fun map hlive =>
          CodeMap.overlap?_eq_none_iff.mp ((Machine.checkStore_eq_ok_iff.mp hcheck).2 map hlive)
        dsimp only
        rcases a.accepted_or_refused unobtrusive s.machine.memoryListeners s rfl with
          ⟨s', accepted, htold⟩ |
            ⟨before, id, later, s', reason, s'', split, accepted, refuses, htold, hram⟩
        · rw [htold]
          -- No listener has touched RAM, so the bytes go into the RAM that was checked.
          have hput : s'.modify (fun m => m.putBytes offset (Word.bytes value)) =
              s'.modify fun m => { m with ram := s.machine.ram.put offset (Word.bytes value) } := by
            simp only [modify, Machine.putBytes, accepted.ram_eq]
          dsimp only
          rw [accepted.ram_eq, if_pos fits, hput]
          exact .made hfits clear accepted (Ram.replaced_put hfits value)
        · rw [htold]
          exact .refused hfits clear split accepted refuses hram
  · have hcheck : s.machine.checkStore offset 4 = .error (.ramOutOfBounds offset) := if_neg fits
    rw [hcheck]
    rw [Ram.holds_iff, Nat.not_le] at fits
    exact .outside fits

/-! ## Stores of programs -/

end Session

namespace Context

theorem setState_self {context : Context} {slot : Nat} {i : Instance}
    (h : context.instances[slot]? = some i) : context.setState slot i.state = context := by
  have hsame : (context.instances.modify slot fun old => { old with state := i.state }) =
      context.instances := by
    apply Array.ext_getElem?
    intro j
    rw [Array.getElem?_modify]
    split
    · next same =>
      subst same
      rw [h]
      rfl
    · rfl
  rw [setState, hsame]

end Context

/-- `mem.write` asks for one store, at the pointer, and leaves its instance as it is. -/
theorem Module.Memory.write_apply (state : ModuleState) (value : Word) (access : Access) :
    behaviour.write writeKey value access state =
      .ask (.storeWord (state.cell pointerCell) value) fun answer =>
        .done (answer.map fun _ => .proceed, state) := by
  have hwrite : behaviour.write writeKey value access = do
      Handler.storeWord (← Handler.getCell pointerCell) value
      return .proceed := by
    simp only [behaviour]
    rw [if_neg (by decide), if_pos trivial]
  rw [hwrite]
  refine congrArg (Dialogue.ask _) (funext fun answer => ?_)
  cases answer <;> rfl

/-- Behind a store that is made, an op goes on with the instances as they are; behind one
    that fails, it ends in the trap, with the instances as they are. -/
def behindWrite (context : Context) (k : Effect → Exec Progress) : Except Trap Unit → Remainder
  | .ok () => k .proceed context
  | .error trap => .done (.error trap, context)

/-- What is left of an op that writes to `mem.write` is one store, and what is behind it. -/
theorem put_write {context : Context} {slot : Nat} {state : ModuleState}
    (h : context.instances[slot]? = some ⟨Module.Memory.behaviour, state⟩) (here value : Word)
    (address : Address) (k : Effect → Exec Progress) :
    ((Store.call slot Module.Memory.writeKey address).put here value >>= k) context =
      .ask (.storeWord (state.cell Module.Memory.pointerCell) value) (behindWrite context k) := by
  have hself : context.setState slot state = context := Context.setState_self h
  rw [Talk.bind_apply]
  simp only [Store.put, Exec.call, h, Module.Memory.write_apply]
  refine congrArg (Dialogue.ask _) (funext fun answer => ?_)
  cases answer with
  | error trap => exact congrArg (fun c => Dialogue.done (Except.error trap, c)) hself
  | ok _ => exact congrArg (k .proceed) hself

namespace Session

/-- The compute thread is about to write a value to `mem.write`, for the instruction at an
    offset: the port is served by the instance in a slot, and behind the write the run goes
    on as given. -/
structure Writing (s : Session ω) (segment : Segment) (slot : Nat) (state : ModuleState)
    (context : Context) (value : Word) (k : Effect → Exec Progress) : Prop where
  served : context.instances[slot]? = some ⟨Module.Memory.behaviour, state⟩
  thread : ∃ here address, s.machine.thread = .working segment
    (((Store.call slot Module.Memory.writeKey address).put here value >>= k) context)

/-- Where a run goes on behind the write of a move. -/
def behindMove (op : Nat) : Effect → Exec Progress
  | .proceed => pure (Segment.follow op .next)
  | .halt => pure (Segment.follow op .halt)

/-- A move to `mem.write` whose value is at hand is about to write it. -/
theorem writing_of_step {s : Session ω} {segment : Segment} {op slot : Nat} {here value : Word}
    {load : Load} {address : Address} {state : ModuleState} {before context : Context}
    (hop : segment.ops[op]? = some (.move here load (.call slot Module.Memory.writeKey address)))
    (loaded : load.value here before = .done (.ok value, context))
    (served : context.instances[slot]? = some ⟨Module.Memory.behaviour, state⟩)
    (working : s.machine.thread = .working segment (segment.step op before)) :
    s.Writing segment slot state context value (behindMove op) := by
  refine ⟨served, here, address, ?_⟩
  -- The step splits at its write: the value is loaded before, control is decided behind.
  have hmove : segment.step op = load.value here >>= fun value =>
      (Store.call slot Module.Memory.writeKey address).put here value >>= behindMove op := by
    simp only [Segment.step, hop, Op.perform, bind_assoc]
    refine congrArg (load.value here >>= ·) (funext fun value => ?_)
    refine congrArg (Store.put here value _ >>= ·) (funext fun effect => ?_)
    cases effect <;> rfl
  rw [working, hmove, Talk.bind_apply, loaded]
  rfl

/-- A write to `mem.write` is a store of the machine. -/
theorem advance_write (a : Audience ω) {s : Session ω} {segment : Segment} {slot : Nat}
    {state : ModuleState} {context : Context} {value : Word} {k : Effect → Exec Progress}
    (h : s.Writing segment slot state context value k) :
    s.advance a =
      let stored := s.store a (state.cell Module.Memory.pointerCell) value
      stored.2.work segment (behindWrite context k stored.1) := by
  rcases h with ⟨served, here, address, hthread⟩
  rw [put_write served] at hthread
  exact advance_storeWord a hthread

/-- Stores are made as a whole or not at all. Whatever a machine is doing and whichever
    listeners were added and removed before: the listeners are those that the history
    leaves, each once and in the order of addition; a store comes to what its bounds, live
    code and these listeners say; if it fails, RAM is as it was; and if it was made for
    `mem.write` and fails, what is left of the run is the trap, with all instances as they
    were. -/
theorem stores_are_all_or_nothing {a : Audience ω} (unobtrusive : a.Unobtrusive) {m : Machine}
    (nobody : m.memoryListeners = []) (history : List Enrolment) (audience : ω)
    (offset value : Word) :
    let s : Session ω := ⟨m.enrolAll history, audience⟩
    Enrolment.InOrder history s.machine.memoryListeners ∧
    StoreEnds a s offset value (s.store a offset value) ∧
    ∀ trap, (s.store a offset value).1 = .error trap →
      (s.store a offset value).2.machine.ram = s.machine.ram ∧
      ∀ segment slot state context k, s.Writing segment slot state context value k →
        state.cell Module.Memory.pointerCell = offset →
        s.advance a = (.moved, (s.store a offset value).2.modify
          (·.setThread (.working segment (.done (.error trap, context))))) := by
  intro s
  -- How a store ends is one of four alternatives, and the refusals are read off them.
  have hends := storeEnds_store unobtrusive s offset value
  refine ⟨Machine.inOrder_enrolAll nobody history, hends, fun trap failed => ⟨?_, ?_⟩⟩
  · generalize s.store a offset value = stored at hends failed ⊢
    cases hends with
    | outside beyond => rfl
    | live fits live hit first => rfl
    | refused fits clear split accepted refuses untouched => exact untouched
    | made fits clear accepted replaced => contradiction
  · -- The trap is what the dialogue of the op is given as its answer.
    rintro segment slot state context k writing rfl
    have hadvance := advance_write a writing
    dsimp only at hadvance
    rw [failed] at hadvance
    exact hadvance

-- The second listener refuses; it was added before the first, but also removed.
theorem stores_are_all_or_nothing_refused :
    let o : Observer (List ListenerId) :=
      ⟨fun id _ _ told => (told ++ [id], if id = 2 then some "full" else none)⟩
    let context := (Context.fresh Registry.standard).setCell 2 Module.Memory.pointerCell 16
    let segment : Segment := ⟨0, 8, ⟨true, false⟩, #[0],
      #[.move 0 (.const 7) (.call 2 Module.Memory.writeKey ⟨0x13000004⟩)]⟩
    let m : Machine := { Machine.create default Registry.standard { ramSize := 32 } with
      liveCode := some segment.codeMap
      thread := .working segment (segment.step 0 context) }
    let s : Session (List ListenerId) :=
      ⟨m.enrolAll [.add 2, .add 1, .add 2, .remove 2, .add 2], []⟩
    m.memoryListeners = [] ∧ s.machine.memoryListeners = [1, 2] ∧
      s.store o.audience 16 7 = (.error (.listener "full"), ⟨s.machine, [1, 2]⟩) ∧
      StoreEnds o.audience s 16 7 (.error (.listener "full"), ⟨s.machine, [1, 2]⟩) ∧
      s.advance o.audience = (.moved, ⟨s.machine.setThread (.working segment
        (.done (.error (.listener "full"), context))), [1, 2]⟩) := by
  intro o context segment m s
  -- Behind the only slot of the segment, the store is in nobody's way but the listener's.
  have hcheck : s.machine.checkStore 16 4 = .ok () := by
    refine Machine.checkStore_eq_ok_iff.mpr ⟨by decide, fun map live => ?_⟩
    cases live
    decide +kernel
  have hstore : s.store o.audience 16 7 = (.error (.listener "full"), ⟨s.machine, [1, 2]⟩) := by
    rw [Observer.store_eq, hcheck]
    rfl
  rcases stores_are_all_or_nothing (Audience.unobtrusive_observer o) (m := m) rfl
    [.add 2, .add 1, .add 2, .remove 2, .add 2] [] 16 7 with ⟨_, hends, failing⟩
  change StoreEnds o.audience s 16 7 (s.store o.audience 16 7) at hends
  rcases failing (.listener "full") (congrArg Prod.fst hstore) with ⟨_, hadvance⟩
  have hwriting : s.Writing segment 2 ⟨#[16, 0], #[], {}⟩ context 7 (behindMove 0) :=
    writing_of_step rfl rfl rfl rfl
  have hended := hadvance segment 2 _ context _ hwriting rfl
  rw [hstore] at hends
  refine ⟨rfl, rfl, hstore, hends, ?_⟩
  change s.advance o.audience = (.moved, (s.store o.audience 16 7).2.modify _) at hended
  rw [hstore] at hended
  exact hended

end Session

end Transport
