import Transport.Proofs.Machine.Driver
import Transport.Proofs.Machine.Lockstep

/-!
# Execution in Windows Refines Execution in One Segment

A program that keeps its data apart from its code does the same in windows as in
one segment, whatever the size of the windows: its stores reach only into slots
without a translation, which they leave without one, and control does not get to a
slot behind a store into it.

What is known along such a run is that the same slots have a translation as at
first, and that a slot that was not stored into holds what it held. From the first
it follows that a store passes the checks of all segments, from the second that an
instruction that is reached is the one that was there at first.

Two things tell the runs apart all the same. A listener that stores into RAM is up
against the code that is live, which is not the same in both. And with an entry outside
of RAM both fail, but in one segment the instances are attached before the entry is
looked at, and what they do then shows.

## Main definitions

* `Session.attempts?`: The store that the next small step attempts.
* `Session.Tame`: The program of a run keeps its data apart from its code.
* `Setting.Kept`: What is known of RAM on such a run.
* `Session.Shows`: Two sessions show the same and have the same notes.
* `Registry.Looks`: Instances that are attached look for devices and do nothing else.

## Theorems

* `checked_of_tame`: A store passes both checks, or fails both alike.
* `kept_of_stored`: A store keeps what is known of RAM.
* `benign_of_tame`: Whole and windows stay together.
* `shows_of_beyond`: With an entry outside, nothing shows but what instances do.
* `windows_refine_whole`: They come to the same end, and show the same on the way.
* `windows_can_show`: Listeners that store, and instances that print, tell them apart.
-/

namespace Transport

open Segment

namespace Session

variable {ω : Type}

/-- The store that the next small step attempts, be it one of the program or of an
    instance that is attached. -/
def attempts? (s : Session ω) : Option (Word × Word) := s.storing?.or s.stamping?

theorem attempts?_of_storing? {s : Session ω} {offset value : Word}
    (storing : s.storing? = some (offset, value)) : s.attempts? = some (offset, value) := by
  rw [attempts?, storing]
  rfl

theorem attempts?_of_stamping? {s : Session ω} {offset value : Word}
    (stamping : s.stamping? = some (offset, value)) : s.attempts? = some (offset, value) := by
  have hstoring : s.storing? = none := by
    unfold stamping? at stamping
    split at stamping
    · rename_i attaching
      simp only [storing?, attaching]
    · cases stamping
  rw [attempts?, hstoring, stamping]
  rfl

/-- The program of a run stores data as data: a store of it that lies in RAM reaches
    only into slots that have no translation, before and after, and control does
    not get to a slot that a store reached into. Bytes behind the last slot may be
    stored to at will. The same goes for stores of instances that are attached. -/
structure Tame (a : Audience ω) (s : Session ω) : Prop where
  data : ∀ m offset value, (s.after a m).attempts? = some (offset, value) →
    (s.after a m).machine.ram.holds offset 4 = true →
    ∀ index, index < s.machine.slotCount → Touches offset index →
      Untranslated s.machine.registry (s.after a m).machine.ram (offsetOf 0 index) ∧
      Untranslated s.machine.registry ((s.after a m).machine.ram.put offset (Word.bytes value))
        (offsetOf 0 index)
  clear : ∀ m m' offset value index, m < m' → (s.after a m).attempts? = some (offset, value) →
    ((s.after a m).store a offset value).1 = .ok () → Touches offset index →
    (s.after a m').reaches? ≠ some index

theorem attempts?_of_idle {s : Session ω} (idle : s.machine.thread = .idle) :
    s.attempts? = none := by
  simp only [attempts?, storing?, stamping?, idle]
  rfl

/-- A run that stores nothing up to its end is tame. -/
theorem tame_of_idle {a : Audience ω} {s : Session ω} {n : Nat}
    (ended : (s.after a n).machine.thread.isExecuting = false)
    (silent : ∀ m < n, (s.after a m).attempts? = none) : s.Tame a := by
  have hidle := Thread.isExecuting_eq_false_iff.mp ended
  -- Behind `n` there is no thread to attempt anything.
  have hnone : ∀ m, (s.after a m).attempts? = none := by
    intro m
    rcases Nat.lt_or_ge m n with early | late
    · exact silent m early
    · rw [after_of_idle hidle late]
      exact attempts?_of_idle hidle
  refine ⟨?_, ?_⟩
  · intro m offset value attempts
    rw [hnone m] at attempts
    cases attempts
  · intro m m' offset value index _ attempts
    rw [hnone m] at attempts
    cases attempts

/-- The first steps of a run store into a slot. -/
def Stored (a : Audience ω) (s : Session ω) (m index : Nat) : Prop :=
  ∃ j offset value, j < m ∧ (s.after a j).attempts? = some (offset, value) ∧
    ((s.after a j).store a offset value).1 = .ok () ∧ Touches offset index

end Session

namespace Setting

variable {ω : Type} {g : Setting}

/-- What is known of RAM after some steps of a tame run: the same slots have a
    translation as at first, and slots that were not stored into hold what they
    held. -/
structure Kept (g : Setting) (a : Audience ω) (s : Session ω) (m : Nat) (ram : Ram) : Prop where
  size : ram.size = g.image.size
  /-- The same slots have a translation. -/
  translated : ∀ index, index < g.count →
    (Untranslated g.registry ram (offsetOf 0 index) ↔
      Untranslated g.registry g.image (offsetOf 0 index))
  /-- Slots that were not stored into hold what they held. -/
  untouched : ∀ index, index < g.count → ¬ s.Stored a m index →
    Ram.Same g.image ram (8 * index) 8

/-- What is known after some steps of a tame run. It does not matter which windows
    were entered. -/
def kept (g : Setting) (a : Audience ω) (s : Session ω) (m : Nat) : Known where
  ram := g.Kept a s m
  outset := True
  window _ _ _ := True

theorem kept_image (g : Setting) (a : Audience ω) (s : Session ω) : g.Kept a s 0 g.image where
  size := rfl
  translated _ _ := Iff.rfl
  untouched _ _ _ := Ram.same_refl _ _ _

/-- A store of a tame run passes the check of a segment of slots, if it lies in RAM. -/
theorem overlap?_part {image : Ram} {first last : Nat} {offset : Word} (ordered : first ≤ last)
    (within : last ≤ g.count)
    (data : ∀ index, index < g.count → Touches offset index →
      Untranslated g.registry image (offsetOf 0 index)) :
    (part g.registry g.options image first last).codeMap.overlap? offset 4 = none := by
  have hreach := g.reach
  refine CodeMap.overlap?_eq_none_iff.mpr fun j hit => ?_
  rcases (hit_part_iff _ _ _ (by omega) ordered).mp hit with ⟨inside, translated, touched⟩
  exact translated (data _ (by omega) touched)

section Tame

variable {a : Audience ω} {s s₀ w : Session ω} {m : Nat}

/-- A store of a tame run passes both checks, or fails both alike. -/
theorem checked_of_tame (tame : s₀.Tame a) (registry : s₀.machine.registry = g.registry)
    (count : s₀.machine.slotCount = g.count) (sim : g.Sim (g.kept a s₀ m) (s₀.after a m) w)
    {offset value : Word} (storing : (s₀.after a m).storing? = some (offset, value)) :
    w.machine.checkStore offset 4 = (s₀.after a m).machine.checkStore offset 4 := by
  have hram := ram_eq sim
  by_cases fits : (s₀.after a m).machine.ram.holds offset 4 = true
  · have hdata : ∀ index, index < g.count → Touches offset index →
        Untranslated g.registry g.image (offsetOf 0 index) := by
      intro index inside touched
      have huntranslated := (tame.data m offset value
        (Session.attempts?_of_storing? storing) fits index (by rw [count]; exact inside)
        touched).1
      rw [registry] at huntranslated
      exact (sim.known.translated index inside).mp huntranslated
    rcases exists_live_of_storing? sim storing with ⟨image, first, last, live⟩
    -- What has no translation now had none at first, and so not in the window either.
    have hwhole : (s₀.after a m).machine.checkStore offset 4 = .ok () := by
      refine Machine.checkStore_eq_ok_iff.mpr ⟨fits, fun map hmap => ?_⟩
      rw [live.whole] at hmap
      cases hmap
      exact overlap?_part (Nat.zero_le _) (Nat.le_refl _) hdata
    have hwindow : w.machine.checkStore offset 4 = .ok () := by
      rw [← hram] at fits
      refine Machine.checkStore_eq_ok_iff.mpr ⟨fits, fun map hmap => ?_⟩
      rw [live.window] at hmap
      cases hmap
      refine overlap?_part live.ordered live.within fun index inside touched => ?_
      exact (live.known.translated index inside).mpr (hdata index inside touched)
    rw [hwhole, hwindow]
  · simp only [Machine.checkStore, hram, if_neg fits]

/-- What is known of RAM holds on behind a store of a tame run. -/
theorem kept_of_stored (tame : s₀.Tame a) (registry : s₀.machine.registry = g.registry)
    (count : s₀.machine.slotCount = g.count)
    (kept : g.Kept a s₀ m (s₀.after a m).machine.ram) {offset value : Word}
    (attempts : (s₀.after a m).attempts? = some (offset, value))
    (made : ((s₀.after a m).store a offset value).1 = .ok ()) :
    g.Kept a s₀ (m + 1) ((s₀.after a m).machine.ram.put offset (Word.bytes value)) := by
  have hfits := (Machine.checkStore_eq_ok_iff.mp (Session.checkStore_of_storeWith made)).1
  refine ⟨(Ram.size_put _ _ _).trans kept.size, ?_, ?_⟩
  · -- A slot the store reaches into is data on both sides of it. Any other has the bytes it had.
    intro index inside
    rw [← kept.translated index inside]
    by_cases touched : Touches offset index
    · -- A slot that is reached into has no translation, before and after.
      have hdata := tame.data m offset value attempts hfits index (by rw [count]; exact inside)
        touched
      rw [registry] at hdata
      exact iff_of_true hdata.2 hdata.1
    · unfold Untranslated
      rw [slotAt_of_same_slot inside (same_put_of_untouched value hfits touched)]
  · intro index inside untouched
    have hbefore : ¬ s₀.Stored a m index := by
      rintro ⟨j, offset', value', hj, rest⟩
      exact untouched ⟨j, offset', value', by omega, rest⟩
    have hnow : ¬ Touches offset index := fun touched =>
      untouched ⟨m, offset, value, Nat.lt_succ_self m, attempts, made, touched⟩
    exact Ram.same_trans (kept.untouched index inside hbefore)
      (same_put_of_untouched value hfits hnow)

/-- On a tame run, whole and windows stay together. -/
theorem benign_of_tame (tame : s₀.Tame a) (registry : s₀.machine.registry = g.registry)
    (count : s₀.machine.slotCount = g.count) (sim : g.Sim (g.kept a s₀ m) (s₀.after a m) w) :
    g.Benign (g.kept a s₀ m) (g.kept a s₀ (m + 1)) a (s₀.after a m) w where
  reached index reached ram kept := by
    have hinside := (begins_of_reaches? a sim reached).1
    refine slotAt_of_same_slot hinside (kept.untouched index hinside ?_)
    -- A slot that was stored to is never reached in a tame run.
    rintro ⟨j, offset, value, hj, attempts, made, touched⟩
    exact tame.clear j m offset value index hj attempts made touched reached
  checked _ _ storing := checked_of_tame tame registry count sim storing
  stored _ _ attempts made := kept_of_stored tame registry count sim.known
    (attempts.elim Session.attempts?_of_storing? Session.attempts?_of_stamping?) made
  waits _ _ := trivial
  weaker ram kept := by
    refine ⟨kept.size, kept.translated, fun index inside untouched => ?_⟩
    refine kept.untouched index inside ?_
    rintro ⟨j, offset, value, hj, rest⟩
    exact untouched ⟨j, offset, value, by omega, rest⟩
  stays _ _ _ _ _ := trivial
  enters _ _ _ _ _ _ := trivial

end Tame

end Setting

namespace Session

variable {ω : Type} {s whole windowed : Session ω} {size : Word}

/-- Two sessions show the same and have the same notes. -/
def Shows (s w : Session ω) : Prop := s.machine.bare = w.machine.bare ∧ s.audience = w.audience

theorem shows_of_sim {g : Setting} {P : Known} {w : Session ω} (sim : g.Sim P s w) :
    s.Shows w := by
  rcases sim.twin with ⟨_, _, rfl, _⟩
  exact ⟨rfl, rfl⟩

/-! ### Entries outside -/

end Session

/-- When instances of the registry's modules are attached, they look which devices there
    are, and do nothing else to the host. -/
def Registry.Looks (r : Registry) : Prop :=
  ∀ m ∈ r.modules, ∀ b, m.decl.kind = .dispatched b →
    ∀ state, (b.attach state).Within (· = .offered)

theorem Context.within_of_looks {registry : Registry} (looks : registry.Looks) :
    (Context.fresh registry).bind.Within (· = .offered) := by
  have hserves : (Context.fresh registry).Serves fun _ b =>
      ∀ state, (b.attach state).Within (· = .offered) :=
    serves_fresh fun _ m hm b hkind _ => looks m hm b hkind
  exact within_bind_context fun slot i hi => hserves slot i hi i.state

/-- The standard modules look for devices at most. -/
theorem Registry.looks_standard : Registry.standard.Looks := by
  intro m hm b hb state
  simp only [standard, standardDecls, List.map_cons, List.map_nil, List.mem_cons,
    List.not_mem_nil, or_false] at hm
  rcases hm with rfl | rfl | rfl | rfl | rfl <;> cases hb
  · exact .done state
  · exact .done state
  · exact .done state
  · exact .ask rfl fun offered => .done _

/-- If the thread attaches instances, they look for devices only. -/
def Thread.Looks : Thread → Prop
  | .attaching _ rest => rest.Within (· = .offered)
  | .detained _ _ => False
  | _ => True

namespace Session

variable {ω : Type} {s t : Session ω}

/-- Threads keep to looking for devices, if the modules do. -/
theorem looks_advance (a : Audience ω) (looks : s.machine.registry.Looks)
    (here : s.machine.thread.Looks) : (s.advance a).2.machine.thread.Looks := by
  have hchange := change_advance a s
  generalize s.advance a = result at hchange ⊢
  cases hchange with
  | stays => exact here
  | answers asks =>
      generalize hthread : s.machine.thread = thread at here asks
      cases asks with
      | attaching outset =>
          -- What is asked for is the devices, and nobody waits for those.
          cases here with
          | ask offered rest =>
              subst offered
              exact rest _
      | working segment =>
          unfold Thread.onAnswer
          split <;> trivial
  | passes waits =>
      generalize hthread : s.machine.thread = thread at here waits
      cases waits with
      | attaching => exact here.elim
      | working => trivial
  | boards => exact Context.within_of_looks looks
  | turns | enters | continues | ends => trivial

theorem looks_after (a : Audience ω) (starting : s.machine.thread = .starting)
    (looks : s.machine.registry.Looks) (n : Nat) : (s.after a n).machine.thread.Looks := by
  induction n with
  | zero =>
      rw [after, starting]
      trivial
  | succ n ih =>
      rw [after_succ]
      exact looks_advance a (by rw [(knows_after a starting n).2.registry]; exact looks) ih

/-- Instances that only look for devices store nothing when they are attached. -/
theorem stamping?_of_looks (here : s.machine.thread.Looks) : s.stamping? = none := by
  unfold stamping?
  split
  · rename_i attaching
    rw [attaching] at here
    cases here with
    | ask offered _ => cases offered
  · rfl

/-- With an entry outside, a small step of such a thread shows nothing. -/
theorem shows_advance (a : Audience ω) (knows : s.machine.Knows s.machine.thread)
    (beyond : s.machine.slotCount ≤ s.machine.config.entry) (here : s.machine.thread.Looks) :
    s.Shows (s.advance a).2 := by
  have hslots := s.machine.codeSize_eq
  have houtside : ¬ 8 * s.machine.config.entry < s.machine.codeSize := by omega
  -- With the entry outside the thread is in no segment. It starts, or it asks for devices.
  cases hthread : s.machine.thread with
  | idle =>
      rw [advance_idle hthread]
      exact ⟨rfl, rfl⟩
  | starting =>
      cases hsize : s.machine.config.segmentSize with
      | none =>
          rw [eq_of_smallStep (.whole hthread hsize)]
          unfold startWhole
          split <;> exact ⟨rfl, rfl⟩
      | some size =>
          rw [eq_of_smallStep (.windowed hthread hsize), startWindowed_eq,
            if_neg (Nat.not_lt.mpr beyond)]
          exact ⟨rfl, rfl⟩
  | attaching outset rest =>
      rw [hthread] at here
      cases here with
      | done context =>
          rw [(advance_attached knows hthread).1 (Nat.not_lt.mp houtside)]
          exact ⟨rfl, rfl⟩
      | ask offered rest =>
          subst offered
          rw [advance_asks a (hthread ▸ Thread.Asks.attaching outset _ _)]
          exact ⟨rfl, rfl⟩
  | detained =>
      rw [hthread] at here
      exact here.elim
  | entering | working | waiting =>
      rw [hthread] at knows
      exact absurd knows.1 houtside

/-- With an entry outside, a run shows nothing, if instances only look for devices. -/
theorem shows_of_beyond (a : Audience ω) (starting : s.machine.thread = .starting)
    (beyond : s.machine.slotCount ≤ s.machine.config.entry) (looks : s.machine.registry.Looks)
    (n : Nat) : s.Shows (s.after a n) := by
  induction n with
  | zero => exact ⟨rfl, rfl⟩
  | succ n ih =>
      have knows := (knows_after a starting n).1
      have fixed := (knows_after a starting n).2
      have hstep := shows_advance a knows
        (by rw [Machine.slotCount_of_size fixed.size, fixed.config]; exact beyond)
        (looks_after a starting looks n)
      rw [after_succ]
      exact ⟨ih.1.trans hstep.1, ih.2.trans hstep.2⟩

/-- In windows it fails with its first step, and shows nothing whatever instances do. -/
theorem advance_of_beyond (a : Audience ω) (starting : s.machine.thread = .starting)
    {size : Word} (windowed : s.machine.config.segmentSize = some size)
    (beyond : s.machine.slotCount ≤ s.machine.config.entry) :
    s.advance a = s.finish (.error (.trap (.entryOutOfRange s.machine.config.entry))) := by
  rw [eq_of_smallStep (.windowed starting windowed), startWindowed_eq,
    if_neg (Nat.not_lt.mpr beyond)]

theorem shows_of_windowed (a : Audience ω) (starting : s.machine.thread = .starting) {size : Word}
    (windowed : s.machine.config.segmentSize = some size)
    (beyond : s.machine.slotCount ≤ s.machine.config.entry) (n : Nat) : s.Shows (s.after a n) := by
  have hfirst : s.after a 1 = s.modify Machine.clear := by
    rw [after, advance_of_beyond a starting windowed beyond]
    rfl
  cases n with
  | zero => exact ⟨rfl, rfl⟩
  | succ n =>
      -- The first step is the last one, and what it clears does not show.
      rw [after_of_idle (m := 1) (by rw [hfirst]; rfl) (Nat.succ_le_succ (Nat.zero_le n)), hfirst]
      exact ⟨rfl, rfl⟩

/-! ### The theorem -/

section Refinement

variable {whole windowed : Session ω} {size : Word}

theorem split_of_comes {a : Audience ω} {result : Except ExecutionError Unit} {ended : Session ω}
    (comes : s.Comes a result ended) : ended = ended.split s.machine.config.segmentSize := by
  rcases comes with ⟨n, hended⟩
  have hafter : ended = s.after a (n + 1) := by rw [after_succ, hended]
  refine eq_split ?_
  rw [hafter, after_eq_playAll, (fixed_playAll a _ s).config]

/-- With an entry in RAM, the runs keep up with each other. -/
theorem refines_of_inside (o : Observer ω) (running : s.machine.control.running = true)
    (unbroken : s.machine.breakpoints = []) (lenient : s.machine.config.options.strict = false)
    (hwhole : (s.split none).execute = .ok whole)
    (hwindowed : (s.split (some size)).execute = .ok windowed) (tame : whole.Tame o.audience)
    (inside : s.machine.config.entry < s.machine.slotCount) :
    (∀ (result : Except ExecutionError Unit) (ended : Session ω),
      (∃ fuel, whole.settle o.audience fuel = (some result, ended.split none)) ↔
        ∃ fuel, windowed.settle o.audience fuel = (some result, ended.split (some size))) ∧
    (∀ m, ∃ k, windowed.begun o.audience k = whole.begun o.audience m ∧
      (whole.after o.audience m).Shows (windowed.after o.audience k)) ∧
    ∀ k, ∃ m, windowed.begun o.audience k = whole.begun o.audience m ∧
      (whole.after o.audience m).Shows (windowed.after o.audience k) := by
  -- Both runs are in one setting, which says how windows are cut.
  let g := Setting.ofSession s lenient size
  have hstart := Setting.sim_of_execute (P := g.kept o.audience whole 0) lenient running unbroken
    hwhole hwindowed inside (g.kept_image o.audience whole) trivial
  have hregistry : whole.machine.registry = g.registry := by
    rw [Setting.execute_eq hwhole]
    rfl
  have hcount : whole.machine.slotCount = g.count := by
    rw [Setting.execute_eq hwhole]
    rfl
  have hbenign : ∀ m k,
      g.Sim (g.kept o.audience whole m) (whole.after o.audience m) (windowed.after o.audience k) →
      g.Benign (g.kept o.audience whole m) (g.kept o.audience whole (m + 1)) o.audience
        (whole.after o.audience m) (windowed.after o.audience k) :=
    fun _ _ sim => Setting.benign_of_tame tame hregistry hcount sim
  -- Outcomes by the run of either, then each run matched by the other.
  refine ⟨?_, ?_, ?_⟩
  · intro result ended
    rw [settle_iff, settle_iff]
    exact Setting.finished_iff hstart hbenign result ended
  · intro m
    rcases Setting.exists_sim_of_whole hstart hbenign m with ⟨k, hbegun, sim⟩
    exact ⟨k, hbegun, shows_of_sim sim⟩
  · intro k
    rcases Setting.exists_sim_of_windows hstart (fun m k _ => hbenign m k) k (Nat.le_refl k) with
      ⟨m, hbegun, sim⟩
    exact ⟨m, hbegun, shows_of_sim sim⟩

/-- With an entry outside, both runs come to the report of it. -/
theorem comes_of_outside (o : Observer ω) (running : s.machine.control.running = true)
    (unbroken : s.machine.breakpoints = []) (lenient : s.machine.config.options.strict = false)
    (hwhole : (s.split none).execute = .ok whole)
    (hwindowed : (s.split (some size)).execute = .ok windowed)
    (beyond : s.machine.slotCount ≤ s.machine.config.entry) :
    (∃ ended, whole.Comes o.audience
      (.error (.trap (.entryOutOfRange s.machine.config.entry))) ended) ∧
    ∃ ended, windowed.Comes o.audience
      (.error (.trap (.entryOutOfRange s.machine.config.entry))) ended := by
  rw [Setting.execute_eq hwhole, Setting.execute_eq hwindowed]
  exact ⟨comes_of_beyond o ⟨running, unbroken⟩ rfl rfl lenient beyond, _, 0,
    advance_of_beyond o.audience rfl rfl beyond⟩

/-- Execution in windows refines execution in one segment. A session that runs, has
    no breakpoints, and whose listeners only look, comes to the same result in both. If
    the entry is in RAM, it comes to a state that differs in nothing but the size of
    windows, and after any number of steps in one of the two, the other shows the same
    RAM, devices, console and run state at a point where as many instructions have
    begun, and its listeners have noted down the same. If the entry is outside, no
    instruction begins in either. In windows nothing shows at all then, and neither does
    it in one segment, unless an instance that is attached does more than to look for
    devices. -/
theorem windows_refine_whole (o : Observer ω) (running : s.machine.control.running = true)
    (unbroken : s.machine.breakpoints = []) (lenient : s.machine.config.options.strict = false)
    (hwhole : (s.split none).execute = .ok whole)
    (hwindowed : (s.split (some size)).execute = .ok windowed) (tame : whole.Tame o.audience) :
    (∀ result, (∃ fuel ended, whole.settle o.audience fuel = (some result, ended)) ↔
      ∃ fuel ended, windowed.settle o.audience fuel = (some result, ended)) ∧
    (s.machine.config.entry < s.machine.slotCount →
      (∀ (result : Except ExecutionError Unit) (ended : Session ω),
        (∃ fuel, whole.settle o.audience fuel = (some result, ended.split none)) ↔
          ∃ fuel, windowed.settle o.audience fuel = (some result, ended.split (some size))) ∧
      (∀ m, ∃ k, windowed.begun o.audience k = whole.begun o.audience m ∧
        (whole.after o.audience m).Shows (windowed.after o.audience k)) ∧
      ∀ k, ∃ m, windowed.begun o.audience k = whole.begun o.audience m ∧
        (whole.after o.audience m).Shows (windowed.after o.audience k)) ∧
    (s.machine.slotCount ≤ s.machine.config.entry →
      (∀ n, whole.begun o.audience n = 0 ∧ windowed.begun o.audience n = 0 ∧
        s.Shows (windowed.after o.audience n)) ∧
      (s.machine.registry.Looks → ∀ n, s.Shows (whole.after o.audience n))) := by
  have hsize : whole.machine.config.segmentSize = none ∧
      windowed.machine.config.segmentSize = some size := by
    rw [Setting.execute_eq hwhole, Setting.execute_eq hwindowed]
    exact ⟨rfl, rfl⟩
  -- With the entry inside the runs are in lockstep. With it outside both fail without having begun.
  rcases Nat.lt_or_ge s.machine.config.entry s.machine.slotCount with inside | beyond
  · have hrefines := refines_of_inside o running unbroken lenient hwhole hwindowed tame inside
    refine ⟨fun result => ⟨?_, ?_⟩, fun _ => hrefines, fun beyond => absurd inside (by omega)⟩
    · -- How RAM is divided is part of the configuration, and an execution does not change it.
      rintro ⟨fuel, ended, settled⟩
      have hsplit := split_of_comes (comes_iff.mpr ⟨fuel, settled⟩)
      rw [hsize.1] at hsplit
      rw [hsplit] at settled
      rcases (hrefines.1 result ended).mp ⟨fuel, settled⟩ with ⟨fuel', settled'⟩
      exact ⟨fuel', _, settled'⟩
    · rintro ⟨fuel, ended, settled⟩
      have hsplit := split_of_comes (comes_iff.mpr ⟨fuel, settled⟩)
      rw [hsize.2] at hsplit
      rw [hsplit] at settled
      rcases (hrefines.1 result ended).mpr ⟨fuel, settled⟩ with ⟨fuel', settled'⟩
      exact ⟨fuel', _, settled'⟩
  · rcases comes_of_outside o running unbroken lenient hwhole hwindowed beyond with
      ⟨⟨e, comes⟩, e', comes'⟩
    have hbeyond : ∀ size : Option Word,
        ((s.split size).modify (·.setThread .starting)).machine.slotCount ≤
          ((s.split size).modify (·.setThread .starting)).machine.config.entry := fun _ => beyond
    refine ⟨fun result => ⟨?_, ?_⟩, fun inside => absurd inside (by omega), fun _ => ⟨?_, ?_⟩⟩
    · rintro ⟨fuel, ended, settled⟩
      rw [(comes_unique (comes_iff.mpr ⟨fuel, settled⟩) comes).1]
      rcases comes_iff.mp comes' with ⟨fuel', settled'⟩
      exact ⟨fuel', _, settled'⟩
    · rintro ⟨fuel, ended, settled⟩
      rw [(comes_unique (comes_iff.mpr ⟨fuel, settled⟩) comes').1]
      rcases comes_iff.mp comes with ⟨fuel', settled'⟩
      exact ⟨fuel', _, settled'⟩
    · intro n
      rw [Setting.execute_eq hwhole, Setting.execute_eq hwindowed]
      exact ⟨begun_of_beyond o.audience rfl (hbeyond none) n,
        begun_of_beyond o.audience rfl (hbeyond (some size)) n,
        shows_of_windowed o.audience rfl rfl (hbeyond (some size)) n⟩
    · intro looks n
      rw [Setting.execute_eq hwhole]
      exact shows_of_beyond o.audience rfl (hbeyond none) looks n

end Refinement

/-- A running machine about to execute a program that stores 5 behind its code and
    shuts down. -/
def storeSession : Session Unit where
  machine :=
    { registry := Registry.standard, config := { ramSize := 32, options := ⟨false, false⟩ },
      control := { running := true },
      ram := ⟨#[0x11, 0, 0, 24, 0x13, 0, 0, 1, 0x11, 0, 0, 5, 0x13, 0, 0, 4,
        0x11, 0, 0, 0, 0x01, 0, 0, 0, 0, 0, 0, 0, 0, 0, 0, 0]⟩ }
  audience := ()

/-- The store is the fifth step, into the last slot, and control does not get there. -/
theorem tame_storeSession :
    (storeSession.modify (·.setThread .starting)).Tame Observer.idle.audience := by
  let run (m : Nat) : Session Unit :=
    (storeSession.modify (·.setThread .starting)).after Observer.idle.audience m
  have hidle : (run 7).machine.thread = .idle :=
    Thread.isExecuting_eq_false_iff.mp (by decide +kernel)
  -- All that happens happens in the first seven steps.
  have hstore : ∀ m offset value, (run m).attempts? = some (offset, value) →
      m = 4 ∧ offset = 24 ∧ value = 5 := by
    intro m offset value attempts
    rcases Nat.lt_or_ge m 7 with early | late
    · have hstores : ∀ m < 7, (run m).attempts? = if m = 4 then some (24, 5) else none := by
        decide +kernel
      rw [hstores m early] at attempts
      split at attempts
      · cases attempts
        exact ⟨‹_›, rfl, rfl⟩
      · cases attempts
    · rw [show run m = run 7 from after_of_idle hidle late, attempts?_of_idle hidle] at attempts
      cases attempts
  have hslot : ∀ index, Touches 24 index → index = 3 := by
    intro index touched
    unfold Touches at touched
    have h24 : (24 : Word).toNat = 24 := rfl
    omega
  refine ⟨?_, ?_⟩
  · intro m offset value attempts _ index _ touched
    rcases hstore m offset value attempts with ⟨rfl, rfl, rfl⟩
    cases hslot index touched
    exact ⟨by unfold Untranslated; decide +kernel, by unfold Untranslated; decide +kernel⟩
  · intro m m' offset value index later attempts _ touched
    rcases hstore m offset value attempts with ⟨rfl, rfl, rfl⟩
    cases hslot index touched
    rcases Nat.lt_or_ge m' 7 with early | late
    · have hreaches : ∀ m < 7, (run m).reaches? ≠ some 3 := by decide +kernel
      exact hreaches m' early
    · rw [after_of_idle hidle late]
      have hnone : (run 7).reaches? = none := by simp only [reaches?, hidle]
      intro reached
      rw [hnone] at reached
      cases reached

/-- The program comes to its end in windows of two slots too, behind its store. -/
theorem windows_refine_whole_store :
    ∃ whole windowed ended : Session Unit, (storeSession.split none).execute = .ok whole ∧
      (storeSession.split (some 16)).execute = .ok windowed ∧ whole.Tame Observer.idle.audience ∧
      storeSession.machine.config.entry < storeSession.machine.slotCount ∧
      (∃ fuel, windowed.settle Observer.idle.audience fuel =
        (some (.ok ()), ended.split (some 16))) ∧
      ended.machine.ram.word? 24 = some 5 := by
  let whole := storeSession.modify (·.setThread .starting)
  let windowed := (storeSession.split (some 16)).modify (·.setThread .starting)
  have hends : whole.settle Observer.idle.audience 8 =
      (some (.ok ()), (whole.settle Observer.idle.audience 8).2.split none) :=
    Prod.ext (by decide +kernel) (eq_split (by decide +kernel))
  have hinside : storeSession.machine.config.entry < storeSession.machine.slotCount := by
    decide +kernel
  refine ⟨whole, windowed, (whole.settle Observer.idle.audience 8).2, rfl, rfl,
    tame_storeSession, hinside, ?_, ?_⟩
  · have hrefines := @windows_refine_whole Unit storeSession whole windowed 16 Observer.idle
      rfl rfl rfl rfl rfl tame_storeSession
    exact ((hrefines.2.1 hinside).1 _ _).mp ⟨8, hends⟩
  · decide +kernel

/-! ## What tells them apart -/

/-- A running machine that prints and shuts down, with a listener, and an instruction
    behind the shutdown. -/
def meddledSession : Session Unit where
  machine :=
    { registry := Registry.standard, config := { ramSize := 24, options := ⟨false, true⟩ },
      control := { running := true }, executionListeners := [0], console := { sink := .buffer },
      ram := ⟨#[0x11, 0, 0, 7, 0x02, 0, 0, 0x11, 0x11, 0, 0, 0, 0x01, 0, 0, 0,
        0x11, 0, 0, 0, 0x01, 0, 0, 0]⟩ }
  audience := ()

/-- A listener that stores a word at the offset 16 when the machine is at the offset 0, and
    refuses if that fails. -/
def meddler : Audience Unit where
  respond
    | _ + 1, _, .arrival, s =>
      if s.machine.control.pc = 0 then
        .give (.store 16 0) fun result _ =>
          match result with
          | .ok () => .accept
          | .error error => .refuse error.message
      else .accept
    | _, _, _, _ => .accept
  nesting := 1

/-- A module whose instances print a value when they are attached. -/
def heraldDecl : ModuleDecl where
  id := 0x30
  stem := "herald"
  cells := 0
  ports := []
  kind := .dispatched
    { fresh := {}
      write := fun _ _ _ => return .proceed
      attach := fun state => .ask (.print 7) fun _ => .done state }

/-- A running machine with such a module, one instruction, and an entry behind it. -/
def heraldSession : Session Unit where
  machine :=
    { registry := ⟨Registry.standard.modules ++ [⟨heraldDecl, []⟩]⟩
      config := { ramSize := 8, entry := 1, options := ⟨false, false⟩ }
      control := { running := true }, console := { sink := .buffer },
      ram := ⟨#[0x11, 0, 0, 0, 0x01, 0, 0, 0]⟩ }
  audience := ()

/-- A listener that stores where only the one segment is live fails the one and not the
    other, though the program stores nothing. And where the entry is outside, an instance
    that prints when it is attached does so in one segment only. -/
theorem windows_can_show :
    let begun := fun (s : Session Unit) size => (s.split size).modify (·.setThread .starting)
    let message := (Trap.selfModifyingCode 16).message
    ((begun meddledSession none).Tame meddler ∧
      ((begun meddledSession none).settle meddler 40).1 =
        some (.error (.trap (.listener message))) ∧
      ((begun meddledSession (some 8)).settle meddler 40).1 = some (.ok ())) ∧
    Registry.standard.register heraldDecl = .ok heraldSession.machine.registry ∧
      (begun heraldSession none).Tame Observer.idle.audience ∧
      ((begun heraldSession none).settle Observer.idle.audience 40).2.machine.console.values =
        #[7] ∧
      ((begun heraldSession (some 8)).settle Observer.idle.audience 40).2.machine.console.values =
        #[] := by
  intro begun message
  refine ⟨⟨?_, ?_, ?_⟩, rfl, ?_, ?_, ?_⟩
  · exact tame_of_idle (n := 20) (by decide +kernel) (by decide +kernel)
  · decide +kernel
  · decide +kernel
  · exact tame_of_idle (n := 20) (by decide +kernel) (by decide +kernel)
  · decide +kernel
  · decide +kernel

end Session

end Transport
