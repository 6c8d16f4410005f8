import Transport.Proofs.Machine.WindowRefinement

/-!
# Stores that Windows Refuse

A program that ends well in one segment need not do so in windows. All of RAM is
compiled once, and what had no translation then is data for good. A window is
compiled whenever control comes into it, and takes for code whatever looks like it
by then: if the program has written an instruction's words into its data, it may
not write there again.

That is the only thing that can go wrong. Along a run that ends well, code is as
it was, and whole and windows stay together up to the first store that a window
refuses. So execution in windows works exactly if the run in one segment never
stores into a slot of the window that control is in which had a translation when
control came into that window.

## Main definitions

* `Session.Refused`: Live code refuses a store in RAM.
* `Session.visit?`: The window that control is in, and when it came there.
* `Session.Clobbers`: A store reaches into what was an instruction then.
* `Setting.visited`: What is known of RAM and of the live window.

## Theorems

* `translated_of_reaches?`: A run that ends well reaches no data.
* `benign_of_made`: Whole and windows stay together while no store is refused.
* `exists_refused_iff`: A store is refused exactly if the program clobbers something.
* `comes_of_spares`: A program that clobbers nothing comes to the same end in windows.
* `comes_of_clobbers`: One that does fails, for an instruction that was not there.
* `windows_work_iff`: When a program that works does so in windows.
* `windows_break_recall`: A program that works in one segment only.
-/

namespace Transport

open Segment

namespace Session

variable {ω : Type}

/-- The next small step attempts a store that lies in RAM, and live code refuses it. -/
def Refused (s : Session ω) : Prop :=
  ∃ offset value, s.storing? = some (offset, value) ∧ s.machine.ram.holds offset 4 = true ∧
    s.machine.checkStore offset 4 ≠ .ok ()

/-- The number of the window that control is in after some steps of a run, and the
    number of steps after which it came there. -/
def visit? (a : Audience ω) (size : Word) (s : Session ω) : Nat → Option (Nat × Nat)
  | 0 => none
  | count + 1 =>
    let before := s.visit? a size count
    match (s.after a count).reaches? with
    | none => before
    | some index =>
      let number := Machine.windowIndex size index
      if before.map Prod.fst = some number then before else some (number, count)

/-- After some steps of a run, the program attempts a store in RAM that reaches into a
    slot of the window that control is in, and there was an instruction in the slot
    when control came into the window. -/
def Clobbers (a : Audience ω) (size : Word) (s : Session ω) (m index : Nat) : Prop :=
  ∃ offset value number step, (s.after a m).storing? = some (offset, value) ∧
    (s.after a m).machine.ram.holds offset 4 = true ∧ Touches offset index ∧
    s.visit? a size m = some (number, step) ∧ index < s.machine.slotCount ∧
    Machine.windowIndex size index = number ∧
    ¬ Untranslated s.machine.registry (s.after a step).machine.ram (offsetOf 0 index)

/-- What instances store while they are attached does not reach into an instruction that
    is there at first. -/
def Spares (a : Audience ω) (s : Session ω) : Prop :=
  ∀ m offset value, (s.after a m).stamping? = some (offset, value) →
    ((s.after a m).store a offset value).1 = .ok () →
    ∀ index, index < s.machine.slotCount → Touches offset index →
      Untranslated s.machine.registry s.machine.ram (offsetOf 0 index)

/-- It does not if the modules only look for devices then. -/
theorem spares_of_looks (a : Audience ω) {s : Session ω} (starting : s.machine.thread = .starting)
    (looks : s.machine.registry.Looks) : s.Spares a := by
  intro m offset value stamping
  rw [stamping?_of_looks (looks_after a starting looks m)] at stamping
  cases stamping

/-- A store that fails its check is answered with the trap. -/
theorem store_of_checkStore (a : Audience ω) {s : Session ω} {offset value : Word} {trap : Trap}
    (h : s.machine.checkStore offset 4 = .error trap) :
    (s.store a offset value).1 = .error trap := by
  simp only [store, storeWith, h]

end Session

namespace Setting

variable {ω : Type} {g : Setting} {P : Known} {o : Observer ω} {s₀ w : Session ω} {m index : Nat}

/-- Code is as it was: the slots that had a translation at first hold what they held. -/
def Intact (g : Setting) (ram : Ram) : Prop :=
  ∀ index, index < g.count → ¬ Untranslated g.registry g.image (offsetOf 0 index) →
    Ram.Same g.image ram (8 * index) 8

/-- What instances store while they are attached does not reach into code. -/
def Spared (g : Setting) (a : Audience ω) (s : Session ω) : Prop :=
  ∀ m offset value index, (s.after a m).stamping? = some (offset, value) →
    ((s.after a m).store a offset value).1 = .ok () → index < g.count → Touches offset index →
    Untranslated g.registry g.image (offsetOf 0 index)

/-- What is known after some steps of a run that is not refused a store: code is as it
    was, and the live window was compiled when control came into it. -/
def visited (g : Setting) (a : Audience ω) (s : Session ω) (m : Nat) : Known where
  ram := g.Intact
  outset := s.visit? a g.size m = none
  window image first last := ∃ number step, s.visit? a g.size m = some (number, step) ∧
    (s.after a step).machine.ram = image ∧
    ∀ i, i < g.count → (first ≤ i ∧ i < last ↔ Machine.windowIndex g.size i = number)

/-- A run that works is at no time in front of an instruction that had no translation
    at first. -/
theorem translated_of_reaches? (free : s₀.Free) {ended : Session ω}
    (works : s₀.Comes o.audience (.ok ()) ended) (sim : g.Sim P (s₀.after o.audience m) w)
    (reached : (s₀.after o.audience m).reaches? = some index) :
    ¬ Untranslated g.registry g.image (offsetOf 0 index) := by
  -- Such a slot would trap if it began, and then the run could not end well.
  intro untranslated
  rcases begins_of_reaches? o.audience sim reached with ⟨inside, context, working⟩
  rw [← Session.after_succ] at working
  rcases Session.comes_of_untranslated o (Session.free_after o free (m + 1)) g.reach
    (Nat.zero_le index) inside untranslated working with ⟨trap, ended', fails⟩
  cases (Session.comes_unique works (Session.comes_of_after fails)).1

/-- While control stays in its window, it is the same visit. -/
theorem visit?_of_stays (sim : g.Sim P (s₀.after o.audience m) w) {image : Ram} {first last : Nat}
    (placed : (g.visited o.audience s₀ m).window image first last)
    (stays : ∀ index, (s₀.after o.audience m).reaches? = some index →
      first ≤ index ∧ index < last) :
    (g.visited o.audience s₀ (m + 1)).window image first last := by
  rcases placed with ⟨number, step, hvisit, hram, hslots⟩
  refine ⟨number, step, ?_, hram, hslots⟩
  simp only [Session.visit?, hvisit]
  split
  · rfl
  · -- A slot that is reached is in the window that was visited last, so nothing new is visited.
    rename_i index reached
    have hinside := (begins_of_reaches? o.audience sim reached).1
    exact if_pos (congrArg some ((hslots index hinside).mp (stays index reached)).symm)

/-- When control comes into another window, or into the first, the visit begins. -/
theorem visit?_of_enters (sim : g.Sim P (s₀.after o.audience m) w) {first last : Nat}
    (reached : (s₀.after o.audience m).reaches? = some index)
    (slots : ∀ i, i < g.count → (first ≤ i ∧ i < last ↔
      Machine.windowIndex g.size i = Machine.windowIndex g.size index))
    (elsewhere : (g.visited o.audience s₀ m).outset ∨ ∃ image first' last',
      (g.visited o.audience s₀ m).window image first' last' ∧ ¬ (first' ≤ index ∧ index < last')) :
    (g.visited o.audience s₀ (m + 1)).window (s₀.after o.audience m).machine.ram first last := by
  refine ⟨_, m, ?_, rfl, slots⟩
  simp only [Session.visit?, reached]
  -- Were it the same window, the slot would be in it.
  rw [if_neg]
  intro same
  rcases elsewhere with outset | ⟨_, first', last', ⟨number, step, hvisit, _, hslots⟩, beyond⟩
  · rw [show s₀.visit? o.audience g.size m = none from outset] at same
    cases same
  · rw [hvisit] at same
    exact beyond ((hslots index (begins_of_reaches? o.audience sim reached).1).mpr
      (Option.some.inj same).symm)

/-- Whole and windows stay together, as long as neither is refused a store. -/
theorem benign_of_made (free : s₀.Free) {ended : Session ω}
    (works : s₀.Comes o.audience (.ok ()) ended) (spared : g.Spared o.audience s₀)
    (sim : g.Sim (g.visited o.audience s₀ m) (s₀.after o.audience m) w)
    (made : ¬ (s₀.after o.audience m).Refused) (made' : ¬ w.Refused) :
    g.Benign (g.visited o.audience s₀ m) (g.visited o.audience s₀ (m + 1)) o.audience
      (s₀.after o.audience m) w where
  reached index reached ram intact := by
    have hinside := (begins_of_reaches? o.audience sim reached).1
    exact slotAt_of_same_slot hinside
      (intact index hinside (translated_of_reaches? free works sim reached))
  checked offset value storing := by
    -- Out of bounds both are refused; within, both are made by assumption.
    have hram := ram_eq sim
    by_cases fits : (s₀.after o.audience m).machine.ram.holds offset 4 = true
    · have hwhole := Classical.not_not.mp fun refused =>
        made ⟨offset, value, storing, fits, refused⟩
      have hwindow := Classical.not_not.mp fun refused =>
        made' ⟨offset, value, (storing?_eq sim).trans storing, by rw [hram]; exact fits, refused⟩
      rw [hwhole, hwindow]
    · simp only [Machine.checkStore, hram, if_neg fits]
  stored offset value attempts made := by
    rcases Machine.checkStore_eq_ok_iff.mp (Session.checkStore_of_storeWith made) with
      ⟨fits, clear⟩
    intro index inside translated
    have huntouched : ¬ Touches offset index := by
      intro touched
      rcases attempts with storing | stamping
      · -- The one segment, for which the slot is code, would have refused the store.
        rcases exists_live_of_storing? sim storing with ⟨_, _, _, live⟩
        refine CodeMap.overlap?_eq_none_iff.mp (clear _ live.whole) index ?_
        refine (hit_part_iff _ _ _ g.reach (Nat.zero_le _)).mpr ?_
        rw [Nat.zero_add]
        exact ⟨inside, translated, touched⟩
      · exact translated (spared m offset value index stamping made inside touched)
    exact Ram.same_trans (sim.known index inside translated)
      (same_put_of_untouched value fits huntouched)
  weaker _ intact := intact
  waits none outset := by
    have hvisit : s₀.visit? o.audience g.size (m + 1) = s₀.visit? o.audience g.size m := by
      simp only [Session.visit?, none]
    exact hvisit.trans outset
  stays _ _ _ placed stays := visit?_of_stays sim placed stays
  enters _ _ _ reached slots elsewhere := visit?_of_enters sim reached slots elsewhere

/-- A run that works and heeds refusals was not refused any store in RAM. -/
theorem not_refused_of_works (free : s₀.Free) (heeds : s₀.Heeds) {ended : Session ω}
    (works : s₀.Comes o.audience (.ok ()) ended) : ¬ (s₀.after o.audience m).Refused := by
  rintro ⟨offset, value, storing, fits, refused⟩
  rcases Machine.exists_overlap_of_checkStore fits refused with ⟨_, slot, _, _, hcheck⟩
  rcases Session.comes_of_refused o (Session.free_after o free m)
    (Session.heeds_after o.audience heeds m) storing
    (Session.store_of_checkStore o.audience hcheck) with ⟨ended', fails⟩
  cases (Session.comes_unique works (Session.comes_of_after fails)).1

section Refused

variable (sim : g.Sim (g.visited o.audience s₀ m) (s₀.after o.audience m) w)
  (registry : s₀.machine.registry = g.registry) (count : s₀.machine.slotCount = g.count)

include sim registry count

/-- Where the windows are refused a store that the one segment is not, the program
    clobbers an instruction that was not there at first. -/
theorem exists_clobbers (made : ¬ (s₀.after o.audience m).Refused) (refused : w.Refused) :
    ∃ offset value index, w.storing? = some (offset, value) ∧
      w.machine.checkStore offset 4 = .error (.selfModifyingCode (offsetOf 0 index)) ∧
      s₀.Clobbers o.audience g.size m index ∧
      Untranslated g.registry g.image (offsetOf 0 index) := by
  rcases refused with ⟨offset, value, storing, fits, hrefused⟩
  rcases Machine.exists_overlap_of_checkStore fits hrefused with
    ⟨map, slot, hmap, hoverlap, hcheck⟩
  have hstoring := (storing?_eq sim).symm.trans storing
  rw [ram_eq sim] at fits
  rcases exists_live_of_storing? sim hstoring with ⟨image, first, last, live⟩
  rw [live.window] at hmap
  cases hmap
  have hreach := g.reach
  have hwithin := live.within
  -- The slot is one of the window, and was compiled with it.
  rcases CodeMap.overlap?_eq_some hoverlap with ⟨i, rfl, hit⟩
  rcases (hit_part_iff _ _ _ (by omega) live.ordered).mp hit with ⟨inside, translated, touched⟩
  rcases live.placed with ⟨number, step, hvisit, hram, hslots⟩
  -- The trap names the slot by its offset in RAM.
  have hslot : UInt32.ofNat ((g.window image first last).codeMap.slotStart i) =
      offsetOf 0 (first + i) := by
    have hstart : (g.window image first last).codeMap.slotStart i = 8 * (first + i) := by
      change (offsetOf 0 first).toNat + 8 * i = _
      rw [toNat_offsetOf_zero (by omega)]
      omega
    rw [hstart, offsetOf, UInt32.zero_add]
    rfl
  rw [hslot] at hcheck
  rw [← hram, ← registry] at translated
  refine ⟨offset, value, first + i, storing, hcheck, ?_, Classical.not_not.mp fun before => ?_⟩
  · exact ⟨offset, value, number, step, hstoring, fits, touched, hvisit, by omega,
      (hslots _ (by omega)).mp ⟨Nat.le_add_right _ _, inside⟩, translated⟩
  · -- The one segment, which allows the store, did not compile it.
    have hmade : (s₀.after o.audience m).machine.checkStore offset 4 = .ok () :=
      Classical.not_not.mp fun refused => made ⟨offset, value, hstoring, fits, refused⟩
    have hclear := (Machine.checkStore_eq_ok_iff.mp hmade).2 _ live.whole
    refine CodeMap.overlap?_eq_none_iff.mp hclear (first + i) ?_
    refine (hit_part_iff _ _ _ g.reach (Nat.zero_le _)).mpr ?_
    rw [Nat.zero_add]
    exact ⟨by omega, before, touched⟩

/-- Where the program clobbers an instruction, the windows are refused the store. -/
theorem refused_of_clobbers (clobbers : s₀.Clobbers o.audience g.size m index) : w.Refused := by
  rcases clobbers with
    ⟨offset, value, number, step, hstoring, fits, touched, hvisit, inside, hnumber, translated⟩
  rcases exists_live_of_storing? sim hstoring with ⟨image, first, last, live⟩
  -- The live window is the one of the visit, compiled when the visit began.
  rcases live.placed with ⟨number', step', hvisit', hram, hslots⟩
  rw [hvisit] at hvisit'
  cases hvisit'
  rw [count] at inside
  rw [registry, hram] at translated
  rcases (hslots index inside).mpr hnumber with ⟨low, high⟩
  have hreach := g.reach
  have hwithin := live.within
  refine ⟨offset, value, (storing?_eq sim).trans hstoring, by rw [ram_eq sim]; exact fits, ?_⟩
  intro checked
  have hclear := (Machine.checkStore_eq_ok_iff.mp checked).2 _ live.window
  refine CodeMap.overlap?_eq_none_iff.mp hclear (index - first) ?_
  refine (hit_part_iff _ _ _ (by omega) live.ordered).mpr ?_
  rw [Nat.add_sub_cancel' low]
  exact ⟨high, translated, touched⟩

end Refused

/-- If the windows are refused a store at all, the first time they are at a matching
    point. The induction is on the number of steps up to a refusal. -/
theorem exists_sim_of_refused {w₀ : Session ω} (start : g.Sim (g.visited o.audience s₀ 0) s₀ w₀)
    (free : s₀.Free) {ended : Session ω} (works : s₀.Comes o.audience (.ok ()) ended)
    (spared : g.Spared o.audience s₀) (made : ∀ m, ¬ (s₀.after o.audience m).Refused) (k : Nat)
    (refused : (w₀.after o.audience k).Refused) :
    ∃ m k', g.Sim (g.visited o.audience s₀ m) (s₀.after o.audience m) (w₀.after o.audience k') ∧
      (w₀.after o.audience k').Refused := by
  induction k using Nat.strongRecOn with
  | ind k ih =>
      by_cases earlier : ∃ j, j < k ∧ (w₀.after o.audience j).Refused
      · rcases earlier with ⟨j, hj, before⟩
        exact ih j hj before
      · have hbenign : ∀ m j, j < k →
            g.Sim (g.visited o.audience s₀ m) (s₀.after o.audience m) (w₀.after o.audience j) →
            g.Benign (g.visited o.audience s₀ m) (g.visited o.audience s₀ (m + 1)) o.audience
              (s₀.after o.audience m) (w₀.after o.audience j) :=
          fun m j hj sim =>
            benign_of_made free works spared sim (made m) fun before => earlier ⟨j, hj, before⟩
        rcases exists_sim_of_windows start hbenign k (Nat.le_refl k) with ⟨m, _, sim⟩
        exact ⟨m, k, sim, refused⟩

/-- The windows are refused a store at some time exactly if the program clobbers an
    instruction at some time. -/
theorem exists_refused_iff {w₀ : Session ω} (start : g.Sim (g.visited o.audience s₀ 0) s₀ w₀)
    (registry : s₀.machine.registry = g.registry) (count : s₀.machine.slotCount = g.count)
    (free : s₀.Free) {ended : Session ω} (works : s₀.Comes o.audience (.ok ()) ended)
    (spared : g.Spared o.audience s₀) (made : ∀ m, ¬ (s₀.after o.audience m).Refused) :
    (∃ k, (w₀.after o.audience k).Refused) ↔
      ∃ m index, s₀.Clobbers o.audience g.size m index := by
  constructor
  · rintro ⟨k, refused⟩
    rcases exists_sim_of_refused start free works spared made k refused with ⟨m, k', sim, refused'⟩
    rcases exists_clobbers sim registry count (made m) refused' with
      ⟨_, _, index, _, _, clobbers, _⟩
    exact ⟨m, index, clobbers⟩
  · rintro ⟨m, index, clobbers⟩
    -- Without any refusal the runs would be together at the store, which is refused then.
    by_cases refused : ∃ k, (w₀.after o.audience k).Refused
    · exact refused
    · rcases exists_sim_of_whole start (fun m k sim =>
        benign_of_made free works spared sim (made m) fun before => refused ⟨k, before⟩) m with
        ⟨k, _, sim⟩
      exact ⟨k, refused_of_clobbers sim registry count clobbers⟩

section Runs

variable {w₀ ended : Session ω} (start : g.Sim (g.visited o.audience s₀ 0) s₀ w₀)
  (registry : s₀.machine.registry = g.registry) (count : s₀.machine.slotCount = g.count)
  (free : s₀.Free) (works : s₀.Comes o.audience (.ok ()) (ended.split none))
  (spared : g.Spared o.audience s₀) (made : ∀ m, ¬ (s₀.after o.audience m).Refused)

include start registry count free works spared made

/-- A program that works and clobbers nothing comes to the same end in windows. -/
theorem comes_of_spares (spares : ∀ m index, ¬ s₀.Clobbers o.audience g.size m index) :
    w₀.Comes o.audience (.ok ()) (ended.split (some g.size)) := by
  refine (finished_iff start (fun m k sim => ?_) _ _).mp works
  refine benign_of_made free works spared sim (made m) fun refused => ?_
  rcases (exists_refused_iff start registry count free works spared made).mp ⟨k, refused⟩ with
    ⟨m, index, clobbers⟩
  exact spares m index clobbers

/-- A program that works but clobbers an instruction fails in windows, for one that was
    not there at first. -/
theorem comes_of_clobbers (free' : w₀.Free) (heeds' : w₀.Heeds)
    (clobbers : s₀.Clobbers o.audience g.size m index) :
    ∃ m' index', s₀.Clobbers o.audience g.size m' index' ∧
      Untranslated g.registry g.image (offsetOf 0 index') ∧
      ∃ failed, w₀.Comes o.audience
        (.error (.trap (.selfModifyingCode (offsetOf 0 index')))) failed := by
  rcases (exists_refused_iff start registry count free works spared made).mpr ⟨m, index, clobbers⟩ with
    ⟨k, refused⟩
  -- The first refusal is the one that has a matching point in the one segment.
  rcases exists_sim_of_refused start free works spared made k refused with ⟨m', k', sim, refused'⟩
  rcases exists_clobbers sim registry count (made m') refused' with
    ⟨offset, value, index', storing, hcheck, clobbers', untranslated⟩
  rcases Session.comes_of_refused o (Session.free_after o free' k')
    (Session.heeds_after o.audience heeds' k') storing
    (Session.store_of_checkStore o.audience hcheck) with ⟨failed, fails⟩
  exact ⟨m', index', clobbers', untranslated, failed, Session.comes_of_after fails⟩

end Runs

end Setting

namespace Session

variable {ω : Type} {s whole windowed ended : Session ω} {size : Word}

/-- When a program that works does so in windows: if neither the one segment refuses a
    store of it nor it clobbers an instruction, it comes to the same end. If modules
    heed refusals, the former is no condition and the latter is exact: a program that
    clobbers an instruction ends in windows with the report of one that was not there
    at first. Instances that store when they are attached must not store into code. -/
theorem windows_work_iff (o : Observer ω) (running : s.machine.control.running = true)
    (unbroken : s.machine.breakpoints = []) (lenient : s.machine.config.options.strict = false)
    (hwhole : (s.split none).execute = .ok whole)
    (hwindowed : (s.split (some size)).execute = .ok windowed)
    (spares : whole.Spares o.audience)
    (works : ∃ fuel, whole.settle o.audience fuel = (some (.ok ()), ended.split none)) :
    ((∀ m, ¬ (whole.after o.audience m).Refused) →
      (∀ m index, ¬ whole.Clobbers o.audience size m index) →
      ∃ fuel, windowed.settle o.audience fuel =
        (some (.ok ()), ended.split (some size))) ∧
    (s.machine.registry.Heeds →
      ((∃ fuel, windowed.settle o.audience fuel =
          (some (.ok ()), ended.split (some size))) ↔
        ∀ m index, ¬ whole.Clobbers o.audience size m index) ∧
      ∀ m index, whole.Clobbers o.audience size m index →
        ∃ m' index', whole.Clobbers o.audience size m' index' ∧
          Untranslated s.machine.registry s.machine.ram (offsetOf 0 index') ∧
          ∃ fuel failed, windowed.settle o.audience fuel =
            (some (.error (.trap (.selfModifyingCode (offsetOf 0 index')))), failed)) := by
  let g := Setting.ofSession s lenient size
  have hregistry : whole.machine.registry = g.registry := by
    rw [Setting.execute_eq hwhole]
    rfl
  have hcount : whole.machine.slotCount = g.count := by
    rw [Setting.execute_eq hwhole]
    rfl
  have hspared : g.Spared o.audience whole := by
    intro m offset value index stamping made inside touched
    have huntranslated := spares m offset value stamping made index (by rw [hcount]; exact inside)
      touched
    rw [Setting.execute_eq hwhole] at huntranslated
    exact huntranslated
  have hcomes : whole.Comes o.audience (.ok ()) (ended.split none) := comes_iff.mpr works
  -- With an entry outside the run would have failed.
  have hinside : s.machine.config.entry < s.machine.slotCount := by
    refine Nat.lt_of_not_le fun beyond => ?_
    rcases (comes_of_outside o running unbroken lenient hwhole hwindowed beyond).1 with ⟨_, fails⟩
    cases (comes_unique hcomes fails).1
  have hstart := Setting.sim_of_execute (P := g.visited o.audience whole 0) lenient running unbroken
    hwhole hwindowed hinside (fun _ _ _ => Ram.same_refl _ _ _) rfl
  have hfree : whole.Free := ⟨hstart.fits.running, hstart.fits.unbroken⟩
  have hkeeps : (∀ m, ¬ (whole.after o.audience m).Refused) →
      (∀ m index, ¬ whole.Clobbers o.audience size m index) →
      ∃ fuel, windowed.settle o.audience fuel =
        (some (.ok ()), ended.split (some size)) :=
    fun made clear => comes_iff.mp
      (Setting.comes_of_spares hstart hregistry hcount hfree hcomes hspared made clear)
  refine ⟨hkeeps, fun hheeds => ?_⟩
  have heeds : whole.Heeds := by
    rw [Setting.execute_eq hwhole]
    exact ⟨hheeds, trivial⟩
  have heeds' : windowed.Heeds := by
    rw [Setting.execute_eq hwindowed]
    exact ⟨hheeds, trivial⟩
  have hfree' : windowed.Free := by
    rw [Setting.execute_eq hwindowed]
    exact ⟨running, unbroken⟩
  have hmade : ∀ m, ¬ (whole.after o.audience m).Refused :=
    fun m => Setting.not_refused_of_works hfree heeds hcomes
  have hbreaks := fun m index (clobbers : whole.Clobbers o.audience size m index) =>
    Setting.comes_of_clobbers hstart hregistry hcount hfree hcomes hspared hmade hfree' heeds' clobbers
  refine ⟨⟨fun worked m index clobbers => ?_, hkeeps hmade⟩, fun m index clobbers => ?_⟩
  · -- A run has one end, and with a clobbered instruction it is not this one.
    rcases hbreaks m index clobbers with ⟨_, _, _, _, _, fails⟩
    cases (comes_unique (comes_iff.mpr worked) fails).1
  · rcases hbreaks m index clobbers with ⟨m', index', clobbers', untranslated, failed, fails⟩
    rcases comes_iff.mp fails with ⟨fuel, settled⟩
    exact ⟨m', index', clobbers', untranslated, fuel, failed, settled⟩

/-- A running machine about to execute a program that copies the word of `sys.shutdown`
    from its last instruction into the data at 32, leaves for 40, comes back to do so
    again, and ends. -/
def recallSession : Session Unit where
  machine :=
    { registry := Registry.standard, config := { ramSize := 72, options := ⟨false, false⟩ },
      control := { running := true },
      ram := ⟨#[
        0x11, 0, 0, 36, 0x13, 0, 0, 1,
        0x11, 0, 0, 68, 0x13, 0, 0, 3,
        0x13, 0, 0, 5, 0x13, 0, 0, 4,
        0x11, 0, 0, 40, 0x90, 0, 0, 0,
        0x11, 0, 0, 0, 0, 0, 0, 0,
        0x02, 0xA0, 0, 1, 0x90, 0, 0, 2,
        0x11, 0, 0, 1, 0x02, 0, 0, 0x10,
        0x11, 0, 0, 16, 0x90, 0, 0, 0,
        0x11, 0, 0, 0, 0x01, 0, 0, 0]⟩ }
  audience := ()

/-- The program works in one segment, and in windows of five slots it does not. -/
theorem windows_break_recall :
    ∃ whole windowed : Session Unit, (recallSession.split none).execute = .ok whole ∧
      (recallSession.split (some 40)).execute = .ok windowed ∧
      (whole.settle Observer.idle.audience 40).1 = some (.ok ()) ∧
      (windowed.settle Observer.idle.audience 40).1 =
        some (.error (.trap (.selfModifyingCode 32))) :=
  ⟨_, _, rfl, rfl, by decide +kernel, by decide +kernel⟩

/-- What the program clobbers is the instruction that it made of the data itself. -/
theorem windows_work_iff_recall :
    ∃ whole : Session Unit, (recallSession.split none).execute = .ok whole ∧
      ∃ m index, whole.Clobbers Observer.idle.audience 40 m index ∧
        Untranslated Registry.standard recallSession.machine.ram (offsetOf 0 index) := by
  let whole := recallSession.modify (·.setThread .starting)
  let windowed := (recallSession.split (some 40)).modify (·.setThread .starting)
  have hworks : whole.settle Observer.idle.audience 40 =
      (some (.ok ()), (whole.settle Observer.idle.audience 40).2.split none) :=
    Prod.ext (by decide +kernel) (eq_split (by decide +kernel))
  have hfails : (windowed.settle Observer.idle.audience 40).1 =
      some (.error (.trap (.selfModifyingCode 32))) := by decide +kernel
  -- If nothing were clobbered, the windows would have come to the other end.
  have hiff := (@windows_work_iff Unit recallSession whole windowed _ 40 Observer.idle
    rfl rfl rfl rfl rfl (spares_of_looks _ rfl Registry.looks_standard) ⟨40, hworks⟩).2 heeds_standard
  refine ⟨whole, rfl, Classical.not_not.mp fun nowhere => ?_⟩
  have hspares : ∀ m index, ¬ whole.Clobbers Observer.idle.audience 40 m index := by
    intro m index clobbers
    rcases hiff.2 m index clobbers with ⟨m', index', clobbers', untranslated, _⟩
    exact nowhere ⟨m', index', clobbers', untranslated⟩
  have hend := comes_unique (comes_iff.mpr (hiff.1.mpr hspares))
    (comes_iff.mpr ⟨40, Prod.ext hfails rfl⟩)
  cases hend.1

end Session

end Transport
