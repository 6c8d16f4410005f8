import Transport.Proofs.Machine.Observation
import Transport.Proofs.Machine.Windows

/-!
# Whole and Windows in Lockstep

Two runs of one program, the first in one segment that is all of RAM, the second
in windows. Both attach the same instances, and then take the same steps, except that
the second has steps of its own: it goes to its first window, it leaves a window, and it
enters the next one. Between such steps the two show the same, and their threads are at
matching points.

A window is compiled from RAM as it is when control comes into it, all of RAM is
compiled once, before the instances are attached. The two runs can only part where the
difference shows: where an
instruction is reached that is not the one that was there at first, or where a
store passes one check and fails the other. What has to be known to exclude both
depends on the program, so the simulation takes it as a parameter: facts about RAM
and about the live window, which every step has to keep.

The windows take at most two steps of their own in a row. A rank of the thread
counts them, and so a step of the first run is always answered.

## Main definitions

* `Session.split`: A session with execution in windows, or in one segment.
* `Setting`: What two runs that are compared have in common.
* `Known`: What is known of RAM and of the live window.
* `Setting.Threads`: Threads at matching points.
* `Setting.Sim`: Sessions that show the same, at matching points.
* `Setting.Benign`: What has to hold for a step not to part them.

## Theorems

* `level_step`: An op of the same instruction in whole and window.
* `advance_starting`, `advance_attached`, `advance_entering`: How executions and windows begin.
* `step`: Both take a step, or the windows take one of their own.
* `begins_of_reaches?`: Control gets to slots of RAM alone.
* `exists_sim_of_whole`, `exists_sim_of_windows`: Each run keeps up with the other.
* `finished_iff`: Both come to the same end.
* `sim_of_execute`: Executions of one session begin at a matching point.
-/

namespace Transport

open Segment

namespace Machine

/-- The machine with windows in the place of one segment, other live code, and at
    something else. -/
def dress (m : Machine) (size : Word) (live : Option CodeMap) (thread : Thread) : Machine :=
  { m with config := { m.config with segmentSize := some size }, liveCode := live, thread }

end Machine

namespace Session

/-- The session with execution in windows of a size, or in one segment. -/
def split {ω : Type} (s : Session ω) (size : Option Word) : Session ω :=
  s.modify fun m => { m with config := { m.config with segmentSize := size } }

theorem eq_split {ω : Type} {s : Session ω} {size : Option Word}
    (h : s.machine.config.segmentSize = size) : s = s.split size := by
  cases h
  rfl

end Session

/-- What is known at some point of two runs that are compared. -/
structure Known where
  /-- Of RAM, and of the images that windows are compiled from. -/
  ram : Ram → Prop
  /-- As long as no window was entered. -/
  outset : Prop
  /-- Of the window that was entered last: its image, its first slot, and the slot
      behind its last one. -/
  window : Ram → Nat → Nat → Prop

/-- What two runs that are compared have in common. -/
structure Setting where
  registry : Registry
  options : Options
  /-- Instructions that do not compile are no errors. -/
  lenient : options.strict = false
  /-- RAM at the beginning of the execution. -/
  image : Ram
  /-- The number of slots, all of which words reach. -/
  count : Nat
  reach : 8 * count < 0x100000000
  /-- The size of windows. -/
  size : Word

namespace Setting

/-- The segment that is all of RAM. -/
def whole (g : Setting) : Segment := part g.registry g.options g.image 0 g.count

/-- A segment of some slots, compiled from another image. -/
def window (g : Setting) (image : Ram) (first last : Nat) : Segment :=
  part g.registry g.options image first last

/-- What is left of an op in whole and window: the same requests, and the same
    context beside each other in the end. -/
def Level (g : Setting) (image : Ram) (first last : Nat) : Remainder → Remainder → Prop :=
  Dialogue.Agree fun p q =>
    Outcomes (Beside g.registry g.image image g.options.stride g.count first last) p.1 q.1 ∧
      p.2 = q.2

/-- A machine that executes in one segment, runs, and is not stopped by breakpoints. -/
structure Fits (g : Setting) (m : Machine) : Prop where
  registry : m.registry = g.registry
  options : m.config.options = g.options
  size : m.ram.size = g.image.size
  count : m.slotCount = g.count
  whole : m.config.segmentSize = none
  running : m.control.running = true
  unbroken : m.breakpoints = []

/-- Whole and window are live. The window was compiled from an image of which
    something is known. -/
structure Live (g : Setting) (P : Known) (live live' : Option CodeMap) (image : Ram)
    (first last : Nat) : Prop where
  ordered : first ≤ last
  within : last ≤ g.count
  known : P.ram image
  placed : P.window image first last
  whole : live = some g.whole.codeMap
  window : live' = some (g.window image first last).codeMap

/-- The threads of two machines, one that executes in one segment and one in
    windows, at matching points. The second may have more to do in between. -/
inductive Threads (g : Setting) (P : Known) (m : Machine) (live' : Option CodeMap) :
    Thread → Thread → Prop
  /-- Both are idle, and no code is live. -/
  | idle (live : m.liveCode = none) (none : live' = none) : Threads g P m live' .idle .idle
  /-- Both are about to begin. -/
  | starting (image : m.ram = g.image) (outset : P.outset) (same : live' = m.liveCode)
      (inside : m.config.entry < g.count) : Threads g P m live' .starting .starting
  /-- Both attach the same instances. -/
  | attaching (outset : P.outset) (same : live' = m.liveCode) (inside : m.config.entry < g.count)
      (rest : Dialogue Context) :
      Threads g P m live' (.attaching (.whole g.whole) rest)
        (.attaching (.windowed g.size (offsetOf 0 m.config.entry)) rest)
  /-- Both wait at a suspension point of an attachment. -/
  | detained (outset : P.outset) (same : live' = m.liveCode) (inside : m.config.entry < g.count)
      (resume : Except Trap Unit → Dialogue Context) :
      Threads g P m live' (.detained (.whole g.whole) resume)
        (.detained (.windowed g.size (offsetOf 0 m.config.entry)) resume)
  /-- The instances are attached, and the second is about to enter its first window. -/
  | attached (outset : P.outset) (inside : m.config.entry < g.count) (context : Context) :
      Threads g P m live' (.attaching (.whole g.whole) (.done context))
        (.entering g.size (offsetOf 0 m.config.entry) context)
  /-- Both are at work on what is left of an op. -/
  | working {image : Ram} {first last : Nat} {rest rest' : Remainder}
      (live : Live g P m.liveCode live' image first last)
      (level : g.Level image first last rest rest') :
      Threads g P m live' (.working g.whole rest) (.working (g.window image first last) rest')
  /-- Both wait at a suspension point. -/
  | waiting {image : Ram} {first last : Nat} {resume resume' : Except Trap Unit → Remainder}
      (live : Live g P m.liveCode live' image first last)
      (level : ∀ answer, g.Level image first last (resume answer) (resume' answer)) :
      Threads g P m live' (.waiting g.whole resume) (.waiting (g.window image first last) resume')
  /-- The first is in front of an instruction, and the second enters its window from
      another one. -/
  | entering {index first last : Nat} {image : Ram} {context : Context} (inside : index < g.count)
      (live : m.liveCode = some g.whole.codeMap) (placed : P.window image first last)
      (beyond : ¬ (first ≤ index ∧ index < last)) :
      Threads g P m live'
        (.working g.whole (.done (.ok (.standing (index * g.options.stride)), context)))
        (.entering g.size (offsetOf 0 index) context)

/-- Two sessions that show the same, at matching points of their runs, the first in
    one segment and the second in windows. -/
structure Sim {ω : Type} (g : Setting) (P : Known) (s w : Session ω) : Prop where
  fits : g.Fits s.machine
  known : P.ram s.machine.ram
  twin : ∃ live thread, w = ⟨s.machine.dress g.size live thread, s.audience⟩ ∧
    Threads g P s.machine live s.machine.thread thread

/-- How much the second thread has to do before the first can go on. -/
def rank : Thread → Nat
  | .attaching _ (.done _) => 1
  | .working _ (.done (.ok (.standing _), _)) => 2
  | .working _ (.done (.ok (.ended _), _)) => 1
  | _ => 0

/-- Both sessions take a step. -/
structure Matched {ω : Type} (g : Setting) (P : Known) (a : Audience ω) (s w : Session ω) :
    Prop where
  amount : (w.advance a).1 = (s.advance a).1
  sim : Sim g P (s.advance a).2 (w.advance a).2
  /-- Both begin an instruction, or neither does. -/
  begins : w.reaches?.isSome = s.reaches?.isSome

/-- The second session takes a step of its own. -/
structure Stutters {ω : Type} (g : Setting) (P : Known) (a : Audience ω) (s w : Session ω) :
    Prop where
  amount : (w.advance a).1 = .moved
  sim : Sim g P s (w.advance a).2
  /-- There is less to do before both can take a step. -/
  rank : rank (w.advance a).2.machine.thread < rank w.machine.thread
  begins : w.reaches? = none

/-- What has to hold for whole and windows to stay together over a step. -/
structure Benign {ω : Type} (g : Setting) (P P' : Known) (a : Audience ω)
    (s w : Session ω) : Prop where
  /-- An instruction that is reached is the one that was there at first. -/
  reached : ∀ index, s.reaches? = some index → ∀ ram, P.ram ram →
    slotAt g.registry g.registry.slotIds g.image (offsetOf 0 index) =
      slotAt g.registry g.registry.slotIds ram (offsetOf 0 index)
  /-- A store that is attempted passes both checks, or fails both alike. -/
  checked : ∀ offset value, s.storing? = some (offset, value) →
    w.machine.checkStore offset 4 = s.machine.checkStore offset 4
  /-- Of RAM behind a store something is known. -/
  stored : ∀ offset value, s.storing? = some (offset, value) ∨ s.stamping? = some (offset, value) →
    (s.store a offset value).1 = .ok () → P'.ram (s.machine.ram.put offset (Word.bytes value))
  /-- Nothing else changes what is known of RAM. -/
  weaker : ∀ ram, P.ram ram → P'.ram ram
  /-- As long as nothing is reached, no window was entered. -/
  waits : s.reaches? = none → P.outset → P'.outset
  /-- As long as control stays in the window, the same is known of it. -/
  stays : ∀ image first last, P.window image first last →
    (∀ index, s.reaches? = some index → first ≤ index ∧ index < last) →
    P'.window image first last
  /-- When control comes into a window, RAM is its image. -/
  enters : ∀ index first last, s.reaches? = some index →
    (∀ i, i < g.count → (first ≤ i ∧ i < last ↔
      Machine.windowIndex g.size i = Machine.windowIndex g.size index)) →
    (P.outset ∨ ∃ image first' last', P.window image first' last' ∧
      ¬ (first' ≤ index ∧ index < last')) →
    P'.window s.machine.ram first last

section Steps

variable {ω : Type} {g : Setting} {P P' : Known} {m m' : Machine} {notes : ω}
  {live' : Option CodeMap} {image : Ram} {first last index : Nat}

theorem fits_of_eq (fits : g.Fits m) (registry : m'.registry = m.registry)
    (config : m'.config = m.config) (size : m'.ram.size = m.ram.size)
    (running : m'.control.running = m.control.running)
    (unbroken : m'.breakpoints = m.breakpoints) : g.Fits m' where
  registry := registry.trans fits.registry
  options := by
    rw [config]
    exact fits.options
  size := size.trans fits.size
  count := (Machine.slotCount_of_size size).trans fits.count
  whole := by
    rw [config]
    exact fits.whole
  running := running.trans fits.running
  unbroken := unbroken.trans fits.unbroken

/-- While control stays in the window, the window stays live. -/
theorem live_stays {a : Audience ω} {s w : Session ω} (benign : g.Benign P P' a s w)
    {live : Option CodeMap} (h : g.Live P live live' image first last)
    (stays : ∀ index, s.reaches? = some index → first ≤ index ∧ index < last) :
    g.Live P' live live' image first last :=
  ⟨h.ordered, h.within, benign.weaker _ h.known, benign.stays _ _ _ h.placed stays, h.whole,
    h.window⟩

theorem slotAt_of_same_slot {ram ram' : Ram} {index : Nat} (inside : index < g.count)
    (same : Ram.Same ram ram' (8 * index) 8) :
    slotAt g.registry g.registry.slotIds ram (offsetOf 0 index) =
      slotAt g.registry g.registry.slotIds ram' (offsetOf 0 index) := by
  have hreach := g.reach
  have hoffset : (offsetOf 0 index).toNat = 8 * index := toNat_offsetOf_zero (by omega)
  rw [← hoffset] at same
  exact slotAt_of_same (by omega) same

/-! ### Ops of whole and window -/

/-- An op of the same instruction in whole and window. -/
theorem level_step (image : Ram) (within : last ≤ g.count) {j : Nat}
    (inside : j < (last - first) * g.options.stride)
    (same : slotAt g.registry g.registry.slotIds g.image
        (offsetOf 0 (first + j / g.options.stride)) =
      slotAt g.registry g.registry.slotIds image (offsetOf 0 (first + j / g.options.stride)))
    (context : Context) :
    g.Level image first last (g.whole.step (first * g.options.stride + j) context)
      ((g.window image first last).step j context) :=
  mirrors_step_part g.reach within inside same context context rfl

/-- The first op of an instruction in whole and window. -/
theorem level_enter (within : last ≤ g.count) (low : first ≤ index) (high : index < last)
    (same : slotAt g.registry g.registry.slotIds g.image (offsetOf 0 index) =
      slotAt g.registry g.registry.slotIds image (offsetOf 0 index)) (context : Context) :
    g.Level image first last (g.whole.step (index * g.options.stride) context)
      ((g.window image first last).step ((index - first) * g.options.stride) context) := by
  -- The op of the whole program is the window's first op and what the window is ahead of it.
  have hsplit : first * g.options.stride + (index - first) * g.options.stride =
      index * g.options.stride := by
    rw [← Nat.add_mul, Nat.add_sub_cancel' low]
  have hinside : (index - first) * g.options.stride < (last - first) * g.options.stride :=
    Nat.mul_lt_mul_of_pos_right (by omega) g.options.stride_pos
  have hindex : first + (index - first) * g.options.stride / g.options.stride = index := by
    rw [Nat.mul_div_cancel _ g.options.stride_pos]
    omega
  have hlevel := level_step image within hinside (by rw [hindex]; exact same) context
  rw [hsplit] at hlevel
  exact hlevel

/-! ### Pairs of sessions -/

/-- Both go on with what is left of an op. -/
theorem sim_work (fits : g.Fits m) (known : P.ram m.ram)
    (live : g.Live P m.liveCode live' image first last) {rest rest' : Remainder}
    (level : g.Level image first last rest rest') (thread' : Thread) :
    g.Sim P ⟨m.setThread (.working g.whole rest), notes⟩
      ⟨(m.dress g.size live' thread').setThread (.working (g.window image first last) rest'),
        notes⟩ :=
  ⟨fits_of_eq fits rfl rfl rfl rfl rfl, known, live', _, rfl, Threads.working live level⟩

/-- Both come to their end. -/
theorem sim_clear (fits : g.Fits m) (known : P.ram m.ram) (thread' : Thread) :
    g.Sim P ⟨m.clear, notes⟩ ⟨(m.dress g.size live' thread').clear, notes⟩ :=
  ⟨fits_of_eq fits rfl rfl rfl rfl rfl, known, none, _, rfl, Threads.idle rfl rfl⟩

/-- Both enter an instruction of which the window has what was there at first. -/
theorem sim_enter (fits : g.Fits m) (known : P.ram m.ram) (low : first ≤ index)
    (high : index < last) (within : last ≤ g.count) (placed : P.window m.ram first last)
    (live : m.liveCode = some g.whole.codeMap)
    (same : slotAt g.registry g.registry.slotIds g.image (offsetOf 0 index) =
      slotAt g.registry g.registry.slotIds m.ram (offsetOf 0 index)) (context : Context) :
    g.Sim P
      ⟨m.setThread (.working g.whole (g.whole.step (index * g.options.stride) context)), notes⟩
      ⟨m.dress g.size (some (g.window m.ram first last).codeMap)
        (.working (g.window m.ram first last)
          ((g.window m.ram first last).step ((index - first) * g.options.stride) context)),
        notes⟩ := by
  -- The whole program is live in the one run, and the window in the other.
  have hlive : g.Live P m.liveCode (some (g.window m.ram first last).codeMap) m.ram first last :=
    ⟨Nat.le_of_lt (Nat.lt_of_le_of_lt low high), within, known, placed, live, rfl⟩
  exact sim_work fits known hlive (level_enter within low high same context) .idle

/-! ### Beginning and entering -/

theorem enter_eq_ok {s : Session ω} {segment : Segment} {entry op : Nat} {context : Context}
    (h : segment.enter entry = .ok op) :
    s.enter segment entry context =
      (.moved, s.modify (·.setThread (.working segment (segment.step op context)))) := by
  simp only [Session.enter, h, Session.work]

/-- A window that compiles is entered at its op. -/
theorem enterWindow_eq {s : Session ω} {size offset start stop : Word} {segment : Segment}
    {op : Nat} {context : Context} (hwindow : s.machine.windowOf size offset = (start, stop))
    (hcompile : s.machine.compile start stop = .ok segment)
    (henter : segment.enter ((offset - start) / 8).toNat = .ok op) :
    s.enterWindow size offset context =
      (.moved, (s.modify (·.setLive segment)).modify
        (·.setThread (.working segment (segment.step op context)))) := by
  simp only [Session.enterWindow, hwindow, hcompile]
  exact enter_eq_ok henter

/-- Entering the window of a slot. -/
theorem advance_entering (a : Audience ω) (notes : ω) (live' : Option CodeMap) (fits : g.Fits m)
    (inside : index < g.count) (context : Context) :
    ∃ first last, first ≤ index ∧ index < last ∧ last ≤ g.count ∧
      (∀ i, i < g.count → (first ≤ i ∧ i < last ↔
        Machine.windowIndex g.size i = Machine.windowIndex g.size index)) ∧
      Session.advance a
          ⟨m.dress g.size live' (.entering g.size (offsetOf 0 index) context), notes⟩ =
        (.moved, ⟨m.dress g.size (some (g.window m.ram first last).codeMap)
          (.working (g.window m.ram first last) ((g.window m.ram first last).step
            ((index - first) * g.options.stride) context)), notes⟩) := by
  rw [← fits.count] at inside
  -- The window is compiled from RAM as it is, and entered at the slot's first op.
  rcases m.exists_windowOf g.size inside with ⟨first, last, hwindow, low, high, within, same⟩
  have hcompile := Machine.compile_part (m := m) (by rw [fits.options]; exact g.lenient)
    (Nat.le_of_lt (Nat.lt_of_le_of_lt low high)) within
  rw [fits.registry, fits.options] at hcompile
  rw [fits.count] at within same
  refine ⟨first, last, low, high, within, same, ?_⟩
  have hreach := g.reach
  have henter : (g.window m.ram first last).enter
      ((offsetOf 0 index - offsetOf 0 first) / 8).toNat =
        .ok ((index - first) * g.options.stride) := by
    rw [Machine.toNat_slotIndex low (by omega)]
    refine enter_layout ?_
    rw [countOf_offsetOf (by omega) (by omega)]
    omega
  exact enterWindow_eq hwindow hcompile henter

/-- An execution in one segment compiles all of RAM, and attaches the instances. -/
theorem advance_starting (a : Audience ω) (notes : ω) (fits : g.Fits m) (image : m.ram = g.image)
    (starting : m.thread = .starting) :
    Session.advance a ⟨m, notes⟩ = Session.board ⟨m, notes⟩ (.whole g.whole) := by
  -- All of RAM is the part with every slot, and lenient compilation does not fail.
  have hcompile := Machine.compile_part (m := m) (by rw [fits.options]; exact g.lenient)
    (Nat.zero_le m.slotCount) (Nat.le_refl _)
  rw [← Machine.codeEnd_eq, fits.registry, fits.options, fits.count, image] at hcompile
  have hzero : offsetOf 0 0 = 0 := rfl
  rw [hzero] at hcompile
  rw [Session.eq_of_smallStep (s := ⟨m, notes⟩) (.whole starting fits.whole)]
  simp only [Session.startWhole, hcompile]
  rfl

/-- Then it enters the segment at the entry. -/
theorem advance_attached (a : Audience ω) (notes : ω) (inside : m.config.entry < g.count)
    {context : Context}
    (attached : m.thread = .attaching (.whole g.whole) (.done context)) :
    Session.advance a ⟨m, notes⟩ =
      (.moved, ⟨(m.setLive g.whole).setThread (.working g.whole
        (g.whole.step (m.config.entry * g.options.stride) context)), notes⟩) := by
  -- The entry is inside, so the whole program is entered there.
  have henter : g.whole.enter m.config.entry = .ok (m.config.entry * g.options.stride) := by
    refine enter_layout ?_
    rw [countOf_offsetOf g.reach (Nat.zero_le _)]
    exact inside
  rw [Session.eq_of_smallStep (s := ⟨m, notes⟩) (.embarks attached)]
  exact enter_eq_ok henter

/-- Both begin to attach their instances. -/
theorem step_starting (a : Audience ω) (notes : ω) (fits : g.Fits m) (known : P'.ram m.ram)
    (image : m.ram = g.image) (outset : P'.outset) (same : live' = m.liveCode)
    (inside : m.config.entry < g.count) (starting : m.thread = .starting) :
    g.Matched P' a ⟨m, notes⟩ ⟨m.dress g.size live' .starting, notes⟩ := by
  have hwhole := advance_starting a notes fits image starting
  have hcount : (m.dress g.size live' .starting).slotCount = m.slotCount := rfl
  have hwindow : Session.advance a ⟨m.dress g.size live' .starting, notes⟩ =
      Session.board ⟨m.dress g.size live' .starting, notes⟩
        (.windowed g.size (offsetOf 0 m.config.entry)) := by
    rw [Session.eq_of_smallStep (s := ⟨m.dress g.size live' .starting, notes⟩)
      (.windowed rfl rfl), Session.startWindowed_eq]
    refine if_pos ?_
    rw [hcount, fits.count]
    exact inside
  -- Both are started, and bind their contexts in the same way from here.
  refine ⟨?_, ?_, ?_⟩
  · rw [hwindow, hwhole]
    rfl
  · rw [hwindow, hwhole]
    let board := (Context.fresh m.registry).bind
    exact ⟨fits_of_eq fits rfl rfl rfl rfl rfl, known, live', _, rfl,
      Threads.attaching (m := m.setThread (.attaching (.whole g.whole) board)) outset same inside
        board⟩
  · simp only [Session.reaches?, starting]
    rfl

/-- The second goes to its first window. -/
theorem step_attached (a : Audience ω) (notes : ω) (fits : g.Fits m) (known : P.ram m.ram)
    (outset : P.outset) (inside : m.config.entry < g.count) {context : Context}
    (attached : m.thread = .attaching (.whole g.whole) (.done context)) :
    g.Stutters P a ⟨m, notes⟩ ⟨m.dress g.size live'
      (.attaching (.windowed g.size (offsetOf 0 m.config.entry)) (.done context)), notes⟩ := by
  have hwindow := Session.eq_of_smallStep (a := a) (s := ⟨m.dress g.size live'
    (.attaching (.windowed g.size (offsetOf 0 m.config.entry)) (.done context)), notes⟩)
    (.embarks rfl)
  -- Binding is done, and the windowed run still has its first window to compile.
  refine ⟨?_, ?_, ?_, rfl⟩
  · rw [hwindow]
    rfl
  · rw [hwindow]
    refine ⟨fits, known, live', _, rfl, ?_⟩
    rw [attached]
    exact Threads.attached outset inside context
  · rw [hwindow]
    exact Nat.zero_lt_one

/-- Both enter the first instruction, which is the one that was there at first. -/
theorem step_entered (a : Audience ω) (notes : ω) (fits : g.Fits m) (known : P.ram m.ram)
    (outset : P.outset) (inside : m.config.entry < g.count) {context : Context}
    (attached : m.thread = .attaching (.whole g.whole) (.done context))
    (benign : g.Benign P P' a ⟨m, notes⟩ ⟨m.dress g.size live'
      (.entering g.size (offsetOf 0 m.config.entry) context), notes⟩) :
    g.Matched P' a ⟨m, notes⟩ ⟨m.dress g.size live'
      (.entering g.size (offsetOf 0 m.config.entry) context), notes⟩ := by
  rcases advance_entering a notes live' fits inside context with
    ⟨first, last, low, high, within, hnumber, hwindow⟩
  have hwhole := advance_attached a notes inside attached
  have hsize : g.whole.size = g.count := size_part _ _ _ g.reach (Nat.zero_le _)
  have hreaches : Session.reaches? ⟨m, notes⟩ = some m.config.entry := by
    simp only [Session.reaches?, attached, hsize]
    exact if_pos inside
  -- The slot the entry is in is one of the window, compiled as it was for the whole program.
  have hplaced := benign.enters _ first last hreaches hnumber (Or.inl outset)
  have hsame := benign.reached _ hreaches m.ram known
  refine ⟨?_, ?_, ?_⟩
  · rw [hwindow, hwhole]
  · rw [hwindow, hwhole]
    exact sim_enter (m := m.setLive g.whole) (fits_of_eq fits rfl rfl rfl rfl rfl)
      (benign.weaker _ known) low high within hplaced rfl hsame context
  · rw [hreaches]
    rfl

/-! ### In front of an op -/

/-- What is reached in front of an op of all of RAM. -/
theorem reaches?_whole {s : Session ω} {op : Nat} {context : Context}
    (h : s.machine.thread = .working g.whole (.done (.ok (.standing op), context))) :
    s.reaches? = if op % g.options.stride = 0 ∧ op / g.options.stride < g.count then
      some (op / g.options.stride) else none := by
  have hsize : g.whole.size = g.count := size_part _ _ _ g.reach (Nat.zero_le _)
  -- The whole program begins at the beginning of RAM, where indices count from.
  have hstart : g.whole.start.toNat / instructionSize = 0 := by
    change (offsetOf 0 0).toNat / 8 = 0
    rw [toNat_offsetOf_zero (by omega)]
  simp only [Session.reaches?, h, hsize, hstart, Nat.zero_add]
  rfl

/-- Whether anything is reached in front of an op of a window. -/
theorem reaches?_window {s : Session ω} {op : Nat} {context : Context} (ordered : first ≤ last)
    (within : last ≤ g.count)
    (h : s.machine.thread = .working (g.window image first last)
      (.done (.ok (.standing op), context))) :
    s.reaches?.isSome =
      decide (op % g.options.stride = 0 ∧ op / g.options.stride < last - first) := by
  -- Neither run begins an instruction but where a slot's ops begin.
  have hreach := g.reach
  have hsize : (g.window image first last).size = last - first :=
    size_part _ _ _ (by omega) ordered
  simp only [Session.reaches?, h, hsize]
  change (if op % g.options.stride = 0 ∧ op / g.options.stride < last - first then
    some _ else none).isSome = _
  by_cases begins : op % g.options.stride = 0 ∧ op / g.options.stride < last - first
  · rw [if_pos begins, decide_eq_true begins]
    rfl
  · rw [if_neg begins, decide_eq_false begins]
    rfl

/-- The second enters the window of the instruction that both carry out. -/
theorem step_entering (a : Audience ω) (notes : ω) {context : Context} (fits : g.Fits m)
    (known : P.ram m.ram) (inside : index < g.count) (live : m.liveCode = some g.whole.codeMap)
    (placed : P.window image first last) (beyond : ¬ (first ≤ index ∧ index < last))
    (standing : m.thread =
      .working g.whole (.done (.ok (.standing (index * g.options.stride)), context)))
    (benign : g.Benign P P' a ⟨m, notes⟩
      ⟨m.dress g.size live' (.entering g.size (offsetOf 0 index) context), notes⟩) :
    g.Matched P' a ⟨m, notes⟩
      ⟨m.dress g.size live' (.entering g.size (offsetOf 0 index) context), notes⟩ := by
  have hreaches : Session.reaches? ⟨m, notes⟩ = some index := by
    rw [reaches?_whole standing, Nat.mul_mod_left, Nat.mul_div_cancel _ g.options.stride_pos,
      if_pos ⟨rfl, inside⟩]
  -- It is compiled anew from RAM, and is still what it was at first.
  have hsame := benign.reached index hreaches m.ram known
  rcases advance_entering a notes live' fits inside context with
    ⟨first', last', low, high, within, hnumber, hwindow⟩
  have hplaced := benign.enters index first' last' hreaches hnumber
    (Or.inr ⟨image, first, last, placed, beyond⟩)
  refine ⟨?_, ?_, ?_⟩
  · rw [hwindow, Session.advance_standing a standing]
  · rw [hwindow, Session.advance_standing a standing]
    exact sim_enter fits (benign.weaker _ known) low high within hplaced live hsame context
  · rw [hreaches]
    rfl

/-- What is reached in front of an op of all of RAM, counted from a slot. -/
theorem reaches?_whole_add {s : Session ω} {j : Nat} {context : Context}
    (h : s.machine.thread =
      .working g.whole (.done (.ok (.standing (first * g.options.stride + j)), context))) :
    s.reaches? =
      if j % g.options.stride = 0 ∧ first + j / g.options.stride < g.count then
        some (first + j / g.options.stride)
      else none := by
  rw [reaches?_whole h, Nat.mul_comm first, Nat.mul_add_div g.options.stride_pos, Nat.mul_add_mod]

section Standing

variable {j : Nat} {context : Context}

/-- Both carry out an op of the window. The instruction is the one that was there at
    first: it is reached now, or it was when its suspension point was. -/
theorem step_inside (a : Audience ω) (notes : ω) (fits : g.Fits m) (known : P.ram m.ram)
    (live : g.Live P m.liveCode live' image first last)
    (inside : j < (last - first) * g.options.stride)
    (middle : j % g.options.stride ≠ 0 →
      slotAt g.registry g.registry.slotIds g.image (offsetOf 0 (first + j / g.options.stride)) =
        slotAt g.registry g.registry.slotIds image (offsetOf 0 (first + j / g.options.stride)))
    (standing : m.thread =
      .working g.whole (.done (.ok (.standing (first * g.options.stride + j)), context)))
    (benign : g.Benign P P' a ⟨m, notes⟩ ⟨m.dress g.size live'
      (.working (g.window image first last) (.done (.ok (.standing j), context))), notes⟩) :
    g.Matched P' a ⟨m, notes⟩ ⟨m.dress g.size live'
      (.working (g.window image first last) (.done (.ok (.standing j), context))), notes⟩ := by
  have hwindow := Session.advance_standing a (s := ⟨m.dress g.size live'
    (.working (g.window image first last) (.done (.ok (.standing j), context))), notes⟩) rfl
  have hbegins := reaches?_window (s := ⟨m.dress g.size live'
    (.working (g.window image first last) (.done (.ok (.standing j), context))), notes⟩)
    live.ordered live.within rfl
  have hreaches := reaches?_whole_add (s := ⟨m, notes⟩) standing
  have hindex : j / g.options.stride < last - first := Nat.div_lt_of_lt_mul
    (by rw [Nat.mul_comm]; exact inside)
  have hlast : first + j / g.options.stride < last := Nat.add_lt_of_lt_sub' hindex
  have hinside : first + j / g.options.stride < g.count := Nat.lt_of_lt_of_le hlast live.within
  have hsame : slotAt g.registry g.registry.slotIds g.image
        (offsetOf 0 (first + j / g.options.stride)) =
      slotAt g.registry g.registry.slotIds image (offsetOf 0 (first + j / g.options.stride)) := by
    by_cases begins : j % g.options.stride = 0
    · rw [if_pos ⟨begins, hinside⟩] at hreaches
      exact benign.reached _ hreaches image live.known
    · exact middle begins
  -- If an instruction is reached at all, it is this one.
  have hstays : ∀ index, Session.reaches? ⟨m, notes⟩ = some index →
      first ≤ index ∧ index < last := by
    intro index reached
    rw [hreaches] at reached
    split at reached
    · cases reached
      exact ⟨Nat.le_add_right _ _, hlast⟩
    · cases reached
  refine ⟨?_, ?_, ?_⟩
  · rw [hwindow, Session.advance_standing a standing]
  · rw [hwindow, Session.advance_standing a standing]
    exact sim_work fits (benign.weaker _ known) (live_stays benign live hstays)
      (level_step image live.within inside hsame context) _
  · rw [hbegins, hreaches]
    by_cases begins : j % g.options.stride = 0
    · rw [if_pos ⟨begins, hinside⟩, decide_eq_true ⟨begins, hindex⟩]
      rfl
    · rw [if_neg (fun h => begins h.1), decide_eq_false (fun h => begins h.1)]
      rfl

/-- In front of no op, a window leaves for the slot behind it. -/
theorem advance_behind (a : Audience ω) (notes : ω)
    (live : g.Live P m.liveCode live' image first last) :
    Session.advance a ⟨m.dress g.size live' (.working (g.window image first last)
        (.done (.ok (.standing ((last - first) * g.options.stride)), context))), notes⟩ =
      (.moved, ⟨m.dress g.size live' (.working (g.window image first last)
        (.done (.ok (.ended (.left (offsetOf 0 last))), context))), notes⟩) := by
  have hreach := g.reach
  have hwithin := live.within
  have hstep := step_behind_part g.registry g.options image (show 8 * last < 0x100000000 by omega)
    live.ordered context
  rw [Session.advance_standing a (s := ⟨_, notes⟩) rfl]
  exact congrArg (fun rest => (Advance.moved, (⟨m.dress g.size live'
    (.working (g.window image first last) rest), notes⟩ : Session ω))) hstep

/-- Both are in front of the slot behind the window, which the second leaves. -/
theorem step_leaving (a : Audience ω) (notes : ω) (fits : g.Fits m) (known : P.ram m.ram)
    (live : g.Live P m.liveCode live' image first last) (inner : last < g.count)
    (standing : m.thread =
      .working g.whole (.done (.ok (.standing (last * g.options.stride)), context))) :
    g.Stutters P a ⟨m, notes⟩ ⟨m.dress g.size live' (.working (g.window image first last)
      (.done (.ok (.standing ((last - first) * g.options.stride)), context))), notes⟩ := by
  have hwindow := @advance_behind _ _ _ _ _ _ _ _ context a notes live
  have hbegins := reaches?_window (s := ⟨m.dress g.size live' (.working (g.window image first last)
    (.done (.ok (.standing ((last - first) * g.options.stride)), context))), notes⟩)
    live.ordered live.within rfl
  rw [Nat.mul_div_cancel _ g.options.stride_pos,
    decide_eq_false (fun h => Nat.lt_irrefl _ h.2)] at hbegins
  refine ⟨?_, ?_, ?_, Option.isNone_iff_eq_none.mp (Option.isSome_eq_false_iff.mp hbegins)⟩
  · rw [hwindow]
  · rw [hwindow]
    refine ⟨fits, known, live', _, rfl, ?_⟩
    rw [standing]
    -- The slot behind the window is not one of the window.
    have hbeyond : ¬ (first ≤ last ∧ last < last) := fun h => Nat.lt_irrefl _ h.2
    exact Threads.working live
      (Dialogue.Agree.done ⟨Outcomes.ok (Beside.outside inner hbeyond), rfl⟩)
  · rw [hwindow]
    exact Nat.one_lt_two

/-- Both are behind the last slot of RAM, and leave. -/
theorem step_final (a : Audience ω) (notes : ω) (fits : g.Fits m) (known : P.ram m.ram)
    (live : g.Live P m.liveCode live' image first g.count)
    (standing : m.thread =
      .working g.whole (.done (.ok (.standing (g.count * g.options.stride)), context)))
    (benign : g.Benign P P' a ⟨m, notes⟩ ⟨m.dress g.size live'
      (.working (g.window image first g.count)
        (.done (.ok (.standing ((g.count - first) * g.options.stride)), context))), notes⟩) :
    g.Matched P' a ⟨m, notes⟩ ⟨m.dress g.size live' (.working (g.window image first g.count)
      (.done (.ok (.standing ((g.count - first) * g.options.stride)), context))), notes⟩ := by
  have hwindow := @advance_behind _ _ _ _ _ _ _ _ context a notes live
  have hbegins := reaches?_window (s := ⟨m.dress g.size live'
    (.working (g.window image first g.count)
      (.done (.ok (.standing ((g.count - first) * g.options.stride)), context))), notes⟩)
    live.ordered live.within rfl
  rw [Nat.mul_div_cancel _ g.options.stride_pos,
    decide_eq_false (fun h => Nat.lt_irrefl _ h.2)] at hbegins
  -- Behind the last slot the whole program has no instruction either.
  have hreaches : Session.reaches? ⟨m, notes⟩ = none := by
    rw [reaches?_whole standing, Nat.mul_div_cancel _ g.options.stride_pos,
      if_neg (fun h => Nat.lt_irrefl _ h.2)]
  have hwhole : g.whole.step (g.count * g.options.stride) context =
      .done (.ok (.ended (.left (offsetOf 0 g.count))), context) :=
    step_behind_part g.registry g.options g.image g.reach (Nat.zero_le _) context
  refine ⟨?_, ?_, ?_⟩
  · rw [hwindow, Session.advance_standing a standing]
  · rw [hwindow, Session.advance_standing a standing, hwhole]
    -- Both leave to the end of RAM, which ends the windowed run as well.
    refine sim_work fits (benign.weaker _ known) (live_stays benign live ?_) ?_ .idle
    · intro index reached
      rw [hreaches] at reached
      cases reached
    refine Dialogue.Agree.done ⟨Outcomes.ok (Beside.ended fun target left => ?_), rfl⟩
    cases left
    exact Nat.le_of_eq (toNat_offsetOf_zero g.reach).symm
  · rw [hbegins, hreaches]
    rfl

/-- Both are in front of an op; behind the last one of its window, the second has
    to leave the window first. -/
theorem step_standing (a : Audience ω) (notes : ω) (fits : g.Fits m)
    (known : P.ram m.ram) (live : g.Live P m.liveCode live' image first last)
    (inside : j ≤ (last - first) * g.options.stride)
    (middle : j % g.options.stride ≠ 0 →
      slotAt g.registry g.registry.slotIds g.image (offsetOf 0 (first + j / g.options.stride)) =
        slotAt g.registry g.registry.slotIds image (offsetOf 0 (first + j / g.options.stride)))
    (standing : m.thread =
      .working g.whole (.done (.ok (.standing (first * g.options.stride + j)), context)))
    (benign : g.Benign P P' a ⟨m, notes⟩ ⟨m.dress g.size live'
      (.working (g.window image first last) (.done (.ok (.standing j), context))), notes⟩) :
    g.Matched P' a ⟨m, notes⟩ ⟨m.dress g.size live'
      (.working (g.window image first last) (.done (.ok (.standing j), context))), notes⟩ ∨
    g.Stutters P a ⟨m, notes⟩ ⟨m.dress g.size live'
      (.working (g.window image first last) (.done (.ok (.standing j), context))), notes⟩ := by
  -- Within the window both take a step. At its end the windowed run leaves for the next, if any.
  rcases Nat.lt_or_eq_of_le inside with before | rfl
  · exact Or.inl (step_inside a notes fits known live before middle standing benign)
  · rw [← Nat.add_mul, Nat.add_sub_cancel' live.ordered] at standing
    rcases Nat.lt_or_eq_of_le live.within with inner | rfl
    · -- There is a slot behind the window, for which it is left.
      exact Or.inr (step_leaving a notes fits known live inner standing)
    · -- The window ends where RAM does.
      exact Or.inl (step_final a notes fits known live standing benign)

end Standing

/-! ### Behind a run of the window -/

/-- The second leaves its window for the instruction that the first is in front of. -/
theorem step_outside (a : Audience ω) (notes : ω) {context : Context} (fits : g.Fits m)
    (known : P.ram m.ram) (live : g.Live P m.liveCode live' image first last)
    (inside : index < g.count) (beyond : ¬ (first ≤ index ∧ index < last))
    (standing : m.thread =
      .working g.whole (.done (.ok (.standing (index * g.options.stride)), context))) :
    g.Stutters P a ⟨m, notes⟩ ⟨m.dress g.size live' (.working (g.window image first last)
      (.done (.ok (.ended (.left (offsetOf 0 index))), context))), notes⟩ := by
  have hreach := g.reach
  -- The slot exists, so its window is compiled next.
  have htarget : offsetOf 0 index < m.codeEnd := by
    rw [Machine.lt_codeEnd_iff, m.codeSize_eq, fits.count, toNat_offsetOf_zero (by omega)]
    omega
  have hwindow : Session.advance a ⟨m.dress g.size live' (.working (g.window image first last)
      (.done (.ok (.ended (.left (offsetOf 0 index))), context))), notes⟩ =
      (.moved, ⟨m.dress g.size live' (.entering g.size (offsetOf 0 index) context), notes⟩) :=
    if_pos htarget
  refine ⟨?_, ?_, ?_, rfl⟩
  · rw [hwindow]
  · rw [hwindow]
    refine ⟨fits, known, live', _, rfl, ?_⟩
    rw [standing]
    exact Threads.entering inside live.whole live.placed beyond
  · rw [hwindow]
    exact Nat.zero_lt_one

/-- Control that leaves for no slot ends the execution, with windows or without. -/
theorem advance_left (a : Audience ω) {s : Session ω} {segment : Segment} {target : Word}
    {context : Context} (far : s.machine.codeSize ≤ target.toNat)
    (h : s.machine.thread = .working segment (.done (.ok (.ended (.left target)), context))) :
    s.advance a = s.finish (.error (.trap (.jumpOutsideRam target))) := by
  have hfar : ¬ target < s.machine.codeEnd := fun before =>
    Nat.not_lt.mpr far (Machine.lt_codeEnd_iff.mp before)
  rw [Session.eq_of_smallStep (.leaves h)]
  simp only [Session.leave, if_neg hfar]
  split <;> rfl

/-- Both come to the same end. -/
theorem step_ended (a : Audience ω) (notes : ω) {context : Context} {p : Except Trap Progress}
    (fits : g.Fits m) (known : P.ram m.ram)
    (working : m.thread = .working g.whole (.done (p, context)))
    (ended : ∀ progress, p = .ok progress → ∃ exit, progress = .ended exit ∧
      ∀ target, exit = .left target → 8 * g.count ≤ target.toNat)
    (weaker : ∀ ram, P.ram ram → P'.ram ram) :
    g.Matched P' a ⟨m, notes⟩ ⟨m.dress g.size live'
      (.working (g.window image first last) (.done (p, context))), notes⟩ := by
  -- The result depends on what is left of the op alone, which is the same in both.
  have hfinish : ∃ result, Session.advance a ⟨m, notes⟩ = Session.finish ⟨m, notes⟩ result ∧
      Session.advance a ⟨m.dress g.size live'
        (.working (g.window image first last) (.done (p, context))), notes⟩ =
        Session.finish ⟨m.dress g.size live'
          (.working (g.window image first last) (.done (p, context))), notes⟩ result := by
    rcases p with trap | progress
    · exact ⟨_, Session.advance_error a working, Session.advance_error a rfl⟩
    · rcases ended progress rfl with ⟨_ | target, rfl, far⟩
      · exact ⟨_, Session.advance_completed a working, Session.advance_completed a rfl⟩
      · have hfar : m.codeSize ≤ target.toNat := by
          rw [m.codeSize_eq, fits.count]
          exact far target rfl
        exact ⟨_, advance_left a hfar working, advance_left a hfar rfl⟩
  rcases hfinish with ⟨result, hwhole, hwindow⟩
  refine ⟨?_, ?_, ?_⟩
  · rw [hwhole, hwindow]
    rfl
  · rw [hwhole, hwindow]
    exact sim_clear fits (weaker _ known) _
  · rcases p with trap | progress
    · simp only [Session.reaches?, working]
      rfl
    · rcases ended progress rfl with ⟨exit, rfl, _⟩
      simp only [Session.reaches?, working]
      rfl

/-! ### Requests -/

/-- A store that passes both checks, or fails both alike, is made in both or in
    neither. -/
theorem store_twin (o : Observer ω) (notes : ω) (thread' : Thread) (fits : g.Fits m)
    (known : P.ram m.ram) (offset value : Word)
    (checked : (m.dress g.size live' thread').checkStore offset 4 = m.checkStore offset 4)
    (stored : (Session.store o.audience ⟨m, notes⟩ offset value).1 = .ok () →
      P.ram (m.ram.put offset (Word.bytes value))) :
    ∃ result m₁ notes₁,
      Session.store o.audience ⟨m, notes⟩ offset value = (result, ⟨m₁, notes₁⟩) ∧
      Session.store o.audience ⟨m.dress g.size live' thread', notes⟩ offset value =
        (result, ⟨m₁.dress g.size live' thread', notes₁⟩) ∧
      g.Fits m₁ ∧ P.ram m₁.ram ∧ m₁.liveCode = m.liveCode ∧ m₁.config = m.config := by
  have hwhole := o.store_eq ⟨m, notes⟩ offset value
  have hwindow := o.store_eq ⟨m.dress g.size live' thread', notes⟩ offset value
  -- Observers see the same of both.
  have hbare : (m.dress g.size live' thread').bare = m.bare := rfl
  have hlisteners : (m.dress g.size live' thread').memoryListeners = m.memoryListeners := rfl
  rw [hbare, hlisteners] at hwindow
  cases hcheck : m.checkStore offset 4 with
  | error trap =>
      simp only [hcheck] at hwhole
      simp only [checked, hcheck] at hwindow
      exact ⟨_, _, _, hwhole, hwindow, fits, known, rfl, rfl⟩
  | ok _ =>
      simp only [hcheck] at hwhole
      simp only [checked, hcheck] at hwindow
      rcases htold : o.told (.store offset value) m.bare m.memoryListeners notes with
        ⟨reason | _, notes₁⟩
      · rw [htold] at hwhole hwindow
        exact ⟨_, _, _, hwhole, hwindow, fits, known, rfl, rfl⟩
      · rw [htold] at hwhole hwindow
        -- Another RAM changes nothing else, whatever it holds.
        have hdress : ∀ ram, ({ m.dress g.size live' thread' with ram } : Machine) =
            ({ m with ram } : Machine).dress g.size live' thread' := fun _ => rfl
        have hfits : ∀ ram, ram.size = m.ram.size → g.Fits { m with ram } := fun ram hsize =>
          fits_of_eq fits rfl rfl hsize rfl rfl
        have hsame : ∀ ram, ({ m with ram } : Machine).liveCode = m.liveCode ∧
            ({ m with ram } : Machine).config = m.config := fun _ => ⟨rfl, rfl⟩
        have hput : (m.dress g.size live' thread').putBytes offset (Word.bytes value) =
            (m.putBytes offset (Word.bytes value)).dress g.size live' thread' := hdress _
        dsimp only at hwhole hwindow
        rw [hput] at hwindow
        exact ⟨_, m.putBytes offset (Word.bytes value), _, hwhole, hwindow,
          hfits _ (Ram.size_put _ _ _), stored (by rw [hwhole]), hsame _⟩

/-- Both are answered the same. -/
theorem answer_twin (o : Observer ω) (notes : ω) (thread' : Thread) (fits : g.Fits m)
    (known : P.ram m.ram) (r : Request)
    (checked : ∀ offset value, r = .storeWord offset value →
      (m.dress g.size live' thread').checkStore offset 4 = m.checkStore offset 4)
    (stored : ∀ offset value, r = .storeWord offset value →
      (Session.store o.audience ⟨m, notes⟩ offset value).1 = .ok () →
        P.ram (m.ram.put offset (Word.bytes value))) :
    ∃ answer m₁ notes₁, Session.answer o.audience ⟨m, notes⟩ r = (answer, ⟨m₁, notes₁⟩) ∧
      Session.answer o.audience ⟨m.dress g.size live' thread', notes⟩ r =
        (answer, ⟨m₁.dress g.size live' thread', notes₁⟩) ∧
      g.Fits m₁ ∧ P.ram m₁.ram ∧ m₁.liveCode = m.liveCode ∧ m₁.config = m.config := by
  cases r with
  | storeWord offset value =>
      exact store_twin o notes thread' fits known offset value (checked offset value rfl)
        (stored offset value rfl)
  | suspend offset =>
      let m₁ := m.modifyControl fun state => { state with pc := offset }
      let told := o.told .arrival m₁.bare m₁.executionListeners notes
      -- Observers see the same of both.
      have hwhole : Session.arrive o.audience ⟨m, notes⟩ offset = (told.1, ⟨m₁, told.2⟩) :=
        o.arrive_eq (s := ⟨m, notes⟩) fits.unbroken offset
      have hwindow : Session.arrive o.audience ⟨m.dress g.size live' thread', notes⟩ offset =
          (told.1, ⟨m₁.dress g.size live' thread', told.2⟩) :=
        o.arrive_eq (s := ⟨m.dress g.size live' thread', notes⟩) fits.unbroken offset
      refine ⟨told.1.mapError .listener, m₁, told.2, ?_, ?_, fits_of_eq fits rfl rfl rfl rfl rfl,
        known, rfl, rfl⟩
      · simp only [Session.answer, hwhole]
      · simp only [Session.answer, hwindow]
  | readWord | print | sendByte | takeByte | hasByte | offered =>
      exact ⟨_, _, _, rfl, rfl, fits_of_eq fits rfl rfl rfl rfl rfl, known, rfl, rfl⟩

/-- Behind an answer both attach the same instances still. -/
theorem threads_attached (outset : P.outset) (same : live' = m.liveCode)
    (inside : m.config.entry < g.count) (r : Request) (next : r.Answer → Dialogue Context)
    (answer : r.Answer) :
    g.Threads P m live'
      (Thread.onAnswer (.attaching (.whole g.whole)) (.detained (.whole g.whole)) r next answer)
      (Thread.onAnswer (.attaching (.windowed g.size (offsetOf 0 m.config.entry)))
        (.detained (.windowed g.size (offsetOf 0 m.config.entry))) r next answer) := by
  -- Only a granted suspension waits, in either run.
  cases r with
  | suspend offset =>
      cases answer with
      | ok _ => exact Threads.detained outset same inside next
      | error trap => exact Threads.attaching outset same inside _
  | readWord | storeWord | print | sendByte | takeByte | hasByte | offered =>
      exact Threads.attaching outset same inside _

/-- Behind an answer both are at work on the same op still. -/
theorem threads_answered (live : g.Live P m.liveCode live' image first last) (r : Request)
    {next next' : r.Answer → Remainder}
    (level : ∀ answer, g.Level image first last (next answer) (next' answer))
    (answer : r.Answer) :
    g.Threads P m live'
      (Thread.onAnswer (.working g.whole) (.waiting g.whole) r next answer)
      (Thread.onAnswer (.working (g.window image first last))
        (.waiting (g.window image first last)) r next' answer) := by
  -- Only a suspension that is granted has a thread wait.
  cases r with
  | suspend offset =>
      cases answer with
      | ok _ => exact Threads.waiting live level
      | error trap => exact Threads.working live (level _)
  | readWord | storeWord | print | sendByte | takeByte | hasByte | offered =>
      exact Threads.working live (level _)

/-- Both ask the same, and are at matching points behind the answer. -/
theorem step_asks (o : Observer ω) (notes : ω) {thread' : Thread} (fits : g.Fits m)
    (known : P.ram m.ram) {r : Request} {next next' : r.Answer → Thread}
    (asks : m.thread.Asks r next) (asks' : thread'.Asks r next')
    (checked : ∀ offset value, r = .storeWord offset value →
      (m.dress g.size live' thread').checkStore offset 4 = m.checkStore offset 4)
    (stored : ∀ offset value, r = .storeWord offset value →
      (Session.store o.audience ⟨m, notes⟩ offset value).1 = .ok () →
        P.ram (m.ram.put offset (Word.bytes value)))
    (threads : ∀ m₁ : Machine, m₁.liveCode = m.liveCode → m₁.config = m.config → ∀ answer,
      g.Threads P m₁ live' (next answer) (next' answer)) :
    g.Matched P o.audience ⟨m, notes⟩ ⟨m.dress g.size live' thread', notes⟩ := by
  -- Answers are the same for both, and so are RAM and the notes afterwards.
  rcases answer_twin o notes thread' fits known r checked stored with
    ⟨answer, m₁, notes₁, hwhole, hwindow, hfits, hknown, hlive, hconfig⟩
  have hadvance := Session.advance_asks (s := ⟨m, notes⟩) o.audience asks
  have hadvance' := Session.advance_asks (s := ⟨m.dress g.size live' thread', notes⟩) o.audience
    asks'
  rw [hwhole] at hadvance
  rw [hwindow] at hadvance'
  refine ⟨?_, ?_, ?_⟩
  · rw [hadvance, hadvance']
  · rw [hadvance, hadvance']
    exact ⟨fits_of_eq hfits rfl rfl rfl rfl rfl, hknown, live', next' answer, rfl,
      threads (m₁.setThread (next answer)) hlive hconfig answer⟩
  · rw [Session.reaches?_of_asks (s := ⟨m, notes⟩) asks,
      Session.reaches?_of_asks (s := ⟨m.dress g.size live' thread', notes⟩) asks']

/-- Both pass the suspension point that they wait at. -/
theorem step_waits (a : Audience ω) (notes : ω) {thread' : Thread} (fits : g.Fits m)
    (known : P.ram m.ram) {next next' : Thread} (waits : m.thread.Waits next)
    (waits' : thread'.Waits next')
    (threads : ∀ m₁ : Machine, m₁.liveCode = m.liveCode → m₁.config = m.config →
      g.Threads P m₁ live' next next') :
    g.Matched P a ⟨m, notes⟩ ⟨m.dress g.size live' thread', notes⟩ := by
  -- The machines run, so neither is held up.
  have hpasses : m.control.blocks = false := by
    simp only [RunState.blocks, fits.running, Bool.not_true, Bool.false_and]
  have hadvance := Session.advance_waits (s := ⟨m, notes⟩) a waits
  have hadvance' := Session.advance_waits (s := ⟨m.dress g.size live' thread', notes⟩) a waits'
  have hblocks : (m.dress g.size live' thread').control.blocks = false := hpasses
  simp only [Session.resume, hpasses, Bool.false_eq_true, if_false] at hadvance
  simp only [Session.resume, hblocks, Bool.false_eq_true, if_false] at hadvance'
  refine ⟨?_, ?_, ?_⟩
  · rw [hadvance, hadvance']
  · rw [hadvance, hadvance']
    exact ⟨fits_of_eq fits rfl rfl rfl rfl rfl, known, live', next', rfl,
      threads (m.pass.setThread next) rfl rfl⟩
  · rw [Session.reaches?_of_waits (s := ⟨m, notes⟩) waits,
      Session.reaches?_of_waits (s := ⟨m.dress g.size live' thread', notes⟩) waits']

/-- The same code is live while the instances are attached, so both checks are the same. -/
theorem checkStore_of_same (same : live' = m.liveCode) (thread' : Thread) (offset : Word) :
    (m.dress g.size live' thread').checkStore offset 4 = m.checkStore offset 4 := by
  rw [same]
  rfl

/-- Both go on attaching their instances, or the second goes to its first window. -/
theorem step_attaching (o : Observer ω) (notes : ω) (fits : g.Fits m) (known : P.ram m.ram)
    (outset : P.outset) (same : live' = m.liveCode) (inside : m.config.entry < g.count)
    {rest : Dialogue Context} (attaching : m.thread = .attaching (.whole g.whole) rest)
    (benign : g.Benign P P' o.audience ⟨m, notes⟩ ⟨m.dress g.size live'
      (.attaching (.windowed g.size (offsetOf 0 m.config.entry)) rest), notes⟩) :
    g.Matched P' o.audience ⟨m, notes⟩ ⟨m.dress g.size live'
      (.attaching (.windowed g.size (offsetOf 0 m.config.entry)) rest), notes⟩ ∨
    g.Stutters P o.audience ⟨m, notes⟩ ⟨m.dress g.size live'
      (.attaching (.windowed g.size (offsetOf 0 m.config.entry)) rest), notes⟩ := by
  cases rest with
  | done context =>
      exact Or.inr (step_attached _ notes fits known outset inside attaching)
  -- The attachment asks on both sides, and its stores are known to the program too.
  | ask r next =>
      have asks := attaching ▸ Thread.Asks.attaching (.whole g.whole) r next
      have hnone := Session.reaches?_of_asks (s := ⟨m, notes⟩) asks
      have hstamping : ∀ offset value, r = .storeWord offset value →
          Session.stamping? ⟨m, notes⟩ = some (offset, value) := by
        rintro offset value rfl
        simp only [Session.stamping?, attaching]
      refine Or.inl (step_asks o notes fits (benign.weaker _ known) asks
        (Thread.Asks.attaching _ r next) (fun offset _ _ => checkStore_of_same same _ offset) ?_ ?_)
      · exact fun offset value store => benign.stored offset value (Or.inr (hstamping _ _ store))
      · intro m₁ hlive hconfig answer
        rw [← hconfig]
        exact threads_attached (benign.waits hnone outset) (same.trans hlive.symm)
          (by rw [hconfig]; exact inside) r next answer

/-- Both are answered the same request of an op. -/
theorem step_ask (o : Observer ω) (notes : ω) (fits : g.Fits m) (known : P.ram m.ram)
    (live : g.Live P m.liveCode live' image first last) (r : Request)
    {next next' : r.Answer → Remainder}
    (level : ∀ answer, g.Level image first last (next answer) (next' answer))
    (working : m.thread = .working g.whole (.ask r next))
    (benign : g.Benign P P' o.audience ⟨m, notes⟩ ⟨m.dress g.size live'
      (.working (g.window image first last) (.ask r next')), notes⟩) :
    g.Matched P' o.audience ⟨m, notes⟩ ⟨m.dress g.size live'
      (.working (g.window image first last) (.ask r next')), notes⟩ := by
  have asks := working ▸ Thread.Asks.working g.whole r next
  -- In the middle of an op nothing is reached, so control stays in the window.
  have hlive := live_stays benign live fun index reached => by
    rw [Session.reaches?_of_asks (s := ⟨m, notes⟩) asks] at reached
    cases reached
  have hstoring : ∀ offset value, r = .storeWord offset value →
      Session.storing? ⟨m, notes⟩ = some (offset, value) := by
    rintro offset value rfl
    simp only [Session.storing?, working]
  refine step_asks o notes fits (benign.weaker _ known) asks (Thread.Asks.working _ r next')
    ?_ ?_ ?_
  · exact fun offset value store => benign.checked offset value (hstoring _ _ store)
  · exact fun offset value store => benign.stored offset value (Or.inl (hstoring _ _ store))
  · intro m₁ same _ answer
    rw [← same] at hlive
    exact threads_answered hlive r level answer

/-- Whole and windows take a step together, or the windows take one of their own. -/
theorem step (o : Observer ω) {s w : Session ω} (sim : g.Sim P s w)
    (benign : g.Benign P P' o.audience s w) :
    g.Matched P' o.audience s w ∨ g.Stutters P o.audience s w := by
  rcases s with ⟨m, notes⟩
  rcases sim with ⟨fits, known, live', thread', rfl, threads⟩
  dsimp only at fits known threads benign ⊢
  have hknown := benign.weaker _ known
  generalize hthread : m.thread = thread at threads
  -- By what the two threads are at. The windowed run is on its own where it has a window to leave
  -- or to compile; everywhere else both take a step.
  cases threads with
  | idle live none =>
      have hwhole : Session.advance o.audience ⟨m, notes⟩ = (.blocked, ⟨m, notes⟩) :=
        Session.advance_idle hthread
      refine Or.inl ⟨?_, ?_, ?_⟩
      · rw [hwhole]
        rfl
      · rw [hwhole]
        refine ⟨fits, hknown, live', _, rfl, ?_⟩
        rw [hthread]
        exact Threads.idle live none
      · simp only [Session.reaches?, hthread]
        rfl
  | starting image outset same inside =>
      have hnone : Session.reaches? ⟨m, notes⟩ = none := by simp only [Session.reaches?, hthread]
      exact Or.inl (step_starting _ notes fits hknown image (benign.waits hnone outset) same inside
        hthread)
  | attaching outset same inside =>
      exact step_attaching o notes fits known outset same inside hthread benign
  | detained outset same inside resume =>
      have waits := hthread ▸ Thread.Waits.attaching (.whole g.whole) resume
      have houtset := benign.waits (Session.reaches?_of_waits (s := ⟨m, notes⟩) waits) outset
      refine Or.inl (step_waits _ notes fits hknown waits (Thread.Waits.attaching _ resume) ?_)
      intro m₁ hlive hconfig
      rw [← hconfig]
      exact Threads.attaching houtset (same.trans hlive.symm) (by rw [hconfig]; exact inside) _
  | attached outset inside =>
      exact Or.inl (step_entered _ notes fits known outset inside hthread benign)
  | entering inside live placed beyond =>
      exact Or.inl (step_entering _ notes fits known inside live placed beyond hthread benign)
  | @waiting _ _ _ resume resume' live level =>
      have waits := hthread ▸ Thread.Waits.working g.whole resume
      have hlive := live_stays benign live fun index reached => by
        rw [Session.reaches?_of_waits (s := ⟨m, notes⟩) waits] at reached
        cases reached
      refine Or.inl (step_waits _ notes fits hknown waits (Thread.Waits.working _ resume') ?_)
      intro m₁ same _
      rw [← same] at hlive
      exact Threads.working hlive (level _)
  | working live level =>
      cases level with
      | ask r level =>
          exact Or.inl (step_ask o notes fits known live r level hthread benign)
      -- The op is done: with a trap, at another op of the window, at a slot of another window,
      -- or at the end of the program.
      | @done p q related =>
          rcases p with ⟨p, context⟩
          rcases q with ⟨q, context'⟩
          rcases related with ⟨outcome, hcontext⟩
          dsimp only at outcome hcontext
          subst hcontext
          cases outcome with
          | error trap =>
              refine Or.inl (step_ended _ notes fits known hthread ?_ benign.weaker)
              intro progress hprogress
              cases hprogress
          | ok beside =>
              cases beside with
              | standing inside middle =>
                  exact step_standing _ notes fits known live inside middle hthread benign
              | outside inside beyond =>
                  exact Or.inr (step_outside _ notes fits known live inside beyond hthread)
              | ended far =>
                  refine Or.inl (step_ended _ notes fits known hthread ?_ benign.weaker)
                  intro progress hprogress
                  cases hprogress
                  exact ⟨_, rfl, far⟩

/-! ### What matching sessions have in common -/

/-- Control gets to slots of RAM alone, and goes on with their ops. -/
theorem begins_of_reaches? (a : Audience ω) {s w : Session ω} (sim : g.Sim P s w)
    (h : s.reaches? = some index) :
    index < g.count ∧ ∃ context, (s.advance a).2.machine.thread =
      .working g.whole (g.whole.step (index * g.options.stride) context) := by
  rcases s with ⟨m, notes⟩
  rcases sim with ⟨fits, _, live', thread', _, threads⟩
  dsimp only at fits threads
  generalize hthread : m.thread = thread at threads
  -- Slots are reached at the entry, and between two instructions.
  have hattached : ∀ rest, m.config.entry < g.count →
      m.thread = .attaching (.whole g.whole) rest → index < g.count ∧ ∃ context,
        (Session.advance a ⟨m, notes⟩).2.machine.thread =
          .working g.whole (g.whole.step (index * g.options.stride) context) := by
    intro rest inside attaching
    cases rest with
    | ask r next => simp only [Session.reaches?, attaching, reduceCtorEq] at h
    | done context =>
        have hsize : g.whole.size = g.count := size_part _ _ _ g.reach (Nat.zero_le _)
        simp only [Session.reaches?, attaching, hsize, if_pos inside, Option.some.injEq] at h
        rw [advance_attached a notes inside attaching, ← h]
        exact ⟨inside, context, rfl⟩
  have hstanding : ∀ op context, m.thread = .working g.whole (.done (.ok (.standing op), context)) →
      index < g.count ∧ ∃ context, (Session.advance a ⟨m, notes⟩).2.machine.thread =
        .working g.whole (g.whole.step (index * g.options.stride) context) := by
    intro op context standing
    rw [reaches?_whole standing] at h
    split at h
    · rename_i begins
      rw [Session.advance_standing a standing, ← Option.some.inj h,
        Nat.div_mul_cancel (Nat.dvd_of_mod_eq_zero begins.1)]
      exact ⟨begins.2, context, rfl⟩
    · cases h
  cases threads with
  | idle | starting | detained | waiting =>
      simp only [Session.reaches?, hthread, reduceCtorEq] at h
  | attaching _ _ inside rest => exact hattached rest inside hthread
  | attached _ inside => exact hattached _ inside hthread
  | entering => exact hstanding _ _ hthread
  | @working _ _ _ rest =>
      rcases rest with ⟨⟨_ | op | exit, context⟩⟩ | ⟨request, next⟩
      · simp only [Session.reaches?, hthread, reduceCtorEq] at h
      · exact hstanding op context hthread
      · simp only [Session.reaches?, hthread, reduceCtorEq] at h
      · simp only [Session.reaches?, hthread, reduceCtorEq] at h

theorem ram_eq {s w : Session ω} (sim : g.Sim P s w) : w.machine.ram = s.machine.ram := by
  rcases sim.twin with ⟨_, _, rfl, _⟩
  rfl

/-- Both attempt the same store, or neither attempts one. -/
theorem storing?_eq {s w : Session ω} (sim : g.Sim P s w) : w.storing? = s.storing? := by
  rcases s with ⟨m, notes⟩
  rcases sim with ⟨_, _, live', thread', rfl, threads⟩
  dsimp only at threads
  generalize hthread : m.thread = thread at threads
  -- What is about to be stored is read off the request, which is the same.
  cases threads with
  | working live level =>
      cases level with
      | done related =>
          simp only [Session.storing?, hthread]
          rfl
      | ask request level =>
          cases request <;> simp only [Session.storing?, hthread] <;> rfl
  | idle | starting | attaching | detained | attached | waiting | entering =>
      simp only [Session.storing?, hthread]
      rfl

/-- While a store is attempted, whole and window are live. -/
theorem exists_live_of_storing? {s w : Session ω} (sim : g.Sim P s w) {offset value : Word}
    (h : s.storing? = some (offset, value)) :
    ∃ image first last, g.Live P s.machine.liveCode w.machine.liveCode image first last := by
  rcases s with ⟨m, notes⟩
  rcases sim with ⟨_, _, live', thread', rfl, threads⟩
  dsimp only at threads ⊢
  generalize hthread : m.thread = thread at threads
  -- Only an op that is being done stores, and then there is a window.
  cases threads with
  | working live _ => exact ⟨_, _, _, live⟩
  | idle | starting | attaching | detained | attached | waiting | entering =>
      simp only [Session.storing?, hthread, reduceCtorEq] at h

/-! ### Runs -/

section Runs

variable {o : Observer ω} {s w : Session ω}

/-- The windows catch up, in steps that begin no instruction, until both can take a
    step. The induction is on how much the windows have to do before. -/
theorem exists_matched (n : Nat) : ∀ w : Session ω, rank w.machine.thread ≤ n → g.Sim P s w →
    (∀ k, g.Sim P s (w.after o.audience k) → g.Benign P P' o.audience s (w.after o.audience k)) →
    ∃ k, w.begun o.audience k = 0 ∧ g.Matched P' o.audience s (w.after o.audience k) := by
  -- Induction on how long the windowed run can go without the other.
  induction n with
  | zero =>
      intro w hrank sim benign
      rcases step o sim (benign 0 sim) with matched | stutters
      · exact ⟨0, rfl, matched⟩
      · exact absurd stutters.rank (by omega)
  | succ n ih =>
      intro w hrank sim benign
      rcases step o sim (benign 0 sim) with matched | stutters
      · exact ⟨0, rfl, matched⟩
      · have hsmaller := stutters.rank
        rcases ih (w.advance o.audience).2 (by omega) stutters.sim (fun k => benign (k + 1)) with
          ⟨k, hbegun, matched⟩
        refine ⟨k + 1, ?_, matched⟩
        rw [Session.begun, hbegun, stutters.begins]
        rfl

variable {K : Nat → Known}

/-- After any number of steps in one segment, the windows get to a matching point,
    with as many instructions begun. -/
theorem exists_sim_of_whole (start : g.Sim (K 0) s w)
    (benign : ∀ m k, g.Sim (K m) (s.after o.audience m) (w.after o.audience k) →
      g.Benign (K m) (K (m + 1)) o.audience (s.after o.audience m) (w.after o.audience k))
    (m : Nat) :
    ∃ k, w.begun o.audience k = s.begun o.audience m ∧
      g.Sim (K m) (s.after o.audience m) (w.after o.audience k) := by
  induction m with
  | zero => exact ⟨0, rfl, start⟩
  | succ m ih =>
      rcases ih with ⟨k, hbegun, sim⟩
      rcases exists_matched _ _ (Nat.le_refl _) sim (fun k' sim' => by
        rw [← Session.after_add] at sim' ⊢
        exact benign m (k + k') sim') with ⟨k', hnone, matched⟩
      -- Of the steps so far, only the last may begin an instruction.
      have hbegins := matched.begins
      have hsim := matched.sim
      rw [← Session.after_add] at hbegins hsim
      refine ⟨k + k' + 1, ?_, ?_⟩
      · rw [Session.begun_succ, Session.begun_succ, Session.begun_add, hnone, hbegins, hbegun]
        rfl
      · rw [Session.after_succ, Session.after_succ]
        exact hsim

/-- After any number of steps in windows, the one segment was at a matching point,
    with as many instructions begun. -/
theorem exists_sim_of_windows (start : g.Sim (K 0) s w) {bound : Nat}
    (benign : ∀ m k, k < bound → g.Sim (K m) (s.after o.audience m) (w.after o.audience k) →
      g.Benign (K m) (K (m + 1)) o.audience (s.after o.audience m) (w.after o.audience k))
    (k : Nat) (early : k ≤ bound) :
    ∃ m, w.begun o.audience k = s.begun o.audience m ∧
      g.Sim (K m) (s.after o.audience m) (w.after o.audience k) := by
  -- Induction on the steps of the windowed run. A step on its own leaves the other where it is.
  induction k with
  | zero => exact ⟨0, rfl, start⟩
  | succ k ih =>
      rcases ih (Nat.le_of_succ_le early) with ⟨m, hbegun, sim⟩
      rcases step o sim (benign m k early sim) with matched | stutters
      · refine ⟨m + 1, ?_, ?_⟩
        · rw [Session.begun_succ, Session.begun_succ, matched.begins, hbegun]
        · rw [Session.after_succ, Session.after_succ]
          exact matched.sim
      · refine ⟨m, ?_, ?_⟩
        · rw [Session.begun_succ, stutters.begins, hbegun]
          rfl
        · rw [Session.after_succ]
          exact stutters.sim

/-- At the end, the sessions differ in nothing but whether execution goes by
    windows. -/
theorem eq_split_of_finished {a : Audience ω} {P : Known} {result : Except ExecutionError Unit}
    (finished : (s.advance a).1 = .finished result)
    (sim : g.Sim P (s.advance a).2 (w.advance a).2) :
    (s.advance a).2 = (s.advance a).2.split none ∧
      (w.advance a).2 = (s.advance a).2.split (some g.size) := by
  rcases hadvance : s.advance a with ⟨amount, e⟩
  rw [hadvance] at finished sim
  dsimp only at finished sim ⊢
  subst finished
  have idle := Session.idle_of_finished hadvance
  rcases sim with ⟨fits, _, live', thread', hw, threads⟩
  generalize hthread : e.machine.thread = thread at threads
  rw [idle] at hthread
  -- The thread of the one segment is idle at the end, and then so is the other.
  subst hthread
  cases threads with
  | idle live none =>
      subst none
      rcases e with ⟨⟨_, ⟨_, _, _, _, _⟩, _, _, _, _, _, _, _, _, _, _⟩, notes⟩
      cases fits.whole
      cases live
      cases idle
      exact ⟨rfl, hw⟩

/-- An execution comes to the same end in one segment and in windows. -/
theorem finished_iff {K : Nat → Known} (start : g.Sim (K 0) s w)
    (benign : ∀ m k, g.Sim (K m) (s.after o.audience m) (w.after o.audience k) →
      g.Benign (K m) (K (m + 1)) o.audience (s.after o.audience m) (w.after o.audience k))
    (result : Except ExecutionError Unit) (ended : Session ω) :
    (∃ m, (s.after o.audience m).advance o.audience = (.finished result, ended.split none)) ↔
      ∃ k, (w.after o.audience k).advance o.audience =
        (.finished result, ended.split (some g.size)) := by
  constructor
  · rintro ⟨m, hended⟩
    rcases exists_sim_of_whole start benign m with ⟨k, _, sim⟩
    rcases exists_matched _ _ (Nat.le_refl _) sim (fun k' sim' => by
      rw [← Session.after_add] at sim' ⊢
      exact benign m (k + k') sim') with ⟨k', _, matched⟩
    rw [← Session.after_add] at matched
    have hfinished : ((s.after o.audience m).advance o.audience).1 = .finished result := by
      rw [hended]
    have hwindows := (eq_split_of_finished hfinished matched.sim).2
    refine ⟨k + k', Prod.ext (matched.amount.trans hfinished) ?_⟩
    rw [hwindows, hended]
    rfl
  · rintro ⟨k, hended⟩
    rcases exists_sim_of_windows start (fun m k _ => benign m k) k (Nat.le_refl k) with ⟨m, _, sim⟩
    rcases step o sim (benign m k sim) with matched | stutters
    · have hfinished : ((s.after o.audience m).advance o.audience).1 = .finished result := by
        rw [← matched.amount, hended]
      rcases eq_split_of_finished hfinished matched.sim with ⟨hwhole, hwindows⟩
      refine ⟨m, Prod.ext hfinished ?_⟩
      rw [hended] at hwindows
      -- Two sessions that differ in the size of windows are the same without windows.
      have hsplit := congrArg (Session.split · none) hwindows
      exact hwhole.trans hsplit.symm
    · -- A step that the windows take alone is not their last.
      have hamount := stutters.amount
      rw [hended] at hamount
      exact absurd hamount Advance.noConfusion

end Runs

/-! ### Beginning of the runs -/

/-- The setting in which the executions of a session are compared. -/
def ofSession (s : Session ω) (lenient : s.machine.config.options.strict = false) (size : Word) :
    Setting where
  registry := s.machine.registry
  options := s.machine.config.options
  lenient := lenient
  image := s.machine.ram
  count := s.machine.slotCount
  reach := s.machine.slotCount_reach
  size := size

theorem execute_eq {s s' : Session ω} (begun : s.execute = .ok s') :
    s' = s.modify (·.setThread .starting) := by
  unfold Session.execute at begun
  split at begun
  · contradiction
  · exact (Except.ok.inj begun).symm

/-- Executions of a session in one segment and in windows begin at a matching point, if they
    have an instruction to begin with. -/
theorem sim_of_execute {s whole windowed : Session ω} {size : Word}
    (lenient : s.machine.config.options.strict = false)
    (running : s.machine.control.running = true) (unbroken : s.machine.breakpoints = [])
    (hwhole : (s.split none).execute = .ok whole)
    (hwindowed : (s.split (some size)).execute = .ok windowed)
    (inside : s.machine.config.entry < s.machine.slotCount)
    (known : P.ram s.machine.ram) (outset : P.outset) :
    (ofSession s lenient size).Sim P whole windowed := by
  rw [execute_eq hwhole, execute_eq hwindowed]
  exact ⟨⟨rfl, rfl, rfl, rfl, rfl, running, unbroken⟩, known, s.machine.liveCode, .starting, rfl,
    Threads.starting rfl outset rfl inside⟩

end Steps

end Setting

end Transport
