import Transport.Proofs.Machine.Strays
import Transport.Proofs.Machine.Windows
import Transport.Registry.Standard

/-!
# The Driver Stays in RAM

Who executes in windows computes with offsets: it rounds, clips, and divides. Here it is
shown that all of this stays inside the part of RAM that can hold instructions, for every
size of RAM and of windows and every entry, and that the failures which are the driver's
own come where they should: an entry outside is noticed before anything is done, control
that leaves this part of RAM is, and a range that the driver compiles is always valid.

The driver keeps little: the segment, which it made, or the offset that it is about to
compile a window for. What is known of these is an invariant of all sessions. An execution
that ends does so for one of a few reasons, and the invariant says what each of them means.

## Main definitions

* `Machine.Made`: A segment is one that the driver made.
* `Machine.Knows`: What the driver knows of the offsets and ranges that it has to do with.
* `Machine.Compiles`: The range that the driver compiles next.
* `Session.Ending`: How an execution ends.
* `CompilationError.offset?`: The slot that a compilation fails for.

## Theorems

* `knows_playAll`: The driver keeps to RAM.
* `window_of_entering`: The window that control enters.
* `ending_of_advance`: Why executions end.
* `ends_beyond`: An execution whose entry is outside ends with nothing but that.
* `comes_of_beyond`: Without windows such an execution attaches its instances and fails.
* `driver_stays_in_ram`: What executions end with, and where control is in between.
-/

namespace Transport

/-- The offset of the instruction that keeps a range from being compiled. -/
def CompilationError.offset? : CompilationError → Option Word
  | .invalidRange .. => none
  | .unresolvedPort offset _ _ => some offset
  | .dynamicJump offset => some offset
  | .misalignedJump offset _ => some offset

theorem Obstacle.offset?_errorAt (cause : Obstacle) (offset : Word) :
    (cause.errorAt offset).offset? = some offset := by
  cases cause <;> rfl

/-! ## The offsets and ranges of the driver -/

namespace Machine

/-- A segment that the driver compiled. Without windows it is all of RAM. -/
structure Made (m : Machine) (segment : Segment) : Prop where
  compiled : ∃ image, Segment.compile m.registry m.config.options image segment.start
    segment.stop = .ok segment
  whole : m.config.segmentSize = none → segment.start = 0 ∧ segment.stop = m.codeEnd

/-- An outset is one that the driver came to: all of RAM, or the window of an entry that is
    in the part of RAM that can hold instructions. -/
def Plans (m : Machine) : Outset → Prop
  | .whole segment => m.config.segmentSize = none ∧ m.Made segment
  | .windowed size offset => m.config.segmentSize = some size ∧
    offset.toNat = 8 * m.config.entry ∧ offset.toNat < m.codeSize

/-- What the driver knows: windows are entered at an instruction in RAM, segments are made by
    the driver, and nothing of the sort happens if the entry is outside. -/
def Knows (m : Machine) : Thread → Prop
  | .idle => True
  | .starting => True
  | .attaching outset _ => m.Plans outset
  | .detained outset _ => m.Plans outset
  | .entering size offset _ => 8 * m.config.entry < m.codeSize ∧
    m.config.segmentSize = some size ∧ offset.toNat % 8 = 0 ∧ offset.toNat < m.codeSize
  | .working segment _ => 8 * m.config.entry < m.codeSize ∧ m.Made segment
  | .waiting segment _ => 8 * m.config.entry < m.codeSize ∧ m.Made segment

/-- The range that the next small step compiles. -/
inductive Compiles (m : Machine) : Word → Word → Prop
  | whole (starting : m.thread = .starting) (whole : m.config.segmentSize = none) :
      Compiles m 0 m.codeEnd
  | window {size offset : Word} {context : Context}
      (entering : m.thread = .entering size offset context) :
      Compiles m (m.windowOf size offset).1 (m.windowOf size offset).2

variable {m m' : Machine}

theorem codeEnd_of_fixed (fixed : m.Fixed m') : m'.codeEnd = m.codeEnd := by
  simp only [codeEnd, fixed.size]

theorem made_of_fixed (fixed : m.Fixed m') {segment : Segment} (made : m.Made segment) :
    m'.Made segment := by
  refine ⟨?_, ?_⟩
  · rw [fixed.registry, fixed.config]
    exact made.compiled
  · rw [fixed.config, codeEnd_of_fixed fixed]
    exact made.whole

theorem knows_of_fixed (fixed : m.Fixed m') {thread : Thread} (h : m.Knows thread) :
    m'.Knows thread := by
  -- What a thread knows depends on the configuration and on how much RAM there is, which are fixed.
  have hplans : ∀ outset, m.Plans outset → m'.Plans outset := by
    intro outset plans
    cases outset with
    | whole segment =>
        refine ⟨?_, made_of_fixed fixed plans.2⟩
        rw [fixed.config]
        exact plans.1
    | windowed size offset =>
        unfold Plans
        rw [fixed.config, codeSize_of_fixed fixed]
        exact plans
  unfold Knows
  rw [fixed.config, codeSize_of_fixed fixed]
  cases thread with
  | idle | starting => trivial
  | attaching outset | detained outset => exact hplans outset h
  | entering => exact h
  | working | waiting => exact ⟨h.1, made_of_fixed fixed h.2⟩

/-- While something is asked, the driver knows what it knew. -/
theorem knows_of_asks {thread : Thread} (h : m.Knows thread) {r : Request}
    {next : r.Answer → Thread} (asks : thread.Asks r next) (answer : r.Answer) :
    m.Knows (next answer) := by
  cases asks <;> unfold Thread.onAnswer <;> split <;> exact h

theorem knows_of_waits {thread next : Thread} (h : m.Knows thread) (waits : thread.Waits next) :
    m.Knows next := by
  cases waits <;> exact h

theorem knows_of_left {segment : Segment} {rest : Remainder} {thread : Thread}
    (h : m.Knows thread) (left : thread.left? = some (segment, rest)) :
    8 * m.config.entry < m.codeSize ∧ m.Made segment := by
  cases thread with
  | working | waiting =>
      cases left
      exact h
  | idle | starting | attaching | detained | entering => contradiction

theorem size_of_compile {registry : Registry} {options : Options} {image : Ram}
    {start stop : Word} {segment : Segment}
    (compiled : Segment.compile registry options image start stop = .ok segment) :
    segment.size = Segment.countOf start stop := by
  rcases Segment.compile_eq_ok_iff.mp compiled with ⟨_, _, rfl⟩
  exact Segment.size_layout _ _ _

/-- The whole of RAM has as many instructions as there are slots. -/
theorem size_of_whole {segment : Segment} (made : m.Made segment)
    (whole : m.config.segmentSize = none) : segment.size = m.slotCount := by
  rcases made.compiled with ⟨image, compiled⟩
  rw [(made.whole whole).1, (made.whole whole).2] at compiled
  rw [size_of_compile compiled, Segment.countOf_eq, toNat_codeEnd, codeSize_eq]
  change (8 * m.slotCount - 0) / 8 = _
  omega

end Machine

theorem Segment.enter_eq_ok_iff {segment : Segment} {entry : Nat} :
    (∃ op, segment.enter entry = .ok op) ↔ entry < segment.size := by
  unfold enter size
  rcases Nat.lt_or_ge entry segment.entries.size with inside | outside
  · simp only [Array.getElem?_eq_getElem inside, Except.ok.injEq, exists_eq', inside]
  · simp only [Array.getElem?_eq_none_iff.mpr outside, reduceCtorEq, exists_const,
      Nat.not_lt.mpr outside]

/-- A segment is entered at one of its instructions, or it is not. -/
theorem Segment.enter_of_le {segment : Segment} {entry : Nat} (beyond : segment.size ≤ entry) :
    segment.enter entry = .error (.entryOutOfRange entry) := by
  have hnone : segment.entries[entry]? = none := Array.getElem?_eq_none_iff.mpr beyond
  simp only [enter, hnone]

variable {ω : Type}

namespace Session

variable {a : Audience ω} {s s' : Session ω} {chronicle : List Undertaking}

/-- The contexts of an execution have the instances of the registry. -/
theorem handedOn_instantiates (registry : Registry) :
    HandedOn registry fun _ context => context.Instantiates registry where
  attached _ _ leads := Context.instantiates_attached (Context.instantiates_fresh registry)
    (Dialogue.end_of_leads (Context.ends_bind_context _) leads)
  whole u _ _ _ instantiates comes :=
    (Talk.comes_of_keeps (Segment.keeps_step u.segment u.op) instantiates comes).1

/-- Where control leaves a segment for. -/
theorem exit_of_left (h : s.machine.Knows s.machine.thread)
    (follows : s.Follows a (fun _ context => context.Instantiates s.machine.registry) chronicle)
    {segment : Segment} {target : Word} {context : Context}
    (leaving : s.machine.thread =
      .working segment (.done (.ok (.ended (.left target)), context))) :
    target.toNat % 8 = 0 ∧ segment.contains target = false := by
  have left : s.machine.thread.left? =
      some (segment, .done (.ok (.ended (.left target)), context)) := by rw [leaving]; rfl
  -- The exit is that of the op that began last, in a segment compiled from some image.
  rcases follows.within _ _ left with ⟨u, earlier, rfl, hleft, instantiates⟩
  rcases (Machine.knows_of_left h left).2.compiled with ⟨image, compiled⟩
  rw [← hleft.segment] at compiled ⊢
  exact exit_of_step compiled instantiates hleft.leads

/-- A small step ends in what the driver knows. -/
theorem knows_advance (h : s.machine.Knows s.machine.thread)
    (follows : s.Follows a (fun _ context => context.Instantiates s.machine.registry) chronicle) :
    (s.advance a).2.machine.Knows (s.advance a).2.machine.thread := by
  refine Machine.knows_of_fixed (fixed_advance a s) ?_
  have hslots := s.machine.codeSize_eq
  have hstep := smallStep_advance a s
  generalize s.advance a = result at hstep ⊢
  cases hstep with
  | idle => exact h
  | asks asks => exact Machine.knows_of_asks h asks _
  | waits waits =>
      unfold resume
      split
      · exact h
      · exact Machine.knows_of_waits h waits
  | whole starting whole =>
      unfold startWhole
      split
      · trivial
      · next segment compiled =>
        rcases Segment.range_of_compile compiled with ⟨_, hstart, hstop, _⟩
        rw [← hstart, ← hstop] at compiled
        exact ⟨whole, ⟨_, compiled⟩, fun _ => ⟨hstart, hstop⟩⟩
  | windowed starting windowed =>
      rw [startWindowed_eq]
      split
      · next inside =>
        -- The offset of the entry is below the size, which is in reach of words.
        have hreach := s.machine.slotCount_reach
        have hoffset : (Segment.offsetOf 0 s.machine.config.entry).toNat =
            8 * s.machine.config.entry := Segment.toNat_offsetOf_zero (by omega)
        exact ⟨windowed, hoffset, by omega⟩
      · trivial
  | @embarks outset context attached =>
      rw [attached] at h
      cases outset with
      | whole segment =>
          unfold embark enter
          dsimp only
          split
          · trivial
          · next op entered =>
            have inside := Segment.enter_eq_ok_iff.mp ⟨op, entered⟩
            rw [Machine.size_of_whole h.2 h.1] at inside
            have hentry : 8 * s.machine.config.entry < s.machine.codeSize := by omega
            exact ⟨hentry, h.2⟩
      | windowed size offset =>
          have hentry : 8 * s.machine.config.entry < s.machine.codeSize := by
            rw [← h.2.1]
            exact h.2.2
          exact ⟨hentry, h.1, by rw [h.2.1]; exact Nat.mul_mod_right 8 _, h.2.2⟩
  | enters entering =>
      rw [entering] at h
      unfold enterWindow
      dsimp only
      split
      · trivial
      · next segment compiled =>
        rcases Segment.range_of_compile compiled with ⟨_, hstart, hstop, _⟩
        rw [← hstart, ← hstop] at compiled
        unfold enter
        split
        · trivial
        · exact ⟨h.1, ⟨_, compiled⟩, fun whole => by cases whole.symm.trans h.2.1⟩
  | traps | completes => trivial
  | begins standing =>
      rw [standing] at h
      exact h
  | leaves leaving =>
      have aligned := (exit_of_left h follows leaving).1
      rw [leaving] at h
      unfold leave
      -- What control leaves for is aligned, and the driver sees that it is inside.
      split
      · next size windowed =>
        split
        · next inside => exact ⟨h.1, windowed, aligned, Machine.lt_codeEnd_iff.mp inside⟩
        · trivial
      · trivial

theorem knows_play (h : s.machine.Knows s.machine.thread)
    (follows : s.Follows a (fun _ context => context.Instantiates s.machine.registry) chronicle)
    (act : Act ω) : (s.play a act).machine.Knows (s.play a act).machine.thread := by
  -- Only a step can lead elsewhere; an act beside it leaves the thread or has it begin.
  by_cases advances : act = .advance
  · rw [advances]
    exact knows_advance h follows
  · have guards := guards_play a s advances
    refine Machine.knows_of_fixed guards.fixed ?_
    rcases guards.thread with same | ⟨_, starting⟩
    · rw [same]
      exact h
    · rw [starting]
      trivial

/-- Whatever is done, the driver knows where it is. -/
theorem knows_playAll (acts : List (Act ω)) : ∀ (s : Session ω) (chronicle : List Undertaking),
    s.machine.Knows s.machine.thread →
    s.Follows a (fun _ context => context.Instantiates s.machine.registry) chronicle →
      (s.playAll a acts).machine.Knows (s.playAll a acts).machine.thread := by
  -- Along the acts, with the chronicle that belongs to each of them.
  induction acts with
  | nil => exact fun _ _ h _ => h
  | cons act acts ih =>
      intro s chronicle h follows
      refine ih (s.play a act) (s.noted a chronicle act) (knows_play h follows act) ?_
      rw [(fixed_play a s act).registry]
      exact follows_play (handedOn_instantiates s.machine.registry) follows rfl act

/-! ## Ranges -/

open Segment in
/-- The slots of the window that control enters. -/
theorem slots_of_entering (h : s.machine.Knows s.machine.thread) {size offset : Word}
    {context : Context} (entering : s.machine.thread = .entering size offset context) :
    ∃ first last, s.machine.windowOf size offset = (offsetOf 0 first, offsetOf 0 last) ∧
      8 * first ≤ offset.toNat ∧ offset.toNat < 8 * last ∧ last ≤ s.machine.slotCount := by
  rw [entering] at h
  rcases h with ⟨_, _, aligned, inside⟩
  rw [Machine.codeSize_eq] at inside
  -- The offset is that of a slot, and windows are known of slots.
  have hreach := s.machine.slotCount_reach
  have hoffset : offset = offsetOf 0 (offset.toNat / 8) := by
    rw [← UInt32.toNat_inj, toNat_offsetOf_zero (by omega)]
    omega
  have hslot : offset.toNat / 8 < s.machine.slotCount := by omega
  rcases s.machine.exists_windowOf size hslot with ⟨first, last, hwindow, hfirst, hlast, hinside, _⟩
  rw [← hoffset] at hwindow
  exact ⟨first, last, hwindow, by omega, by omega, hinside⟩

open Segment in
/-- What the driver compiles is a valid range, which compiles unless compilation is strict. -/
theorem valid_of_compiles (h : s.machine.Knows s.machine.thread) {start stop : Word}
    (compiles : s.machine.Compiles start stop) :
    validRange s.machine.ram start stop = true ∧
      (s.machine.config.options.strict = false →
        ∃ segment, s.machine.compile start stop = .ok segment) := by
  have hreach := s.machine.slotCount_reach
  have hfits := s.machine.slotCount_fits
  -- A whole program is the range of all slots, a window one within them.
  have hslots : ∃ first last, start = offsetOf 0 first ∧ stop = offsetOf 0 last ∧
      first ≤ last ∧ last ≤ s.machine.slotCount := by
    cases compiles with
    | whole =>
        exact ⟨0, s.machine.slotCount, rfl, s.machine.codeEnd_eq, Nat.zero_le _, Nat.le_refl _⟩
    | window entering =>
        rcases slots_of_entering h entering with ⟨first, last, hwindow, hfirst, hlast, within⟩
        rw [hwindow]
        exact ⟨first, last, rfl, rfl, by omega, within⟩
  rcases hslots with ⟨first, last, rfl, rfl, ordered, within⟩
  exact ⟨validRange_offsetOf (by omega) ordered (by omega),
    fun lenient => ⟨_, Machine.compile_part lenient ordered within⟩⟩

/-- The window that control enters: it begins and ends at a slot of RAM, the offset is in it,
    and where it compiles, the instruction there is one of the segment. -/
theorem window_of_entering (h : s.machine.Knows s.machine.thread) {size offset : Word}
    {context : Context} (entering : s.machine.thread = .entering size offset context) :
    ∃ start stop, s.machine.windowOf size offset = (start, stop) ∧ start.toNat % 8 = 0 ∧
      start.toNat ≤ offset.toNat ∧ offset.toNat < stop.toNat ∧ stop.toNat ≤ s.machine.codeSize ∧
      ((offset - start) / 8).toNat = (offset.toNat - start.toNat) / instructionSize ∧
      (s.machine.config.options.strict = false →
        ∃ segment, s.machine.compile start stop = .ok segment) ∧
      ∀ segment, s.machine.compile start stop = .ok segment →
        ((offset - start) / 8).toNat < segment.size := by
  have valid := valid_of_compiles h (.window entering)
  rcases slots_of_entering h entering with ⟨first, last, hwindow, hbegin, hend, within⟩
  rw [hwindow] at valid
  -- From here on offsets are slots, and the rest is arithmetic of slots.
  have hreach := s.machine.slotCount_reach
  have hfirst : (Segment.offsetOf 0 first).toNat = 8 * first :=
    Segment.toNat_offsetOf_zero (by omega)
  have hlast : (Segment.offsetOf 0 last).toNat = 8 * last := Segment.toNat_offsetOf_zero (by omega)
  have hindex : ((offset - Segment.offsetOf 0 first) / 8).toNat =
      (offset.toNat - 8 * first) / 8 := by
    have hle : Segment.offsetOf 0 first ≤ offset := by
      rw [UInt32.le_iff_toNat_le, hfirst]
      exact hbegin
    rw [UInt32.toNat_div, UInt32.toNat_sub_of_le _ _ hle, hfirst]
    rfl
  refine ⟨_, _, hwindow, (Segment.validRange_iff.mp valid.1).2.1, by omega, by omega, ?_, ?_,
    valid.2, fun segment compiled => ?_⟩
  · rw [hlast, Machine.codeSize_eq]
    omega
  · rw [hindex, hfirst]
    rfl
  · rw [Machine.size_of_compile compiled, Segment.countOf_eq, hfirst, hlast, hindex]
    omega

/-! ## Ends -/

/-- How an execution ends with the next small step. -/
inductive Ending (s : Session ω) : Except ExecutionError Unit → Prop
  /-- A range does not compile. -/
  | uncompiled {start stop : Word} {error : CompilationError}
      (compiles : s.machine.Compiles start stop)
      (failed : s.machine.compile start stop = .error error) :
      Ending s (.error (.compilation error))
  /-- The segment of all of RAM is not entered. -/
  | unentered {segment : Segment} {context : Context}
      (attached : s.machine.thread = .attaching (.whole segment) (.done context))
      (beyond : segment.size ≤ s.machine.config.entry) :
      Ending s (.error (.trap (.entryOutOfRange s.machine.config.entry)))
  /-- A window is not entered. -/
  | window {size offset : Word} {context : Context} {segment : Segment}
      (entering : s.machine.thread = .entering size offset context)
      (compiled : s.machine.compile (s.machine.windowOf size offset).1
        (s.machine.windowOf size offset).2 = .ok segment)
      (beyond : segment.size ≤ ((offset - (s.machine.windowOf size offset).1) / 8).toNat) :
      Ending s (.error (.trap
        (.entryOutOfRange ((offset - (s.machine.windowOf size offset).1) / 8).toNat)))
  /-- The first window would be outside. -/
  | unstarted {size : Word} (starting : s.machine.thread = .starting)
      (windowed : s.machine.config.segmentSize = some size)
      (beyond : s.machine.codeSize ≤ 8 * s.machine.config.entry) :
      Ending s (.error (.trap (.entryOutOfRange s.machine.config.entry)))
  /-- An op trapped. -/
  | trapped {segment : Segment} {trap : Trap} {context : Context}
      (failed : s.machine.thread = .working segment (.done (.error trap, context))) :
      Ending s (.error (.trap trap))
  /-- The program halted. -/
  | completed {segment : Segment} {context : Context}
      (halted : s.machine.thread = .working segment (.done (.ok (.ended .completed), context))) :
      Ending s (.ok ())
  /-- Control leaves, and not for another window. -/
  | left {segment : Segment} {target : Word} {context : Context}
      (leaving : s.machine.thread =
        .working segment (.done (.ok (.ended (.left target)), context)))
      (beyond : s.machine.config.segmentSize = none ∨ s.machine.codeSize ≤ target.toNat) :
      Ending s (.error (.trap (.jumpOutsideRam target)))

/-- A segment that is entered ends nothing, unless the instruction is not one of it. -/
theorem finished_of_enter {segment : Segment} {entry : Nat} {context : Context}
    {result : Except ExecutionError Unit}
    (h : s.enter segment entry context = (.finished result, s')) :
    segment.size ≤ entry ∧ result = .error (.trap (.entryOutOfRange entry)) := by
  unfold enter at h
  -- Entering fails behind the last instruction and nowhere else.
  rcases Nat.lt_or_ge entry segment.size with inside | beyond
  · rcases Segment.enter_eq_ok_iff.mpr inside with ⟨op, entered⟩
    rw [entered] at h
    cases h
  · rw [Segment.enter_of_le beyond] at h
    cases h
    exact ⟨beyond, rfl⟩

/-- Whatever an execution ends with, it is for one of these reasons. -/
theorem ending_of_advance {result : Except ExecutionError Unit}
    (h : s.advance a = (.finished result, s')) : s.Ending result := by
  -- Each end is an ending of its own. The steps that only move the thread cannot have finished.
  have hstep := smallStep_advance a s
  rw [h] at hstep
  generalize hend : ((.finished result, s') : Advance × Session ω) = ended at hstep
  cases hstep with
  | idle | asks | begins => cases hend
  | waits =>
      unfold resume at hend
      split at hend <;> cases hend
  | whole starting whole =>
      unfold startWhole at hend
      split at hend
      · next failed =>
        cases hend
        exact .uncompiled (.whole starting whole) failed
      · cases hend
  | windowed starting windowed =>
      rw [startWindowed_eq] at hend
      split at hend
      · cases hend
      · next outside =>
        cases hend
        have hslots := s.machine.codeSize_eq
        exact .unstarted starting windowed (by omega)
  | @embarks outset context attached =>
      cases outset with
      | whole segment =>
          rcases finished_of_enter hend.symm with ⟨beyond, rfl⟩
          exact .unentered attached beyond
      | windowed size offset => cases hend
  | enters entering =>
      unfold enterWindow at hend
      dsimp only at hend
      split at hend
      · next failed =>
        cases hend
        exact .uncompiled (.window entering) failed
      · next compiled =>
        rcases finished_of_enter hend.symm with ⟨beyond, rfl⟩
        exact .window entering compiled beyond
  | traps trapped =>
      cases hend
      exact .trapped trapped
  | completes completed =>
      cases hend
      exact .completed completed
  | leaves leaving =>
      unfold leave at hend
      split at hend
      · split at hend
        · cases hend
        · next outside =>
          cases hend
          rw [Machine.lt_codeEnd_iff] at outside
          exact .left leaving (Or.inr (Nat.not_lt.mp outside))
      · next whole =>
        cases hend
        exact .left leaving (Or.inl whole)

/-! ## What executions end with -/

section Ends

variable {registry : Registry}

/-- A stray trap of an op is that of a handler of the last one in the chronicle. -/
theorem raised_of_trapped
    (follows : s.Follows a (fun _ context => context.Instantiates registry) chronicle)
    {segment : Segment} {trap : Trap} {context : Context} (stray : trap.isStray = true)
    (failed : s.machine.thread = .working segment (.done (.error trap, context))) :
    ∃ u earlier, chronicle = u :: earlier ∧ u.Raised trap := by
  rcases follows.within segment (.done (.error trap, context)) (by rw [failed]; rfl) with
    ⟨u, earlier, rfl, left, _⟩
  exact ⟨u, earlier, rfl, raised_of_step (tame_of_left left) stray left.leads⟩

/-- A window is entered at one of its instructions. -/
theorem inside_of_entering (h : s.machine.Knows s.machine.thread) {size offset : Word}
    {context : Context} (entering : s.machine.thread = .entering size offset context)
    {segment : Segment} (compiled : s.machine.compile (s.machine.windowOf size offset).1
      (s.machine.windowOf size offset).2 = .ok segment) :
    ((offset - (s.machine.windowOf size offset).1) / 8).toNat < segment.size := by
  rcases window_of_entering h entering with ⟨start, stop, hwindow, _, _, _, _, _, _, hentry⟩
  rw [hwindow] at compiled ⊢
  exact hentry segment compiled

/-- An entry outside of RAM is the one thing that the driver refuses to begin with. -/
theorem entry_of_ending (h : s.machine.Knows s.machine.thread)
    (follows : s.Follows a (fun _ context => context.Instantiates registry) chronicle)
    {index : Nat} (ends : s.Ending (.error (.trap (.entryOutOfRange index))))
    (unraised : ¬∃ u earlier, chronicle = u :: earlier ∧ u.Raised (.entryOutOfRange index)) :
    (s.machine.thread = .starting ∨
      ∃ segment context, s.machine.thread = .attaching (.whole segment) (.done context)) ∧
    chronicle = [] ∧ index = s.machine.config.entry ∧
      s.machine.codeSize ≤ 8 * s.machine.config.entry := by
  cases ends with
  | trapped failed => exact absurd (raised_of_trapped follows rfl failed) unraised
  | unstarted starting _ beyond => exact ⟨Or.inl starting, follows.fresh starting, rfl, beyond⟩
  | @unentered segment context attached beyond =>
      refine ⟨Or.inr ⟨segment, context, attached⟩, ?_, rfl, ?_⟩
      · exact (follows.attaching _ (by rw [attached]; rfl)).1
      · rw [attached] at h
        rw [Machine.size_of_whole h.2 h.1] at beyond
        have hslots := s.machine.codeSize_eq
        omega
  | window entering compiled beyond =>
      -- The offset is in the window, so the instruction is one of the segment.
      exact absurd (inside_of_entering h entering compiled) (Nat.not_lt.mpr beyond)

/-- Such an execution ends with nothing else, whatever its instances do while they are
    attached, and begins no op. -/
theorem ends_beyond (h : s.machine.Knows s.machine.thread)
    (beyond : s.machine.codeSize ≤ 8 * s.machine.config.entry) :
    s.machine.begins? = none ∧
    (s.machine.config.options.strict = false → ∀ result, s.Ending result →
      result = .error (.trap (.entryOutOfRange s.machine.config.entry))) := by
  -- No instruction begins, as all threads that could let one begin have the entry inside.
  refine ⟨Option.eq_none_iff_forall_ne_some.mpr ?_, ?_⟩
  · rintro ⟨segment, op, context⟩ begun
    cases Machine.begins?_eq_some_iff.mp begun with
    | standing working =>
        rw [working] at h
        exact absurd h.1 (Nat.not_lt.mpr beyond)
    | window entering =>
        rw [entering] at h
        exact absurd h.1 (Nat.not_lt.mpr beyond)
    | whole attached entered =>
        have inside := Segment.enter_eq_ok_iff.mp ⟨op, entered⟩
        rw [attached] at h
        rw [Machine.size_of_whole h.2 h.1] at inside
        have hslots := s.machine.codeSize_eq
        omega
  · intro lenient result ends
    -- Compiling does not fail, and a window is not entered, so the entry is what remains.
    cases ends with
    | uncompiled compiles failed =>
        rcases (valid_of_compiles h compiles).2 lenient with ⟨segment, compiled⟩
        rw [failed] at compiled
        contradiction
    | unentered | unstarted => rfl
    | window entering =>
        rw [entering] at h
        exact absurd h.1 (Nat.not_lt.mpr beyond)
    | trapped working | completed working | left working =>
        rw [working] at h
        exact absurd h.1 (Nat.not_lt.mpr beyond)

/-- In windows the driver refuses an entry outside before it does anything. Without windows,
    it compiles and attaches first. -/
theorem advance_starting (h : s.machine.Knows s.machine.thread)
    (lenient : s.machine.config.options.strict = false) (starting : s.machine.thread = .starting) :
    (s.machine.config.segmentSize ≠ none → s.machine.codeSize ≤ 8 * s.machine.config.entry →
      s.advance a = s.finish (.error (.trap (.entryOutOfRange s.machine.config.entry)))) ∧
    (s.machine.config.segmentSize = none ∨ 8 * s.machine.config.entry < s.machine.codeSize →
      (s.advance a).1 = .moved) := by
  -- In windows the entry is checked before anything is compiled, as a whole behind that.
  have hslots := s.machine.codeSize_eq
  cases hsize : s.machine.config.segmentSize with
  | some size =>
      rw [eq_of_smallStep (.windowed starting hsize), startWindowed_eq]
      refine ⟨fun _ beyond => if_neg (by omega), ?_⟩
      rintro (whole | inside)
      · contradiction
      · exact congrArg Prod.fst (if_pos (by omega))
  | none =>
      rw [eq_of_smallStep (.whole starting hsize)]
      refine ⟨fun windowed => absurd rfl windowed, fun _ => ?_⟩
      rcases (valid_of_compiles h (.whole starting hsize)).2 lenient with ⟨segment, compiled⟩
      unfold startWhole
      rw [compiled]
      rfl

/-- Then it refuses the entry as well, and nothing else. -/
theorem advance_attached (h : s.machine.Knows s.machine.thread) {outset : Outset}
    {context : Context} (attached : s.machine.thread = .attaching outset (.done context)) :
    (s.machine.codeSize ≤ 8 * s.machine.config.entry →
      s.advance a = s.finish (.error (.trap (.entryOutOfRange s.machine.config.entry)))) ∧
    (8 * s.machine.config.entry < s.machine.codeSize → (s.advance a).1 = .moved) := by
  have hslots := s.machine.codeSize_eq
  rw [eq_of_smallStep (.embarks attached)]
  rw [attached] at h
  cases outset with
  | windowed size offset =>
      -- The driver has seen before that the entry is inside.
      refine ⟨fun beyond => ?_, fun _ => rfl⟩
      have inside := h.2.2
      rw [h.2.1] at inside
      exact absurd inside (Nat.not_lt.mpr beyond)
  | whole segment =>
      have hsegment := Machine.size_of_whole h.2 h.1
      unfold embark enter
      refine ⟨fun beyond => ?_, fun inside => ?_⟩
      · have hentry : segment.size ≤ s.machine.config.entry := by omega
        simp only [Segment.enter_of_le hentry]
        rfl
      · have hentry : s.machine.config.entry < segment.size := by omega
        rcases Segment.enter_eq_ok_iff.mpr hentry with ⟨op, entered⟩
        simp only [entered]
        rfl

/-- Control that leaves a segment goes on in another window, or is outside of RAM. -/
theorem advance_left (h : s.machine.Knows s.machine.thread)
    (follows : s.Follows a (fun _ context => context.Instantiates s.machine.registry) chronicle)
    {segment : Segment} {target : Word} {context : Context}
    (leaving : s.machine.thread =
      .working segment (.done (.ok (.ended (.left target)), context))) :
    (s.machine.codeSize ≤ target.toNat →
      s.advance a = s.finish (.error (.trap (.jumpOutsideRam target)))) ∧
    (target.toNat < s.machine.codeSize → ∃ size, s.machine.config.segmentSize = some size ∧
      s.advance a = (.moved, s.modify (·.setThread (.entering size target context)))) := by
  rw [eq_of_smallStep (.leaves leaving), ← Machine.lt_codeEnd_iff]
  unfold leave
  cases hsize : s.machine.config.segmentSize with
  | some size =>
      refine ⟨fun beyond => ?_, fun inside => ⟨size, rfl, if_pos inside⟩⟩
      exact if_neg fun inside => Nat.not_lt.mpr beyond (Machine.lt_codeEnd_iff.mp inside)
  | none =>
      refine ⟨fun _ => rfl, fun inside => ?_⟩
      -- All of RAM is the segment, and control is outside of it.
      have without := (exit_of_left h follows leaving).2
      rw [leaving] at h
      have made := h.2.whole hsize
      rw [Segment.contains, made.1, made.2,
        decide_eq_true (UInt32.le_iff_toNat_le.mpr (Nat.zero_le _)), Bool.true_and,
        decide_eq_false_iff_not] at without
      exact absurd inside without

/-- Nothing else is a jump out of RAM. -/
theorem target_of_ending (h : s.machine.Knows s.machine.thread)
    (follows : s.Follows a (fun _ context => context.Instantiates s.machine.registry) chronicle)
    {target : Word} (ends : s.Ending (.error (.trap (.jumpOutsideRam target))))
    (unraised : ¬∃ u earlier, chronicle = u :: earlier ∧ u.Raised (.jumpOutsideRam target)) :
    s.machine.codeSize ≤ target.toNat ∧ ∃ segment context,
      s.machine.thread = .working segment (.done (.ok (.ended (.left target)), context)) := by
  -- A trap on the way would have been raised by an op that began.
  cases ends with
  | trapped failed => exact absurd (raised_of_trapped follows rfl failed) unraised
  | @left segment _ context leaving beyond =>
      refine ⟨?_, segment, context, leaving⟩
      rcases Nat.lt_or_ge target.toNat s.machine.codeSize with inside | outside
      · rcases (advance_left h follows leaving).2 inside with ⟨size, windowed, _⟩
        rcases beyond with whole | outside
        · rw [windowed] at whole
          contradiction
        · exact outside
      · exact outside

/-- A valid range fails to compile for one of its slots. -/
theorem slot_of_error {start stop : Word} {error : CompilationError}
    (valid : Segment.validRange s.machine.ram start stop = true)
    (failed : s.machine.compile start stop = .error error) :
    s.machine.config.options.strict = true ∧ ∃ slot, error.offset? = some slot ∧
      slot.toNat % 8 = 0 ∧ start.toNat ≤ slot.toNat ∧ slot.toNat + 8 ≤ stop.toNat := by
  rcases Segment.compile_eq_error_iff.mp failed with
    ⟨invalid, _⟩ | ⟨_, strict, index, inside, herror, _⟩
  · rw [valid] at invalid
    contradiction
  -- The slot that is refused is among those of the range.
  rcases Segment.slotError?_eq_some_iff.mp herror with ⟨cause, _, rfl⟩
  rcases Segment.toNat_offsetOf_of_lt valid inside with ⟨hslot, hbelow⟩
  have hstart := (Segment.validRange_iff.mp valid).2.1
  refine ⟨strict, Segment.offsetOf start index, Obstacle.offset?_errorAt cause _, ?_, ?_, ?_⟩ <;>
    omega

/-- A compilation fails for a slot of the window that control enters, if at all. -/
theorem slot_of_ending (h : s.machine.Knows s.machine.thread) {size : Word}
    (windowed : s.machine.config.segmentSize = some size) {error : CompilationError}
    (ends : s.Ending (.error (.compilation error))) :
    s.machine.config.options.strict = true ∧ ∃ offset context start stop slot,
      s.machine.thread = .entering size offset context ∧
      s.machine.windowOf size offset = (start, stop) ∧ error.offset? = some slot ∧
      slot.toNat % 8 = 0 ∧ start.toNat ≤ slot.toNat ∧ slot.toNat + 8 ≤ stop.toNat := by
  cases ends with
  | uncompiled compiles failed =>
      rcases slot_of_error (valid_of_compiles h compiles).1 failed with
        ⟨strict, slot, hslot, aligned, behind, before⟩
      -- In windows nothing is compiled as a whole.
      cases compiles with
      | whole _ whole =>
          rw [windowed] at whole
          contradiction
      | @window size' offset context entering =>
          rw [entering] at h
          have hsize := h.2.1
          rw [windowed] at hsize
          cases hsize
          exact ⟨strict, offset, context, _, _, slot, entering, rfl, hslot, aligned, behind, before⟩

/-! ## Runs whose entry is outside -/

/-- What is known of a run that has just begun. -/
theorem knows_after (a : Audience ω) (starting : s.machine.thread = .starting) (n : Nat) :
    (s.after a n).machine.Knows (s.after a n).machine.thread ∧
      s.machine.Fixed (s.after a n).machine := by
  rw [after_eq_playAll]
  exact ⟨knows_playAll _ s [] (by rw [starting]; trivial) (follows_of_starting starting),
    fixed_playAll a _ s⟩

/-- A run whose entry is outside reaches no instruction. -/
theorem reaches?_of_beyond (a : Audience ω) (starting : s.machine.thread = .starting)
    (beyond : s.machine.slotCount ≤ s.machine.config.entry) (n : Nat) :
    (s.after a n).reaches? = none := by
  have knows := (knows_after a starting n).1
  have fixed := (knows_after a starting n).2
  have hslots := (s.after a n).machine.codeSize_eq
  have hcount : (s.after a n).machine.slotCount = s.machine.slotCount :=
    Machine.slotCount_of_size fixed.size
  have houtside : ¬ 8 * (s.after a n).machine.config.entry < (s.after a n).machine.codeSize := by
    rw [fixed.config]
    omega
  -- What the thread knows excludes that it is in a segment.
  generalize hthread : (s.after a n).machine.thread = thread at knows
  unfold reaches?
  rw [hthread]
  cases thread with
  | idle | starting | detained | waiting => rfl
  | entering | working => exact absurd knows.1 houtside
  | attaching outset rest =>
      cases outset with
      | windowed => rfl
      | whole segment =>
          cases rest with
          | ask => rfl
          | done context =>
              refine if_neg ?_
              rw [Machine.size_of_whole knows.2 knows.1]
              omega

theorem begun_of_beyond (a : Audience ω) (starting : s.machine.thread = .starting)
    (beyond : s.machine.slotCount ≤ s.machine.config.entry) (n : Nat) : s.begun a n = 0 := by
  induction n with
  | zero => rfl
  | succ n ih =>
      rw [begun_succ, ih, reaches?_of_beyond a starting beyond]
      rfl

/-- Without windows such a run attaches its instances, and then fails. -/
theorem comes_of_beyond (o : Observer ω) (free : s.Free)
    (starting : s.machine.thread = .starting) (whole : s.machine.config.segmentSize = none)
    (lenient : s.machine.config.options.strict = false)
    (beyond : s.machine.slotCount ≤ s.machine.config.entry) :
    ∃ ended, s.Comes o.audience
      (.error (.trap (.entryOutOfRange s.machine.config.entry))) ended := by
  -- The program compiles as a whole, binds its context, and then fails to enter.
  have hcompile := Machine.compile_part lenient (Nat.zero_le s.machine.slotCount) (Nat.le_refl _)
  rw [← Machine.codeEnd_eq, show Segment.offsetOf 0 0 = 0 from rfl] at hcompile
  generalize Segment.part s.machine.registry s.machine.config.options s.machine.ram 0
    s.machine.slotCount = segment at hcompile
  have hstart : s.advance o.audience = s.board (.whole segment) := by
    rw [eq_of_smallStep (.whole starting whole)]
    simp only [startWhole, hcompile]
  have hthread : (s.after o.audience 1).machine.thread =
      .attaching (.whole segment) (Context.fresh s.machine.registry).bind := by
    simp only [after, hstart]
    rfl
  rcases exists_done o (.attaching _) (Context.ends_bind_context _) _ (free_after o free 1) hthread
    with ⟨n, context, _, hdone⟩
  rw [← after_add] at hdone
  have knows := (knows_after o.audience starting (1 + n)).1
  have fixed := (knows_after o.audience starting (1 + n)).2
  have hslots := (s.after o.audience (1 + n)).machine.codeSize_eq
  rw [Machine.slotCount_of_size fixed.size] at hslots
  have hfails := (advance_attached (a := o.audience) knows hdone).1 (by rw [fixed.config]; omega)
  rw [fixed.config] at hfails
  exact ⟨_, 1 + n, hfails⟩

/-- The driver stays inside of RAM, whatever size RAM and windows have, whatever the entry
    is, whatever RAM holds, and whatever is done between the steps. Unless compilation is
    strict, no range fails to compile, and ops are begun exactly if the entry is in the part
    of RAM that can hold instructions. An entry outside is reported before any op is begun,
    in windows before anything is done and else once the instances are attached; it is all
    that such an execution ends with, and nothing else is reported so. The window that
    control enters begins and ends at slots of RAM, the offset is in it, and its instruction
    is one of the segment. Control that leaves a segment goes on in another window or is
    outside of RAM, which is reported, and nothing else is. A strict compilation in windows
    fails for a slot of the window that control enters. Reports of the same kind that
    handlers of modules make are theirs. -/
theorem driver_stays_in_ram (a : Audience ω) {s : Session ω} (idle : s.machine.thread = .idle)
    (acts : List (Act ω)) :
    let t := s.playAll a acts
    let m := t.machine
    let chronicle := s.chronicle a acts
    let Ends := fun result => ∃ t', t.advance a = (.finished result, t')
    let Raised := fun trap => ∃ u earlier, chronicle = u :: earlier ∧ u.Raised trap
    (m.config = s.machine.config ∧ m.codeSize = min s.machine.ram.size 0xFFFFFFFF / 8 * 8) ∧
    (m.config.options.strict = false →
      (∀ error, ¬Ends (.error (.compilation error))) ∧
      (m.thread = .starting →
        (m.config.segmentSize ≠ none → m.codeSize ≤ 8 * m.config.entry →
          t.advance a = t.finish (.error (.trap (.entryOutOfRange m.config.entry)))) ∧
        (m.config.segmentSize = none ∨ 8 * m.config.entry < m.codeSize →
          (t.advance a).1 = .moved)) ∧
      (∀ outset context, m.thread = .attaching outset (.done context) →
        (m.codeSize ≤ 8 * m.config.entry →
          t.advance a = t.finish (.error (.trap (.entryOutOfRange m.config.entry)))) ∧
        (8 * m.config.entry < m.codeSize → (t.advance a).1 = .moved)) ∧
      (m.codeSize ≤ 8 * m.config.entry → m.begins? = none ∧
        ∀ result, Ends result → result = .error (.trap (.entryOutOfRange m.config.entry)))) ∧
    (∀ index, Ends (.error (.trap (.entryOutOfRange index))) → ¬Raised (.entryOutOfRange index) →
      (m.thread = .starting ∨
        ∃ segment context, m.thread = .attaching (.whole segment) (.done context)) ∧
      chronicle = [] ∧ index = m.config.entry ∧ m.codeSize ≤ 8 * m.config.entry) ∧
    (∀ size offset context, m.thread = .entering size offset context →
      ∃ start stop, m.windowOf size offset = (start, stop) ∧ start.toNat % 8 = 0 ∧
        start.toNat ≤ offset.toNat ∧ offset.toNat < stop.toNat ∧ stop.toNat ≤ m.codeSize ∧
        ((offset - start) / 8).toNat = (offset.toNat - start.toNat) / instructionSize ∧
        (m.config.options.strict = false → ∃ segment, m.compile start stop = .ok segment) ∧
        ∀ segment, m.compile start stop = .ok segment →
          ((offset - start) / 8).toNat < segment.size) ∧
    (∀ segment target context,
      m.thread = .working segment (.done (.ok (.ended (.left target)), context)) →
        (m.codeSize ≤ target.toNat →
          t.advance a = t.finish (.error (.trap (.jumpOutsideRam target)))) ∧
        (target.toNat < m.codeSize → ∃ size, m.config.segmentSize = some size ∧
          t.advance a = (.moved, t.modify (·.setThread (.entering size target context))))) ∧
    (∀ target, Ends (.error (.trap (.jumpOutsideRam target))) → ¬Raised (.jumpOutsideRam target) →
      m.codeSize ≤ target.toNat ∧ ∃ segment context,
        m.thread = .working segment (.done (.ok (.ended (.left target)), context))) ∧
    ∀ size error, m.config.segmentSize = some size → Ends (.error (.compilation error)) →
      m.config.options.strict = true ∧ ∃ offset context start stop slot,
        m.thread = .entering size offset context ∧ m.windowOf size offset = (start, stop) ∧
        error.offset? = some slot ∧ slot.toNat % 8 = 0 ∧ start.toNat ≤ slot.toNat ∧
        slot.toNat + 8 ≤ stop.toNat := by
  intro t m chronicle Ends Raised
  have fixed := fixed_playAll a acts s
  have follows : t.Follows a (fun _ context => context.Instantiates m.registry) chronicle := by
    have hregistry : m.registry = s.machine.registry := fixed.registry
    rw [hregistry]
    exact follows_playAll (handedOn_instantiates s.machine.registry) idle rfl acts
  have knows : m.Knows m.thread :=
    knows_playAll acts s [] (by rw [idle]; trivial) (follows_of_idle idle)
  -- First RAM, then lenient runs by how they start, attach and end, then each end by itself.
  refine ⟨⟨fixed.config, ?_⟩, fun lenient => ⟨?_, ?_, ?_, ?_⟩, ?_, ?_, ?_, ?_, ?_⟩
  · rw [Machine.codeSize_of_fixed fixed]
    simp only [Machine.codeSize, instructionSize]
    omega
  · rintro error ⟨t', ends⟩
    cases ending_of_advance ends with
    | uncompiled compiles failed =>
        rcases (valid_of_compiles knows compiles).2 lenient with ⟨segment, compiled⟩
        rw [failed] at compiled
        contradiction
  · exact advance_starting knows lenient
  · exact fun outset context attached => advance_attached knows attached
  · intro beyond
    refine ⟨(ends_beyond knows beyond).1, fun result ends => ?_⟩
    rcases ends with ⟨t', ends⟩
    exact (ends_beyond knows beyond).2 lenient result (ending_of_advance ends)
  · rintro index ⟨t', ends⟩ unraised
    exact entry_of_ending knows follows (ending_of_advance ends) unraised
  · exact fun size offset context entering => window_of_entering knows entering
  · exact fun segment target context leaving => advance_left knows follows leaving
  · rintro target ⟨t', ends⟩ unraised
    exact target_of_ending knows follows (ending_of_advance ends) unraised
  · rintro size error windowed ⟨t', ends⟩
    exact slot_of_ending knows windowed (ending_of_advance ends)

end Ends

/-- A session with two instructions and a few bytes behind them, that begins at the second
    one and executes in the smallest windows. -/
def narrowSession : Session Unit where
  machine :=
    { registry := Registry.standard, config := { ramSize := 20, entry := 1, segmentSize := some 0 },
      ram := ⟨#[0x11, 0, 0, 0, 0x01, 0, 0, 0, 0x11, 0, 0, 0, 0x01, 0, 0, 0, 0, 0, 0, 0]⟩ }
  audience := ()

-- The first window is the second instruction, and the bytes behind it are in none.
theorem driver_stays_in_ram_narrow :
    let a : Audience Unit := ⟨fun _ _ _ _ => .accept, 0⟩
    let t := narrowSession.playAll a (.execute :: List.replicate 3 .advance)
    narrowSession.machine.thread = .idle ∧ t.machine.codeSize = 16 ∧
      (∃ context, t.machine.thread = .entering 0 8 context) ∧
      ∃ start stop, t.machine.windowOf 0 8 = (start, stop) ∧ stop.toNat ≤ 16 ∧
        ∃ segment, t.machine.compile start stop = .ok segment ∧ 0 < segment.size := by
  intro a t
  -- Three steps lead to where the window of the slot at 8 is to be compiled.
  have entering : ∃ context, t.machine.thread = .entering 0 8 context := by
    refine ⟨(Context.fresh Registry.standard), ?_⟩
    simp only [t, playAll, List.replicate, List.foldl_cons, List.foldl_nil, play]
    rfl
  have hcodeSize : t.machine.codeSize = 16 := by decide +kernel
  have lenient : t.machine.config.options.strict = false := by decide +kernel
  refine ⟨rfl, hcodeSize, entering, ?_⟩
  rw [← hcodeSize]
  rcases entering with ⟨context, entering⟩
  rcases (driver_stays_in_ram a (s := narrowSession) rfl
    (.execute :: List.replicate 3 .advance)).2.2.2.1 0 8 context entering with
    ⟨start, stop, hwindow, _, _, _, below, _, compiles, hentry⟩
  rcases compiles lenient with ⟨segment, compiled⟩
  exact ⟨start, stop, hwindow, below, segment, compiled,
    Nat.lt_of_le_of_lt (Nat.zero_le _) (hentry segment compiled)⟩

end Session

end Transport
