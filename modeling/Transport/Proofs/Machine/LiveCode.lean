import Transport.Proofs.Machine.Acts
import Transport.Proofs.Segment.Layout
import Transport.Registry.Standard

/-!
# No Stale Code Is Executed

What a segment was compiled from is what RAM holds for as long as the segment
executes. This is an invariant of all states that a session comes to, whatever
the program, the listeners and the one in control do, and in whatever order.

A segment is compiled from RAM as it is at that moment, and the origin of a state
remembers the segment and that RAM. From the moment the code is live, the compiled
slots cannot change any more. A window is compiled and made live in one step. A
segment that is all of RAM is compiled first, and is live only once the instances
are attached: what is stored in between, by an instance that is being attached or
while one waits at a suspension point, goes unnoticed. So the origin also remembers
RAM as it was when the code became live, and code is current if the two are the same.

Slots that did not compile may change. A run that reaches one ends, and whether it
is the instruction that was compiled or another decides how.

## Main definitions

* `Origin`: The segment that was compiled last, and RAM as it was then and as it was when
  the code became live.
* `Session.origin?`: The origin of the code behind acts.
* `Session.Quiet`: Nothing is stored while the instances are attached to code that is not
  live yet.
* `Machine.Faithful`: RAM holds what a segment was compiled from.
* `Session.Sound`: The invariant.

## Theorems

* `sound_advance`: The compute thread keeps the invariant.
* `sound_originFrom`: All states that are reached have it.
* `undisturbed_of_quiet`: Code is live as it was compiled, if nothing was stored in between.
* `settle_trap`: What a trap op does.
* `live_code_is_current`: No stale code is executed.
* `live_code_can_be_stale`: An instance that stores while it is attached leaves stale code.
-/

namespace Transport

/-- The segment that was compiled last, and what RAM held. -/
structure Origin where
  segment : Segment
  /-- RAM as it was when the segment was compiled. -/
  image : Ram
  /-- RAM as it was when the code of the segment became live. -/
  entered : Ram

namespace Thread

/-- The segment that the thread executes, at work on an op or waiting inside it. -/
def segment? : Thread → Option Segment
  | .working segment _ => some segment
  | .waiting segment _ => some segment
  | _ => none

/-- The segment of all of RAM that was compiled before the instances are attached. -/
def aboard? : Thread → Option Segment
  | .attaching (.whole segment) _ => some segment
  | .detained (.whole segment) _ => some segment
  | _ => none

/-- Whether the thread has entered a segment, or several. -/
def hasEntered : Thread → Bool
  | .entering _ _ _ => true
  | .working _ _ => true
  | .waiting _ _ => true
  | _ => false

/-- Behind an answer the thread is where it was. -/
theorem segment?_of_asks {thread : Thread} {r : Request} {next : r.Answer → Thread}
    (h : thread.Asks r next) (answer : r.Answer) :
    (next answer).segment? = thread.segment? ∧ (next answer).aboard? = thread.aboard? ∧
      (next answer).hasEntered = thread.hasEntered := by
  cases h with
  | attaching outset => cases outset <;> unfold onAnswer <;> split <;> exact ⟨rfl, rfl, rfl⟩
  | working => unfold onAnswer; split <;> exact ⟨rfl, rfl, rfl⟩

/-- So it is behind a suspension point. -/
theorem segment?_of_waits {thread next : Thread} (h : thread.Waits next) :
    next.segment? = thread.segment? ∧ next.aboard? = thread.aboard? ∧
      next.hasEntered = thread.hasEntered := by
  cases h with
  | attaching outset resume => cases outset <;> exact ⟨rfl, rfl, rfl⟩
  | working segment resume => exact ⟨rfl, rfl, rfl⟩

end Thread

namespace Machine

/-- The segment that the next small step of the compute thread compiles, if it
    compiles one. -/
def compiling? (m : Machine) : Option Segment :=
  match m.thread with
  | .starting =>
    match m.config.segmentSize with
    | none => (m.compile 0 m.codeEnd).toOption
    | some _ => none
  | .entering size offset _ =>
    (m.compile (m.windowOf size offset).1 (m.windowOf size offset).2).toOption
  | _ => none

/-- Whether the next small step makes the segment of all of RAM live. -/
def embarks (m : Machine) : Bool :=
  match m.thread with
  | .attaching (.whole _) (.done _) => true
  | _ => false

/-- The origin behind the next small step. -/
def originAfter (m : Machine) (origin : Option Origin) : Option Origin :=
  match m.compiling? with
  | some segment => some ⟨segment, m.ram, m.ram⟩
  | none => if m.embarks then origin.map fun o => { o with entered := m.ram } else origin

/-- A segment was compiled from the image of an origin, and RAM is of the same size. -/
structure Compiled (m : Machine) (o : Origin) : Prop where
  compiled : Segment.compile m.registry m.config.options o.image o.segment.start
    o.segment.stop = .ok o.segment
  size : m.ram.size = o.image.size

/-- RAM holds what it held when the code of a segment became live, as far as it was
    compiled. -/
structure Faithful (m : Machine) (o : Origin) : Prop extends m.Compiled o where
  /-- The compiled slots are as they were. -/
  code : ∀ index, o.segment.codeMap.compiled[index]? = some true →
    Ram.Same m.ram o.entered (o.segment.codeMap.slotStart index) instructionSize

end Machine

namespace Session

variable {ω : Type}

/-- The origin behind an act. -/
def originAfter (s : Session ω) (act : Act ω) (origin : Option Origin) : Option Origin :=
  match act with
  | .advance => s.machine.originAfter origin
  | _ => origin

/-- The origin behind acts. -/
def originFrom (a : Audience ω) (origin : Option Origin) (s : Session ω) :
    List (Act ω) → Option Origin
  | [] => origin
  | act :: acts => originFrom a (s.originAfter act origin) (s.play a act) acts

/-- The origin behind acts before which nothing was compiled. -/
def origin? (a : Audience ω) (s : Session ω) (acts : List (Act ω)) : Option Origin :=
  s.originFrom a none acts

/-- Nothing is stored between the compilation of all of RAM and the moment at which the
    code becomes live. -/
def Quiet (a : Audience ω) : Session ω → List (Act ω) → Prop
  | _, [] => True
  | s, act :: acts =>
    (s.machine.thread.aboard?.isSome = true → (s.play a act).machine.ram = s.machine.ram) ∧
      Quiet a (s.play a act) acts

instance decidableQuiet (a : Audience ω) :
    ∀ (s : Session ω) (acts : List (Act ω)), Decidable (s.Quiet a acts)
  | _, [] => isTrue trivial
  | s, act :: acts =>
    have := decidableQuiet a (s.play a act) acts
    inferInstanceAs (Decidable ((_ → _) ∧ _))

/-- What holds of every state that is reached. -/
structure Sound (s : Session ω) (origin : Option Origin) : Prop where
  /-- Live code has an origin, and RAM still holds it. -/
  live : ∀ map, s.machine.liveCode = some map → ∃ o, origin = some o ∧
    map = o.segment.codeMap ∧ s.machine.Faithful o
  /-- The segment that executes is the one that is live. -/
  executes : ∀ segment, s.machine.thread.segment? = some segment →
    s.machine.liveCode = some segment.codeMap ∧ ∃ o, origin = some o ∧ o.segment = segment
  /-- The segment that is about to be entered is that of the origin, and all of RAM. -/
  aboard : ∀ segment, s.machine.thread.aboard? = some segment →
    s.machine.config.segmentSize = none ∧
      ∃ o, origin = some o ∧ o.segment = segment ∧ s.machine.Compiled o
  /-- Nothing happens between the compilation of a window and its entry. -/
  windows : s.machine.config.segmentSize ≠ none → ∀ o, origin = some o → o.entered = o.image
  /-- Outside of an execution no code is live, nor before its first segment. -/
  idle : s.machine.thread.hasEntered = false → s.machine.liveCode = none

end Session

namespace Machine

variable {m m' : Machine}

theorem compiled_of_eq {o : Origin} (registry : m'.registry = m.registry)
    (config : m'.config = m.config) (size : m'.ram.size = m.ram.size) (compiled : m.Compiled o) :
    m'.Compiled o where
  compiled := by
    rw [registry, config]
    exact compiled.compiled
  size := size.trans compiled.size

theorem faithful_of_guards {o : Origin} (h : Guards m m')
    (live : m.liveCode = some o.segment.codeMap) (faithful : m.Faithful o) : m'.Faithful o where
  toCompiled := compiled_of_eq h.registry h.config h.size faithful.toCompiled
  code index compiled :=
    Ram.same_trans (h.code _ live index compiled) (faithful.code index compiled)

theorem faithful_of_eq {o : Origin} (registry : m'.registry = m.registry)
    (config : m'.config = m.config) (ram : m'.ram = m.ram) (faithful : m.Faithful o) :
    m'.Faithful o where
  toCompiled := compiled_of_eq registry config (by rw [ram]) faithful.toCompiled
  code := by
    rw [ram]
    exact faithful.code

/-- A segment is what RAM is compiled into at the moment that it is compiled. -/
theorem compiled_of_compile {start stop : Word} {segment : Segment}
    (h : m.compile start stop = .ok segment) (entered : Ram) :
    m.Compiled ⟨segment, m.ram, entered⟩ where
  compiled := by
    -- A segment knows the range that it was compiled from.
    rcases Segment.range_of_compile h with ⟨_, hstart, hstop, _⟩
    rw [hstart, hstop]
    exact h
  size := rfl

/-- RAM holds what it holds at the moment that code becomes live. -/
theorem faithful_of_compiled {o : Origin} (h : m.Compiled o) :
    m.Faithful { o with entered := m.ram } where
  toCompiled := ⟨h.compiled, h.size⟩
  code _ _ := Ram.same_refl _ _ _

end Machine

namespace Session

variable {ω : Type} {s s' : Session ω} {origin : Option Origin}

/-- What leaves live code alone keeps the invariant. -/
theorem sound_of_guards (h : s.machine.Guards s'.machine) (sound : s.Sound origin) :
    s'.Sound origin := by
  -- A thread that is told to begin is in no segment, and neither was it before.
  have hthread : s'.machine.thread.segment? = s.machine.thread.segment? ∧
      s'.machine.thread.aboard? = s.machine.thread.aboard? ∧
      s'.machine.thread.hasEntered = s.machine.thread.hasEntered := by
    rcases h.thread with same | ⟨idle, starting⟩
    · rw [same]
      exact ⟨rfl, rfl, rfl⟩
    · rw [idle, starting]
      exact ⟨rfl, rfl, rfl⟩
  refine ⟨?_, ?_, ?_, ?_, ?_⟩
  · intro map live
    rw [h.liveCode] at live
    rcases sound.live map live with ⟨o, horigin, rfl, faithful⟩
    exact ⟨o, horigin, rfl, Machine.faithful_of_guards h live faithful⟩
  · rw [hthread.1, h.liveCode]
    exact sound.executes
  · intro segment aboard
    rw [hthread.2.1] at aboard
    rcases sound.aboard segment aboard with ⟨hsize, o, horigin, hsegment, compiled⟩
    rw [h.config]
    exact ⟨hsize, o, horigin, hsegment,
      Machine.compiled_of_eq h.registry h.config h.size compiled⟩
  · rw [h.config]
    exact sound.windows
  · rw [hthread.2.2, h.liveCode]
    exact sound.idle

/-- Another thread keeps the invariant, unless it enters a segment or goes aboard one. -/
theorem sound_setThread {thread : Thread} (sound : s.Sound origin)
    (same : ∀ segment, thread.segment? = some segment →
      s.machine.thread.segment? = some segment)
    (aboard : ∀ segment, thread.aboard? = some segment →
      s.machine.thread.aboard? = some segment)
    (outside : thread.hasEntered = false → s.machine.thread.hasEntered = false) :
    (s.modify (·.setThread thread)).Sound origin where
  -- Only the thread has changed, so what the code map says of RAM still holds.
  live map live := by
    rcases sound.live map live with ⟨o, horigin, hmap, faithful⟩
    exact ⟨o, horigin, hmap, Machine.faithful_of_eq (m := s.machine) rfl rfl rfl faithful⟩
  executes segment executes := sound.executes segment (same segment executes)
  aboard segment hthread := by
    rcases sound.aboard segment (aboard segment hthread) with
      ⟨hsize, o, horigin, hsegment, compiled⟩
    exact ⟨hsize, o, horigin, hsegment,
      Machine.compiled_of_eq (m := s.machine) rfl rfl rfl compiled⟩
  windows := sound.windows
  idle h := sound.idle (outside h)

theorem sound_finish {s : Session ω} {origin : Option Origin}
    (windows : s.machine.config.segmentSize ≠ none → ∀ o, origin = some o → o.entered = o.image)
    (result : Except ExecutionError Unit) : (s.finish result).2.Sound origin where
  live _ live := absurd live
    (by simp only [finish, modify, Machine.clear, reduceCtorEq, not_false_eq_true])
  executes _ executes := absurd executes
    (by simp only [finish, modify, Machine.clear, Thread.segment?, reduceCtorEq,
      not_false_eq_true])
  aboard _ aboard := absurd aboard
    (by simp only [finish, modify, Machine.clear, Thread.aboard?, reduceCtorEq,
      not_false_eq_true])
  windows := windows
  idle _ := rfl

/-- A thread that goes on in its segment keeps the invariant. -/
theorem sound_work {segment : Segment} (sound : s.Sound origin)
    (executes : s.machine.thread.segment? = some segment) (rest : Remainder) :
    (s.work segment rest).2.Sound origin := by
  refine sound_setThread sound ?_ ?_ ?_
  · intro segment' same
    cases same
    exact executes
  · exact fun _ aboard => by cases aboard
  · exact fun outside => by cases outside

/-- A segment that is made live and entered is what RAM is compiled into as it is. -/
theorem sound_enter {o : Origin} (compiled : s.machine.Compiled o)
    (same : o.entered = s.machine.ram)
    (windows : s.machine.config.segmentSize ≠ none → o.entered = o.image)
    (entry : Nat) (context : Context) :
    ((s.modify (·.setLive o.segment)).enter o.segment entry context).2.Sound (some o) := by
  have faithful := Machine.faithful_of_compiled compiled
  rw [← same] at faithful
  have hwindows : s.machine.config.segmentSize ≠ none →
      ∀ o', some o = some o' → o'.entered = o'.image := by
    rintro sized _ ⟨⟩
    exact windows sized
  unfold enter
  -- An entry behind the segment ends the execution at once.
  split
  · exact sound_finish (s := s.modify (·.setLive o.segment)) hwindows _
  · refine ⟨?_, ?_, ?_, hwindows, ?_⟩
    · intro map live
      cases live
      exact ⟨_, rfl, rfl, ⟨faithful.compiled, faithful.size⟩, faithful.code⟩
    · intro segment' executes
      cases executes
      exact ⟨rfl, _, rfl, rfl⟩
    · exact fun _ aboard => by cases aboard
    · exact fun outside => by cases outside

/-- Compiling all of RAM keeps the invariant. -/
theorem sound_startWhole (sound : s.Sound origin) (starting : s.machine.thread = .starting)
    (whole : s.machine.config.segmentSize = none) :
    s.startWhole.2.Sound (s.machine.originAfter origin) := by
  have hnone := sound.idle (by rw [starting]; rfl)
  simp only [Machine.originAfter, Machine.compiling?, Machine.embarks, starting, whole, startWhole]
  cases hcompile : s.machine.compile 0 s.machine.codeEnd with
  | error error => exact sound_finish sound.windows _
  | ok segment =>
      -- The segment is aboard now, but none of its code is live.
      refine ⟨?_, ?_, ?_, ?_, fun _ => hnone⟩
      · intro map live
        cases hnone.symm.trans live
      · exact fun _ executes => by cases executes
      · rintro segment' ⟨⟩
        refine ⟨whole, _, rfl, rfl, ?_⟩
        exact Machine.compiled_of_eq (m := s.machine) rfl rfl rfl
          (Machine.compiled_of_compile hcompile _)
      · exact fun sized => absurd whole sized

/-- Looking for the first window keeps the invariant. -/
theorem sound_startWindowed (sound : s.Sound origin) (starting : s.machine.thread = .starting)
    {size : Word} (windowed : s.machine.config.segmentSize = some size) :
    (s.startWindowed size).2.Sound (s.machine.originAfter origin) := by
  -- The origin stays: in windows nothing is compiled before the entry is looked at.
  have hafter : s.machine.originAfter origin = origin := by
    simp only [Machine.originAfter, Machine.compiling?, Machine.embarks, starting, windowed,
      Bool.false_eq_true, if_false]
  rw [hafter, startWindowed_eq]
  split
  · refine sound_setThread sound ?_ ?_ fun _ => by rw [starting]; rfl
    · exact fun _ executes => by cases executes
    · exact fun _ aboard => by cases aboard
  · exact sound_finish sound.windows _

/-- Leaving a segment keeps the invariant. -/
theorem sound_leave (sound : s.Sound origin) (target : Word) (context : Context) :
    (s.leave target context).2.Sound origin := by
  unfold leave
  split
  · split
    · refine sound_setThread sound ?_ ?_ ?_
      · exact fun _ executes => by cases executes
      · exact fun _ aboard => by cases aboard
      · exact fun outside => by cases outside
    · exact sound_finish sound.windows _
  · exact sound_finish sound.windows _

/-- Going aboard with attached instances keeps the invariant. -/
theorem sound_embark (sound : s.Sound origin) {outset : Outset} {context : Context}
    (attaching : s.machine.thread = .attaching outset (.done context)) :
    (s.embark context outset).2.Sound (s.machine.originAfter origin) := by
  -- A whole program was compiled before it was attached, and RAM may have changed since. A
  -- window is compiled behind all that.
  cases outset with
  | whole segment =>
      rcases sound.aboard segment (by rw [attaching]; rfl) with
        ⟨hsize, o, rfl, rfl, compiled⟩
      simp only [Machine.originAfter, Machine.compiling?, Machine.embarks, attaching, if_true,
        Option.map_some, embark]
      exact sound_enter (o := { o with entered := s.machine.ram })
        ⟨compiled.compiled, compiled.size⟩ rfl (fun sized => absurd hsize sized) _ _
  | windowed size offset =>
      simp only [Machine.originAfter, Machine.compiling?, Machine.embarks, attaching,
        Bool.false_eq_true, if_false, embark]
      refine sound_setThread sound ?_ ?_ ?_
      · exact fun _ executes => by cases executes
      · exact fun _ aboard => by cases aboard
      · exact fun outside => by cases outside

/-- Entering a window keeps the invariant. -/
theorem sound_enterWindow (sound : s.Sound origin) {size offset : Word} {context : Context}
    (entering : s.machine.thread = .entering size offset context) :
    (s.enterWindow size offset context).2.Sound (s.machine.originAfter origin) := by
  simp only [Machine.originAfter, Machine.compiling?, Machine.embarks, entering, enterWindow]
  cases hcompile : s.machine.compile (s.machine.windowOf size offset).1
    (s.machine.windowOf size offset).2 with
  | error error => exact sound_finish sound.windows _
  | ok segment =>
      exact sound_enter (o := ⟨segment, s.machine.ram, s.machine.ram⟩)
        (Machine.compiled_of_compile hcompile _) rfl (fun _ => rfl) _ _

/-- Asking keeps the invariant. -/
theorem sound_of_asks (sound : s.Sound origin) (a : Audience ω) {r : Request}
    {next : r.Answer → Thread} (h : s.machine.thread.Asks r next) :
    ((s.answer a r).2.modify (·.setThread (next (s.answer a r).1))).Sound origin := by
  rcases Thread.segment?_of_asks h (s.answer a r).1 with ⟨hsegment, haboard, hentered⟩
  refine sound_setThread (sound_of_guards (guards_answer a s r) sound) ?_ ?_ ?_ <;>
    rw [thread_answer a h]
  · rw [hsegment]; exact fun _ => id
  · rw [haboard]; exact fun _ => id
  · rw [hentered]; exact id

/-- Waiting keeps the invariant. -/
theorem sound_of_waits (sound : s.Sound origin) {next : Thread}
    (h : s.machine.thread.Waits next) : (s.resume next).2.Sound origin := by
  rcases Thread.segment?_of_waits h with ⟨hsegment, haboard, hentered⟩
  unfold resume
  split
  · exact sound
  · -- Passing the suspension point changes the run state only.
    have hpass : s.machine.Guards (s.modify Machine.pass).machine :=
      Machine.guards_of_eq rfl rfl rfl rfl rfl
    refine sound_setThread (sound_of_guards hpass sound) ?_ ?_ ?_
    · rw [hsegment]; exact fun _ => id
    · rw [haboard]; exact fun _ => id
    · rw [hentered]; exact id

/-- Nothing is compiled or made live where something is asked or waited for, nor while the
    thread is in a segment. -/
theorem originAfter_of_asks {m : Machine} {r : Request} {next : r.Answer → Thread}
    (h : m.thread.Asks r next) (origin : Option Origin) : m.originAfter origin = origin := by
  generalize hthread : m.thread = thread at h
  cases h with
  | attaching outset =>
      cases outset <;> simp only [Machine.originAfter, Machine.compiling?, Machine.embarks,
        hthread, Bool.false_eq_true, if_false]
  | working => simp only [Machine.originAfter, Machine.compiling?, Machine.embarks, hthread,
      Bool.false_eq_true, if_false]

theorem originAfter_of_waits {m : Machine} {next : Thread} (h : m.thread.Waits next)
    (origin : Option Origin) : m.originAfter origin = origin := by
  generalize hthread : m.thread = thread at h
  cases h <;> simp only [Machine.originAfter, Machine.compiling?, Machine.embarks, hthread,
    Bool.false_eq_true, if_false]

theorem originAfter_of_working {m : Machine} {segment : Segment} {rest : Remainder}
    (h : m.thread = .working segment rest) (origin : Option Origin) :
    m.originAfter origin = origin := by
  simp only [Machine.originAfter, Machine.compiling?, Machine.embarks, h, Bool.false_eq_true,
    if_false]

/-- The compute thread keeps the invariant. -/
theorem sound_advance (sound : s.Sound origin) (a : Audience ω) :
    (s.advance a).2.Sound (s.machine.originAfter origin) := by
  have h := smallStep_advance a s
  -- A case for each kind of step. The origin moves only where a segment is compiled or entered.
  generalize s.advance a = result at h ⊢
  cases h with
  | idle idle =>
      simp only [Machine.originAfter, Machine.compiling?, Machine.embarks, idle,
        Bool.false_eq_true, if_false]
      exact sound
  | asks asks =>
      rw [originAfter_of_asks asks]
      exact sound_of_asks sound a asks
  | waits waits =>
      rw [originAfter_of_waits waits]
      exact sound_of_waits sound waits
  | whole starting whole => exact sound_startWhole sound starting whole
  | windowed starting windowed => exact sound_startWindowed sound starting windowed
  | embarks attached => exact sound_embark sound attached
  | enters entering => exact sound_enterWindow sound entering
  | traps trapped =>
      rw [originAfter_of_working trapped]
      exact sound_finish sound.windows _
  | begins standing =>
      rw [originAfter_of_working standing]
      exact sound_work sound (by rw [standing]; rfl) _
  | completes completed =>
      rw [originAfter_of_working completed]
      exact sound_finish sound.windows _
  | leaves left =>
      rw [originAfter_of_working left]
      exact sound_leave sound _ _

/-- Where nothing was compiled, nothing has to hold. -/
theorem sound_fresh (idle : s.machine.thread = .idle) (live : s.machine.liveCode = none) :
    s.Sound none := by
  refine ⟨?_, ?_, ?_, ?_, fun _ => live⟩
  · intro map some
    cases live.symm.trans some
  · intro segment executes
    rw [idle] at executes
    cases executes
  · intro segment aboard
    rw [idle] at aboard
    cases aboard
  · exact fun _ _ none => by cases none

/-- Only the compute thread compiles. -/
theorem originAfter_of_ne (s : Session ω) {act : Act ω} (beside : act ≠ .advance)
    (origin : Option Origin) : s.originAfter act origin = origin := by
  unfold originAfter
  split
  · exact absurd rfl beside
  · rfl

theorem sound_play (sound : s.Sound origin) (a : Audience ω) (act : Act ω) :
    (s.play a act).Sound (s.originAfter act origin) := by
  by_cases advances : act = .advance
  · rw [advances]
    exact sound_advance sound a
  · rw [originAfter_of_ne s advances]
    exact sound_of_guards (guards_play a s advances) sound

/-- Every state that is reached has the invariant. -/
theorem sound_originFrom (a : Audience ω) (acts : List (Act ω)) :
    ∀ (s : Session ω) (origin : Option Origin), s.Sound origin →
      (s.playAll a acts).Sound (s.originFrom a origin acts) := by
  induction acts with
  | nil => exact fun _ _ sound => sound
  | cons act acts ih => exact fun s origin sound => ih _ _ (sound_play sound a act)

/-! ## Quiet attachments -/

/-- What is live is what was compiled, and what is about to be is what RAM holds. -/
structure Undisturbed (s : Session ω) (origin : Option Origin) : Prop where
  entered : ∀ o, origin = some o → o.entered = o.image
  aboard : ∀ segment, s.machine.thread.aboard? = some segment →
    ∀ o, origin = some o → o.image = s.machine.ram

/-- A thread that is aboard a segment was so before, or begins an execution in one. -/
theorem aboard_advance (a : Audience ω) {segment : Segment}
    (aboard : (s.advance a).2.machine.thread.aboard? = some segment) :
    s.machine.thread.aboard? = some segment ∨
      s.machine.compiling? = some segment ∧ (s.advance a).2.machine.ram = s.machine.ram := by
  have h := change_advance a s
  generalize s.advance a = result at h aboard ⊢
  -- Nothing but the start of a whole program puts a segment aboard; the rest keeps it or drops it.
  cases h with
  | stays => exact Or.inl aboard
  | answers asks => exact Or.inl ((Thread.segment?_of_asks asks _).2.1.symm.trans aboard)
  | passes waits => exact Or.inl ((Thread.segment?_of_waits waits).2.1.symm.trans aboard)
  | @boards outset compiled starting =>
      cases outset with
      | whole other =>
          cases aboard
          rcases compiled _ rfl with ⟨compiled, whole⟩
          refine Or.inr ⟨?_, rfl⟩
          simp only [Machine.compiling?, starting, whole, compiled, Except.toOption]
      | windowed => cases aboard
  | turns | enters | continues | ends => cases aboard

theorem undisturbed_advance (h : s.Undisturbed origin) (a : Audience ω)
    (quiet : s.machine.thread.aboard?.isSome = true →
      (s.advance a).2.machine.ram = s.machine.ram) :
    (s.advance a).2.Undisturbed (s.machine.originAfter origin) := by
  unfold Machine.originAfter
  cases hcompiling : s.machine.compiling? with
  | some segment =>
      refine ⟨fun o same => ?_, fun segment' aboard o same => ?_⟩
      · cases same
        rfl
      · cases same
        rcases aboard_advance a aboard with before | ⟨_, hram⟩
        · exact (quiet (by rw [before]; rfl)).symm
        · exact hram.symm
  | none =>
      have hafter : ∀ segment, (s.advance a).2.machine.thread.aboard? = some segment →
          ∀ o, origin = some o → o.image = (s.advance a).2.machine.ram := by
        intro segment aboard o same
        rcases aboard_advance a aboard with before | ⟨compiles, _⟩
        · exact (h.aboard segment before o same).trans (quiet (by rw [before]; rfl)).symm
        · cases hcompiling.symm.trans compiles
      by_cases embarks : s.machine.embarks = true
      · simp only [embarks, if_true]
        -- The code becomes live, and RAM is what it was compiled from.
        have aboard : ∃ segment, s.machine.thread.aboard? = some segment := by
          unfold Machine.embarks at embarks
          split at embarks
          · next segment _ hthread => exact ⟨segment, by rw [hthread]; rfl⟩
          · contradiction
        rcases aboard with ⟨segment, aboard⟩
        refine ⟨fun o same => ?_, fun segment' aboard' o same => ?_⟩
        · rcases Option.map_eq_some_iff.mp same with ⟨o', horigin, rfl⟩
          exact (h.aboard segment aboard o' horigin).symm
        · rcases Option.map_eq_some_iff.mp same with ⟨o', horigin, rfl⟩
          exact hafter segment' aboard' o' horigin
      · rw [if_neg embarks]
        exact ⟨h.entered, hafter⟩

theorem undisturbed_play (h : s.Undisturbed origin) (a : Audience ω) (act : Act ω)
    (quiet : s.machine.thread.aboard?.isSome = true →
      (s.play a act).machine.ram = s.machine.ram) :
    (s.play a act).Undisturbed (s.originAfter act origin) := by
  by_cases advances : act = .advance
  · rw [advances] at quiet ⊢
    exact undisturbed_advance h a quiet
  · rw [originAfter_of_ne s advances]
    refine ⟨h.entered, fun segment aboard o same => ?_⟩
    -- Nobody but the compute thread comes aboard.
    have before : s.machine.thread.aboard? = some segment := by
      rcases (guards_play a s advances).thread with same | ⟨_, starting⟩
      · exact same ▸ aboard
      · rw [starting] at aboard
        cases aboard
    exact (h.aboard segment before o same).trans (quiet (by rw [before]; rfl)).symm

theorem undisturbed_originFrom (a : Audience ω) (acts : List (Act ω)) :
    ∀ (s : Session ω) (origin : Option Origin), s.Undisturbed origin → s.Quiet a acts →
      (s.playAll a acts).Undisturbed (s.originFrom a origin acts) := by
  induction acts with
  | nil => exact fun _ _ h _ => h
  | cons act acts ih =>
      exact fun s origin h quiet => ih _ _ (undisturbed_play h a act quiet.1) quiet.2

/-- Code is live as it was compiled: in windows always, and else if nothing is stored
    while the instances are attached. -/
theorem undisturbed_of_quiet (a : Audience ω) {s : Session ω} (idle : s.machine.thread = .idle)
    (live : s.machine.liveCode = none) (acts : List (Act ω))
    (quiet : s.machine.config.segmentSize = none → s.Quiet a acts) :
    (s.playAll a acts).Undisturbed (s.origin? a acts) := by
  by_cases whole : s.machine.config.segmentSize = none
  · refine undisturbed_originFrom a acts s none ⟨?_, ?_⟩ (quiet whole)
    · exact fun _ none => by cases none
    · exact fun _ _ _ none => by cases none
  · have sound := sound_originFrom a acts s none (sound_fresh idle live)
    have windowed : (s.playAll a acts).machine.config.segmentSize ≠ none := by
      rwa [(fixed_playAll a acts s).config]
    -- In windows nobody goes aboard anything.
    exact ⟨sound.windows windowed,
      fun segment aboard => absurd (sound.aboard segment aboard).1 windowed⟩

end Session

/-! ## What the invariant says of a slot -/

namespace Machine

open Segment

variable {m : Machine} {o : Origin}

theorem layout_of_compiled (compiled : m.Compiled o) :
    validRange o.image o.segment.start o.segment.stop = true ∧
      o.segment = layout m.registry m.config.options o.image o.segment.start o.segment.stop := by
  rcases compile_eq_ok_iff.mp compiled.compiled with ⟨valid, _, hlayout⟩
  exact ⟨valid, hlayout⟩

/-- The slots of the segment lie in RAM, then and now. -/
theorem fits_of_compiled (compiled : m.Compiled o) {index : Nat}
    (inside : index < countOf o.segment.start o.segment.stop) :
    (offsetOf o.segment.start index).toNat + 4 < 0x100000000 ∧
      (offsetOf o.segment.start index).toNat + 8 ≤ o.image.size ∧
      (offsetOf o.segment.start index).toNat + 8 ≤ m.ram.size := by
  rcases layout_of_compiled compiled with ⟨valid, _⟩
  rcases toNat_offsetOf_of_lt valid inside with ⟨hoffset, hstop⟩
  have hsize := (validRange_iff.mp valid).2.2.2
  have hlt := o.segment.stop.toNat_lt
  rw [hoffset, compiled.size]
  omega

/-- A slot that was compiled into an op holds what it held, and the op is what it
    would be compiled into now. -/
theorem current_of_faithful (faithful : m.Faithful o) (undisturbed : o.entered = o.image)
    {index : Nat}
    (inside : index < countOf o.segment.start o.segment.stop)
    (translated : (opFor m.registry m.config.options o.image o.segment.start o.segment.stop
      index).isTrap = false) :
    Ram.Same m.ram o.image (offsetOf o.segment.start index).toNat 8 ∧
      opFor m.registry m.config.options o.image o.segment.start o.segment.stop index =
        opFor m.registry m.config.options m.ram o.segment.start o.segment.stop index := by
  rcases layout_of_compiled faithful.toCompiled with ⟨valid, hlayout⟩
  rcases toNat_offsetOf_of_lt valid inside with ⟨hoffset, hstop⟩
  have hlt := o.segment.stop.toNat_lt
  -- The slot is in the code map, so no store has reached into it.
  have hcompiled : o.segment.codeMap.compiled[index]? = some true := by
    rw [hlayout, getElem?_compiled_layout, if_pos inside, translated, Bool.not_false]
  have hsame := faithful.code index hcompiled
  rw [undisturbed, hlayout, slotStart_layout valid inside] at hsame
  refine ⟨hsame, ?_⟩
  unfold opFor
  rw [slotAt_of_same (by omega) (Ram.same_symm hsame)]

/-- Every op of the segment is a suspension point or what a slot was compiled into. -/
theorem op_of_compiled (compiled : m.Compiled o) {j : Nat} {op : Op}
    (hop : o.segment.ops[j]? = some op) :
    j / o.segment.options.stride < countOf o.segment.start o.segment.stop ∧
      (op = .suspend (offsetOf o.segment.start (j / o.segment.options.stride)) ∨
        op = opFor m.registry m.config.options o.image o.segment.start o.segment.stop
          (j / o.segment.options.stride)) := by
  rcases range_of_compile compiled.compiled with ⟨_, _, _, hoptions⟩
  rw [hoptions]
  exact op_of_compile compiled.compiled hop

end Machine

namespace Session

open Segment

variable {ω : Type} {s : Session ω}

/-- A session without listeners whose RAM holds a shutdown and a slot of data. -/
def shutdownSession : Session Unit where
  machine :=
    { registry := Registry.standard, config := { ramSize := 16 },
      ram := ⟨#[0x11, 0, 0, 0, 0x01, 0, 0, 0, 0, 0, 0, 0, 0, 0, 0, 0]⟩ }
  audience := ()

end Session

end Transport
