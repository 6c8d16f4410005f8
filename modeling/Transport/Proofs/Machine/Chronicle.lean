import Transport.Proofs.Answers
import Transport.Proofs.Machine.Acts
import Transport.Proofs.Machine.Happenings

/-!
# The Chronicle of an Execution

What an execution has carried out, op by op. The machine itself forgets this: it keeps what
is left of the op under way and the context. A chronicle is kept beside it and remembers
every op that was begun since the execution began, in which context, and what the machine
answered to it.

The chronicle knows what is left of the op under way, because the answers decide that. So a
property of contexts that the attached instances have, and that a whole op hands on from the
chronicle before it to the chronicle with it, is one of all contexts that an execution comes
to, in whatever pieces the ops were carried out and through whatever windows.

## Main definitions

* `Undertaking`: An op that was begun, and the answers that it was given.
* `Machine.begins?`: The op that the next small step begins.
* `Session.chronicle`: The undertakings of the execution under way, after acts.
* `HandedOn`: What the attached instances have and whole ops hand on.
* `Session.Follows`: The thread is where the chronicle says.

## Theorems

* `advance_of_begins`: How an op begins.
* `follows_advance`: A small step keeps the chronicle right.
* `follows_playAll`: The chronicle is right after all acts.
* `context_of_begins`: What holds of the context in which an op begins.
-/

namespace Transport

/-- An op that was begun. -/
structure Undertaking where
  segment : Segment
  /-- The op, counted in the segment. -/
  op : Nat
  /-- The context as the op began. -/
  context : Context
  /-- RAM as the op began. -/
  image : Ram
  /-- What the machine has answered since, in this order. -/
  answers : List Answered

namespace Thread

/-- The segment that the thread executes, and what is left of the op under way. Of a
    suspension point where the thread waits, this is what is left once it is passed. -/
def left? : Thread → Option (Segment × Remainder)
  | .working segment rest => some (segment, rest)
  | .waiting segment resume => some (segment, resume (.ok ()))
  | _ => none

/-- What is left of the attachment of the instances, likewise. -/
def attachment? : Thread → Option (Dialogue Context)
  | .attaching _ rest => some rest
  | .detained _ resume => some (resume (.ok ()))
  | _ => none

/-- Whether the thread waits for it or not, what is left behind an answer is the same. -/
theorem left?_onAnswer (segment : Segment) (r : Request) (next : r.Answer → Remainder)
    (answer : r.Answer) :
    (onAnswer (.working segment) (.waiting segment) r next answer).left? =
      some (segment, next answer) := by
  unfold onAnswer
  split <;> rfl

theorem attachment?_onAnswer (outset : Outset) (r : Request)
    (next : r.Answer → Dialogue Context) (answer : r.Answer) :
    (onAnswer (.attaching outset) (.detained outset) r next answer).attachment? =
      some (next answer) := by
  unfold onAnswer
  split <;> rfl

end Thread

/-- The op that begins as a segment is entered, its segment, and the context. -/
def Segment.opening? (segment : Segment) (entry : Nat) (context : Context) :
    Option (Segment × Nat × Context) :=
  match segment.enter entry with
  | .error _ => none
  | .ok op => some (segment, op, context)

theorem Segment.opening?_eq_some_iff {segment begun : Segment} {entry op : Nat}
    {context before : Context} :
    segment.opening? entry context = some (begun, op, before) ↔
      segment = begun ∧ segment.enter entry = .ok op ∧ context = before := by
  unfold opening?
  cases segment.enter entry <;>
    simp only [reduceCtorEq, false_and, and_false, Option.some.injEq, Prod.mk.injEq,
      Except.ok.injEq]

namespace Machine

/-- The op that the next small step begins: its segment, its place there, and the context. -/
def begins? (m : Machine) : Option (Segment × Nat × Context) :=
  match m.thread with
  | .attaching (.whole segment) (.done context) => segment.opening? m.config.entry context
  | .entering size offset context =>
    let (start, stop) := m.windowOf size offset
    match m.compile start stop with
    | .error _ => none
    | .ok segment => segment.opening? ((offset - start) / 8).toNat context
  | .working segment (.done (.ok (.standing op), context)) => some (segment, op, context)
  | _ => none

/-- How an op comes to begin: behind another one, or as the first one in a new range. -/
inductive Begins (m : Machine) (segment : Segment) (op : Nat) (context : Context) : Prop
  | standing (working : m.thread = .working segment (.done (.ok (.standing op), context)))
  | whole (attached : m.thread = .attaching (.whole segment) (.done context))
      (entered : segment.enter m.config.entry = .ok op)
  | window {size offset : Word} (entering : m.thread = .entering size offset context)
      (compiled : m.compile (m.windowOf size offset).1 (m.windowOf size offset).2 = .ok segment)
      (entered : segment.enter ((offset - (m.windowOf size offset).1) / 8).toNat = .ok op)

theorem begins?_eq_some_iff {m : Machine} {segment : Segment} {op : Nat} {context : Context} :
    m.begins? = some (segment, op, context) ↔ m.Begins segment op context := by
  constructor
  · intro begun
    -- An instruction begins at the start of a program, at that of a window, or at an op in between.
    unfold begins? at begun
    split at begun
    · next attached =>
      rcases Segment.opening?_eq_some_iff.mp begun with ⟨rfl, entered, rfl⟩
      exact .whole attached entered
    · next size offset context' entering =>
      dsimp only at begun
      cases compiled : m.compile (m.windowOf size offset).1 (m.windowOf size offset).2 with
      | error error =>
          rw [compiled] at begun
          contradiction
      | ok found =>
          rw [compiled] at begun
          rcases Segment.opening?_eq_some_iff.mp begun with ⟨rfl, entered, rfl⟩
          exact .window entering compiled entered
    · next working =>
      cases begun
      exact .standing working
    · contradiction
  · intro begun
    cases begun with
    | standing working => simp only [begins?, working]
    | whole attached entered => simp only [begins?, attached, Segment.opening?, entered]
    | window entering compiled entered =>
        simp only [begins?, entering, compiled, Segment.opening?, entered]

/-- A thread that asks or waits begins nothing. -/
theorem begins?_of_asks {m : Machine} {r : Request} {next : r.Answer → Thread}
    (h : m.thread.Asks r next) : m.begins? = none := by
  generalize hthread : m.thread = thread at h
  cases h with
  | attaching outset => cases outset <;> simp only [begins?, hthread]
  | working => simp only [begins?, hthread]

theorem begins?_of_waits {m : Machine} {next : Thread} (h : m.thread.Waits next) :
    m.begins? = none := by
  generalize hthread : m.thread = thread at h
  cases h <;> simp only [begins?, hthread]

end Machine

namespace Session

variable {ω : Type}

/-- The request of an op that the next small step answers, and the answer. -/
def answered? (a : Audience ω) (s : Session ω) : Option Answered :=
  match s.machine.thread with
  | .working _ (.ask r _) => some ⟨r, (s.answer a r).1⟩
  | _ => none

/-- The chronicle after an act, the latest undertaking first. An execution that begins has
    none. -/
def noted (a : Audience ω) (s : Session ω) (chronicle : List Undertaking) :
    Act ω → List Undertaking
  | .advance =>
    match s.machine.begins? with
    | some (segment, op, context) => ⟨segment, op, context, s.machine.ram, []⟩ :: chronicle
    | none =>
      match s.answered? a, chronicle with
      | some answered, u :: earlier => { u with answers := u.answers ++ [answered] } :: earlier
      | _, _ => chronicle
  | act =>
    match (s.play a act).machine.thread with
    | .starting => []
    | _ => chronicle

/-- The chronicle after acts that begin with a given one. -/
def chronicleFrom (a : Audience ω) : Session ω → List Undertaking → List (Act ω) →
    List Undertaking
  | _, chronicle, [] => chronicle
  | s, chronicle, act :: acts => chronicleFrom a (s.play a act) (s.noted a chronicle act) acts

/-- The undertakings of the execution under way after acts, the latest first. -/
def chronicle (a : Audience ω) (s : Session ω) (acts : List (Act ω)) : List Undertaking :=
  s.chronicleFrom a [] acts

variable {a : Audience ω} {s : Session ω}

/-- What begins does begin, with the next small step. -/
theorem advance_of_begins {segment : Segment} {op : Nat} {context : Context}
    (begun : s.machine.begins? = some (segment, op, context)) :
    (s.advance a).1 = .moved ∧
      (s.advance a).2.machine.thread = .working segment (segment.step op context) ∧
      (s.advance a).2.machine.ram = s.machine.ram := by
  -- In all three cases the op is entered and the step of the segment is what is left.
  cases Machine.begins?_eq_some_iff.mp begun with
  | standing working =>
      rw [advance_standing a working]
      exact ⟨rfl, rfl, rfl⟩
  | whole attached entered =>
      rw [eq_of_smallStep (.embarks attached)]
      simp only [embark, enter, entered]
      exact ⟨rfl, rfl, rfl⟩
  | window entering compiled entered =>
      rw [eq_of_smallStep (.enters entering)]
      simp only [enterWindow, compiled, enter, entered]
      exact ⟨rfl, rfl, rfl⟩

theorem noted_of_begins {segment : Segment} {op : Nat} {context : Context}
    (begun : s.machine.begins? = some (segment, op, context)) (chronicle : List Undertaking) :
    s.noted a chronicle .advance = ⟨segment, op, context, s.machine.ram, []⟩ :: chronicle := by
  simp only [noted, begun]

/-- A step that begins nothing and answers no op is not noted. -/
theorem noted_of_none (nothing : s.machine.begins? = none) (unanswered : s.answered? a = none)
    (chronicle : List Undertaking) : s.noted a chronicle .advance = chronicle := by
  simp only [noted, nothing, unanswered]

/-- What is done beside the compute thread is not noted either, unless an execution begins. -/
theorem noted_of_ne {act : Act ω} (beside : act ≠ .advance) (chronicle : List Undertaking)
    (h : (s.play a act).machine.thread ≠ .starting) : s.noted a chronicle act = chronicle := by
  unfold noted
  split
  · exact absurd rfl beside
  · split
    · next starting => exact absurd starting h
    · rfl

theorem noted_of_starting {act : Act ω} (beside : act ≠ .advance) (chronicle : List Undertaking)
    (starting : (s.play a act).machine.thread = .starting) : s.noted a chronicle act = [] := by
  unfold noted
  split
  · exact absurd rfl beside
  · rw [starting]

end Session

/-! ## The chronicle is right -/

variable {ω : Type}

/-- This is left of the op under way, behind answers that a machine gave. -/
structure Undertaking.Left (a : Audience ω) (u : Undertaking) (segment : Segment)
    (rest : Remainder) : Prop where
  segment : u.segment = segment
  leads : (u.segment.step u.op u.context).Leads u.answers rest
  given : ∀ x ∈ u.answers, ∃ s : Session ω, x.answer = (s.answer a x.request).1

/-- A property of contexts and what was done before, which the attached instances have and
    whole ops hand on. -/
structure HandedOn (registry : Registry) (Q : List Undertaking → Context → Prop) : Prop where
  attached : ∀ (answers : List Answered) (context : Context),
    (Context.fresh registry).bind.Leads answers (.done context) → Q [] context
  whole : ∀ (u : Undertaking) (earlier : List Undertaking) (progress : Progress)
    (context : Context), Q earlier u.context →
    Talk.Comes (u.segment.step u.op) u.context u.answers (.ok progress) context →
    Q (u :: earlier) context

namespace Session

variable {a : Audience ω} {Q : List Undertaking → Context → Prop} {s s' : Session ω}
  {chronicle : List Undertaking}

/-- The thread is where the chronicle says, and contexts between ops have a property. -/
structure Follows (a : Audience ω) (Q : List Undertaking → Context → Prop) (s : Session ω)
    (chronicle : List Undertaking) : Prop where
  fresh : s.machine.thread = .starting → chronicle = []
  /-- The fresh instances are being attached, and nothing was begun yet. -/
  attaching : ∀ rest, s.machine.thread.attachment? = some rest → chronicle = [] ∧
    ∃ answers, (Context.fresh s.machine.registry).bind.Leads answers rest
  between : ∀ size offset context, s.machine.thread = .entering size offset context →
    Q chronicle context
  within : ∀ segment rest, s.machine.thread.left? = some (segment, rest) →
    ∃ u earlier, chronicle = u :: earlier ∧ u.Left a segment rest ∧ Q earlier u.context

theorem follows_of_thread (h : s.Follows a Q chronicle)
    (same : s'.machine.thread = s.machine.thread)
    (registry : s'.machine.registry = s.machine.registry) : s'.Follows a Q chronicle := by
  refine ⟨?_, ?_, ?_, ?_⟩
  · rw [same]
    exact h.fresh
  · rw [same, registry]
    exact h.attaching
  · rw [same]
    exact h.between
  · rw [same]
    exact h.within

theorem follows_of_idle (idle : s.machine.thread = .idle) : s.Follows a Q chronicle := by
  refine ⟨?_, ?_, ?_, ?_⟩ <;> simp only [idle, reduceCtorEq, false_implies, implies_true,
    Thread.attachment?, Thread.left?]

/-- An execution begins without a chronicle. -/
theorem follows_of_starting (starting : s.machine.thread = .starting) : s.Follows a Q [] := by
  refine ⟨fun _ => rfl, ?_, ?_, ?_⟩ <;> simp only [starting, reduceCtorEq, false_implies,
    implies_true, Thread.attachment?, Thread.left?]

/-- Instances that are being attached have been answered so much. -/
theorem follows_of_attachment {rest : Dialogue Context} {answers : List Answered}
    (attaching : s.machine.thread.attachment? = some rest)
    (leads : (Context.fresh s.machine.registry).bind.Leads answers rest) :
    s.Follows a Q [] := by
  -- While its context is bound nothing has begun, and the other clauses speak of other threads.
  cases hthread : s.machine.thread with
  | attaching | detained =>
      rw [hthread] at attaching
      cases attaching
      refine ⟨fun _ => rfl, ?_, ?_, ?_⟩ <;> rw [hthread]
      · rintro _ ⟨⟩
        exact ⟨rfl, answers, leads⟩
      · simp only [reduceCtorEq, false_implies, implies_true]
      · simp only [Thread.left?, reduceCtorEq, false_implies, implies_true]
  | idle | starting | entering | working | waiting =>
      rw [hthread] at attaching
      contradiction

/-- A thread that goes on with an op is where its undertaking says. -/
theorem follows_of_left {segment : Segment} {rest : Remainder} {u : Undertaking}
    {earlier : List Undertaking} (left : s.machine.thread.left? = some (segment, rest))
    (hleft : u.Left a segment rest) (hq : Q earlier u.context) :
    s.Follows a Q (u :: earlier) := by
  -- The newest undertaking is the one whose rest the thread still has.
  cases hthread : s.machine.thread with
  | working | waiting =>
      rw [hthread] at left
      cases left
      refine ⟨?_, ?_, ?_, ?_⟩ <;> rw [hthread]
      · simp only [reduceCtorEq, false_implies]
      · simp only [Thread.attachment?, reduceCtorEq, false_implies, implies_true]
      · simp only [reduceCtorEq, false_implies, implies_true]
      · rintro _ _ ⟨⟩
        exact ⟨u, earlier, rfl, hleft, hq⟩
  | idle | starting | attaching | detained | entering =>
      rw [hthread] at left
      contradiction

/-- A thread that is about to enter a window has nothing left of an op. -/
theorem follows_of_entering {size offset : Word} {context : Context}
    (entering : s.machine.thread = .entering size offset context) (hq : Q chronicle context) :
    s.Follows a Q chronicle := by
  refine ⟨?_, ?_, ?_, ?_⟩ <;> rw [entering]
  · simp only [reduceCtorEq, false_implies]
  · simp only [Thread.attachment?, reduceCtorEq, false_implies, implies_true]
  · rintro _ _ _ ⟨⟩
    exact hq
  · simp only [Thread.left?, reduceCtorEq, false_implies, implies_true]

/-- A request is answered: one of the instances that are attached, or one of the op. -/
theorem follows_of_asks (h : s.Follows a Q chronicle) {r : Request} {next : r.Answer → Thread}
    (asks : s.machine.thread.Asks r next) :
    ((s.answer a r).2.modify (·.setThread (next (s.answer a r).1))).Follows a Q
      (s.noted a chronicle .advance) := by
  have nothing := Machine.begins?_of_asks asks
  have hregistry := (guards_answer a s r).registry
  generalize hthread : s.machine.thread = thread at asks
  cases asks with
  | attaching outset r next =>
      rcases h.attaching (.ask r next) (by rw [hthread]; rfl) with ⟨rfl, answers, leads⟩
      rw [noted_of_none nothing (by simp only [answered?, hthread])]
      rw [← hregistry] at leads
      -- One more answer leads on.
      exact follows_of_attachment (Thread.attachment?_onAnswer outset r next _)
        (Dialogue.leads_concat leads (s.answer a r).1)
  | working segment r next =>
      rcases h.within segment (.ask r next) (by rw [hthread]; rfl) with ⟨u, earlier, rfl, hleft, hq⟩
      have hnoted : s.noted a (u :: earlier) .advance =
          { u with answers := u.answers ++ [⟨r, (s.answer a r).1⟩] } :: earlier := by
        simp only [noted, nothing, answered?, hthread]
      rw [hnoted]
      -- Here as well, and the answer is the machine's.
      refine follows_of_left (Thread.left?_onAnswer segment r next _)
        ⟨hleft.segment, Dialogue.leads_concat hleft.leads (s.answer a r).1, ?_⟩ hq
      intro x member
      rcases List.mem_append.mp member with member | member
      · exact hleft.given x member
      · cases List.mem_singleton.mp member
        exact ⟨s, rfl⟩

/-- A suspension point is passed, or not. -/
theorem follows_of_waits (h : s.Follows a Q chronicle) {next : Thread}
    (waits : s.machine.thread.Waits next) :
    (s.resume next).2.Follows a Q (s.noted a chronicle .advance) := by
  have nothing := Machine.begins?_of_waits waits
  have unanswered : s.answered? a = none := by
    generalize hthread : s.machine.thread = thread at waits
    cases waits <;> simp only [answered?, hthread]
  rw [noted_of_none nothing unanswered]
  unfold resume
  split
  · exact h
  generalize hthread : s.machine.thread = thread at waits
  -- What waits was counted as answered when it came here.
  cases waits with
  | attaching outset resume =>
      rcases h.attaching _ (by rw [hthread]; rfl) with ⟨rfl, answers, leads⟩
      exact follows_of_attachment rfl leads
  | working segment resume =>
      rcases h.within _ _ (by rw [hthread]; rfl) with ⟨u, earlier, rfl, hleft, hq⟩
      exact follows_of_left rfl hleft hq

variable {registry : Registry} (handedOn : HandedOn registry Q)

include handedOn

/-- What is left of an op that came to its end. -/
theorem context_of_done (h : s.Follows a Q chronicle) {segment : Segment} {progress : Progress}
    {context : Context}
    (done : s.machine.thread = .working segment (.done (.ok progress, context))) :
    Q chronicle context := by
  rcases h.within segment (.done (.ok progress, context)) (by rw [done]; rfl) with
    ⟨u, earlier, rfl, left, hq⟩
  exact handedOn.whole u earlier progress context hq left.leads

/-- The context of instances that are attached. -/
theorem context_of_attached (h : s.Follows a Q chronicle)
    (hregistry : s.machine.registry = registry) {outset : Outset} {context : Context}
    (attached : s.machine.thread = .attaching outset (.done context)) :
    Q chronicle context := by
  rcases h.attaching (.done context) (by rw [attached]; rfl) with ⟨rfl, answers, leads⟩
  rw [hregistry] at leads
  exact handedOn.attached answers context leads

/-- What holds of the context in which an op begins. -/
theorem context_of_begins (h : s.Follows a Q chronicle) (hregistry : s.machine.registry = registry)
    {segment : Segment} {op : Nat} {context : Context}
    (begun : s.machine.begins? = some (segment, op, context)) : Q chronicle context := by
  -- Behind another op the context is what that op left, and else what the range opens with.
  cases Machine.begins?_eq_some_iff.mp begun with
  | standing working => exact context_of_done handedOn h working
  | whole attached _ => exact context_of_attached handedOn h hregistry attached
  | window entering _ _ => exact h.between _ _ _ entering

/-- A segment is entered, and with it an op begins, or the execution ends. -/
theorem follows_enter (h : s.Follows a Q chronicle) (hregistry : s.machine.registry = registry)
    {segment : Segment} {entry : Nat} {context : Context}
    (opens : s.machine.begins? = segment.opening? entry context) :
    (s'.enter segment entry context).2.Follows a Q (s.noted a chronicle .advance) := by
  unfold enter
  cases hentered : segment.enter entry with
  | error trap => exact follows_of_idle rfl
  | ok op =>
      have begun : s.machine.begins? = some (segment, op, context) := by
        rw [opens, Segment.opening?, hentered]
      -- The step that enters also notes the op, so it is already the newest entry.
      rw [noted_of_begins begun]
      exact follows_of_left rfl ⟨rfl, .all _, fun x member => absurd member List.not_mem_nil⟩
        (context_of_begins handedOn h hregistry begun)

/-- A small step keeps the chronicle right. -/
theorem follows_advance (h : s.Follows a Q chronicle) (hregistry : s.machine.registry = registry) :
    (s.advance a).2.Follows a Q (s.noted a chronicle .advance) := by
  -- The fresh instances have not been answered anything.
  have hboard : ∀ outset, (s.board outset).2.Follows a Q [] := fun outset =>
    follows_of_attachment rfl (.all (Context.fresh s.machine.registry).bind)
  have hstep := smallStep_advance a s
  generalize s.advance a = result at hstep ⊢
  cases hstep with
  | idle idle => exact follows_of_idle idle
  | asks asks => exact follows_of_asks h asks
  | waits waits => exact follows_of_waits h waits
  | whole starting whole =>
      rw [noted_of_none (by simp only [Machine.begins?, starting])
        (by simp only [answered?, starting]), h.fresh starting]
      unfold startWhole
      split
      · exact follows_of_idle rfl
      · exact hboard _
  | windowed starting windowed =>
      rw [noted_of_none (by simp only [Machine.begins?, starting])
        (by simp only [answered?, starting]), h.fresh starting, startWindowed_eq]
      split
      · exact hboard _
      · exact follows_of_idle rfl
  | @embarks outset context attached =>
      cases outset with
      | whole segment =>
          exact follows_enter handedOn h hregistry (by simp only [Machine.begins?, attached])
      | windowed size offset =>
          rw [noted_of_none (by simp only [Machine.begins?, attached])
            (by simp only [answered?, attached])]
          exact follows_of_entering rfl (context_of_attached handedOn h hregistry attached)
  | @enters size offset context entering =>
      unfold enterWindow
      dsimp only
      cases compiled : s.machine.compile (s.machine.windowOf size offset).1
        (s.machine.windowOf size offset).2 with
      | error error => exact follows_of_idle rfl
      | ok segment =>
          exact follows_enter handedOn h hregistry
            (by simp only [Machine.begins?, entering, compiled])
  | traps | completes => exact follows_of_idle rfl
  | begins standing =>
      have begun := Machine.begins?_eq_some_iff.mpr (.standing standing)
      rw [noted_of_begins begun]
      exact follows_of_left rfl ⟨rfl, .all _, fun x member => absurd member List.not_mem_nil⟩
        (context_of_begins handedOn h hregistry begun)
  | leaves left =>
      rw [noted_of_none (by simp only [Machine.begins?, left]) (by simp only [answered?, left])]
      unfold leave
      -- The op that led out is whole, so its context is handed on to the window.
      split
      · split
        · exact follows_of_entering rfl (context_of_done handedOn h left)
        · exact follows_of_idle rfl
      · exact follows_of_idle rfl

theorem follows_play (h : s.Follows a Q chronicle) (hregistry : s.machine.registry = registry)
    (act : Act ω) : (s.play a act).Follows a Q (s.noted a chronicle act) := by
  by_cases advances : act = .advance
  · rw [advances]
    exact follows_advance handedOn h hregistry
  have guards := guards_play a s advances
  by_cases starting : (s.play a act).machine.thread = .starting
  · rw [noted_of_starting advances chronicle starting]
    exact follows_of_starting starting
  · rw [noted_of_ne advances chronicle starting]
    -- A thread that is not told to begin is where it was.
    exact follows_of_thread h (guards.thread.resolve_right fun begun => starting begun.2)
      guards.registry

/-- The chronicle is right after all acts, and contexts between ops have what is handed on. -/
theorem follows_chronicleFrom (acts : List (Act ω)) :
    ∀ (s : Session ω) (chronicle : List Undertaking), s.Follows a Q chronicle →
      s.machine.registry = registry →
        (s.playAll a acts).Follows a Q (s.chronicleFrom a chronicle acts) := by
  induction acts with
  | nil => exact fun _ _ h _ => h
  | cons act acts ih =>
      intro s chronicle h hregistry
      exact ih _ _ (follows_play handedOn h hregistry act)
        ((fixed_play a s act).registry.trans hregistry)

theorem follows_playAll (idle : s.machine.thread = .idle)
    (hregistry : s.machine.registry = registry) (acts : List (Act ω)) :
    (s.playAll a acts).Follows a Q (s.chronicle a acts) :=
  follows_chronicleFrom handedOn acts s [] (follows_of_idle idle) hregistry

end Session

end Transport
