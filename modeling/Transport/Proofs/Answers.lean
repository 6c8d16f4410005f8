import Transport.Proofs.Segment.Instances

/-!
# Answers to a Dialogue

A dialogue that is held in pieces has, at any time, had some answers and something left.
What is left is decided by the answers: two dialogues that were given the same have come
as far as each other. A dialogue in two parts that came to its end was given first what
the one part asked for and then what the other did.

## Main definitions

* `Answered`: A request and its answer.
* `Dialogue.Leads`: What is left of a dialogue behind some answers.
* `Dialogue.after?`: The same, found.
* `Talk.Comes`: What a talk comes to.

## Theorems

* `leads_concat`: One more answer.
* `after?_of_leads`: What is left is found.
* `exists_leads_of_converse`: A host that never blocks leads to an end.
* `end_of_leads`: What holds at every end holds at the one that answers lead to.
* `exists_leads_of_bind`: The answers to a dialogue in two parts.
* `comes_bind_iff`, `comes_ask_bind_iff`: The ends of two talks in sequence.
* `comes_of_keeps`: What is kept in all dialogues is kept behind these answers.
-/

namespace Transport

/-- A request and its answer. -/
structure Answered where
  request : Request
  answer : request.Answer

namespace Dialogue

universe u

variable {α β : Type}

/-- What is left of a dialogue behind some answers, given in this order. -/
inductive Leads : Dialogue α → List Answered → Dialogue α → Prop
  | all (d : Dialogue α) : Leads d [] d
  /-- The first request is answered, and the rest follows from there. -/
  | answer {r : Request} {next : r.Answer → Dialogue α} {answers : List Answered}
      {rest : Dialogue α} (answer : r.Answer) (later : Leads (next answer) answers rest) :
      Leads (.ask r next) (⟨r, answer⟩ :: answers) rest

variable {d e : Dialogue α} {answers more : List Answered}

/-- One more request is answered. -/
theorem leads_concat {r : Request} {next : r.Answer → Dialogue α}
    (h : d.Leads answers (.ask r next)) (answer : r.Answer) :
    d.Leads (answers ++ [⟨r, answer⟩]) (next answer) := by
  generalize hrest : Dialogue.ask r next = rest at h
  induction h with
  | all =>
      cases hrest
      exact .answer answer (.all _)
  | answer first _ ih => exact .answer first (ih hrest)

/-- What is left of a dialogue behind some answers, if they are answers to it. -/
def after? : Dialogue α → List Answered → Option (Dialogue α)
  | d, [] => some d
  | .done _, _ :: _ => none
  | .ask r next, ⟨r', answer⟩ :: answers =>
    if h : r' = r then (next (h ▸ answer)).after? answers else none

theorem after?_of_leads (h : d.Leads answers e) : d.after? answers = some e := by
  induction h with
  | all d => cases d <;> rfl
  | answer answer _ ih => rw [after?, dif_pos rfl, ih]

theorem leads_done_iff {a : α} :
    (Dialogue.done a).Leads answers e ↔ answers = [] ∧ e = .done a := by
  constructor
  · intro h
    cases h
    exact ⟨rfl, rfl⟩
  · rintro ⟨rfl, rfl⟩
    exact .all _

/-- A dialogue that goes on with a request has been asked nothing, or answered it. -/
theorem leads_ask_iff {r : Request} {next : r.Answer → Dialogue α} {a : α} :
    (Dialogue.ask r next).Leads answers (.done a) ↔
      ∃ answer later, answers = ⟨r, answer⟩ :: later ∧ (next answer).Leads later (.done a) := by
  constructor
  · intro h
    cases h with
    | answer answer later => exact ⟨answer, _, rfl, later⟩
  · rintro ⟨answer, later, rfl, h⟩
    exact .answer answer h

theorem leads_bind {f : α → Dialogue β} {a : α} {b : Dialogue β} (h : d.Leads answers (.done a))
    (later : (f a).Leads more b) : (d >>= f).Leads (answers ++ more) b := by
  generalize hend : Dialogue.done a = rest at h
  induction h with
  | all =>
      cases hend
      exact later
  | answer answer _ ih => exact .answer answer (ih hend)

/-- A dialogue in two parts came to its end through the end of the first. -/
theorem exists_leads_of_bind {f : α → Dialogue β} {b : β}
    (h : (d >>= f).Leads answers (.done b)) :
    ∃ a before after, answers = before ++ after ∧ d.Leads before (.done a) ∧
      (f a).Leads after (.done b) := by
  -- The induction is on the first part, whose requests are answered first.
  induction d generalizing answers with
  | done a => exact ⟨a, [], answers, rfl, .all _, h⟩
  | ask r next ih =>
      rcases leads_ask_iff.mp h with ⟨answer, later, rfl, hlater⟩
      rcases ih answer hlater with ⟨a, before, after, rfl, hbefore, hafter⟩
      exact ⟨a, ⟨r, answer⟩ :: before, after, rfl, .answer answer hbefore, hafter⟩

/-- Of dialogues that agree, the one comes to an end where the other does. -/
theorem exists_leads_of_agree {R : α → β → Prop} {d' : Dialogue β} (agree : Agree R d d') {a : α}
    (h : d.Leads answers (.done a)) : ∃ b, d'.Leads answers (.done b) ∧ R a b := by
  -- Both dialogues ask the same, so the answers lead the one where they lead the other.
  induction agree generalizing answers with
  | done related =>
      rcases leads_done_iff.mp h with ⟨rfl, hend⟩
      cases hend
      exact ⟨_, .all _, related⟩
  | ask r _ ih =>
      rcases leads_ask_iff.mp h with ⟨answer, later, rfl, hlater⟩
      rcases ih answer hlater with ⟨b, hb, related⟩
      exact ⟨b, .answer answer hb, related⟩

/-- A host that never blocks leads a dialogue to its end, with its own answers. -/
theorem exists_leads_of_converse {η : Type u} (host : Host η) (d : Dialogue α) :
    ∀ state : η, ∃ answers, d.Leads answers (.done (d.converse host state).1) ∧
      ∀ x ∈ answers, ∃ state, x.answer = (host.answer x.request state).1 := by
  induction d with
  | done a => exact fun _ => ⟨[], .all _, fun _ member => absurd member List.not_mem_nil⟩
  | ask r next ih =>
      intro state
      rcases ih (host.answer r state).1 (host.answer r state).2 with ⟨answers, leads, own⟩
      refine ⟨⟨r, (host.answer r state).1⟩ :: answers, .answer _ leads, fun x member => ?_⟩
      rcases List.mem_cons.mp member with rfl | later
      · exact ⟨state, rfl⟩
      · exact own x later

/-- What holds at every end holds at the one that answers lead to. -/
theorem end_of_leads {P : α → Prop} (ends : Ends P d) {a : α} (h : d.Leads answers (.done a)) :
    P a := by
  induction ends generalizing answers with
  | done here =>
      cases (leads_done_iff.mp h).2
      exact here
  | ask r _ ih =>
      rcases leads_ask_iff.mp h with ⟨answer, later, _, hlater⟩
      exact ih answer hlater

end Dialogue

namespace Talk

variable {σ α β : Type} {x : Talk σ α} {f : α → Talk σ β} {s s' : σ} {answers : List Answered}

/-- Behind some answers a talk came to its end, with an outcome and a state. -/
def Comes (x : Talk σ α) (s : σ) (answers : List Answered) (outcome : Except Trap α) (s' : σ) :
    Prop :=
  (x s).Leads answers (.done (outcome, s'))

theorem comes_pure_iff {a : α} {outcome : Except Trap α} :
    (pure a : Talk σ α).Comes s answers outcome s' ↔ answers = [] ∧ outcome = .ok a ∧ s' = s := by
  refine (Dialogue.leads_done_iff (a := ((.ok a, s) : Except Trap α × σ))).trans ?_
  rw [Dialogue.done.injEq, Prod.mk.injEq]

theorem comes_throw_iff {trap : Trap} {outcome : Except Trap α} :
    (throw trap : Talk σ α).Comes s answers outcome s' ↔
      answers = [] ∧ outcome = .error trap ∧ s' = s := by
  refine (Dialogue.leads_done_iff (a := ((.error trap, s) : Except Trap α × σ))).trans ?_
  rw [Dialogue.done.injEq, Prod.mk.injEq]

/-- Two talks in sequence come to an end if the first came to a value and the second to
    that end, or in the trap of the first. -/
theorem comes_bind_iff {outcome : Except Trap β} :
    (x >>= f).Comes s answers outcome s' ↔
      (∃ a t before after, answers = before ++ after ∧ x.Comes s before (.ok a) t ∧
        (f a).Comes t after outcome s') ∨
      ∃ trap, outcome = .error trap ∧ x.Comes s answers (.error trap) s' := by
  unfold Comes
  rw [bind_apply]
  constructor
  · intro h
    rcases Dialogue.exists_leads_of_bind h with ⟨⟨first, t⟩, before, after, rfl, hfirst, hsecond⟩
    -- A trap of the first part is passed on, and nothing is asked after it.
    cases first with
    | ok a => exact Or.inl ⟨a, t, before, after, rfl, hfirst, hsecond⟩
    | error trap =>
        rcases Dialogue.leads_done_iff.mp hsecond with ⟨rfl, hend⟩
        cases hend
        rw [List.append_nil]
        exact Or.inr ⟨trap, rfl, hfirst⟩
  · rintro (⟨a, t, before, after, rfl, hfirst, hsecond⟩ | ⟨trap, rfl, hfirst⟩)
    · exact Dialogue.leads_bind hfirst hsecond
    · rw [← List.append_nil answers]
      exact Dialogue.leads_bind hfirst (.all _)

/-- A question has its answer, and the rest follows from there. -/
theorem comes_ask_bind_iff {r : Request} {f : r.Answer → Talk σ β} {outcome : Except Trap β} :
    (ask r >>= f).Comes s answers outcome s' ↔
      ∃ answer later, answers = ⟨r, answer⟩ :: later ∧ (f answer).Comes s later outcome s' :=
  Dialogue.leads_ask_iff

theorem comes_get_bind_iff {f : σ → Talk σ β} {outcome : Except Trap β} :
    (get >>= f).Comes s answers outcome s' ↔ (f s).Comes s answers outcome s' :=
  Iff.rfl

theorem comes_modify_bind_iff {g : σ → σ} {f : PUnit → Talk σ β} {outcome : Except Trap β} :
    (modify g >>= f).Comes s answers outcome s' ↔ (f ⟨⟩).Comes (g s) answers outcome s' :=
  Iff.rfl

/-- What is kept in all dialogues is kept behind these answers. -/
theorem comes_of_keeps {Q : σ → Prop} {R : α → Prop} (keeps : Keeps Q R x) (here : Q s)
    {outcome : Except Trap α} (h : x.Comes s answers outcome s') :
    Q s' ∧ ∀ a, outcome = .ok a → R a := by
  rcases Dialogue.exists_leads_of_agree (keeps s s ⟨rfl, here⟩) h with
    ⟨⟨_, _⟩, _, houtcome, hstate⟩
  refine ⟨hstate.2, fun a ha => ?_⟩
  -- A talk that is compared with itself has the same value on both sides.
  subst ha
  cases houtcome with
  | ok related => exact related.2

end Talk

end Transport
