import Transport.Segment.Run

/-!
# Dialogues Compared

Two dialogues agree if they ask the same requests in the same order, whatever
the answers are, and end in related results. This is the notion of equal
behaviour towards a host: a host cannot tell agreeing dialogues apart, be it one
that answers at once, one that blocks, or one whose answers depend on everything
it was asked before.

Handlers, ops and the steps of an interpreter are all talks: they may trap, and
they change a state of their own while the dialogue goes on. A talk mirrors
another if, from related states, their dialogues agree, end in the same trap or
in related values, and leave related states behind. Mirroring goes through
sequencing, so two programs are compared op by op.

## Main definitions

* `Dialogue.Agree`: The same requests, and related results.
* `Dialogue.Ends`, `Dialogue.Within`: Whatever the answers are, the end has a property, or all
  requests have one.
* `Talk`: A computation that may trap and has a state, in dialogue with the host.
* `Outcomes`: Two ends, alike up to a relation between their values.
* `Talk.Mirrors`: Agreement of talks from all related states.

## Theorems

* `agree_bind`: Agreement goes through sequencing.
* `map_eq_of_agree`: Agreement up to a function is an equation of dialogues.
* `ends_bind`, `converse_of_ends`: Ends of two dialogues in sequence, and with a host.
* `converse_map`: A host does not see what is done with the result.
* `bind_apply`, `map_apply`: Two talks in sequence, and a talk whose value is mapped,
  from a state.
* `mirrors_bind`: Mirroring goes through sequencing.
* `mirrors_ask`, `mirrors_get`, `mirrors_modify`: What talks are made of.
* `mirrors_refl`: A talk mirrors itself.
-/

namespace Transport

namespace Dialogue

universe u

variable {α β γ δ : Type} {η : Type u}

theorem bind_done (d : Dialogue α) : (d >>= fun a => Dialogue.done a) = d := by
  induction d with
  | done result => rfl
  | ask r next ih => exact congrArg (Dialogue.ask r) (funext ih)

theorem bind_bind (d : Dialogue α) (f : α → Dialogue β) (g : β → Dialogue γ) :
    (d >>= f >>= g) = (d >>= fun a => f a >>= g) := by
  induction d with
  | done result => rfl
  | ask r next ih => exact congrArg (Dialogue.ask r) (funext ih)

instance : LawfulMonad Dialogue := LawfulMonad.mk' Dialogue bind_done (fun _ _ => rfl) bind_bind

/-- A host does not see what is done with the result of a dialogue. -/
theorem converse_map (host : Host η) (f : α → β) (d : Dialogue α) (state : η) :
    (f <$> d).converse host state = (f (d.converse host state).1, (d.converse host state).2) := by
  rw [← bind_pure_comp, converse_bind]
  rfl

/-- The same requests in the same order, whatever the answers are, and related
    results in the end. -/
inductive Agree (R : α → β → Prop) : Dialogue α → Dialogue β → Prop
  | done {a : α} {b : β} (related : R a b) : Agree R (.done a) (.done b)
  /-- Both ask the same, and agree behind every answer. -/
  | ask (r : Request) {next : r.Answer → Dialogue α} {next' : r.Answer → Dialogue β}
      (rest : ∀ answer, Agree R (next answer) (next' answer)) :
      Agree R (.ask r next) (.ask r next')

theorem agree_refl {R : α → α → Prop} (h : ∀ a, R a a) (d : Dialogue α) : Agree R d d := by
  induction d with
  | done result => exact Agree.done (h result)
  | ask r next ih => exact Agree.ask r ih

theorem agree_mono {R S : α → β → Prop} (h : ∀ a b, R a b → S a b) {d : Dialogue α}
    {e : Dialogue β} (hd : Agree R d e) : Agree S d e := by
  induction hd with
  | done related => exact Agree.done (h _ _ related)
  | ask r _ ih => exact Agree.ask r ih

/-- Agreement goes through sequencing: what follows on related results has to
    agree. -/
theorem agree_bind {R : α → β → Prop} {S : γ → δ → Prop} {d : Dialogue α} {e : Dialogue β}
    {f : α → Dialogue γ} {g : β → Dialogue δ} (hd : Agree R d e)
    (hf : ∀ a b, R a b → Agree S (f a) (g b)) : Agree S (d >>= f) (e >>= g) := by
  induction hd with
  | done related => exact hf _ _ related
  | ask r _ ih => exact Agree.ask r ih

/-- Agreement up to a function of the result is an equation. -/
theorem map_eq_of_agree {f : α → β} {d : Dialogue α} {e : Dialogue β}
    (h : Agree (fun a b => f a = b) d e) : f <$> d = e := by
  induction h with
  | done related => exact congrArg Dialogue.done related
  | ask r _ ih => exact congrArg (Dialogue.ask r) (funext ih)

/-- Whatever the answers are, the end has a property. -/
inductive Ends (P : α → Prop) : Dialogue α → Prop
  | done {a : α} (here : P a) : Ends P (.done a)
  /-- The end has it behind every answer. -/
  | ask (r : Request) {next : r.Answer → Dialogue α} (rest : ∀ answer, Ends P (next answer)) :
      Ends P (.ask r next)

theorem ends_mono {P Q : α → Prop} (h : ∀ a, P a → Q a) {d : Dialogue α} (hd : Ends P d) :
    Ends Q d := by
  induction hd with
  | done here => exact Ends.done (h _ here)
  | ask r _ ih => exact Ends.ask r ih

theorem ends_bind {P : α → Prop} {Q : β → Prop} {d : Dialogue α} {f : α → Dialogue β}
    (hd : Ends P d) (hf : ∀ a, P a → Ends Q (f a)) : Ends Q (d >>= f) := by
  induction hd with
  | done here => exact hf _ here
  | ask r _ ih => exact Ends.ask r ih

/-- Some end or other there is. -/
theorem ends_true (d : Dialogue α) : Ends (fun _ => True) d := by
  induction d with
  | done result => exact Ends.done trivial
  | ask r next ih => exact Ends.ask r ih

/-- What holds at every end holds at the one that a host leads to. -/
theorem converse_of_ends {P : α → Prop} {d : Dialogue α} (hd : Ends P d) (host : Host η) :
    ∀ state : η, P (d.converse host state).1 := by
  induction hd with
  | done here => exact fun _ => here
  | ask r _ ih => exact fun state => ih _ _

/-- What holds at every end of a dialogue holds behind every answer to its first request. -/
theorem ends_answer {P : α → Prop} {r : Request} {next : r.Answer → Dialogue α}
    (h : Ends P (.ask r next)) (answer : r.Answer) : Ends P (next answer) := by
  cases h with
  | ask _ rest => exact rest answer

/-- Whatever the answers are, only requests with a property are made. -/
inductive Within (P : Request → Prop) : Dialogue α → Prop
  | done (a : α) : Within P (.done a)
  /-- The request has it, and so have those behind every answer. -/
  | ask {r : Request} {next : r.Answer → Dialogue α} (here : P r)
      (rest : ∀ answer, Within P (next answer)) : Within P (.ask r next)

theorem within_bind {P : Request → Prop} {d : Dialogue α} {f : α → Dialogue β}
    (hd : Within P d) (hf : ∀ a, Within P (f a)) : Within P (d >>= f) := by
  induction hd with
  | done a => exact hf a
  | ask here _ ih => exact Within.ask here ih

end Dialogue

/-- A computation that may trap and has a state, in dialogue with the host. A
    trap keeps the changes of the state made so far. -/
abbrev Talk (σ : Type) := ExceptT Trap (StateT σ Dialogue)

/-- Two ends: the same error, or related values. -/
inductive Outcomes {ε α β : Type} (R : α → β → Prop) : Except ε α → Except ε β → Prop
  | error (cause : ε) : Outcomes R (.error cause) (.error cause)
  | ok {a : α} {b : β} (related : R a b) : Outcomes R (.ok a) (.ok b)

section Outcomes

variable {ε α β γ δ : Type}

theorem outcomes_refl {R : α → α → Prop} (h : ∀ a, R a a) (ending : Except ε α) :
    Outcomes R ending ending := by
  cases ending with
  | error cause => exact Outcomes.error cause
  | ok a => exact Outcomes.ok (h a)

theorem outcomes_mono {R S : α → β → Prop} (h : ∀ a b, R a b → S a b) {x : Except ε α}
    {y : Except ε β} (hxy : Outcomes R x y) : Outcomes S x y := by
  cases hxy with
  | error cause => exact Outcomes.error cause
  | ok related => exact Outcomes.ok (h _ _ related)

theorem outcomes_bind {R : α → β → Prop} {S : γ → δ → Prop} {p : Except ε α} {q : Except ε β}
    {f : α → Except ε γ} {g : β → Except ε δ} (hpq : Outcomes R p q)
    (hf : ∀ a b, R a b → Outcomes S (f a) (g b)) : Outcomes S (p >>= f) (q >>= g) := by
  cases hpq with
  | error cause => exact Outcomes.error cause
  | ok related => exact hf _ _ related

end Outcomes

namespace Talk

variable {σ τ α β γ δ : Type}

/-- The host's answer to a request. -/
def ask (r : Request) : Talk σ r.Answer := fun s => .ask r fun answer => .done (.ok answer, s)

/-- Two talks in sequence: the second has the state that the first left, and a
    trap of the first ends the whole. -/
theorem bind_apply (x : Talk σ α) (f : α → Talk σ β) (s : σ) :
    (x >>= f) s = x s >>= fun p =>
      match p.1 with
      | .ok a => f a p.2
      | .error trap => Dialogue.done (.error trap, p.2) := by
  change Dialogue.bind _ _ = Dialogue.bind _ _
  congr 1
  funext p
  rcases p with ⟨_ | _, _⟩ <;> rfl

/-- A talk that looks at its state goes on with that state. -/
theorem get_bind_apply (f : σ → Talk σ α) (s : σ) : (get >>= f) s = f s s := rfl

/-- What is done with the value of a talk is done with the end of its dialogue. -/
theorem map_apply (f : α → β) (x : Talk σ α) (s : σ) :
    (f <$> x) s = (fun p : Except Trap α × σ => (p.1.map f, p.2)) <$> x s := by
  rw [← bind_pure_comp, bind_apply, ← bind_pure_comp]
  congr 1
  funext p
  rcases p with ⟨_ | _, _⟩ <;> rfl

/-- From related states the dialogues agree, end alike and leave related states
    behind. -/
def Mirrors (S : σ → τ → Prop) (R : α → β → Prop) (x : Talk σ α) (y : Talk τ β) : Prop :=
  ∀ s t, S s t → Dialogue.Agree (fun p q => Outcomes R p.1 q.1 ∧ S p.2 q.2) (x s) (y t)

variable {S : σ → τ → Prop} {R : α → β → Prop} {Q : γ → δ → Prop}

theorem mirrors_pure {a : α} {b : β} (related : R a b) :
    Mirrors S R (pure a : Talk σ α) (pure b : Talk τ β) :=
  fun _ _ h => Dialogue.Agree.done ⟨Outcomes.ok related, h⟩

theorem mirrors_throw (trap : Trap) :
    Mirrors S R (throw trap : Talk σ α) (throw trap : Talk τ β) :=
  fun _ _ h => Dialogue.Agree.done ⟨Outcomes.error trap, h⟩

theorem mirrors_ask (r : Request) : Mirrors S Eq (ask r : Talk σ r.Answer) (ask r) :=
  fun _ _ h => Dialogue.Agree.ask r fun _ => Dialogue.Agree.done ⟨Outcomes.ok rfl, h⟩

theorem mirrors_get : Mirrors S S (get : Talk σ σ) (get : Talk τ τ) :=
  fun _ _ h => Dialogue.Agree.done ⟨Outcomes.ok h, h⟩

theorem mirrors_modify {f : σ → σ} {g : τ → τ} (h : ∀ s t, S s t → S (f s) (g t)) :
    Mirrors S Eq (modify f : Talk σ PUnit) (modify g : Talk τ PUnit) :=
  fun s t hst => Dialogue.Agree.done ⟨Outcomes.ok rfl, h s t hst⟩

/-- Mirroring goes through sequencing: what follows on related values has to
    mirror. -/
theorem mirrors_bind {x : Talk σ α} {y : Talk τ β} {f : α → Talk σ γ} {g : β → Talk τ δ}
    (hx : Mirrors S R x y) (hf : ∀ a b, R a b → Mirrors S Q (f a) (g b)) :
    Mirrors S Q (x >>= f) (y >>= g) := by
  intro s t hst
  rw [bind_apply, bind_apply]
  refine Dialogue.agree_bind (hx s t hst) ?_
  rintro ⟨p, s'⟩ ⟨q, t'⟩ ⟨houtcome, hstate⟩
  cases houtcome with
  | error trap => exact Dialogue.Agree.done ⟨Outcomes.error trap, hstate⟩
  | ok related => exact hf _ _ related s' t' hstate

/-- A talk mirrors itself, from equal states and with equal values. -/
theorem mirrors_refl (x : Talk σ α) : Mirrors Eq Eq x x := by
  rintro s _ rfl
  exact Dialogue.agree_refl (fun p => ⟨outcomes_refl (fun _ => rfl) p.1, rfl⟩) (x s)

end Talk

end Transport
