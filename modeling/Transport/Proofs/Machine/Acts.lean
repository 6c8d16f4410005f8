import Transport.Proofs.Machine.Trail

/-!
# What Acts Leave Alone

The registry, the configuration and the size of RAM are the same for good. What is done
beside the compute thread does not touch live code, nor does what a program or an instance
asks of the machine, and the thread is where it was while it is answered.

## Main definitions

* `Machine.Fixed`: What is the same for good.

## Theorems

* `guards_answer`, `guards_play`: Live code is guarded.
* `thread_answer`: A thread is answered where it is.
* `fixed_play`, `fixed_playAll`: What no act changes.
-/

namespace Transport

namespace Machine

/-- Neither the registry, nor the configuration, nor the size of RAM is another. -/
structure Fixed (before after : Machine) : Prop where
  registry : after.registry = before.registry
  config : after.config = before.config
  size : after.ram.size = before.ram.size

variable {m m' m'' : Machine}

theorem fixed_trans (h : Fixed m m') (h' : Fixed m' m'') : Fixed m m'' where
  registry := h'.registry.trans h.registry
  config := h'.config.trans h.config
  size := h'.size.trans h.size

theorem Guards.fixed (h : Guards m m') : Fixed m m' := ⟨h.registry, h.config, h.size⟩

theorem codeSize_of_fixed (h : Fixed m m') : m'.codeSize = m.codeSize := by
  simp only [codeSize, h.size]

end Machine

namespace Session

variable {ω : Type} {a : Audience ω} {s : Session ω}

/-! ## Live code -/

/-- What is asked and answered leaves live code alone. -/
theorem guards_answer (a : Audience ω) (s : Session ω) (r : Request) :
    s.machine.Guards (s.answer a r).2.machine := by
  cases r with
  | storeWord offset value => exact guards_store a s offset value
  | suspend offset => exact guards_arrive a s offset
  | readWord | print | sendByte | takeByte | hasByte | offered =>
      exact Machine.guards_of_eq rfl rfl rfl rfl rfl

/-- A thread that asks is in an execution, and no one begins another. -/
theorem thread_answer (a : Audience ω) {r : Request} {next : r.Answer → Thread}
    (h : s.machine.thread.Asks r next) :
    (s.answer a r).2.machine.thread = s.machine.thread := by
  refine (guards_answer a s r).executing fun idle => ?_
  rw [idle] at h
  cases h

/-- What is done beside the compute thread leaves live code alone. -/
theorem guards_play (a : Audience ω) (s : Session ω) {act : Act ω} (beside : act ≠ .advance) :
    s.machine.Guards (s.play a act).machine := by
  -- Whatever listeners do along the way, they do by calls, which keep the guards.
  cases act with
  | advance => exact absurd rfl beside
  | command command => exact guards_command a command s
  | execute =>
      unfold play
      cases hexecute : s.execute with
      | error error => exact Machine.guards_refl _
      | ok s' => exact guards_execute hexecute
  | visit offset =>
      have harrive := guards_arrive a s offset
      simp only [play, visit]
      generalize s.arrive a offset = arrived at harrive ⊢
      rcases arrived with ⟨_ | _, s'⟩
      · exact harrive
      · exact Machine.guards_trans harrive (Machine.guards_of_eq rfl rfl rfl rfl rfl)
  | depart =>
      unfold play
      cases hdepart : s.depart with
      | none => exact Machine.guards_refl _
      | some s' =>
          rcases depart_eq_some_iff.mp hdepart with ⟨_, _, rfl⟩
          exact Machine.guards_of_eq rfl rfl rfl rfl rfl
  | rewire peripherals rack console audience => exact Machine.guards_of_eq rfl rfl rfl rfl rfl

/-! ## What no act changes -/

theorem fixed_advance (a : Audience ω) (s : Session ω) :
    s.machine.Fixed (s.advance a).2.machine := by
  have h := change_advance a s
  generalize s.advance a = result at h ⊢
  cases h with
  | @answers r _ _ =>
      have hfixed := (guards_answer a s r).fixed
      exact ⟨hfixed.registry, hfixed.config, hfixed.size⟩
  | stays | passes | boards | turns | enters | continues | ends => exact ⟨rfl, rfl, rfl⟩

theorem fixed_play (a : Audience ω) (s : Session ω) (act : Act ω) :
    s.machine.Fixed (s.play a act).machine := by
  by_cases advances : act = .advance
  · rw [advances]
    exact fixed_advance a s
  · exact (guards_play a s advances).fixed

theorem fixed_playAll (a : Audience ω) (acts : List (Act ω)) : ∀ s : Session ω,
    s.machine.Fixed (s.playAll a acts).machine := by
  induction acts with
  | nil => exact fun s => ⟨rfl, rfl, rfl⟩
  | cons act acts ih => exact fun s => Machine.fixed_trans (fixed_play a s act) (ih _)

/-- Steps of the compute thread alone are acts. -/
theorem after_eq_playAll (a : Audience ω) (n : Nat) : ∀ s : Session ω,
    s.after a n = s.playAll a (List.replicate n .advance) := by
  induction n with
  | zero => exact fun s => rfl
  | succ n ih => exact fun s => ih _

end Session

end Transport
