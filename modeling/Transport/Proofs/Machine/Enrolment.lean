import Mathlib.Data.List.Induction
import Mathlib.Data.List.Nodup
import Mathlib.Data.List.Pairwise
import Mathlib.Data.Nat.Find
import Transport.Machine.State

/-!
# Who Is Told of Stores

The listeners of a machine are a set that remembers an order. They are added and removed
by identity, in any order and as often as one likes; adding one that is there and
removing one that is not change nothing. Which listeners there are, and in which order,
is told by the history of these calls alone: those whose last call is an addition, each
once, by the call since which they have been there.

## Main definitions

* `Enrolment`: A listener is added or removed.
* `Machine.enrolAll`: A machine after a history of such calls.
* `Enrolment.Since`: The call since which a listener has been there.
* `Enrolment.InOrder`: The listeners that a history leaves, in the order of addition.

## Theorems

* `since_concat_iff`: What one more call changes.
* `inOrder_enrolAll`: The listeners of a machine are those that its history leaves.
-/

namespace Transport

/-- A call that adds a listener or removes one. -/
inductive Enrolment where
  /-- The listener is added, unless it is there. -/
  | add (id : ListenerId)
  /-- The listener is removed, if it is there. -/
  | remove (id : ListenerId)
  deriving DecidableEq, Repr

namespace Machine

/-- A machine after one such call. -/
def enrol (m : Machine) : Enrolment → Machine
  | .add id => m.addMemoryListener id
  | .remove id => m.removeMemoryListener id

/-- A machine after a history of such calls. -/
def enrolAll (m : Machine) (history : List Enrolment) : Machine := history.foldl enrol m

theorem enrolAll_concat (m : Machine) (history : List Enrolment) (e : Enrolment) :
    m.enrolAll (history ++ [e]) = (m.enrolAll history).enrol e := by
  simp only [enrolAll, List.foldl_append, List.foldl_cons, List.foldl_nil]

end Machine

namespace Enrolment

/-- A listener has been there since the call at an index: that call added it, no later
    one removed it, and every earlier addition was followed by a removal before. -/
def Since (history : List Enrolment) (id : ListenerId) (i : Nat) : Prop :=
  history[i]? = some (.add id) ∧ (∀ j, i < j → history[j]? ≠ some (.remove id)) ∧
    ∀ j, j < i → history[j]? = some (.add id) →
      ∃ k, j < k ∧ k < i ∧ history[k]? = some (.remove id)

/-- The listeners that a history leaves: each once, and in the order in which they were
    added. -/
structure InOrder (history : List Enrolment) (listeners : List ListenerId) : Prop where
  once : listeners.Nodup
  present : ∀ id, id ∈ listeners ↔ ∃ i, Since history id i
  ordered : listeners.Pairwise fun id id' =>
    ∀ i i', Since history id i → Since history id' i' → i < i'

section History

variable {history : List Enrolment} {id : ListenerId} {e : Enrolment} {i : Nat}

theorem Since.lt_length (h : Since history id i) : i < history.length :=
  (List.getElem?_eq_some_iff.mp h.1).1

/-- A listener whose last call is an addition has been there since some call. -/
theorem exists_since {j : Nat} (added : history[j]? = some (Enrolment.add id))
    (kept : ∀ k, j < k → history[k]? ≠ some (Enrolment.remove id)) : ∃ i, Since history id i := by
  classical
  -- It is the first addition behind which there is no removal.
  have hexists : ∃ i, history[i]? = some (Enrolment.add id) ∧
      ∀ k, i < k → history[k]? ≠ some (Enrolment.remove id) := ⟨j, added, kept⟩
  obtain ⟨added, kept⟩ := Nat.find_spec hexists
  refine ⟨Nat.find hexists, added, kept, fun before hbefore hadded => ?_⟩
  have hnot := Nat.find_min hexists hbefore
  simp only [hadded, true_and, not_forall, not_not] at hnot
  rcases hnot with ⟨k, hk, removed⟩
  refine ⟨k, hk, ?_, removed⟩
  by_contra behind
  rcases Nat.lt_or_eq_of_le (Nat.not_lt.mp behind) with later | here
  · exact kept k later removed
  · rw [here, removed] at added
    cases added

/-- After one more call a listener has been there since the same call as before, unless
    it is removed; or since this call, if it is added and was not there. -/
theorem since_concat_iff : Since (history ++ [e]) id i ↔
    Since history id i ∧ e ≠ .remove id ∨
      i = history.length ∧ e = .add id ∧ ¬∃ j, Since history id j := by
  have hlast : (history ++ [e])[history.length]? = some e := List.getElem?_concat_length
  constructor
  · intro h
    have hle : i ≤ history.length := by
      have := h.lt_length
      simpa [Nat.lt_succ_iff] using this
    rcases h with ⟨added, kept, again⟩
    rcases Nat.lt_or_eq_of_le hle with inside | rfl
    · -- A call before the last one; the last one does not undo it.
      left
      rw [List.getElem?_append_left inside] at added
      refine ⟨⟨added, fun j later removed => ?_, fun j before hadded => ?_⟩, ?_⟩
      · have hj := (List.getElem?_eq_some_iff.mp removed).1
        exact kept j later ((List.getElem?_append_left hj).trans removed)
      · rcases again j before ((List.getElem?_append_left (by omega)).trans hadded) with
          ⟨k, hjk, hki, removed⟩
        exact ⟨k, hjk, hki, (List.getElem?_append_left (by omega)).symm.trans removed⟩
      · rintro rfl
        exact kept _ inside hlast
    · -- The last call itself, so an addition before it has been undone.
      right
      rw [hlast, Option.some.injEq] at added
      refine ⟨rfl, added, ?_⟩
      rintro ⟨j, since⟩
      have hj := since.lt_length
      rcases again j hj ((List.getElem?_append_left hj).trans since.1) with ⟨k, hjk, hk, removed⟩
      exact since.2.1 k hjk ((List.getElem?_append_left hk).symm.trans removed)
  · rintro (⟨since, unremoved⟩ | ⟨rfl, rfl, absent⟩)
    · have inside := since.lt_length
      refine ⟨(List.getElem?_append_left inside).trans since.1, fun j later removed => ?_,
        fun j before hadded => ?_⟩
      · rcases Nat.lt_trichotomy j history.length with hj | rfl | hj
        · exact since.2.1 j later ((List.getElem?_append_left hj).symm.trans removed)
        · rw [hlast, Option.some.injEq] at removed
          exact unremoved removed
        · rw [List.getElem?_eq_none (by simp; omega)] at removed
          contradiction
      · rcases since.2.2 j before ((List.getElem?_append_left (by omega)).symm.trans hadded) with
          ⟨k, hjk, hki, removed⟩
        exact ⟨k, hjk, hki, (List.getElem?_append_left (by omega)).trans removed⟩
    · refine ⟨hlast, fun j later removed => ?_, fun j before hadded => ?_⟩
      · rw [List.getElem?_eq_none (by simp; omega)] at removed
        contradiction
      · -- Without a removal behind it, the earlier addition would still count.
        rw [List.getElem?_append_left before] at hadded
        by_contra unremoved
        refine absent (exists_since hadded fun k hjk removed => unremoved ?_)
        have hk := (List.getElem?_eq_some_iff.mp removed).1
        exact ⟨k, hjk, hk, (List.getElem?_append_left hk).trans removed⟩

end History

end Enrolment

namespace Machine

open Enrolment

theorem inOrder_add {history : List Enrolment} {listeners : List ListenerId} (id : ListenerId)
    (h : InOrder history listeners) :
    InOrder (history ++ [.add id]) (addListener id listeners) := by
  -- Those that were there have been there since the same calls.
  have hsame : ∀ other ∈ listeners, ∀ i, Since (history ++ [.add id]) other i ↔
      Since history other i := by
    intro other member i
    rw [since_concat_iff]
    have hthere := (h.present other).mp member
    simp [hthere]
  have hkept : listeners.Pairwise fun id₁ id₂ => ∀ i₁ i₂,
      Since (history ++ [.add id]) id₁ i₁ → Since (history ++ [.add id]) id₂ i₂ → i₁ < i₂ := by
    refine h.ordered.imp_of_mem fun {id₁ id₂} member₁ member₂ before i₁ i₂ since₁ since₂ => ?_
    exact before i₁ i₂ ((hsame id₁ member₁ i₁).mp since₁) ((hsame id₂ member₂ i₂).mp since₂)
  unfold addListener
  by_cases there : id ∈ listeners
  · -- It keeps its place.
    rw [if_pos (by simpa using there)]
    refine ⟨h.once, fun other => ?_, hkept⟩
    by_cases member : other ∈ listeners
    · simp only [member, true_iff, hsame other member]
      exact (h.present other).mp member
    · have hother : other ≠ id := fun same => member (same ▸ there)
      rw [h.present]
      simp [since_concat_iff, hother.symm]
  · rw [if_neg (by simpa using there)]
    have hnew : ∀ i, Since (history ++ [.add id]) id i ↔ i = history.length := by
      intro i
      have habsent := (not_congr (h.present id)).mp there
      have hnone : ¬Since history id i := fun since => habsent ⟨i, since⟩
      rw [since_concat_iff]
      simp [hnone, habsent]
    refine ⟨?_, fun other => ?_, ?_⟩
    · rw [List.nodup_append]
      have hother : ∀ other ∈ listeners, other ≠ id := fun other member same =>
        there (same ▸ member)
      exact ⟨h.once, List.nodup_singleton id, by simpa using hother⟩
    · by_cases member : other ∈ listeners
      · simp only [List.mem_append, member, true_or, true_iff, hsame other member]
        exact (h.present other).mp member
      · by_cases same : other = id
        · subst same
          simp [hnew]
        · have habsent := (not_congr (h.present other)).mp member
          have hnone : ∀ i, ¬Since history other i := fun i since => habsent ⟨i, since⟩
          simp [member, same, Ne.symm same, since_concat_iff, hnone]
    · rw [List.pairwise_append]
      -- The new one has been there since this call, and all others since before it.
      refine ⟨hkept, List.pairwise_singleton _ _, ?_⟩
      intro other member new hnew' i i' since since'
      rw [List.mem_singleton] at hnew'
      subst hnew'
      rw [(hnew i').mp since']
      exact ((hsame other member i).mp since).lt_length

theorem inOrder_remove {history : List Enrolment} {listeners : List ListenerId} (id : ListenerId)
    (h : InOrder history listeners) :
    InOrder (history ++ [.remove id]) (listeners.filter (· != id)) := by
  have hsame : ∀ other i, Since (history ++ [.remove id]) other i ↔
      Since history other i ∧ id ≠ other := by
    intro other i
    simp [since_concat_iff]
  refine ⟨h.once.filter _, fun other => ?_, ?_⟩
  · simp only [List.mem_filter, h.present, hsame, bne_iff_ne, ne_comm, exists_and_right]
  · refine (h.ordered.filter _).imp fun before i i' since since' => ?_
    exact before i i' ((hsame _ i).mp since).1 ((hsame _ i').mp since').1

/-- The listeners of a machine are those that its history leaves, in their order. -/
theorem inOrder_enrolAll {m : Machine} (nobody : m.memoryListeners = [])
    (history : List Enrolment) : InOrder history (m.enrolAll history).memoryListeners := by
  -- Induction from the last call on, which is the one that changes the list.
  induction history using List.reverseRecOn with
  | nil =>
      have hnever : ∀ id i, ¬Since [] id i := fun id i since => absurd since.lt_length (by simp)
      change InOrder [] m.memoryListeners
      rw [nobody]
      exact ⟨List.nodup_nil, by simp [hnever], List.Pairwise.nil⟩
  | append_singleton earlier e ih =>
      rw [enrolAll_concat]
      cases e with
      | add id => exact inOrder_add id ih
      | remove id => exact inOrder_remove id ih

end Machine

end Transport
