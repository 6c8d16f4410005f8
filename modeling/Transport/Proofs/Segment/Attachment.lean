import Transport.Proofs.Dialogue

/-!
# Attaching Instances

Before anything runs, the instances of a context are attached to the host, one after the
other. What an instance asks of the host then is its own affair: it may read and store,
print, and go to suspension points. What comes of it is no more than a change of what the
instances hold. They stay what they are, each in its slot, and the condition is not
touched.

## Main definitions

* `Context.Attached`: A context and what attaching its instances may have made of it.

## Theorems

* `ends_bind_context`: However the host answers, a context is attached in the end.
* `within_bind_context`: What is asked is what the instances ask.
-/

namespace Transport

namespace Context

/-- What the instances hold may have changed, and nothing else. -/
structure Attached (before after : Context) : Prop where
  behaviours : after.instances.toList.map Instance.behaviour =
    before.instances.toList.map Instance.behaviour
  condition : after.condition = before.condition

variable {context after : Context}

/-- The behaviour in a slot is what it was. -/
theorem behaviour_of_attached (attached : Attached context after) (slot : Nat) :
    after.instances[slot]?.map Instance.behaviour =
      context.instances[slot]?.map Instance.behaviour := by
  rw [← Array.getElem?_toList, ← Array.getElem?_toList, ← List.getElem?_map, ← List.getElem?_map,
    attached.behaviours]

/-- An instance was there before, with the same behaviour. -/
theorem exists_instance_of_attached (attached : Attached context after) {slot : Nat}
    {i : Instance} (hi : after.instances[slot]? = some i) :
    ∃ before, context.instances[slot]? = some before ∧ i.behaviour = before.behaviour := by
  have hbehaviour := behaviour_of_attached attached slot
  rw [hi, Option.map_some, eq_comm, Option.map_eq_some_iff] at hbehaviour
  rcases hbehaviour with ⟨before, hbefore, heq⟩
  exact ⟨before, hbefore, heq.symm⟩

/-- The instances are attached one after the other, by induction on how many there are. -/
theorem ends_attachAll (instances : List Instance) :
    Dialogue.Ends (fun attached => attached.map Instance.behaviour =
      instances.map Instance.behaviour) (attachAll instances) := by
  induction instances with
  | nil => exact Dialogue.Ends.done rfl
  | cons i later ih =>
      refine Dialogue.ends_bind (Dialogue.ends_true _) fun state _ => ?_
      refine Dialogue.ends_bind ih fun attached hattached => Dialogue.Ends.done ?_
      rw [List.map_cons, List.map_cons, hattached]

/-- However the host answers, nothing but what the instances hold has changed. -/
theorem ends_bind_context (context : Context) :
    Dialogue.Ends (Attached context) context.bind := by
  refine Dialogue.ends_bind (ends_attachAll _) fun attached hattached => Dialogue.Ends.done ?_
  exact ⟨hattached, rfl⟩

/-- The requests are those of the instances. -/
theorem within_attachAll {P : Request → Prop} {instances : List Instance}
    (h : ∀ i ∈ instances, Dialogue.Within P (i.behaviour.attach i.state)) :
    Dialogue.Within P (attachAll instances) := by
  induction instances with
  | nil => exact Dialogue.Within.done _
  | cons i later ih =>
      refine Dialogue.within_bind (h i List.mem_cons_self) fun state => ?_
      refine Dialogue.within_bind (ih fun i member => h i (List.mem_cons_of_mem _ member)) ?_
      exact fun attached => Dialogue.Within.done _

theorem within_bind_context {P : Request → Prop}
    (h : ∀ (slot : Nat) (i : Instance), context.instances[slot]? = some i →
      Dialogue.Within P (i.behaviour.attach i.state)) : Dialogue.Within P context.bind := by
  refine Dialogue.within_bind (within_attachAll fun i member => ?_) fun _ => Dialogue.Within.done _
  rcases List.mem_iff_getElem?.mp member with ⟨slot, hi⟩
  exact h slot i (by rwa [Array.getElem?_toList] at hi)

end Context

end Transport
