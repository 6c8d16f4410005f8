import Transport.Proofs.Machine.Chronicle

/-!
# Stray Traps

Two traps say that control is outside: of a segment, or of RAM. Whoever drives an execution
makes them. A handler of a module could make them too, but nothing else does: no answer of
the machine is one, and the ops do not come up with any. So a trap of this kind that ends
an op is that of a handler which the op called, and the answers that the op was given say
which.

What the driver has to do with is control that leaves a segment. It does so at the end of
the segment, or for the target of a jump, which is aligned and not in the segment.

## Main definitions

* `Trap.isStray`: The traps that say that control is outside.
* `Tame`: None of the answers is one.
* `Op.Raises`, `Undertaking.Raised`: A trap is that of a handler which an op called.

## Theorems

* `raises_of_perform`, `raised_of_step`: A stray trap of an op comes from a handler.
* `exit_of_step`: Where a segment is left for.
* `not_stray_of_answer`: No answer of a machine is a stray trap.
-/

namespace Transport

/-- Whether a trap says that control is outside: of a segment, or of RAM. -/
def Trap.isStray : Trap → Bool
  | .entryOutOfRange _ | .jumpOutsideRam _ => true
  | .uncompiled _ | .selfModifyingCode _ | .ramOutOfBounds _ | .listener _ => false

/-- The trap in an answer. -/
def Request.trap? : (r : Request) → r.Answer → Option Trap
  | .readWord _, .error trap => some trap
  | .storeWord _ _, .error trap => some trap
  | .suspend _, .error trap => some trap
  | _, _ => none

section Raises

variable (context : Context) (answers : List Answered) (trap : Trap)

/-- The handler that a load calls comes to a trap by some answers. -/
inductive Load.Raises (offset : Word) : Load → Prop
  | call {slot : Nat} {key : UInt16} {address : Address} {i : Instance} {state : ModuleState}
      (seated : context.instances[slot]? = some i)
      (comes : Talk.Comes (i.behaviour.read key ⟨offset, address⟩) i.state answers (.error trap)
        state) : Raises offset (.call slot key address)

/-- The handler that a store calls comes to a trap by some answers. -/
inductive Store.Raises (offset value : Word) : Store → Prop
  | call {slot : Nat} {key : UInt16} {address : Address} {i : Instance} {state : ModuleState}
      (seated : context.instances[slot]? = some i)
      (comes : Talk.Comes (i.behaviour.write key value ⟨offset, address⟩) i.state answers
        (.error trap) state) : Raises offset value (.call slot key address)

/-- A handler that an op calls comes to a trap by the answers that the op was given. -/
inductive Op.Raises : Op → Prop
  | test {offset : Word} {load : Load} {kind : Test}
      (raises : load.Raises context answers trap offset) : Raises (.test offset load kind)
  | load {offset : Word} {load : Load} {store : Store}
      (raises : load.Raises context answers trap offset) : Raises (.move offset load store)
  | store {offset value : Word} {load : Load} {store : Store} {context' : Context}
      {before after : List Answered} (split : answers = before ++ after)
      (loaded : Talk.Comes (load.value offset) context before (.ok value) context')
      (raises : store.Raises context' after trap offset value) : Raises (.move offset load store)

end Raises

/-- The trap is that of a handler which the op called. -/
def Undertaking.Raised (u : Undertaking) (trap : Trap) : Prop :=
  ∃ op, u.segment.ops[u.op]? = some op ∧ op.Raises u.context u.answers trap

/-- None of the answers says that control is outside. -/
def Tame (answers : List Answered) : Prop :=
  ∀ x ∈ answers, ∀ trap, x.request.trap? x.answer = some trap → trap.isStray = false

/-! ## What ops trap with -/

section Ops

variable {registry : Registry} {context context' : Context} {answers : List Answered} {trap : Trap}

theorem tame_of_cons {x : Answered} (tame : Tame (x :: answers)) : Tame answers :=
  fun y member => tame y (List.mem_cons_of_mem x member)

/-- A call traps with what the handler of an instance traps with. -/
theorem exists_handler_of_call {α : Type} {slot : Nat} {default : α}
    {handler : Behaviour → Handler α}
    (h : Talk.Comes (Exec.call slot default handler) context answers (.error trap) context') :
    ∃ i state', context.instances[slot]? = some i ∧
      Talk.Comes (handler i.behaviour) i.state answers (.error trap) state' := by
  unfold Talk.Comes Exec.call at h
  -- A slot without an instance answers by default, which is no failure.
  cases hi : context.instances[slot]? with
  | none =>
      rw [hi] at h
      rcases Dialogue.leads_done_iff.mp h with ⟨_, hend⟩
      cases hend
  | some i =>
      rw [hi] at h
      rcases Dialogue.exists_leads_of_bind h with
        ⟨⟨result, state⟩, before, after, rfl, hhandler, hrest⟩
      rcases Dialogue.leads_done_iff.mp hrest with ⟨rfl, hend⟩
      cases hend
      rw [List.append_nil]
      exact ⟨i, state, rfl, hhandler⟩

theorem raises_of_load {offset : Word} {load : Load}
    (h : Talk.Comes (load.value offset) context answers (.error trap) context') :
    load.Raises context answers trap offset := by
  -- Only a call can fail, and it fails by its handler.
  cases load with
  | const value => cases (Talk.comes_pure_iff.mp h).2.1
  | cell slot index =>
      have hrest := Talk.comes_get_bind_iff.mp h
      cases (Talk.comes_pure_iff.mp hrest).2.1
  | call slot key address =>
      change Talk.Comes (Exec.call slot 0 fun b => b.read key ⟨offset, address⟩) _ _ _ _ at h
      rcases exists_handler_of_call h with ⟨i, state', hi, hhandler⟩
      exact .call hi hhandler

theorem raises_of_store {offset value : Word} {store : Store}
    (h : Talk.Comes (store.put offset value) context answers (.error trap) context') :
    store.Raises context answers trap offset value := by
  cases store with
  | cell slot index =>
      have hrest := Talk.comes_modify_bind_iff.mp h
      cases (Talk.comes_pure_iff.mp hrest).2.1
  | call slot key address =>
      change Talk.Comes (Exec.call slot .proceed fun b => b.write key value ⟨offset, address⟩)
        _ _ _ _ at h
      rcases exists_handler_of_call h with ⟨i, state', hi, hhandler⟩
      exact .call hi hhandler

/-- The trap of an answer that is passed on is none that says that control is outside. -/
theorem not_stray_of_ask {r : Request} {answer : r.Answer} {reason : Trap}
    (tame : Tame (⟨r, answer⟩ :: answers)) (refused : r.trap? answer = some reason) :
    reason.isStray = false :=
  tame _ List.mem_cons_self reason refused

/-- If an op comes to a stray trap by tame answers, the trap is that of a handler. -/
theorem raises_of_perform (op : Op) (tame : Tame answers) (stray : trap.isStray = true)
    (h : Talk.Comes op.perform context answers (.error trap) context') :
    op.Raises context answers trap := by
  cases op with
  | suspend offset =>
      rcases Talk.comes_ask_bind_iff.mp h with ⟨answer, later, rfl, hrest⟩
      cases answer with
      | ok _ => cases (Talk.comes_pure_iff.mp hrest).2.1
      | error reason =>
          cases (Talk.comes_throw_iff.mp hrest).2.1
          rw [not_stray_of_ask tame rfl] at stray
          contradiction
  | move offset load store =>
      rcases Talk.comes_bind_iff.mp h with
        ⟨value, context₁, before, after, rfl, hload, hrest⟩ | ⟨_, hend, hload⟩
      · rcases Talk.comes_bind_iff.mp hrest with ⟨effect, _, _, _, _, _, hlast⟩ | ⟨_, hend, hstore⟩
        · cases effect <;> cases (Talk.comes_pure_iff.mp hlast).2.1
        · cases hend
          exact .store rfl hload (raises_of_store hstore)
      · cases hend
        exact .load (raises_of_load hload)
  | test offset load kind =>
      rcases Talk.comes_bind_iff.mp h with ⟨value, _, _, _, _, _, hrest⟩ | ⟨_, hend, hload⟩
      · have hlast := Talk.comes_modify_bind_iff.mp hrest
        cases (Talk.comes_pure_iff.mp hlast).2.1
      · cases hend
        exact .test (raises_of_load hload)
  | branch target =>
      have hrest := Talk.comes_modify_bind_iff.mp (Talk.comes_get_bind_iff.mp h)
      cases (Talk.comes_pure_iff.mp hrest).2.1
  | trap offset cause source destination =>
      -- The op reads both words of its instruction, and either of them may be out of reach.
      rcases Talk.comes_ask_bind_iff.mp h with ⟨answer, later, rfl, hrest⟩
      cases answer with
      | error reason =>
          cases (Talk.comes_throw_iff.mp hrest).2.1
          rw [not_stray_of_ask tame rfl] at stray
          contradiction
      | ok currentSource =>
          rcases Talk.comes_ask_bind_iff.mp hrest with ⟨answer, later, rfl, hlast⟩
          cases answer with
          | error reason =>
              cases (Talk.comes_throw_iff.mp hlast).2.1
              rw [not_stray_of_ask (tame_of_cons tame) rfl] at stray
              contradiction
          | ok currentDestination =>
              cases (Talk.comes_throw_iff.mp hlast).2.1
              -- What the op reports is about the instruction.
              unfold Op.trapOf at stray
              split at stray <;> contradiction

/-- So it is with a step of a segment. -/
theorem raised_of_step {u : Undertaking} (tame : Tame u.answers) (stray : trap.isStray = true)
    (h : Talk.Comes (u.segment.step u.op) u.context u.answers (.error trap) context') :
    u.Raised trap := by
  unfold Segment.step at h
  cases hop : u.segment.ops[u.op]? with
  | none =>
      rw [hop] at h
      cases (Talk.comes_pure_iff.mp h).2.1
  | some current =>
      rw [hop] at h
      -- A flow that is looked up does not fail, so the op itself did.
      rcases Talk.comes_bind_iff.mp h with ⟨_, _, _, _, _, _, hrest⟩ | ⟨trap', hend, hperform⟩
      · cases (Talk.comes_pure_iff.mp hrest).2.1
      · cases hend
        exact ⟨current, hop, raises_of_perform current tame stray hperform⟩

/-! ## Where segments are left for -/

/-- A segment is left for its end, or for the aligned target of a jump outside of it. -/
theorem exit_of_step {options : Options} {image : Ram} {segment : Segment}
    (compiled : Segment.compile registry options image segment.start segment.stop = .ok segment)
    (instantiates : context.Instantiates registry) {op : Nat} {target : Word}
    (h : Talk.Comes (segment.step op) context answers (.ok (.ended (.left target))) context') :
    target.toNat % 8 = 0 ∧ segment.contains target = false := by
  have hvalid := Segment.validRange_iff.mp (Segment.range_of_compile compiled).1
  unfold Segment.step at h
  cases hop : segment.ops[op]? with
  | none =>
      rw [hop] at h
      -- Behind the last op, control is at the end of the range.
      cases (Talk.comes_pure_iff.mp h).2.1
      refine ⟨hvalid.2.2.1, ?_⟩
      rw [Segment.contains, decide_eq_false (UInt32.lt_irrefl segment.stop), Bool.and_false]
  | some current =>
      rw [hop] at h
      rcases Talk.comes_bind_iff.mp h with ⟨flow, _, _, _, _, hperform, hrest⟩ | ⟨_, hend, _⟩
      · have hkept := Talk.comes_of_keeps (Op.keeps_perform current) instantiates hperform
        have yields := hkept.2 _ rfl
        have hfollow := (Talk.comes_pure_iff.mp hrest).2.1
        rcases flow with _ | (inside | outside) | _ <;> cases hfollow
        -- Only a jump leads outside, and it is one that was compiled to.
        rw [yields _ rfl] at hop
        rcases (Segment.op_of_compile compiled hop).2 with hsuspend | hfor
        · cases hsuspend
        · rcases Segment.branch_of_opFor hfor.symm with ⟨offset, _, aligned, htarget⟩
          rw [Segment.targetOf] at htarget
          split at htarget
          · cases htarget
          · next without =>
            cases htarget
            refine ⟨?_, ?_⟩
            · rw [← UInt32.toNat_inj, UInt32.toNat_mod] at aligned
              exact aligned
            · rw [← Bool.not_eq_true, Segment.contains, Bool.and_eq_true, decide_eq_true_eq,
                decide_eq_true_eq]
              exact without
      · cases hend

end Ops

/-! ## Answers of a machine -/

namespace Session

variable {ω : Type} {a : Audience ω}

/-- No answer of a machine says that control is outside. -/
theorem not_stray_of_answer (s : Session ω) {r : Request} {trap : Trap}
    (h : r.trap? (s.answer a r).1 = some trap) : trap.isStray = false := by
  cases r with
  | print | sendByte | takeByte | hasByte | offered => cases h
  | readWord offset =>
      change Request.trap? (.readWord offset) (s.machine.readWord offset) = _ at h
      unfold Machine.readWord at h
      split at h <;> cases h
      rfl
  | suspend offset =>
      change Request.trap? (.suspend offset) ((s.arrive a offset).1.mapError .listener) = _ at h
      cases hresult : (s.arrive a offset).1 with
      | error reason =>
          rw [hresult] at h
          cases h
          rfl
      | ok _ =>
          rw [hresult] at h
          cases h
  | storeWord offset value =>
      change Request.trap? (.storeWord offset value) (s.store a offset value).1 = _ at h
      -- A store is refused by the guard, by a listener, or by RAM, in this order.
      unfold store storeWith at h
      split at h
      · next refused =>
        cases h
        unfold Machine.checkStore at refused
        split at refused
        · split at refused <;> cases refused
          rfl
        · cases refused
          rfl
      · split at h
        · cases h
          rfl
        · split at h <;> cases h
          rfl

theorem tame_of_left {u : Undertaking} {segment : Segment} {rest : Remainder}
    (left : u.Left a segment rest) : Tame u.answers := by
  intro x member trap h
  rcases left.given x member with ⟨s, hanswer⟩
  rw [hanswer] at h
  exact not_stray_of_answer s h

end Session

end Transport
