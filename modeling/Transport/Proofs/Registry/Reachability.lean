import Transport.Proofs.Program.Agreement

/-!
# Ports in the Place of Control Operations

The instruction format keeps two encodings for itself: a top byte under which no source is
a port, and three words that are no destinations. Registration refuses a module under the
literal tag, so that whatever can be read has an address of its own. It has no such check
for the control words, since the module that gives them their names is registered like any
other; and nothing keeps a module with instances from taking its id.

A destination is therefore a port of an instance exactly if its address is not a control
word. Then the single move of a literal to it compiles, into a store through the port's
accessor. Otherwise the port is there, has a name and an address, is found by both, and
still no move ever reaches it: what is compiled is the control operation.

## Theorems

* `compile_single`: What the image of one instruction is compiled into.
* `shapeOf_write`, `shapeOf_shadowed`: What a move of a literal to a port is classified as.
* `compile_shadowed`: What it is compiled into in the place of a control operation.
* `write_port_reached_iff`: Which ports can be reached, and what happens to the others.
* `write_port_shadowed`: Not all of them can.
-/

namespace Transport

namespace Segment

/-- One instruction compiles into one op, or has an error at the beginning. -/
theorem compile_single {r : Registry} (i : Instruction) (singleStep : Bool) :
    let options : Options := ⟨true, singleStep⟩
    let compiled := compile r options (⟨[i]⟩ : Program).image 0 8
    match shapeOf r r.slotIds (.ofWords i.source.word i.destination.word) with
    | .ok shape => ∃ segment, compiled = .ok segment ∧ segment.size = 1 ∧
        segment.opAt? 0 =
          some (opOf (targetOf 0 8 options.stride) ⟨0, i.source.word, i.destination.word, shape⟩)
    | .error cause => compiled = .error (cause.errorAt 0) := by
  intro options compiled
  have short : (⟨[i]⟩ : Program).size < 0x20000000 := show 1 < 0x20000000 by decide
  have valid : validRange (⟨[i]⟩ : Program).image 0 8 = true := (Program.validRange_image short).1
  have hcount : countOf 0 8 = 1 := by decide
  have hi : (⟨[i]⟩ : Program).instructions[0]? = some i := rfl
  have hslot := Program.slotAt_image (r := r) hi short
  have hstart : offsetOf 0 0 = 0 := by decide
  rw [hstart] at hslot
  cases hshape : shapeOf r r.slotIds (.ofWords i.source.word i.destination.word) with
  | ok shape =>
      rw [classify, hshape] at hslot
      refine ⟨layout r options (⟨[i]⟩ : Program).image 0 8, ?_, size_layout r options _, ?_⟩
      · refine compile_eq_ok_iff.mpr ⟨valid, fun _ index inside => ?_, rfl⟩
        rw [hcount, Nat.lt_one_iff] at inside
        rw [inside, hstart, hslot, slotError?]
        -- What compiles is not classified as a trap.
        have compiles := shapeOf_eq_ok_iff.mp hshape
        generalize Instruction.ofWords i.source.word i.destination.word = decoded at compiles
        cases compiles <;> rfl
      · rw [opAt?_layout (by decide), opFor, hstart, hslot]
  | error cause =>
      rw [classify, hshape] at hslot
      refine compile_eq_error_iff.mpr (Or.inr ⟨valid, rfl, 0, by decide, ?_, by simp⟩)
      rw [hstart, hslot]
      rfl

end Segment

namespace Registry

section Write

variable {r : Registry}

theorem ofWords_literal {value : Word} (fits : value ≤ offsetMask) (word : Word) :
    Instruction.ofWords (Source.literal value).word word =
      ⟨.literal value, Destination.ofWord word⟩ := by
  rw [Instruction.ofWords, Source.ofWord_word_literal, Word.and_offsetMask_eq_iff.mpr fits]

/-- A move of a literal to a port with an instance is a move, if the address is no control
    word. -/
theorem shapeOf_write (sound : r.Sound) {p : Port} (hp : p ∈ r.ports)
    (serves : p.allows .write = true) (dispatches : Interpreter.dispatches r p.owner = true)
    {address : Address} (haddress : p.address? = some address) {value : Word}
    (fits : value ≤ offsetMask) (clear : ∀ operation : Control, address.word ≠ operation.word) :
    ∃ store, r.Reaches p store ∧
      Segment.shapeOf r r.slotIds (.ofWords (Source.literal value).word address.word) =
        .ok (.move (.const value) store) := by
  rcases exists_storeOf sound hp serves haddress dispatches with ⟨store, hstore, reaches⟩
  refine ⟨store, reaches, ?_⟩
  -- No control operation has this word, so it decodes as a port.
  have hport : Destination.ofWord address.word = .port address :=
    Destination.ofWord_word_port_iff.mpr clear
  rw [ofWords_literal fits, hport]
  exact Segment.shapeOf_eq_ok_iff.mpr (.move rfl hstore)

/-- A move of a literal to a control word is the control operation, whatever port is
    there. -/
theorem shapeOf_shadowed {value : Word} (fits : value ≤ offsetMask) (operation : Control) :
    Segment.shapeOf r r.slotIds (.ofWords (Source.literal value).word operation.word) =
      match operation with
      | .branch =>
        if value % 8 = 0 then .ok (.branch value) else .error (.misalignedJump value)
      | .nonneg => .ok (.test (.const value) .nonneg)
      | .zero => .ok (.test (.const value) .zero) := by
  have hcontrol : Destination.ofWord operation.word = .control operation :=
    Destination.ofWord_word_control operation
  rw [ofWords_literal fits, hcontrol]
  -- Of the three, only a branch asks something of its literal.
  cases operation with
  | branch =>
      by_cases aligned : value % 8 = 0
      · rw [Segment.shapeOf_eq_ok_iff.mpr (.branch aligned)]
        exact (if_pos aligned).symm
      · simp only [Segment.shapeOf, Segment.branchOf, if_neg aligned]
        rfl
  | nonneg => exact Segment.shapeOf_eq_ok_iff.mpr (.nonneg rfl)
  | zero => exact Segment.shapeOf_eq_ok_iff.mpr (.zero rfl)

/-- The op that the move of a literal becomes, when its destination is a control word. -/
def shadowOp (options : Options) (value : Word) : Control → Op
  | .branch => .branch (Segment.targetOf 0 8 options.stride value)
  | .nonneg => .test 0 (.const value) .nonneg
  | .zero => .test 0 (.const value) .zero

/-- A move of a literal to a control word compiles into the control operation, whatever
    port is there, unless it is a jump to no multiple of eight. -/
theorem compile_shadowed {value : Word} (fits : value ≤ offsetMask) (operation : Control)
    (singleStep : Bool) :
    let options : Options := ⟨true, singleStep⟩
    let compiled := Segment.compile r options
      (⟨[⟨.literal value, .port ⟨operation.word⟩⟩]⟩ : Program).image 0 8
    if operation = .branch ∧ value % 8 ≠ 0 then compiled = .error (.misalignedJump 0 value)
    else ∃ segment, compiled = .ok segment ∧ segment.size = 1 ∧
      segment.opAt? 0 = some (shadowOp options value operation) := by
  intro options compiled
  have hcompiled := Segment.compile_single (r := r)
    ⟨.literal value, .port ⟨operation.word⟩⟩ singleStep
  dsimp only [Destination.word] at hcompiled
  rw [shapeOf_shadowed fits operation] at hcompiled
  cases operation with
  | branch =>
      by_cases aligned : value % 8 = 0
      · rw [if_neg (by simp [aligned])]
        rw [if_pos aligned] at hcompiled
        exact hcompiled
      · rw [if_pos ⟨rfl, aligned⟩]
        rw [if_neg aligned] at hcompiled
        exact hcompiled
  | nonneg => exact hcompiled
  | zero => exact hcompiled

end Write

/-- Which write ports can be reached. In every registry that comes of declarations offered
    one after the other, for every port of a module with instances that has an address and
    can be written, and for every literal of 24 bits: the move of the literal to the address
    compiles strictly into a move of it through the port's accessor, at the instance of the
    port's module, exactly if the address is not the word of a control operation. If it is,
    the move is that operation: a test or a jump, or refused as a jump to no multiple of
    eight. -/
theorem write_port_reached_iff (decls : List ModuleDecl) {m : RegisteredModule}
    (hm : m ∈ (empty.offerAll decls).modules) {behaviour : Behaviour}
    (dispatched : m.decl.kind = .dispatched behaviour) {p : Port} (hp : p ∈ m.ports)
    (serves : p.allows .write = true) {address : Address} (haddress : p.address? = some address)
    {value : Word} (fits : value.toNat < 0x1000000) (singleStep : Bool) :
    let r := empty.offerAll decls
    let options : Options := ⟨true, singleStep⟩
    let compiled := Segment.compile r options
      (⟨[⟨.literal value, .port address⟩]⟩ : Program).image 0 8
    ((∃ segment store, compiled = .ok segment ∧ segment.size = 1 ∧
        segment.opAt? 0 = some (.move 0 (.const value) store) ∧ r.Reaches p store) ↔
      ∀ operation : Control, address.word ≠ operation.word) ∧
    ∀ operation : Control, address.word = operation.word →
      if operation = .branch ∧ value % 8 ≠ 0 then compiled = .error (.misalignedJump 0 value)
      else ∃ segment, compiled = .ok segment ∧ segment.size = 1 ∧
        segment.opAt? 0 = some (shadowOp options value operation) := by
  intro r options compiled
  have sound : r.Sound := sound_offerAll decls
  have hfits : value ≤ offsetMask := UInt32.le_iff_toNat_le.mpr (Nat.lt_succ_iff.mp fits)
  have hports : p ∈ r.ports := mem_ports_iff.mpr ⟨m, hm, hp⟩
  have hdispatches : Interpreter.dispatches r p.owner = true := by
    rw [owner_of_mem sound hm hp]
    exact dispatches_of_mem sound hm dispatched
  have hshadow : ∀ operation : Control, address.word = operation.word →
      if operation = .branch ∧ value % 8 ≠ 0 then compiled = .error (.misalignedJump 0 value)
      else ∃ segment, compiled = .ok segment ∧ segment.size = 1 ∧
        segment.opAt? 0 = some (shadowOp options value operation) := by
    intro operation same
    have hshadowed := compile_shadowed (r := r) hfits operation singleStep
    rw [← same] at hshadowed
    exact hshadowed
  refine ⟨⟨?_, fun clear => ?_⟩, hshadow⟩
  · -- Were the word that of an operation, there would be another op at the slot.
    rintro ⟨segment, store, hsegment, _, hop, _⟩ operation same
    have hshadowed := hshadow operation same
    rw [hsegment] at hshadowed
    split at hshadowed
    · contradiction
    · rcases hshadowed with ⟨segment', hsegment', _, hop'⟩
      cases hsegment'
      rw [hop, Option.some.injEq] at hop'
      cases operation <;> contradiction
  · rcases shapeOf_write sound hports serves hdispatches haddress hfits clear with
      ⟨store, reaches, hshape⟩
    have hcompiled := Segment.compile_single (r := r) ⟨.literal value, .port address⟩ singleStep
    dsimp only [Destination.word] at hcompiled
    rw [hshape] at hcompiled
    rcases hcompiled with ⟨segment, hsegment, hsize, hop⟩
    exact ⟨segment, store, hsegment, hsize, hop, reaches⟩

/-- A module with instances under the id of the jump module, with a port in the place of a
    control operation and one behind them. -/
def gateDecl : ModuleDecl where
  id := 0x90
  stem := "gate"
  cells := 2
  ports := [
    { name := "inner", position := .fixed 0, capability := .write, accessor := .cell 0 },
    { name := "outer", position := .fixed 3, capability := .write, accessor := .cell 1 }]
  kind := .dispatched Module.Sample.tally

-- The outer port is reached, and a jump is made of a move to the inner one.
theorem write_port_reached_iff_gate :
    let r := empty.offerAll [gateDecl]
    let outer : Program := ⟨[⟨.literal 7, .port ⟨0x90000003⟩⟩]⟩
    let inner : Program := ⟨[⟨.literal 16, .port ⟨0x90000000⟩⟩]⟩
    r.modules = [gateDecl.registered] ∧
    (∃ segment store, Segment.compile r ⟨true, true⟩ outer.image 0 8 = .ok segment ∧
      segment.size = 1 ∧ segment.opAt? 0 = some (.move 0 (.const 7) store) ∧
        r.Reaches (gateDecl.port ⟨"outer", [], .fixed 3, .write, .cell 1⟩) store) ∧
    ∃ segment, Segment.compile r ⟨true, true⟩ inner.image 0 8 = .ok segment ∧
      segment.size = 1 ∧ segment.opAt? 0 = some (.branch (.outside 16)) := by
  intro r outer inner
  have hmodules : r.modules = [gateDecl.registered] := rfl
  have hm : gateDecl.registered ∈ r.modules := by simp [hmodules]
  have houter : (gateDecl.port ⟨"outer", [], .fixed 3, .write, .cell 1⟩).address? =
      some ⟨0x90000003⟩ := by decide
  have hinner : (gateDecl.port ⟨"inner", [], .fixed 0, .write, .cell 0⟩).address? =
      some ⟨0x90000000⟩ := by decide
  have hseven : (7 : Word).toNat < 0x1000000 := by decide
  have hsixteen : (16 : Word).toNat < 0x1000000 := by decide
  have hreached := write_port_reached_iff [gateDecl] hm rfl
    (by simp [ModuleDecl.registered, gateDecl]) rfl houter hseven true
  have hshadowed := write_port_reached_iff [gateDecl] hm rfl
    (by simp [ModuleDecl.registered, gateDecl]) rfl hinner hsixteen true
  refine ⟨hmodules, hreached.1.mpr ?_, ?_⟩
  · -- The word of the outer port is that of no control operation, that of the inner is a branch.
    intro operation
    cases operation <;> decide
  · exact hshadowed.2 .branch rfl

/-- A port that was registered cannot be reached. -/
theorem write_port_shadowed :
    ¬ ∀ decls : List ModuleDecl, ∀ m ∈ (empty.offerAll decls).modules,
      ∀ behaviour, m.decl.kind = .dispatched behaviour →
      ∀ p ∈ m.ports, p.allows .write = true → ∀ address, p.address? = some address →
      ∀ value : Word, value.toNat < 0x1000000 →
        ∃ segment store, Segment.compile (empty.offerAll decls) ⟨true, false⟩
          (⟨[⟨.literal value, .port address⟩]⟩ : Program).image 0 8 = .ok segment ∧
          segment.size = 1 ∧ segment.opAt? 0 = some (.move 0 (.const value) store) ∧
            (empty.offerAll decls).Reaches p store := by
  intro reached
  rcases reached [gateDecl] gateDecl.registered (List.mem_singleton.mpr rfl) _ rfl
      (gateDecl.port ⟨"inner", [], .fixed 0, .write, .cell 0⟩)
      (by simp [ModuleDecl.registered, gateDecl]) rfl ⟨0x90000000⟩ (by decide) 1 (by decide) with
    ⟨segment, store, hsegment, _⟩
  -- One is no multiple of eight, so the move is refused as a jump.
  have hone : (1 : Word) ≤ offsetMask := by decide
  have hrefused := compile_shadowed (r := empty.offerAll [gateDecl]) hone .branch false
  rw [if_pos (by decide)] at hrefused
  have hclash := hrefused.symm.trans hsegment
  contradiction

end Registry

end Transport
