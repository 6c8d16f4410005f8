import Transport.Proofs.Program.Disassembly
import Transport.Proofs.Program.Pushes

/-!
# The Encoding of Programs

An instruction is eight bytes, and eight bytes are always an instruction. What decoding
gives is encoded as it was; but an instruction can also be put together by hand, from
operands that no word stands for, and then the bytes stand for another one. So programs
are determined by their bytes as far as their moves were decoded or assembled, and no
further.

Where a program is copied to makes no difference: the offset need not be a multiple of
eight, nor the memory be empty. The move at an index is found eight times the index behind
the offset, even in a memory in which no greater offset could be named.

## Main definitions

* `Program.Classified`: The moves that were decoded or assembled.

## Theorems

* `getElem?_put_bytes`: The bytes of a program after it was copied into RAM.
* `eq_iff_bytes_eq`: When programs are determined by their bytes.
* `encoding_round_trips`: All of this together.
-/

namespace Transport

namespace Program

/-- The moves that were decoded, from eight bytes or from two words, or assembled, from a
    listing or from a pair of operands. -/
inductive Classified : Instruction → Prop
  | ofBytes {bytes : List UInt8} {i : Instruction}
      (decoded : Instruction.ofBytes? bytes = some i) : Classified i
  | ofWords (source destination : Word) : Classified (.ofWords source destination)
  | ofListing {r : Registry} {text : String} {program : Program} {i : Instruction}
      (assembled : ofListing r text = .ok program) (member : i ∈ program.instructions) :
      Classified i
  | push {r : Registry} {source destination : String} {p : Program} {i : Instruction}
      (assembled : p.push r source destination = .ok (p.append [i])) : Classified i

theorem decoded_of_ofBytes? {bytes : List UInt8} {i : Instruction}
    (h : Instruction.ofBytes? bytes = some i) : Decoded i := by
  unfold Instruction.ofBytes? at h
  split at h
  · exact ⟨_, _, (Option.some.inj h).symm⟩
  · contradiction

/-- However a move was decoded or assembled, it is the classification of two words. -/
theorem Classified.decoded {i : Instruction} (h : Classified i) : Decoded i := by
  cases h with
  | ofBytes decoded => exact decoded_of_ofBytes? decoded
  | ofWords source destination => exact ⟨source, destination, rfl⟩
  | ofListing assembled member =>
      rcases map_eq_ok_iff.mp (Program.ofListing_eq_listingMoves _ _ ▸ assembled) with ⟨moves, hmoves, rfl⟩
      exact decoded_of_listingMoves _ 1 moves hmoves _ member
  | push assembled =>
      rcases exists_operands_of_push assembled with ⟨_, _, i', _, _, hmove, hsame⟩
      rw [append, append, mk.injEq, List.append_cancel_left_eq, List.singleton_inj] at hsame
      rw [hsame]
      exact decoded_of_move hmove

/-- Programs whose moves were decoded or assembled are equal if their bytes are. -/
theorem eq_iff_bytes_eq {p q : Program} (hp : ∀ i ∈ p.instructions, Classified i)
    (hq : ∀ i ∈ q.instructions, Classified i) : p = q ↔ p.bytes = q.bytes := by
  constructor
  · rintro rfl
    rfl
  · intro same
    rw [← ofBytes_bytes fun i member => (hp i member).decoded, same,
      ofBytes_bytes fun i member => (hq i member).decoded]

/-- The bytes of a program that was copied into RAM are found move by move. -/
theorem getElem?_put_bytes {program : Program} {ram : Ram} {offset : Word}
    (fits : offset.toNat + 8 * program.size ≤ ram.size) {index : Nat} {i : Instruction}
    (h : program.instructions[index]? = some i) {k : Nat} (inside : k < 8) :
    (ram.put offset program.bytes).bytes[offset.toNat + 8 * index + k]? = i.bytes[k]? := by
  have hindex : index < program.size := (List.getElem?_eq_some_iff.mp h).1
  have hlength := length_bytes program
  rw [Ram.getElem?_put (by rwa [hlength]), if_pos (by omega), Nat.add_assoc,
    Nat.add_sub_cancel_left, bytes, getElem?_flatMap_bytes _ index k inside, h, Option.bind_some]

/-- A program that fits is copied, and its moves are found where they were copied to. -/
theorem exists_copy? {program : Program} {ram : Ram} {offset : Word}
    (small : ram.size ≤ 0x100000000) (fits : offset.toNat + 8 * program.size ≤ ram.size) :
    ∃ ram', ram.copy? offset program.bytes = some ram' ∧
      ∀ index i, program.instructions[index]? = some i →
        let here := Segment.offsetOf offset index
        here.toNat = offset.toNat + 8 * index ∧ ram'.word? here = some i.words.1 ∧
          ram'.word? (here + 4) = some i.words.2 ∧ Segment.wordsAt ram' here = i.words := by
  have holds : ram.holds offset program.bytes.length = true := by
    rwa [Ram.holds_iff, length_bytes]
  refine ⟨ram.put offset program.bytes, if_pos holds, fun index i h => ?_⟩
  have hindex : index < program.size := (List.getElem?_eq_some_iff.mp h).1
  have hhere : (Segment.offsetOf offset index).toNat = offset.toNat + 8 * index :=
    Segment.toNat_offsetOf (by omega)
  -- The whole move lies below the greatest size, so its second word can be named.
  have reach : (Segment.offsetOf offset index).toNat + 4 < 0x100000000 := by omega
  have hbyte : ∀ k, k < 8 → (ram.put offset program.bytes).bytes[
      (Segment.offsetOf offset index).toNat + k]? = i.bytes[k]? := by
    intro k inside
    rw [hhere]
    exact getElem?_put_bytes fits h inside
  rcases words_of_bytes reach hbyte with ⟨hsource, hdestination⟩
  exact ⟨hhere, hsource, hdestination, wordsAt_of_bytes reach hbyte⟩

/-- The encoding round trips. Eight bytes are always an instruction, which is written as
    they are. An instruction is read back from its bytes exactly if a literal has no more
    than 24 bits, a port to read is not under the literal tag, and a port to write is not in
    the place of a control operation. A program has eight bytes for every move, and copied
    to where it fits it has the words of each move at the move's place. Programs whose
    moves were decoded or assembled are equal exactly if their bytes are. -/
theorem encoding_round_trips :
    (∀ bytes : List UInt8, bytes.length = 8 →
      ∃ i, Instruction.ofBytes? bytes = some i ∧ i.bytes = bytes) ∧
    (∀ i : Instruction, Instruction.ofBytes? i.bytes = some i ↔
      (∀ value, i.source = .literal value → value.toNat < 0x1000000) ∧
      (∀ address, i.source = .port address → address.moduleId ≠ 0x11) ∧
      ∀ address, i.destination = .port address →
        address.word ≠ 0x90000000 ∧ address.word ≠ 0x90000001 ∧ address.word ≠ 0x90000002) ∧
    (∀ program : Program, program.bytes.length = 8 * program.size ∧
      ∀ (ram : Ram) (offset : Word), ram.size ≤ 0x100000000 →
        offset.toNat + 8 * program.size ≤ ram.size →
          ∃ ram', ram.copy? offset program.bytes = some ram' ∧
            ∀ index i, program.instructions[index]? = some i →
              let here := Segment.offsetOf offset index
              here.toNat = offset.toNat + 8 * index ∧ ram'.word? here = some i.words.1 ∧
                ram'.word? (here + 4) = some i.words.2 ∧
                  Segment.wordsAt ram' here = i.words) ∧
    ∀ p q : Program, (∀ i ∈ p.instructions, Classified i) →
      (∀ i ∈ q.instructions, Classified i) → (p = q ↔ p.bytes = q.bytes) := by
  refine ⟨fun _ => Instruction.bytes_ofBytes?, fun i => ?_,
    fun program => ⟨length_bytes program, fun _ _ => exists_copy?⟩, fun _ _ => eq_iff_bytes_eq⟩
  -- The conditions are those of both sides, with the mask and the operations written out.
  have hliteral : ∀ value : Word, value ≤ offsetMask ↔ value.toNat < 0x1000000 := by
    intro value
    rw [UInt32.le_iff_toNat_le]
    exact Nat.lt_succ_iff.symm
  have hcontrol : ∀ word : Word, (∀ operation : Control, word ≠ operation.word) ↔
      word ≠ 0x90000000 ∧ word ≠ 0x90000001 ∧ word ≠ 0x90000002 := by
    intro word
    constructor
    · exact fun h => ⟨h .branch, h .nonneg, h .zero⟩
    · rintro ⟨hbranch, hnonneg, hzero⟩ operation
      cases operation with
      | branch => exact hbranch
      | nonneg => exact hnonneg
      | zero => exact hzero
  rw [Instruction.ofBytes?_bytes_iff, Source.ofWord_word_iff, Destination.ofWord_word_iff]
  simp only [hliteral, hcontrol, and_assoc]
  exact Iff.rfl

-- A literal of 25 bits on its way to a jump that is written as a port, and behind it a move
-- between ports, copied to an odd offset; the jump that is decoded has the same bytes.
theorem encoding_round_trips_handmade :
    let odd : Instruction := ⟨.literal 0x1000005, .port ⟨0x90000000⟩⟩
    let jump : Instruction := .ofWords 0x11000005 0x90000000
    let program : Program := ⟨[odd, .ofWords 0x13000001 0x02000012]⟩
    (∃ i, Instruction.ofBytes? odd.bytes = some i ∧ i.bytes = odd.bytes) ∧
    Instruction.ofBytes? odd.bytes ≠ some odd ∧ Instruction.ofBytes? jump.bytes = some jump ∧
    (∃ ram, Ram.copy? ⟨Array.replicate 20 0xFF⟩ 3 program.bytes = some ram ∧
      ram.word? 11 = some 0x13000001 ∧ ram.word? 15 = some 0x02000012) ∧
    (⟨[odd]⟩ : Program).bytes = (⟨[jump]⟩ : Program).bytes ∧
    ((⟨[jump]⟩ : Program) = ⟨[jump, jump]⟩ ↔
      (⟨[jump]⟩ : Program).bytes = (⟨[jump, jump]⟩ : Program).bytes) := by
  intro odd jump program
  rcases encoding_round_trips with ⟨hbytes, hread, hcopied, hequal⟩
  refine ⟨hbytes _ rfl, fun h => ?_, (hread jump).mpr ⟨?_, ?_, ?_⟩, ?_, by decide, ?_⟩
  · exact absurd (((hread odd).mp h).1 _ rfl) (by decide)
  · rintro value ⟨⟩
    decide
  · rintro address ⟨⟩
  · rintro address ⟨⟩
  · rcases (hcopied program).2 ⟨Array.replicate 20 0xFF⟩ 3 (by decide) (by decide) with
      ⟨ram, hcopy, hwords⟩
    rcases hwords 1 _ rfl with ⟨_, hsource, hdestination, _⟩
    exact ⟨ram, hcopy, hsource, hdestination⟩
  · have hjump : Classified jump := .ofWords _ _
    exact hequal _ _ (by simpa using hjump) (by simpa using hjump)

end Program

end Transport
