import Transport.Instruction

/-!
# Operands and Their Words

Whatever a word is classified as, encoding the operand gives the word back. The other way
round there are operands that no word is classified as: a literal of which the encoding
keeps only a part, a port to read under the literal tag, and a port to write in the place
of a control operation. All others come back, and so do the instructions made of them.

## Theorems

* `Source.ofWord_word_iff`, `Destination.ofWord_word_iff`: The operands that come back.
* `Instruction.bytes_ofBytes?`: Bytes come back, whatever they are.
* `Instruction.ofBytes?_bytes_iff`: The instructions that come back.
-/

namespace Transport

/-- The mask keeps the words of no more than 24 bits. -/
theorem Word.and_offsetMask_eq_iff {word : Word} :
    word &&& offsetMask = word ↔ word ≤ offsetMask := by
  have hmask : offsetMask.toNat = 2 ^ 24 - 1 := rfl
  rw [← UInt32.toNat_inj, UInt32.toNat_and, UInt32.le_iff_toNat_le, hmask,
    Nat.and_two_pow_sub_one_eq_mod]
  omega

namespace Source

/-- A literal is classified as one, of which 24 bits are left. -/
theorem ofWord_word_literal (value : Word) :
    ofWord (literal value).word = .literal (value &&& offsetMask) := by
  -- A literal has the form of an address under the literal tag.
  have hmodule := Address.moduleId_of literalTag value
  have hoffset := Address.offset_of literalTag value
  rw [Address.of, Address.moduleId] at hmodule
  rw [Address.of, Address.offset] at hoffset
  rw [word, ofWord, if_pos hmodule, hoffset]

theorem ofWord_word_port_iff {address : Address} :
    ofWord (port address).word = .port address ↔ address.moduleId ≠ literalTag := by
  rw [word, ofWord]
  by_cases tagged : (address.word >>> 24).toUInt8 = literalTag
  · rw [if_pos tagged]
    exact ⟨fun h => Source.noConfusion h, fun h => absurd tagged h⟩
  · rw [if_neg tagged]
    exact ⟨fun _ => tagged, fun _ => rfl⟩

/-- The sources that come back from their words. -/
theorem ofWord_word_iff {source : Source} :
    ofWord source.word = source ↔
      (∀ value, source = .literal value → value ≤ offsetMask) ∧
        ∀ address, source = .port address → address.moduleId ≠ literalTag := by
  cases source with
  | literal value =>
      rw [ofWord_word_literal, literal.injEq, Word.and_offsetMask_eq_iff]
      simp
  | port address =>
      rw [ofWord_word_port_iff]
      simp

end Source

namespace Destination

/-- A control operation is classified as itself. -/
theorem ofWord_word_control (operation : Control) :
    ofWord (control operation).word = .control operation := by
  rw [word, ofWord, Control.ofWord?_eq_some.mpr rfl]

theorem ofWord_word_port_iff {address : Address} :
    ofWord (port address).word = .port address ↔
      ∀ operation : Control, address.word ≠ operation.word := by
  rw [word, ofWord]
  -- A word of an operation decodes as that operation, never as a port.
  cases hcontrol : Control.ofWord? address.word with
  | some operation =>
      rw [Control.ofWord?_eq_some] at hcontrol
      exact ⟨fun h => Destination.noConfusion h, fun h => absurd hcontrol (h operation)⟩
  | none =>
      refine ⟨fun _ operation same => ?_, fun _ => rfl⟩
      rw [Control.ofWord?_eq_some.mpr same] at hcontrol
      contradiction

/-- The destinations that come back from their words. -/
theorem ofWord_word_iff {destination : Destination} :
    ofWord destination.word = destination ↔
      ∀ address, destination = .port address →
        ∀ operation : Control, address.word ≠ operation.word := by
  cases destination with
  | control operation =>
      rw [ofWord_word_control]
      simp
  | port address =>
      rw [ofWord_word_port_iff]
      simp

end Destination

namespace Instruction

/-- The bytes of two words that were made of bytes are these. -/
theorem bytes_ofWords_ofBytes (s0 s1 s2 s3 d0 d1 d2 d3 : UInt8) :
    (ofWords (Word.ofBytes s0 s1 s2 s3) (Word.ofBytes d0 d1 d2 d3)).bytes =
      [s0, s1, s2, s3, d0, d1, d2, d3] := by
  rw [bytes, ofWords, Source.word_ofWord, Destination.word_ofWord, Word.bytes_ofBytes,
    Word.bytes_ofBytes]
  rfl

/-- Eight bytes stand for an instruction, and it is written as they are. -/
theorem bytes_ofBytes? {bytes : List UInt8} (whole : bytes.length = 8) :
    ∃ i, ofBytes? bytes = some i ∧ i.bytes = bytes := by
  rcases bytes with _ | ⟨s0, _ | ⟨s1, _ | ⟨s2, _ | ⟨s3, _ | ⟨d0, _ | ⟨d1, _ | ⟨d2, _ | ⟨d3,
    _ | ⟨more, rest⟩⟩⟩⟩⟩⟩⟩⟩⟩
  case cons.cons.cons.cons.cons.cons.cons.cons.nil =>
    exact ⟨_, rfl, bytes_ofWords_ofBytes s0 s1 s2 s3 d0 d1 d2 d3⟩
  all_goals
    simp only [List.length_cons, List.length_nil] at whole
    omega

/-- An instruction is read back as what its two words stand for. -/
theorem ofBytes?_bytes (i : Instruction) :
    ofBytes? i.bytes = some (ofWords i.source.word i.destination.word) := by
  change some (ofWords (Word.ofBytes _ _ _ _) (Word.ofBytes _ _ _ _)) = _
  rw [Word.ofBytes_bytes, Word.ofBytes_bytes]

/-- The instructions that come back from their bytes are those whose operands come back
    from their words. -/
theorem ofBytes?_bytes_iff {i : Instruction} :
    ofBytes? i.bytes = some i ↔
      Source.ofWord i.source.word = i.source ∧
        Destination.ofWord i.destination.word = i.destination := by
  rcases i with ⟨source, destination⟩
  rw [ofBytes?_bytes, Option.some.injEq, ofWords, mk.injEq]

end Instruction

end Transport
