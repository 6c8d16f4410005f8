import Transport.Address

/-!
# The Move Instruction

Every instruction moves one word from a source to a destination. It occupies
eight bytes: the source word and the destination word, most significant byte
first.

A source word whose top byte is the literal tag carries a 24-bit constant;
any other is the address of a port to read. Three destination words are control
operations; any other is the address of a port to write. Decoding only
classifies the words: whether a port is there is for the registry to say.

## Main definitions

* `Source`, `Control`, `Destination`, `Instruction`: The operands and the pair.
* `Source.ofWord`, `Destination.ofWord`: Classification of an operand word.
* `Instruction.words`, `Instruction.bytes`: The encoding.
* `Instruction.ofWords`, `Instruction.ofBytes?`: The decoding.

## Theorems

* `ofWord?_eq_some`: A control operation is found at its own word only.
* `words_ofWords`: Decoding loses nothing of the two words.
-/

namespace Transport

/-- The number of bytes that an instruction occupies. -/
def instructionSize : Nat := 8

/-- The top byte of a source word that carries a literal. -/
def literalTag : UInt8 := 0x11

/-- Where a move takes its value from. -/
inductive Source where
  /-- A constant, of which the encoding keeps 24 bits. -/
  | literal (value : Word)
  /-- A port to read. -/
  | port (address : Address)
  deriving DecidableEq, Repr

/-- The control operations, written as destinations. -/
inductive Control where
  /-- Jump to the literal source if the condition holds. -/
  | branch
  /-- Make the condition whether the source is nonnegative. -/
  | nonneg
  /-- Make the condition whether the source is zero. -/
  | zero
  deriving DecidableEq, Repr

/-- Where a move puts its value. -/
inductive Destination where
  /-- A control operation. -/
  | control (operation : Control)
  /-- A port to write. -/
  | port (address : Address)
  deriving DecidableEq, Repr

/-- One move. -/
structure Instruction where
  /-- Where the value comes from. -/
  source : Source
  /-- Where the value goes. -/
  destination : Destination
  deriving DecidableEq, Repr

namespace Source

/-- The operand word; a literal is cut to 24 bits. -/
def word : Source → Word
  | .literal value => literalTag.toUInt32 <<< 24 ||| value &&& offsetMask
  | .port address => address.word

/-- The source that an operand word stands for. -/
def ofWord (w : Word) : Source :=
  if (w >>> 24).toUInt8 = literalTag then .literal (w &&& offsetMask) else .port ⟨w⟩

/-- The source that a word stands for is encoded as that word. -/
theorem word_ofWord (w : Word) : (ofWord w).word = w := by
  rw [ofWord]
  split
  · next tagged =>
    have whole := Address.of_moduleId_offset ⟨w⟩
    simp only [Address.of, Address.moduleId, Address.offset, tagged, Address.mk.injEq] at whole
    exact whole
  · rfl

end Source

namespace Control

/-- The destination word of a control operation. -/
def word : Control → Word
  | .branch => 0x90000000
  | .nonneg => 0x90000001
  | .zero => 0x90000002

/-- The control operation that a destination word stands for. -/
def ofWord? (w : Word) : Option Control :=
  if w = word .branch then some .branch
  else if w = word .nonneg then some .nonneg
  else if w = word .zero then some .zero
  else none

/-- A word stands for a control operation exactly if it is the operation's word. -/
theorem ofWord?_eq_some {w : Word} {operation : Control} :
    ofWord? w = some operation ↔ w = operation.word := by
  cases operation <;> simp only [ofWord?, word] <;> grind

end Control

namespace Destination

/-- The operand word. -/
def word : Destination → Word
  | .control operation => operation.word
  | .port address => address.word

/-- The destination that an operand word stands for. -/
def ofWord (w : Word) : Destination :=
  match Control.ofWord? w with
  | some operation => .control operation
  | none => .port ⟨w⟩

/-- The destination that a word stands for is encoded as that word. -/
theorem word_ofWord (w : Word) : (ofWord w).word = w := by
  rw [ofWord]
  split
  · next known => exact (Control.ofWord?_eq_some.mp known).symm
  · rfl

end Destination

namespace Instruction

/-- The source word and the destination word. -/
def words (i : Instruction) : Word × Word := (i.source.word, i.destination.word)

/-- The instruction that two operand words stand for. -/
def ofWords (source destination : Word) : Instruction :=
  ⟨.ofWord source, .ofWord destination⟩

/-- The eight bytes of an instruction. -/
def bytes (i : Instruction) : List UInt8 :=
  Word.bytes i.source.word ++ Word.bytes i.destination.word

/-- The instruction that eight bytes stand for. -/
def ofBytes? : List UInt8 → Option Instruction
  | [s0, s1, s2, s3, d0, d1, d2, d3] =>
    some (ofWords (Word.ofBytes s0 s1 s2 s3) (Word.ofBytes d0 d1 d2 d3))
  | _ => none

/-- An instruction is written as eight bytes. -/
@[simp] theorem length_bytes (i : Instruction) : i.bytes.length = instructionSize := rfl

/-- Decoding two words loses nothing of them. -/
theorem words_ofWords (source destination : Word) :
    (ofWords source destination).words = (source, destination) := by
  rw [words, ofWords, Source.word_ofWord, Destination.word_ofWord]

end Instruction

end Transport
