/-!
# Words and Bytes

The machine computes on 32-bit words and stores them as four bytes, the most
significant first.

## Main definitions

* `Word`: A 32-bit word.
* `Word.bytes`: The four bytes of a word, most significant first.
* `Word.ofBytes`: The word that four bytes stand for.
* `Word.signed`: A word read as a two's complement number.
* `Word.ofNat?`, `Word.checkedMul`, `Word.saturatingAdd`: Arithmetic that does not
  wrap around.

## Theorems

* `ofBytes_bytes`, `bytes_ofBytes`: Words and four bytes stand for each other.
* `ofNat?_eq_some_iff`, `checkedMul_eq_some_iff`, `toNat_saturatingAdd`: The same
  arithmetic on natural numbers.
-/

namespace Transport

/-- A 32-bit word. -/
abbrev Word := UInt32

namespace Word

/-- The four bytes of a word, most significant first. -/
def bytes (w : Word) : List UInt8 :=
  [(w >>> 24).toUInt8, (w >>> 16).toUInt8, (w >>> 8).toUInt8, w.toUInt8]

/-- The word that four bytes stand for, most significant first. -/
def ofBytes (a b c d : UInt8) : Word :=
  a.toUInt32 <<< 24 ||| b.toUInt32 <<< 16 ||| c.toUInt32 <<< 8 ||| d.toUInt32

/-- A word read as a two's complement number. -/
def signed (w : Word) : Int := w.toBitVec.toInt

/-- The word of a number, if there is one. -/
def ofNat? (n : Nat) : Option Word := if n < 0x100000000 then some (UInt32.ofNat n) else none

/-- The product of two words, if it is a word. -/
def checkedMul (a b : Word) : Option Word := ofNat? (a.toNat * b.toNat)

/-- The sum of two words, or the greatest word if the sum is none. -/
def saturatingAdd (a b : Word) : Word := (ofNat? (a.toNat + b.toNat)).getD 0xFFFFFFFF

theorem ofNat?_eq_some_iff {n : Nat} {w : Word} : ofNat? n = some w ↔ w.toNat = n := by
  unfold ofNat?
  constructor
  · intro h
    split at h
    · next fits =>
      rw [← Option.some.inj h, UInt32.toNat_ofNat_of_lt' fits]
    · contradiction
  · rintro rfl
    rw [if_pos w.toNat_lt, UInt32.ofNat_toNat]

theorem ofNat?_eq_none_iff {n : Nat} : ofNat? n = none ↔ 0x100000000 ≤ n := by
  unfold ofNat?
  split
  · next fits => exact iff_of_false (Option.some_ne_none _) (by omega)
  · next wide => exact iff_of_true rfl (by omega)

theorem checkedMul_eq_some_iff {a b w : Word} :
    checkedMul a b = some w ↔ w.toNat = a.toNat * b.toNat :=
  ofNat?_eq_some_iff

theorem toNat_saturatingAdd (a b : Word) :
    (saturatingAdd a b).toNat = min (a.toNat + b.toNat) 0xFFFFFFFF := by
  unfold saturatingAdd
  cases h : ofNat? (a.toNat + b.toNat) with
  | none =>
    have wide := ofNat?_eq_none_iff.mp h
    have greatest : (0xFFFFFFFF : Word).toNat = 0xFFFFFFFF := rfl
    rw [Option.getD_none, greatest]
    omega
  | some w =>
    have fits := ofNat?_eq_some_iff.mp h
    have := w.toNat_lt
    rw [Option.getD_some, fits]
    omega

/-- A word is written as four bytes. -/
@[simp] theorem length_bytes (w : Word) : (bytes w).length = 4 := rfl

/-- The bytes of a word stand for that word. -/
theorem ofBytes_bytes (w : Word) :
    ofBytes (w >>> 24).toUInt8 (w >>> 16).toUInt8 (w >>> 8).toUInt8 w.toUInt8 = w := by
  -- Both are compared bit by bit: each bit is in one of the four bytes.
  apply UInt32.eq_of_toBitVec_eq
  apply BitVec.eq_of_getLsbD_eq
  intro i _
  simp only [ofBytes, UInt32.toBitVec_or, UInt32.toBitVec_shiftLeft, UInt8.toBitVec_toUInt32,
    UInt32.toBitVec_toUInt8, UInt32.toBitVec_shiftRight, UInt32.toBitVec_ofNat,
    BitVec.getLsbD_or, BitVec.getLsbD_setWidth]
  grind

/-- The bytes of the word that four bytes stand for are these four. -/
theorem bytes_ofBytes (a b c d : UInt8) : bytes (ofBytes a b c d) = [a, b, c, d] := by
  simp only [bytes, ofBytes, List.cons.injEq, and_true]
  refine ⟨?_, ?_, ?_, ?_⟩ <;> apply UInt8.eq_of_toBitVec_eq <;>
    apply BitVec.eq_of_getLsbD_eq <;> intro i _
  · simp [BitVec.getLsbD_setWidth]; grind
  · simp [BitVec.getLsbD_setWidth]; grind
  · simp [BitVec.getLsbD_setWidth]; grind
  · simp

end Word

end Transport
