import Mathlib.Data.List.Induction
import Mathlib.Data.Nat.Digits.Defs
import Transport.Proofs.Ram

/-!
# Memory Holds What Was Stored Last

A memory is an array of bytes, whatever it is used for. A word is no more than four of
them, and a store of a word no more than a store of four bytes; so stores may overlap in
every way, and a word may be read that was never stored as one.

What a memory holds after a history of stores is therefore told byte by byte. At each
position it is the byte of the last store that was accepted and reached it, or else the
byte that was there at first. A range is read as the bytes at its positions, and a word as
the number that the four bytes of its range stand for.

Ranges are compared with the size as natural numbers. A program that adds an offset and a
length in 64 bits, and refuses a sum that overflows, accepts the same ranges.

## Main definitions

* `Word.bigEndian`: The number that bytes stand for.
* `Ram.Write`: A store that is asked for.
* `Ram.writeAll`: A memory after a history of stores.
* `Ram.Wrote`: The bytes of a store are replaced, and no others.
* `Ram.LastStored`: The byte that was stored last at a position.
* `Ram.holds64`: The check of a range, in 64-bit arithmetic.

## Theorems

* `toNat_ofBytes`: A word is the number that its bytes stand for.
* `word?_eq_some_iff`: A word is read as the slice of its four bytes.
* `getElem?_write`: What one store makes of a byte.
* `getElem?_writeAll_iff`: What a history makes of a byte.
* `holds64_eq`: The sum of an offset and a length does no harm if it overflows.
* `memory_is_what_was_stored_last`: All of this together.
-/

namespace Transport

namespace Word

/-- The number that bytes stand for, the most significant first. -/
def bigEndian (bytes : List UInt8) : Nat :=
  Nat.ofDigits 256 (bytes.reverse.map UInt8.toNat)

theorem bigEndian_four (a b c d : UInt8) : bigEndian [a, b, c, d] =
    16777216 * a.toNat + 65536 * b.toNat + 256 * c.toNat + d.toNat := by
  simp only [bigEndian, List.reverse_cons, List.reverse_nil, List.nil_append, List.cons_append,
    List.map_cons, List.map_nil, Nat.ofDigits_cons, Nat.ofDigits_nil]
  omega

/-- The bytes of a word stand for its number. -/
theorem bigEndian_bytes (w : Word) : bigEndian (bytes w) = w.toNat := by
  have hbound := w.toNat_lt
  -- Shifted and cut off, the bytes are the digits of the number in base 256.
  rw [bytes, bigEndian_four]
  simp only [UInt32.toNat_toUInt8, UInt32.toNat_shiftRight, UInt32.reduceToNat,
    Nat.shiftRight_eq_div_pow, Nat.reduceMod, Nat.reducePow]
  omega

/-- A word that is made of four bytes is the number that they stand for. -/
theorem toNat_ofBytes (a b c d : UInt8) : (ofBytes a b c d).toNat = bigEndian [a, b, c, d] := by
  rw [← bytes_ofBytes, bigEndian_bytes]

end Word

namespace Ram

/-! ## Words as slices -/

/-- A word that is read is the number that the slice of its four bytes stands for. -/
theorem word?_eq_some_iff {ram : Ram} {offset word : Word} :
    ram.word? offset = some word ↔
      ∃ bytes, ram.slice? offset 4 = some bytes ∧ word.toNat = Word.bigEndian bytes.toList := by
  by_cases fits : offset.toNat + 4 ≤ ram.size
  · -- The four bytes are there, and both views are made of them.
    rcases exists_bytes_of_fits fits with ⟨a, b, c, d, hword, ha, hb, hc, hd⟩
    have hslice : ram.slice? offset 4 = some #[a, b, c, d] := by
      refine slice?_eq_some_iff.mpr ⟨fits, rfl, fun k inside => ?_⟩
      have hk : k = 0 ∨ k = 1 ∨ k = 2 ∨ k = 3 := by omega
      rcases hk with rfl | rfl | rfl | rfl
      · exact ha.symm
      · exact hb.symm
      · exact hc.symm
      · exact hd.symm
    rw [hword, hslice, Option.some.injEq, ← UInt32.toNat_inj, Word.toNat_ofBytes]
    constructor
    · exact fun h => ⟨_, rfl, h.symm⟩
    · rintro ⟨bytes, hbytes, h⟩
      cases hbytes
      exact h.symm
  · have hnone : ram.word? offset = none := dif_neg fits
    rw [hnone]
    refine ⟨fun h => by contradiction, ?_⟩
    rintro ⟨bytes, hbytes, -⟩
    exact absurd (exists_slice?_iff.mp ⟨bytes, hbytes⟩) fits

theorem exists_word?_iff {ram : Ram} {offset : Word} :
    (∃ word, ram.word? offset = some word) ↔ offset.toNat + 4 ≤ ram.size := by
  constructor
  · rintro ⟨word, h⟩
    rcases word?_eq_some_iff.mp h with ⟨bytes, hbytes, -⟩
    exact exists_slice?_iff.mp ⟨bytes, hbytes⟩
  · intro fits
    rcases exists_bytes_of_fits fits with ⟨_, _, _, _, hword, -⟩
    exact ⟨_, hword⟩

/-! ## What one store does -/

/-- A store that is asked for. -/
inductive Write where
  /-- Of a word. -/
  | word (offset value : Word)
  /-- Of bytes. -/
  | copy (offset : Word) (data : List UInt8)
  deriving DecidableEq, Repr

namespace Write

/-- Where the range of a store begins. -/
def offset : Write → Word
  | word offset _ => offset
  | copy offset _ => offset

/-- The bytes that are to be stored. -/
def data : Write → List UInt8
  | word _ value => Word.bytes value
  | copy _ data => data

/-- A position lies in the range of a store. -/
def Covers (w : Write) (position : Nat) : Prop :=
  w.offset.toNat ≤ position ∧ position < w.offset.toNat + w.data.length

/-- A store to a memory of a size goes through and reaches a position. -/
def Reaches (w : Write) (size position : Nat) : Prop :=
  w.offset.toNat + w.data.length ≤ size ∧ w.Covers position

instance decidableCovers (w : Write) (position : Nat) : Decidable (w.Covers position) :=
  inferInstanceAs (Decidable (_ ∧ _))

instance decidableReaches (w : Write) (size position : Nat) :
    Decidable (w.Reaches size position) :=
  inferInstanceAs (Decidable (_ ∧ _))

end Write

/-- What a memory makes of a store that is asked for, if it accepts it. -/
def write? (ram : Ram) : Write → Option Ram
  | .word offset value => ram.storeWord? offset value
  | .copy offset data => ram.copy? offset data

/-- The memory after a store was asked for: as it was, if it does not accept it. -/
def write (ram : Ram) (w : Write) : Ram := (ram.write? w).getD ram

/-- The memory after a history of stores. -/
def writeAll (ram : Ram) (history : List Write) : Ram := history.foldl write ram

/-- One memory comes from another by replacing the bytes of the range of a store, and no
    others. -/
def Wrote (before after : Ram) (w : Write) : Prop :=
  after.size = before.size ∧ ∀ position, after.bytes[position]? =
    if w.Covers position then w.data[position - w.offset.toNat]? else before.bytes[position]?

variable {ram : Ram} {w : Write}

/-- Storing a word is storing its bytes, and bytes are stored if all of them fit. -/
theorem write?_eq (ram : Ram) (w : Write) : ram.write? w =
    if w.offset.toNat + w.data.length ≤ ram.size then some (ram.put w.offset w.data)
    else none := by
  have hcopy : ram.write? w = ram.copy? w.offset w.data := by
    cases w with
    | word offset value => rfl
    | copy offset data => rfl
  rw [hcopy, copy?]
  simp only [holds_iff]

theorem exists_write?_iff :
    (∃ later, ram.write? w = some later) ↔ w.offset.toNat + w.data.length ≤ ram.size := by
  rw [write?_eq]
  by_cases fits : w.offset.toNat + w.data.length ≤ ram.size
  · rw [if_pos fits]
    exact ⟨fun _ => fits, fun _ => ⟨_, rfl⟩⟩
  · rw [if_neg fits]
    refine ⟨?_, fun h => absurd h fits⟩
    rintro ⟨_, h⟩
    contradiction

theorem write_of_write? {later : Ram} (h : ram.write? w = some later) : ram.write w = later := by
  rw [write, h, Option.getD_some]

theorem write_of_refused (h : ram.write? w = none) : ram.write w = ram := by
  rw [write, h, Option.getD_none]

/-- A store that is accepted replaces the bytes of its range, and no others. -/
theorem wrote_of_write? {later : Ram} (h : ram.write? w = some later) : ram.Wrote later w := by
  have fits := exists_write?_iff.mp ⟨later, h⟩
  rw [write?_eq, if_pos fits] at h
  cases h
  refine ⟨size_put _ _ _, fun position => ?_⟩
  rw [getElem?_put fits]
  rfl

/-- A byte after a store that was asked for. -/
theorem getElem?_write (ram : Ram) (w : Write) (position : Nat) :
    (ram.write w).bytes[position]? =
      if w.Reaches ram.size position then w.data[position - w.offset.toNat]?
      else ram.bytes[position]? := by
  by_cases fits : w.offset.toNat + w.data.length ≤ ram.size
  · rcases exists_write?_iff.mpr fits with ⟨later, h⟩
    rw [write_of_write? h, (wrote_of_write? h).2 position]
    by_cases covers : w.Covers position
    · rw [if_pos covers, if_pos ⟨fits, covers⟩]
    · rw [if_neg covers, if_neg fun reaches => covers reaches.2]
  · have refused : ram.write? w = none := by rw [write?_eq, if_neg fits]
    rw [write_of_refused refused, if_neg fun reaches => fits reaches.1]

@[simp] theorem size_write (ram : Ram) (w : Write) : (ram.write w).size = ram.size := by
  cases h : ram.write? w with
  | none => rw [write_of_refused h]
  | some later => rw [write_of_write? h, (wrote_of_write? h).1]

/-- A word that is stored is read back. -/
theorem word?_of_wrote {later : Ram} {offset value : Word}
    (h : ram.write? (.word offset value) = some later) : later.word? offset = some value := by
  have fits : offset.toNat + 4 ≤ ram.size := exists_write?_iff.mp ⟨later, h⟩
  rcases wrote_of_write? h with ⟨hsize, hbytes⟩
  refine word?_eq_some_iff.mpr ⟨(Word.bytes value).toArray, ?_, (Word.bigEndian_bytes value).symm⟩
  refine slice?_eq_some_iff.mpr ⟨by omega, rfl, fun k inside => ?_⟩
  have covers : (Write.word offset value).Covers (offset.toNat + k) :=
    ⟨Nat.le_add_right _ _, Nat.add_lt_add_left inside _⟩
  rw [hbytes, if_pos covers, List.getElem?_toArray]
  exact congrArg _ (Nat.add_sub_cancel_left offset.toNat k).symm

/-! ## What a history does -/

/-- The byte that was stored last at a position: by a store of the history that reached it
    and was followed by no other; or, if there is none, at first. -/
inductive LastStored (ram : Ram) (history : List Write) (position : Nat) (byte : UInt8) : Prop
  | stored {earlier later : List Write} {w : Write} (split : history = earlier ++ w :: later)
      (reaches : w.Reaches ram.size position)
      (here : w.data[position - w.offset.toNat]? = some byte)
      (last : ∀ w' ∈ later, ¬w'.Reaches ram.size position)
  | first (untouched : ∀ w ∈ history, ¬w.Reaches ram.size position)
      (here : ram.bytes[position]? = some byte)

section History

variable {history : List Write} {position : Nat} {byte : UInt8}

theorem writeAll_concat (ram : Ram) (history : List Write) (w : Write) :
    ram.writeAll (history ++ [w]) = (ram.writeAll history).write w := by
  simp only [writeAll, List.foldl_append, List.foldl_cons, List.foldl_nil]

@[simp] theorem size_writeAll (ram : Ram) (history : List Write) :
    (ram.writeAll history).size = ram.size := by
  induction history using List.reverseRecOn with
  | nil => rfl
  | append_singleton history w ih => rw [writeAll_concat, size_write, ih]

/-- A store of a longer history is its last one, or one of those before. -/
theorem eq_or_split_of_concat {earlier later : List Write} {w w' : Write}
    (h : history ++ [w'] = earlier ++ w :: later) :
    w = w' ∧ later = [] ∨ ∃ rest, later = rest ++ [w'] ∧ history = earlier ++ w :: rest := by
  rcases List.eq_nil_or_concat later with rfl | ⟨rest, last, rfl⟩
  · exact .inl ⟨(List.append_singleton_inj.mp h).2.symm, rfl⟩
  · rw [List.concat_eq_append, ← List.cons_append, ← List.append_assoc] at h
    rcases List.append_singleton_inj.mp h with ⟨hhistory, rfl⟩
    exact .inr ⟨rest, List.concat_eq_append, hhistory⟩

/-- Where the last store reached, its bytes were stored last. -/
theorem lastStored_concat_of_reaches (reaches : w.Reaches ram.size position) :
    ram.LastStored (history ++ [w]) position byte ↔
      w.data[position - w.offset.toNat]? = some byte := by
  constructor
  · intro h
    cases h with
    | stored split reached here last =>
        rcases eq_or_split_of_concat split with ⟨rfl, -⟩ | ⟨rest, rfl, -⟩
        · exact here
        · -- An earlier store cannot be the last one to reach the position.
          exact absurd reaches (last w (by simp))
    | first untouched here => exact absurd reaches (untouched w (by simp))
  · exact fun here => .stored rfl reaches here (by simp)

/-- Elsewhere it changes nothing. -/
theorem lastStored_concat_of_not_reaches (apart : ¬w.Reaches ram.size position) :
    ram.LastStored (history ++ [w]) position byte ↔ ram.LastStored history position byte := by
  constructor
  · intro h
    -- The last store to the position is never the one that misses it.
    cases h with
    | stored split reached here last =>
        rcases eq_or_split_of_concat split with ⟨rfl, -⟩ | ⟨rest, rfl, hhistory⟩
        · exact absurd reached apart
        · exact .stored hhistory reached here fun w' member =>
            last w' (List.mem_append_left _ member)
    | first untouched here =>
        exact .first (fun w' member => untouched w' (List.mem_append_left _ member)) here
  · have hlast : ∀ {stores : List Write}, (∀ w' ∈ stores, ¬w'.Reaches ram.size position) →
        ∀ w' ∈ stores ++ [w], ¬w'.Reaches ram.size position := by
      intro stores hstores w' member
      rcases List.mem_append.mp member with inside | last
      · exact hstores w' inside
      · rw [List.mem_singleton.mp last]
        exact apart
    intro h
    cases h with
    | @stored earlier later w' split reached here last =>
        have hsplit : history ++ [w] = earlier ++ w' :: (later ++ [w]) := by
          rw [split, List.append_assoc, List.cons_append]
        exact .stored hsplit reached here (hlast last)
    | first untouched here => exact .first (hlast untouched) here

/-- After a history of stores, a memory holds at every position what was stored there last. -/
theorem getElem?_writeAll_iff :
    (ram.writeAll history).bytes[position]? = some byte ↔
      ram.LastStored history position byte := by
  -- From the end of the history: only its last store can change what was stored last.
  induction history using List.reverseRecOn with
  | nil =>
      constructor
      · exact fun here => .first (by simp) here
      · intro h
        cases h with
        | stored split => simp at split
        | first untouched here => exact here
  | append_singleton history w ih =>
      rw [writeAll_concat, getElem?_write, size_writeAll]
      by_cases reaches : w.Reaches ram.size position
      · rw [if_pos reaches, lastStored_concat_of_reaches reaches]
      · rw [if_neg reaches, lastStored_concat_of_not_reaches reaches, ih]

end History

/-! ## The check in 64-bit arithmetic -/

/-- The end of a range as a sum of 64 bits, unless the sum overflows. -/
def stop? (offset : Word) (length : UInt64) : Option UInt64 :=
  let stop := offset.toUInt64 + length
  if stop < length then none else some stop

/-- Whether a range lies inside the memory, for a program whose sizes have 64 bits. -/
def holds64 (ram : Ram) (offset : Word) (length : UInt64) : Bool :=
  (stop? offset length).any fun stop => stop ≤ UInt64.ofNat ram.size

/-- There is an end exactly if the sum needs no more than 64 bits; and then it is the sum. -/
theorem stop?_eq_some_iff {offset : Word} {length stop : UInt64} :
    stop? offset length = some stop ↔ stop.toNat = offset.toNat + length.toNat := by
  have hoffset := offset.toNat_lt
  have hlength := length.toNat_lt
  have hstop := stop.toNat_lt
  have hsum : (offset.toUInt64 + length).toNat =
      (offset.toNat + length.toNat) % 0x10000000000000000 := by
    rw [UInt64.toNat_add, UInt32.toNat_toUInt64]
  rw [stop?]
  by_cases overflows : offset.toUInt64 + length < length
  · -- A sum that overflows falls short of both its summands.
    rw [if_pos overflows]
    rw [UInt64.lt_iff_toNat_lt, hsum] at overflows
    exact ⟨fun h => by contradiction, fun h => by omega⟩
  · rw [if_neg overflows, Option.some.injEq, ← UInt64.toNat_inj, hsum]
    rw [UInt64.lt_iff_toNat_lt, hsum] at overflows
    omega

/-- The check in 64-bit arithmetic is that of natural numbers. -/
theorem holds64_eq (small : ram.size < 0x10000000000000000) (offset : Word) (length : UInt64) :
    ram.holds64 offset length = ram.holds offset length.toNat := by
  have hsize : (UInt64.ofNat ram.size).toNat = ram.size := UInt64.toNat_ofNat_of_lt' small
  rw [Bool.eq_iff_iff, holds_iff, holds64, Option.any_eq_true]
  constructor
  · rintro ⟨stop, hstop, hle⟩
    rw [decide_eq_true_eq, UInt64.le_iff_toNat_le, hsize] at hle
    rwa [← stop?_eq_some_iff.mp hstop]
  · intro fits
    have hsum : offset.toNat + length.toNat < 0x10000000000000000 := by omega
    have hend : (UInt64.ofNat (offset.toNat + length.toNat)).toNat =
        offset.toNat + length.toNat := UInt64.toNat_ofNat_of_lt' hsum
    refine ⟨_, stop?_eq_some_iff.mpr hend, ?_⟩
    rw [decide_eq_true_eq, UInt64.le_iff_toNat_le, hend, hsize]
    exact fits

/-- A memory holds what was stored last. After any history of stores: a store is accepted
    exactly if its range lies inside the memory; accepted, it replaces the bytes of its range
    and no others, and refused, it changes nothing; a word that is stored is read back. A
    slice is there exactly if its range is, and consists of the bytes that were stored last
    at its positions. A word is there exactly if its four bytes are, and is the number that
    their slice stands for. The same ranges are accepted in 64-bit arithmetic. -/
theorem memory_is_what_was_stored_last (ram : Ram) (history : List Write) :
    let now := ram.writeAll history
    (∀ w : Write,
      ((∃ later, now.write? w = some later) ↔ w.offset.toNat + w.data.length ≤ ram.size) ∧
      (∀ later, now.write? w = some later → now.write w = later ∧ now.Wrote later w) ∧
      (now.write? w = none → now.write w = now)) ∧
    (∀ offset value later, now.write? (.word offset value) = some later →
      later.word? offset = some value) ∧
    (∀ offset length,
      ((∃ bytes, now.slice? offset length = some bytes) ↔ offset.toNat + length ≤ ram.size) ∧
      ∀ bytes, now.slice? offset length = some bytes → bytes.size = length ∧
        ∀ k < length, ∀ byte,
          bytes[k]? = some byte ↔ ram.LastStored history (offset.toNat + k) byte) ∧
    (∀ offset,
      ((∃ word, now.word? offset = some word) ↔ offset.toNat + 4 ≤ ram.size) ∧
      ∀ word, now.word? offset = some word ↔ ∃ bytes, now.slice? offset 4 = some bytes ∧
        word.toNat = Word.bigEndian bytes.toList) ∧
    (ram.size < 0x10000000000000000 → ∀ offset (length : UInt64),
      now.holds64 offset length = true ↔ offset.toNat + length.toNat ≤ ram.size) := by
  intro now
  have hsize : now.size = ram.size := size_writeAll ram history
  refine ⟨fun w => ⟨?_, fun later accepted => ?_, write_of_refused⟩,
    fun offset value later => word?_of_wrote, fun offset length => ⟨?_, fun bytes h => ?_⟩,
    fun offset => ⟨?_, fun word => word?_eq_some_iff⟩, fun small offset length => ?_⟩
  · rw [exists_write?_iff, hsize]
  · exact ⟨write_of_write? accepted, wrote_of_write? accepted⟩
  · rw [exists_slice?_iff, hsize]
  · rcases slice?_eq_some_iff.mp h with ⟨-, hlength, hbytes⟩
    refine ⟨hlength, fun k inside byte => ?_⟩
    rw [hbytes k inside, getElem?_writeAll_iff]
  · rw [exists_word?_iff, hsize]
  · rw [holds64_eq (by rwa [hsize]), holds_iff, hsize]

-- Words at odd offsets: one that is stored and half covered by the next store, one that is
-- refused, and one that is read from bytes of two stores.
theorem memory_is_what_was_stored_last_overlapping :
    let ram : Ram := ⟨Array.replicate 8 0xFF⟩
    let history : List Write := [.word 1 0x01020304, .copy 3 [0xAA, 0xBB, 0xCC], .word 5 7]
    let now := ram.writeAll history
    now.write? (.word 5 7) = none ∧ now.write? (.copy 8 []) = some now ∧
      now.slice? 2 5 = some #[0x02, 0xAA, 0xBB, 0xCC, 0xFF] ∧
      ram.LastStored history 2 0x02 ∧ ram.LastStored history 3 0xAA ∧
      ram.LastStored history 6 0xFF ∧ now.word? 2 = some 0x02AABBCC ∧
      now.holds64 9 0xFFFFFFFFFFFFFFF8 = false := by
  intro ram history now
  rcases memory_is_what_was_stored_last ram history with ⟨hwrites, -, hslices, hwords, hcheck⟩
  have hslice : now.slice? 2 5 = some #[0x02, 0xAA, 0xBB, 0xCC, 0xFF] := by decide
  have hword : now.slice? 2 4 = some #[0x02, 0xAA, 0xBB, 0xCC] := by decide
  have hlast := ((hslices 2 5).2 _ hslice).2
  refine ⟨?_, by decide, hslice, (hlast 0 (by decide) _).mp rfl, (hlast 1 (by decide) _).mp rfl,
    (hlast 4 (by decide) _).mp rfl, ((hwords 2).2 _).mpr ⟨_, hword, by decide⟩, ?_⟩
  · rw [Option.eq_none_iff_forall_ne_some]
    intro later accepted
    exact absurd ((hwrites (.word 5 7)).1.mp ⟨later, accepted⟩) (by decide)
  · exact Bool.eq_false_iff.mpr fun h => absurd ((hcheck (by decide) 9 _).mp h) (by decide)

end Ram

end Transport
