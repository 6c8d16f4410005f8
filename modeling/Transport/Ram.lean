import Transport.Text.Layout
import Transport.Numeral
import Transport.Word

/-!
# RAM

The flat memory that holds both instructions and data. Words are stored with
the most significant byte first and may lie at any offset. An access is accepted
exactly when its whole range lies inside the memory; a refused one changes
nothing. Offsets are words, but ranges are measured in natural numbers, so that
no range can wrap around.

## Main definitions

* `RamInit`, `ByteSource`, `Ram.create`: How a memory is filled at first.
* `Ram.slice?`, `Ram.word?`: Reading a range and a word.
* `Ram.copy?`, `Ram.storeWord?`: Storing bytes and a word.
* `Ram.put`: The memory after a store that fits.

## Theorems

* `size_overwrite`: Storing changes no size.
* `getElem?_overwrite`: A store changes its range and nothing else.
-/

namespace Transport

/-- How a memory is filled at first. -/
inductive RamInit where
  /-- With bytes of which nothing is promised. -/
  | unseeded
  /-- With bytes that depend on the seed alone. -/
  | seeded (seed : UInt64)
  /-- With one value. -/
  | known (value : UInt8)
  deriving DecidableEq, Repr

namespace RamInit

/-- The text a debugger shows. -/
def description : RamInit → String
  | .unseeded => "Unseeded"
  | .seeded seed => Layout.record "Seeded" [("seed", Numeral.decimal seed.toNat)]
  | .known value => Layout.record "Known" [("value", Numeral.decimal value.toNat)]

end RamInit

/-- Where bytes come from that nobody chose. -/
structure ByteSource where
  /-- The byte at a position of a memory of a size that is filled from a seed. -/
  seeded : UInt64 → (size position : Nat) → UInt8
  /-- The byte at a position of a memory of a size of which nothing is promised. -/
  unseeded : (size position : Nat) → UInt8
  deriving Inhabited

/-- The memory of a machine. -/
structure Ram where
  /-- The contents. -/
  bytes : Array UInt8
  deriving DecidableEq, Repr, Inhabited

namespace Ram

/-- A memory of a size, filled as asked. -/
def create (source : ByteSource) (size : Nat) : RamInit → Ram
  | .known value => ⟨Array.replicate size value⟩
  | .seeded seed => ⟨Array.ofFn fun i : Fin size => source.seeded seed size i⟩
  | .unseeded => ⟨Array.ofFn fun i : Fin size => source.unseeded size i⟩

/-- The number of bytes. -/
def size (ram : Ram) : Nat := ram.bytes.size

/-- Whether a range lies inside the memory. An empty range may begin at its end. -/
def holds (ram : Ram) (offset : Word) (length : Nat) : Bool :=
  offset.toNat + length ≤ ram.size

/-- The bytes of a range. -/
def slice? (ram : Ram) (offset : Word) (length : Nat) : Option (Array UInt8) :=
  if ram.holds offset length then
    some (ram.bytes.extract offset.toNat (offset.toNat + length))
  else none

/-- The word at an offset. -/
def word? (ram : Ram) (offset : Word) : Option Word :=
  let o := offset.toNat
  if h : o + 4 ≤ ram.bytes.size then
    some (Word.ofBytes ram.bytes[o] ram.bytes[o + 1] ram.bytes[o + 2] ram.bytes[o + 3])
  else none

/-- Puts bytes over others from a position on; those past the end get lost. -/
def overwrite (bytes : Array UInt8) (position : Nat) : List UInt8 → Array UInt8
  | [] => bytes
  | b :: rest => overwrite (bytes.setIfInBounds position b) (position + 1) rest

/-- Puts bytes over others from an offset on, without asking whether they fit. -/
def put (ram : Ram) (offset : Word) (data : List UInt8) : Ram :=
  ⟨overwrite ram.bytes offset.toNat data⟩

/-- Stores bytes from an offset on, if they fit. -/
def copy? (ram : Ram) (offset : Word) (data : List UInt8) : Option Ram :=
  if ram.holds offset data.length then some (ram.put offset data) else none

/-- Stores a word at an offset, if it fits. -/
def storeWord? (ram : Ram) (offset value : Word) : Option Ram :=
  ram.copy? offset (Word.bytes value)

/-- The text a debugger shows: the size without the contents. -/
def description (ram : Ram) : String :=
  Layout.openRecord "Ram" [("len", Numeral.decimal ram.size)]

/-- Storing changes no size. -/
@[simp] theorem size_overwrite (data : List UInt8) :
    ∀ (bytes : Array UInt8) (position : Nat),
      (overwrite bytes position data).size = bytes.size := by
  induction data with
  | nil => intro bytes position; rfl
  | cons b rest ih => intro bytes position; simp [overwrite, ih]

/-- A store changes the positions of its range and no others. -/
theorem getElem?_overwrite (data : List UInt8) :
    ∀ (bytes : Array UInt8) (position i : Nat), position + data.length ≤ bytes.size →
      (overwrite bytes position data)[i]? =
        if position ≤ i ∧ i < position + data.length then data[i - position]?
        else bytes[i]? := by
  induction data with
  | nil =>
    intro bytes position i _
    rw [overwrite, if_neg (by simp only [List.length_nil]; omega)]
  | cons b rest ih =>
    intro bytes position i fits
    simp only [List.length_cons] at fits
    rw [overwrite, ih _ _ _ (by simp only [Array.size_setIfInBounds]; omega)]
    by_cases later : position + 1 ≤ i ∧ i < position + 1 + rest.length
    · rw [if_pos later, if_pos (by simp only [List.length_cons]; omega)]
      rw [show i - position = (i - (position + 1)) + 1 by omega, List.getElem?_cons_succ]
    · rw [if_neg later, Array.getElem?_setIfInBounds]
      by_cases here : position = i
      · subst here
        rw [if_pos rfl, if_pos (by omega), if_pos (by simp only [List.length_cons]; omega)]
        simp
      · rw [if_neg here, if_neg (by simp only [List.length_cons]; omega)]

end Ram

end Transport
