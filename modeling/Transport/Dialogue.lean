import Transport.Device
import Transport.Trap

/-!
# Dialogues with a Host

What a module's handler does is not run on the spot: it is described as a
dialogue with the host, a finite tree whose inner nodes are requests and whose
branches are the host's possible answers. Whoever holds the tree decides when
the next request is answered. This is what lets a program stop in the middle of
an instruction, at a suspension point, and go on later from the branch that was
kept.

RAM accesses and suspension points may be refused by the host, with a trap.
Printing, the traffic of devices and the question which devices there are always
succeed.

## Main definitions

* `Request`, `Request.Answer`: What can be asked, and what the answers are.
* `Dialogue`: A tree of requests that ends in a result.
* `Host`: An answer to every request, with a state of the host's own.
* `Dialogue.converse`: The result of a dialogue with a host that never blocks.

## Theorems

* `converse_bind`: A dialogue in two parts is held part by part.
-/

namespace Transport

/-- What the code of a segment can ask of its host. -/
inductive Request where
  /-- The word at a RAM offset. -/
  | readWord (offset : Word)
  /-- To store a word at a RAM offset. -/
  | storeWord (offset value : Word)
  /-- To pass a suspension point at the instruction at an offset. -/
  | suspend (offset : Word)
  /-- To output a value. -/
  | print (value : Word)
  /-- To send a byte to a device. -/
  | sendByte (device : DeviceId) (byte : UInt8)
  /-- To take a byte from a device. -/
  | takeByte (device : DeviceId)
  /-- Whether a byte waits in a device. -/
  | hasByte (device : DeviceId)
  /-- Which devices the host offers on which I/O ports. -/
  | offered
  deriving DecidableEq, Repr

/-- The type of the answers to a request. -/
@[reducible] def Request.Answer : Request → Type
  | .readWord _ => Except Trap Word
  | .storeWord _ _ => Except Trap Unit
  | .suspend _ => Except Trap Unit
  | .print _ => Unit
  | .sendByte _ _ => Unit
  | .takeByte _ => UInt8
  | .hasByte _ => Bool
  | .offered => DeviceTable

/-- A finite tree of requests that ends in a result. -/
inductive Dialogue (α : Type) : Type where
  /-- Nothing more is asked. -/
  | done (result : α)
  /-- Something is asked, and the answer decides how to go on. -/
  | ask (request : Request) (next : request.Answer → Dialogue α)

namespace Dialogue

variable {α β : Type}

/-- Goes on with a second dialogue from the result of the first. -/
def bind : Dialogue α → (α → Dialogue β) → Dialogue β
  | .done result, f => f result
  | .ask request next, f => .ask request fun answer => (next answer).bind f

instance : Monad Dialogue where
  pure := .done
  bind := bind

/-- The dialogue of one request, whose result is the answer. -/
def request (r : Request) : Dialogue r.Answer := .ask r .done

end Dialogue

universe u

/-- An answer to every request, given by a host with a state of type `η`. -/
structure Host (η : Type u) where
  /-- The answer to a request, and the host's state after it. -/
  answer : (r : Request) → η → r.Answer × η

namespace Dialogue

variable {α β : Type} {η : Type u}

/-- Holds a dialogue to its end with a host that never blocks. -/
def converse (host : Host η) : Dialogue α → η → α × η
  | .done result, state => (result, state)
  | .ask r next, state =>
    let (answer, state) := host.answer r state
    (next answer).converse host state

/-- A dialogue in two parts is held part by part. -/
theorem converse_bind (host : Host η) (f : α → Dialogue β) :
    ∀ (d : Dialogue α) (state : η),
      (d >>= f).converse host state =
        (f (d.converse host state).1).converse host (d.converse host state).2
  | .done _, _ => rfl
  | .ask r next, state =>
    converse_bind host f (next (host.answer r state).1) (host.answer r state).2

end Dialogue

end Transport
