/-
  What the modules use of the OMNeT++ simulation kernel.

  The kernel is not part of the repository.  The model keeps the documented behaviour of
  `simTime`, `scheduleAt`, `cancelEvent` and the delivery of events in the order of their times.
  Events of one time may be delivered in any order.

  A message object is named by the module that created it and its number among the messages that
  module created: pointers are compared and dereferenced, never ordered.
-/
import Mathlib.Algebra.Order.Ring.Int

namespace WormsAttack.Omnet

inductive Stop
  | notNext
  | badCast
  | pastEvent
  | nullPointer
  /-- `Invalid IP address string` -/
  | badAddress
  | outOfRange
  /-- a packet shorter than the packet inside it was decapsulated -/
  | badLength
  deriving DecidableEq

/-! Simulation time is an `Int` number of ticks.  A tick is one picosecond, the
kernel's default scale; the repository's configuration does not change it. -/

/-- An `int` number of seconds converted to simulation time. -/
def seconds (n : Int) : Int := n * 10 ^ 12

/-- The name of a message object: the module that created it and a serial
number. -/
structure MsgId (ι : Type) where
  owner : ι
  serial : Nat
  deriving DecidableEq

structure SelfMessage (ι : Type) where
  id : MsgId ι
  name : String
  arrival : Int
  deriving DecidableEq

/-- The clock and the future event set, as far as the modelled modules'
self-messages are concerned. -/
structure Kernel (ι : Type) where
  now : Int
  pending : List (SelfMessage ι)

namespace Kernel

variable {ι : Type}

def start : Kernel ι := { now := 0, pending := [] }

/-- An event of time `t` may come next: time does not run backwards, and no
scheduled message is due earlier. -/
def Next (k : Kernel ι) (t : Int) : Prop :=
  k.now ≤ t ∧ ∀ p ∈ k.pending, t ≤ p.arrival

instance (k : Kernel ι) (t : Int) : Decidable (k.Next t) :=
  inferInstanceAs (Decidable (_ ∧ _))

def scheduleAt (k : Kernel ι) (t : Int) (id : MsgId ι) (name : String) :
    Except Stop (Kernel ι) :=
  if t < k.now then .error .pastEvent
  else .ok { k with pending := ⟨id, name, t⟩ :: k.pending }

theorem scheduleAt_eq_ok {k k' : Kernel ι} {t : Int} {id : MsgId ι} {name : String} :
    k.scheduleAt t id name = .ok k' ↔
      k.now ≤ t ∧ k' = { k with pending := ⟨id, name, t⟩ :: k.pending } := by
  unfold scheduleAt
  split
  · simp only [reduceCtorEq, false_iff, not_and]
    omega
  · simp only [Except.ok.injEq, eq_comm, iff_and_self]
    omega

variable [DecidableEq ι]

/-- `cancelEvent(message)`: take the message out of the future event set if it is
there. -/
def cancelEvent (k : Kernel ι) : Option (MsgId ι) → Except Stop (Kernel ι)
  | none => .error .nullPointer
  | some id => .ok { k with pending := k.pending.filter fun p => p.id ≠ id }

/-- Deliver the scheduled message `p`: advance the clock to it and take it out of
the future event set. -/
def deliver (k : Kernel ι) (p : SelfMessage ι) : Kernel ι :=
  { now := p.arrival, pending := k.pending.erase p }

end Kernel

end WormsAttack.Omnet
