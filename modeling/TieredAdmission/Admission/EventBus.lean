import TieredAdmission.Admission.Event

/-!
# The event bus

Events are published to every receiver without waiting for any. The bus keeps its whole history for
reasoning, but a receiver reads only from a ring of the last events: one that fell behind is told
how many it lost and goes on with the oldest event kept. The ring has the least power of two of
slots that is at least the capacity, and at least one.
-/

namespace TieredAdmission

/-- The least power of two that is at least `n`, where `n ≤ 2 ^ fuel * p`, among `p`, `2 * p`, …. -/
def powerOfTwoFrom (n : Nat) : Nat → Nat → Nat
  | 0, p => p
  | fuel + 1, p => if n ≤ p then p else powerOfTwoFrom n fuel (2 * p)

def nextPowerOfTwo (n : Nat) : Nat := powerOfTwoFrom n (n.log2 + 1) 1

inductive Received where
  | event (e : AdmissionEvent)
  /-- So many events were lost. -/
  | lagged (n : Nat)
  | empty
  /-- The receiver does not exist any more, or never did. -/
  | gone
deriving DecidableEq, Repr

structure EventBus where
  /-- The slots of the ring. -/
  slots : Nat
  /-- Every event published, oldest first. -/
  history : Array AdmissionEvent := #[]
  /-- For each receiver that ever subscribed, how many events it is past, unless it was dropped. -/
  receivers : Array (Option Nat) := #[]

namespace EventBus

def new (capacity : Nat) : EventBus := { slots := nextPowerOfTwo (max capacity 1) }

/-- The largest capacity a bus may be asked for. A slot takes at least 64 bytes, and the slots of a
ring together take fewer than `2 ^ 63`. -/
def maxCapacity : Nat := 72057594037927936

def publish (b : EventBus) (e : AdmissionEvent) : EventBus := { b with history := b.history.push e }

/-- Adds a receiver, which gets the events from now on; its index comes first. -/
def subscribe (b : EventBus) : Nat × EventBus :=
  (b.receivers.size, { b with receivers := b.receivers.push (some b.history.size) })

def unsubscribe (b : EventBus) (rx : Nat) : EventBus :=
  { b with receivers := b.receivers.setIfInBounds rx none }

def receiverCount (b : EventBus) : Nat := (b.receivers.toList.filter Option.isSome).length

def position? (b : EventBus) (rx : Nat) : Option Nat := (b.receivers[rx]?).join

def seek (b : EventBus) (rx position : Nat) : EventBus :=
  { b with receivers := b.receivers.setIfInBounds rx (some position) }

def receive (b : EventBus) (rx : Nat) : Received × EventBus :=
  match b.position? rx with
  | none => (.gone, b)
  | some p =>
    if p + b.slots < b.history.size then
      (.lagged (b.history.size - b.slots - p), b.seek rx (b.history.size - b.slots))
    else
      match b.history[p]? with
      | none => (.empty, b)
      | some e => (.event e, b.seek rx (p + 1))

/-- Everything a receiver gets until it has read all, within `fuel` steps. -/
def receiveSome (rx : Nat) : Nat → EventBus → List Received × EventBus
  | 0, b => ([], b)
  | fuel + 1, b =>
    match b.receive rx with
    | (.gone, b) | (.empty, b) => ([], b)
    | (r, b) =>
      let (rs, b) := receiveSome rx fuel b
      (r :: rs, b)

def receiveAll (b : EventBus) (rx : Nat) : List Received × EventBus :=
  match b.position? rx with
  | none => ([], b)
  | some p => receiveSome rx (min (b.history.size - p) b.slots + 1) b

@[simp] theorem history_publish (b : EventBus) (e : AdmissionEvent) :
    (b.publish e).history = b.history.push e := rfl

example : (new 0).slots = 1 ∧ (new 2).slots = 2 ∧ (new 3).slots = 4 ∧ (new 5).slots = 8 := by decide

end EventBus

end TieredAdmission
