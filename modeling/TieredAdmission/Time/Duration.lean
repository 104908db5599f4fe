import TieredAdmission.Word

/-!
# Durations

Lengths of time in whole nanoseconds. Sums are exact and unbounded. `Duration.Fits` says that the
whole seconds of a duration stay below `2 ^ 64`, which is the range in which durations are stored;
callers that form sums report when a sum leaves it.
-/

namespace TieredAdmission

def nanosPerSecond : Nat := 1000000000

structure Duration where
  nanoseconds : Nat
deriving DecidableEq, Repr

namespace Duration

def zero : Duration := ⟨0⟩

def ofSeconds (s : Nat) : Duration := ⟨s * nanosPerSecond⟩

def ofMillis (ms : Nat) : Duration := ⟨ms * 1000000⟩

/-- Seconds and nanoseconds together; nanoseconds past a second are carried. -/
def ofParts (seconds nanos : Nat) : Duration := ⟨seconds * nanosPerSecond + nanos⟩

instance : Inhabited Duration := ⟨zero⟩

instance : Add Duration := ⟨fun a b => ⟨a.nanoseconds + b.nanoseconds⟩⟩

instance : LE Duration := ⟨fun a b => a.nanoseconds ≤ b.nanoseconds⟩

instance : LT Duration := ⟨fun a b => a.nanoseconds < b.nanoseconds⟩

instance (a b : Duration) : Decidable (a ≤ b) :=
  inferInstanceAs (Decidable (a.nanoseconds ≤ b.nanoseconds))

instance (a b : Duration) : Decidable (a < b) :=
  inferInstanceAs (Decidable (a.nanoseconds < b.nanoseconds))

protected def min (a b : Duration) : Duration := ⟨Nat.min a.nanoseconds b.nanoseconds⟩

def seconds (d : Duration) : Nat := d.nanoseconds / nanosPerSecond

/-- The nanoseconds past the last whole second. -/
def subsecond (d : Duration) : Nat := d.nanoseconds % nanosPerSecond

def millis (d : Duration) : Nat := d.nanoseconds / 1000000

/-- The whole milliseconds, kept in a 64-bit word. -/
def millisWord (d : Duration) : Nat := d.millis % Word.limit64

/-- The least whole number of milliseconds that is no shorter. -/
def millisUp (d : Duration) : Nat := (d.nanoseconds + 999999) / 1000000

/-- The equal share of `count` parts, truncated to nanoseconds; nothing is shared among none. -/
def share (d : Duration) (count : Nat) : Duration := ⟨d.nanoseconds / count⟩

def sum (ds : List Duration) : Duration := ds.foldl (· + ·) zero

/-- The duration can be stored: its whole seconds fill at most 64 bits. -/
def Fits (d : Duration) : Prop := d.seconds < Word.limit64

instance (d : Duration) : Decidable d.Fits := inferInstanceAs (Decidable (d.seconds < Word.limit64))

/-- The duration in seconds: the whole seconds and the rest are rounded apart and then added. -/
def toSeconds (d : Duration) : Float :=
  d.seconds.toUInt64.toFloat + d.subsecond.toUInt64.toFloat / 1e9

/-- The duration in milliseconds, from the rounded seconds. -/
def toMillis (d : Duration) : Float := d.toSeconds * 1000.0

@[simp] theorem nanoseconds_add (a b : Duration) :
    (a + b).nanoseconds = a.nanoseconds + b.nanoseconds := rfl

@[simp] theorem nanoseconds_zero : zero.nanoseconds = 0 := rfl

theorem le_iff {a b : Duration} : a ≤ b ↔ a.nanoseconds ≤ b.nanoseconds := Iff.rfl

theorem lt_iff {a b : Duration} : a < b ↔ a.nanoseconds < b.nanoseconds := Iff.rfl

end Duration

end TieredAdmission
