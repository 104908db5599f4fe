import TieredAdmission.Time.Duration

/-!
# Instants

Points in time, counted in nanoseconds from the start of the clock. An instant may lie before that
start. Stored instants have whole seconds in a signed 64-bit word: `Instant.before?` fails when a
window reaches below that range, and `ManualClock.now?` when the clock stands above it. The word
counts from a moment before the start of the clock, at least `Instant.lead` earlier.
-/

namespace TieredAdmission

structure Instant where
  nanoseconds : Int
deriving DecidableEq, Repr

namespace Instant

def origin : Instant := ⟨0⟩

instance : Inhabited Instant := ⟨origin⟩

instance : LE Instant := ⟨fun a b => a.nanoseconds ≤ b.nanoseconds⟩

instance : LT Instant := ⟨fun a b => a.nanoseconds < b.nanoseconds⟩

instance (a b : Instant) : Decidable (a ≤ b) :=
  inferInstanceAs (Decidable (a.nanoseconds ≤ b.nanoseconds))

instance (a b : Instant) : Decidable (a < b) :=
  inferInstanceAs (Decidable (a.nanoseconds < b.nanoseconds))

/-- The time from `earlier` to `now`; none when the clock went backwards in between. -/
def since (now earlier : Instant) : Duration := ⟨(now.nanoseconds - earlier.nanoseconds).toNat⟩

/-- The instant a duration after `now`. -/
def after (now : Instant) (d : Duration) : Instant := ⟨now.nanoseconds + d.nanoseconds⟩

/-- The instant a window before `now`, unless its seconds fall below the signed 64-bit range. -/
def before? (now : Instant) (window : Duration) : Option Instant :=
  let t := now.nanoseconds - window.nanoseconds
  if -(Word.limit63 * nanosPerSecond : Int) ≤ t then some ⟨t⟩ else none

/-- The instant is at or after the cutoff; without a cutoff every instant is. -/
def isSince (cutoff : Option Instant) (t : Instant) : Bool :=
  match cutoff with
  | none => true
  | some c => decide (c ≤ t)

/-- The least time by which the word's zero comes before the start of the clock. -/
def lead : Duration := Duration.ofSeconds 1

/-- The whole seconds of the instant, counted from the word's zero, stay below `2 ^ 63`. -/
def Readable (t : Instant) : Prop :=
  t.nanoseconds + lead.nanoseconds < Word.limit63 * nanosPerSecond

instance (t : Instant) : Decidable t.Readable :=
  inferInstanceAs (Decidable (t.nanoseconds + lead.nanoseconds < Word.limit63 * nanosPerSecond))

theorem le_iff {a b : Instant} : a ≤ b ↔ a.nanoseconds ≤ b.nanoseconds := Iff.rfl

theorem lt_iff {a b : Instant} : a < b ↔ a.nanoseconds < b.nanoseconds := Iff.rfl

@[simp] theorem isSince_none (t : Instant) : isSince none t = true := rfl

@[simp] theorem isSince_some (c t : Instant) : isSince (some c) t = decide (c ≤ t) := rfl

end Instant

/-- A clock that moves only when it is told to. -/
structure ManualClock where
  offset : Duration := .zero

namespace ManualClock

def now (c : ManualClock) : Instant := ⟨c.offset.nanoseconds⟩

/-- The reading of the clock, if it can be stored. -/
def now? (c : ManualClock) : Option Instant := if c.now.Readable then some c.now else none

/-- The clock moved forward, if the sum can be stored. -/
def advance? (c : ManualClock) (d : Duration) : Option ManualClock :=
  if (c.offset + d).Fits then some ⟨c.offset + d⟩ else none

/-- The clock moved to an offset from its start, forwards or backwards. -/
def moveTo (_ : ManualClock) (offset : Duration) : ManualClock := ⟨offset⟩

end ManualClock

end TieredAdmission
