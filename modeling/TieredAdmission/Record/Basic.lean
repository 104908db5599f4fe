import TieredAdmission.Datum
import TieredAdmission.Tier.PerTier
import TieredAdmission.Time.Duration

/-!
# Plain values as data trees

The data trees of counts, durations and tables by tier.
-/

namespace TieredAdmission

def Datum.count (n : Nat) : Datum := .integer n

def Datum.ofOption {α : Type} (f : α → Datum) : Option α → Datum
  | none => .null
  | some a => f a

def Duration.toDatum (d : Duration) : Datum :=
  .record [("secs", .count d.seconds), ("nanos", .count d.subsecond)]

def PerTier.toDatum {α : Type} (f : α → Datum) (p : PerTier α) : Datum :=
  .record (p.entries.map fun (t, a) => (t.name, f a))

def PerTier.countsDatum (p : PerTier Nat) : Datum := p.toDatum .count

end TieredAdmission
