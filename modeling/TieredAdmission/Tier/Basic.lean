import TieredAdmission.Text.Blank

/-!
# Tiers

The client classes. Enterprise comes first, then premium, then free; wherever tiers are scanned it
is in that order.
-/

namespace TieredAdmission

/-- A client priority class. -/
inductive Tier where
  | enterprise
  | premium
  | free
deriving DecidableEq, Repr

namespace Tier

instance : Inhabited Tier := ⟨free⟩

/-- All tiers, highest priority first. -/
def all : List Tier := [enterprise, premium, free]

def name : Tier → String
  | enterprise => "enterprise"
  | premium => "premium"
  | free => "free"

def rank : Tier → Nat
  | enterprise => 2
  | premium => 1
  | free => 0

def ofName? (s : String) : Option Tier := all.find? fun t => t.name == s

/-- Reads a tier's name, blanks around it and the case of its letters aside; a word that names no
tier is returned as it was looked up. -/
def parse (s : String) : Except String Tier :=
  match ofName? (Text.word s) with
  | some t => .ok t
  | none => .error (Text.word s)

def unknownMessage (word : String) : String := "unknown tier: " ++ word

@[simp] theorem mem_all (t : Tier) : t ∈ all := by cases t <;> simp [all]

end Tier

end TieredAdmission
