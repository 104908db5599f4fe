import TieredAdmission.Tier.Basic

/-!
# One value per tier

Tables with an entry for every tier, and counters kept in such tables.
-/

namespace TieredAdmission

universe u v

/-- One value for each tier. -/
structure PerTier (α : Type u) where
  enterprise : α
  premium : α
  free : α
deriving DecidableEq, Repr

namespace PerTier

variable {α : Type u} {β : Type v}

def const (a : α) : PerTier α := ⟨a, a, a⟩

instance [Inhabited α] : Inhabited (PerTier α) := ⟨const default⟩

def get (p : PerTier α) : Tier → α
  | .enterprise => p.enterprise
  | .premium => p.premium
  | .free => p.free

def set (p : PerTier α) (t : Tier) (a : α) : PerTier α :=
  match t with
  | .enterprise => { p with enterprise := a }
  | .premium => { p with premium := a }
  | .free => { p with free := a }

def modify (p : PerTier α) (t : Tier) (f : α → α) : PerTier α := p.set t (f (p.get t))

def ofFn (f : Tier → α) : PerTier α := ⟨f .enterprise, f .premium, f .free⟩

/-- Each value changed by a function that also sees the tier. -/
def map (f : Tier → α → β) (p : PerTier α) : PerTier β := ofFn fun t => f t (p.get t)

def toList (p : PerTier α) : List α := [p.enterprise, p.premium, p.free]

def entries (p : PerTier α) : List (Tier × α) := Tier.all.map fun t => (t, p.get t)

def total (p : PerTier Nat) : Nat := p.enterprise + p.premium + p.free

def increment (p : PerTier Nat) (t : Tier) : PerTier Nat := p.modify t (· + 1)

/-- The table with one less for a tier; a count of zero stays. -/
def decrement (p : PerTier Nat) (t : Tier) : PerTier Nat := p.modify t (· - 1)

@[simp] theorem get_set_self (p : PerTier α) (t : Tier) (a : α) : (p.set t a).get t = a := by
  cases t <;> rfl

theorem get_set_of_ne (p : PerTier α) {t u : Tier} (a : α) (h : u ≠ t) :
    (p.set t a).get u = p.get u := by
  cases t <;> cases u <;> first | rfl | exact absurd rfl h

@[simp] theorem get_ofFn (f : Tier → α) (t : Tier) : (ofFn f).get t = f t := by cases t <;> rfl

@[simp] theorem get_map (f : Tier → α → β) (p : PerTier α) (t : Tier) :
    (p.map f).get t = f t (p.get t) := by cases t <;> rfl

@[simp] theorem get_const (a : α) (t : Tier) : (const a).get t = a := by cases t <;> rfl

theorem ext_get {p q : PerTier α} (h : ∀ t, p.get t = q.get t) : p = q := by
  have he := h .enterprise
  have hp := h .premium
  have hf := h .free
  cases p; cases q
  simp only [get] at he hp hf
  subst he hp hf
  rfl

theorem get_increment (p : PerTier Nat) (t u : Tier) :
    (p.increment t).get u = if u = t then p.get u + 1 else p.get u := by
  cases t <;> cases u <;> rfl

theorem get_decrement (p : PerTier Nat) (t u : Tier) :
    (p.decrement t).get u = if u = t then p.get u - 1 else p.get u := by
  cases t <;> cases u <;> rfl

@[simp] theorem total_increment (p : PerTier Nat) (t : Tier) :
    (p.increment t).total = p.total + 1 := by
  cases t <;> simp only [increment, modify, set, get, total] <;> omega

theorem total_decrement {p : PerTier Nat} {t : Tier} (h : 0 < p.get t) :
    (p.decrement t).total + 1 = p.total := by
  cases t <;> simp only [decrement, modify, set, get, total] at * <;> omega

end PerTier

end TieredAdmission
