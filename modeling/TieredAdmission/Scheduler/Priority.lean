import TieredAdmission.Tier.Policy
import TieredAdmission.Time.Duration
import TieredAdmission.Decimal.Binary

/-!
# Priorities

A waiting request scores its tier's base priority and one point for every second it has waited, up
to a cap. Candidates are ranked by score in the total order of doubles; among equal scores the
earlier sequence number is better.
-/

namespace TieredAdmission

universe u

def priorityScore (policy : TierPolicy) (t : Tier) (age cap : Duration) : Float :=
  policy.basePriority.get t + (age.min cap).toSeconds

structure Candidate (α : Type u) where
  score : Float
  sequence : Nat
  item : α

namespace Candidate

variable {α : Type u}

/-- The order of candidates; the greatest one is selected. -/
def compare (a b : Candidate α) : Ordering :=
  (Ord.compare (Decimal.totalKey a.score) (Decimal.totalKey b.score)).then
    (Ord.compare b.sequence a.sequence)

/-- The first candidate is selected before the second. -/
def beats (a b : Candidate α) : Bool := a.compare b == .gt

/-- The greatest candidate, and of several equal ones the last. -/
def best? : List (Candidate α) → Option (Candidate α)
  | [] => none
  | c :: cs =>
    match best? cs with
    | none => some c
    | some d => if c.beats d then some c else some d

/-- The candidates from the greatest to the least; equal ones keep their order. -/
def ranked (cs : List (Candidate α)) : List (Candidate α) :=
  cs.mergeSort fun a b => !b.beats a

/-- How many candidates equal the one after them. -/
def equalNeighbours : List (Candidate α) → Nat
  | a :: b :: rest => (if a.compare b == .eq then 1 else 0) + equalNeighbours (b :: rest)
  | _ => 0

@[simp] theorem best?_nil : best? ([] : List (Candidate α)) = none := rfl

theorem best?_eq_none_iff {cs : List (Candidate α)} : best? cs = none ↔ cs = [] := by
  cases cs with
  | nil => simp
  | cons c cs =>
    simp only [best?]
    cases best? cs with
    | none => simp
    | some d => by_cases h : c.beats d <;> simp [h]

theorem mem_of_best? {cs : List (Candidate α)} {c : Candidate α} (h : best? cs = some c) :
    c ∈ cs := by
  induction cs generalizing c with
  | nil => simp at h
  | cons a cs ih =>
    simp only [best?] at h
    cases hb : best? cs with
    | none =>
      rw [hb] at h
      exact List.mem_cons.2 (Or.inl (Option.some.inj h).symm)
    | some d =>
      rw [hb] at h
      by_cases ha : a.beats d
      · simp only [ha, if_true, Option.some.injEq] at h
        exact List.mem_cons.2 (Or.inl h.symm)
      · simp only [ha, Bool.false_eq_true, if_false, Option.some.injEq] at h
        exact List.mem_cons.2 (Or.inr (h ▸ ih hb))

end Candidate

end TieredAdmission
