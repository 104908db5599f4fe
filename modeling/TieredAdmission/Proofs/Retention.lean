import Mathlib.Algebra.BigOperators.Group.List.Basic
import Mathlib.Algebra.GroupWithZero.Nat
import Mathlib.Data.List.DropRight
import TieredAdmission.Time.Instant

/-!
# Histories with a retention

A history keeps its newest entries up to a cap, and of those the ones that are not too old. On a
clock that does not go backwards, dropping entries for their age at every write and once more at a
read amounts to the window of the read over the last entries of everything ever written.
-/

namespace TieredAdmission

namespace Duration

theorem nanoseconds_sum (ds : List Duration) :
    (sum ds).nanoseconds = (ds.map Duration.nanoseconds).sum := by
  have hfold (d : Duration) :
      (ds.foldl (· + ·) d).nanoseconds = d.nanoseconds + (ds.map Duration.nanoseconds).sum := by
    induction ds generalizing d with
    | nil => simp
    | cons x ds ih => simp [ih, Nat.add_assoc]
  simpa [sum] using hfold .zero

end Duration

section LastEntries

variable {α β : Type*} {p : α → Bool} {xs : List α}

theorem rtake_map (f : α → β) (xs : List α) (n : Nat) :
    (xs.map f).rtake n = (xs.rtake n).map f := by
  rw [List.rtake, List.rtake, List.length_map, List.map_drop]

private theorem rtake_rtake_append (n : Nat) (xs ys : List α) :
    (xs.rtake n ++ ys).rtake n = (xs ++ ys).rtake n := by
  simp only [List.rtake, List.drop_append, List.drop_drop, List.length_append, List.length_drop]
  congr 2 <;> omega

theorem rtake_of_length_le {n : Nat} (h : xs.length ≤ n) : xs.rtake n = xs := by
  rw [List.rtake, Nat.sub_eq_zero_of_le h, List.drop_zero]

private theorem filter_eq_self_of_head {x : α} (hx : p x = true)
    (h : ∀ y ∈ xs, p x = true → p y = true) : xs.filter p = xs :=
  List.filter_eq_self.2 fun y hy => h y hy hx

/-- When the entries that satisfy a condition come last, those among the last `n` are the last `n`
of them. -/
theorem filter_rtake (h : xs.Pairwise fun x y => p x = true → p y = true) (n : Nat) :
    (xs.rtake n).filter p = (xs.filter p).rtake n := by
  induction xs with
  | nil => simp
  | cons x xs ih =>
    obtain ⟨hx, hxs⟩ := List.pairwise_cons.1 h
    by_cases hp : p x = true
    · -- From here on every entry satisfies the condition.
      have hall : (x :: xs).filter p = x :: xs := by
        rw [List.filter_cons_of_pos hp, filter_eq_self_of_head hp hx]
      rw [hall]
      refine List.filter_eq_self.2 fun y hy => ?_
      exact List.filter_eq_self.1 hall y ((List.drop_sublist _ _).subset hy)
    · rw [List.filter_cons_of_neg hp, ← ih hxs]
      by_cases hn : xs.length < n
      · rw [rtake_of_length_le hn, rtake_of_length_le (Nat.le_of_lt hn), List.filter_cons_of_neg hp]
      · rw [List.rtake, List.rtake, List.length_cons, Nat.succ_sub (Nat.le_of_not_lt hn),
          List.drop_succ_cons]

theorem dropWhile_not_eq_filter (h : xs.Pairwise fun x y => p x = true → p y = true) :
    (xs.dropWhile fun x => !p x) = xs.filter p := by
  induction xs with
  | nil => rfl
  | cons x xs ih =>
    obtain ⟨hx, hxs⟩ := List.pairwise_cons.1 h
    by_cases hp : p x = true
    · rw [List.dropWhile_cons_of_neg (by simp [hp]), List.filter_cons_of_pos hp,
        filter_eq_self_of_head hp hx]
    · rw [List.dropWhile_cons_of_pos (by simp [hp]), List.filter_cons_of_neg hp, ih hxs]

end LastEntries

namespace Instant

variable {s t : Instant} {u v : Duration} {c : Option Instant}

theorem isSince_of_le (hst : s ≤ t) (hs : isSince c s = true) : isSince c t = true := by
  cases c with
  | none => rfl
  | some c =>
    simp only [isSince_some, decide_eq_true_eq, le_iff] at *
    omega

/-- A later and shorter window lies within an earlier and longer one that is open to the end. -/
theorem isSince_before?_mono {x : Instant} (hst : s ≤ t) (huv : u ≤ v)
    (hx : isSince (t.before? u) x = true) : isSince (s.before? v) x = true := by
  rw [le_iff] at hst
  rw [Duration.le_iff] at huv
  simp only [before?] at hx ⊢
  generalize -(Word.limit63 * nanosPerSecond : Int) = low at hx ⊢
  split
  · next hs =>
    rw [if_pos (by omega)] at hx
    simp only [isSince_some, decide_eq_true_eq, le_iff] at *
    omega
  · rfl

/-- Instants in order have one that comes before them all. -/
theorem exists_pairwise_cons {ts : List Instant} (h : ts.Pairwise (· ≤ ·)) :
    ∃ t : Instant, (t :: ts).Pairwise (· ≤ ·) := by
  cases ts with
  | nil => exact ⟨.origin, List.pairwise_singleton _ _⟩
  | cons t ts =>
    refine ⟨t, List.pairwise_cons.2 ⟨fun s hs => ?_, h⟩⟩
    rcases List.mem_cons.1 hs with rfl | hs
    · exact Int.le_refl _
    · exact List.rel_of_pairwise_cons h hs

end Instant

namespace History

variable {α : Type*} {at_ : α → Instant} {retention window : Duration} {cap : Nat} {xs ys : List α}
  {s t : Instant}

/-- What is held at an instant of a history: of its last entries those that are not too old. -/
def held (at_ : α → Instant) (retention : Duration) (cap : Nat) (xs : List α) (t : Instant) :
    List α :=
  (xs.rtake cap).filter fun x => Instant.isSince (t.before? retention) (at_ x)

theorem pairwise_isSince {cutoff : Option Instant} (h : xs.Pairwise fun x y => at_ x ≤ at_ y) :
    xs.Pairwise fun x y =>
      Instant.isSince cutoff (at_ x) = true → Instant.isSince cutoff (at_ y) = true :=
  h.imp fun hxy => Instant.isSince_of_le hxy

/-- What is dropped later for its age includes what was dropped before. -/
theorem filter_isSince_filter (hst : s ≤ t) (hshort : window ≤ retention) (xs : List α) :
    ((xs.filter fun x => Instant.isSince (s.before? retention) (at_ x)).filter
        fun x => Instant.isSince (t.before? window) (at_ x)) =
      xs.filter fun x => Instant.isSince (t.before? window) (at_ x) := by
  rw [List.filter_filter]
  refine List.filter_congr fun x _ => ?_
  rw [Bool.and_eq_left_iff_imp]
  exact Instant.isSince_before?_mono hst hshort

theorem filter_held (hst : s ≤ t) (hshort : window ≤ retention) :
    ((held at_ retention cap xs s).filter fun x => Instant.isSince (t.before? window) (at_ x)) =
      held at_ window cap xs t :=
  filter_isSince_filter hst hshort _

/-- A write adds entries to what is held, drops what has become too old and then what is beyond the
cap. Neither what was dropped for its age before nor what the cap took would be held now. -/
theorem held_append (ordered : (xs ++ ys).Pairwise fun x y => at_ x ≤ at_ y) (hst : s ≤ t) :
    ((held at_ retention cap xs s ++ ys).filter
        fun x => Instant.isSince (t.before? retention) (at_ x)).rtake cap =
      held at_ retention cap (xs ++ ys) t := by
  have hlast : (xs.rtake cap ++ ys).Pairwise fun x y => at_ x ≤ at_ y :=
    ordered.sublist ((List.drop_sublist _ _).append_right _)
  calc ((held at_ retention cap xs s ++ ys).filter
          fun x => Instant.isSince (t.before? retention) (at_ x)).rtake cap
    _ = ((xs.rtake cap ++ ys).filter
          fun x => Instant.isSince (t.before? retention) (at_ x)).rtake cap := by
      rw [List.filter_append, List.filter_append, filter_held hst (Nat.le_refl _), held]
    _ = ((xs.rtake cap ++ ys).rtake cap).filter
          fun x => Instant.isSince (t.before? retention) (at_ x) :=
      (filter_rtake (pairwise_isSince hlast) cap).symm
    _ = held at_ retention cap (xs ++ ys) t := by
      rw [rtake_rtake_append, held]

theorem held_sublist (at_ : α → Instant) (retention : Duration) (cap : Nat) (xs : List α)
    (t : Instant) : (held at_ retention cap xs t).Sublist xs :=
  List.filter_sublist.trans (List.drop_sublist _ _)

end History

end TieredAdmission
