import TieredAdmission.Proofs.Scheduler.Run

/-!
# Proportional fairness

How many slots the tiers together are short of their target shares never exceeds the number of free
slots, as long as every tier has a queued request whenever one is selected. A dispatch takes a free
slot and gives it to a tier that is short of its share, if there is one; an end of a call frees a
slot and makes at most one tier shorter by one. So when no slot is free, no tier is short.
-/

namespace TieredAdmission

/-- The slots that the tiers together are short of their target shares. -/
def TierPolicy.shortfall (p : TierPolicy) (slots : Nat) (processing : PerTier Nat) : Nat :=
  ((p.allocation slots).map fun t share => share - processing.get t).total

namespace TierPolicy

variable (p : TierPolicy) {slots : Nat} {processing : PerTier Nat} {t : Tier}

theorem shortfall_eq (slots : Nat) (processing : PerTier Nat) :
    p.shortfall slots processing =
      (p.targetShare .enterprise slots - processing.enterprise) +
      (p.targetShare .premium slots - processing.premium) +
      (p.targetShare .free slots - processing.free) := rfl

private theorem shortfall_const_zero :
    p.shortfall slots (.const 0) = (p.allocation slots).total := rfl

private theorem shortfall_increment_of_lt (h : processing.get t < p.targetShare t slots) :
    p.shortfall slots (processing.increment t) + 1 = p.shortfall slots processing := by
  rw [shortfall_eq, shortfall_eq]
  cases t <;>
    simp only [PerTier.increment, PerTier.modify, PerTier.set, PerTier.get] at h ⊢ <;> omega

private theorem shortfall_eq_zero (h : ∀ t, p.targetShare t slots ≤ processing.get t) :
    p.shortfall slots processing = 0 := by
  have he := h .enterprise
  have hp := h .premium
  have hf := h .free
  rw [shortfall_eq]
  simp only [PerTier.get] at he hp hf
  omega

private theorem shortfall_decrement_le (slots : Nat) (processing : PerTier Nat) (t : Tier) :
    p.shortfall slots (processing.decrement t) ≤ p.shortfall slots processing + 1 := by
  rw [shortfall_eq, shortfall_eq]
  cases t <;> simp only [PerTier.decrement, PerTier.modify, PerTier.set, PerTier.get] <;> omega

private theorem targetShare_le_of_shortfall (h : p.shortfall slots processing = 0) (t : Tier) :
    p.targetShare t slots ≤ processing.get t := by
  rw [shortfall_eq] at h
  cases t <;> simp only [PerTier.get] <;> omega

end TierPolicy

namespace PerTier

/-- Counts that are bounded below one by one and have the total of their bounds are the bounds. -/
theorem get_eq_of_total_eq {p q : PerTier Nat} (h : ∀ t, q.get t ≤ p.get t)
    (ht : p.total = q.total) (t : Tier) : p.get t = q.get t := by
  have he := h .enterprise
  have hp := h .premium
  have hf := h .free
  simp only [get, total] at he hp hf ht
  cases t <;> simp only [get] <;> omega

end PerTier

/-! ### The tier of the selected request -/

namespace WorkConserving

variable {s : WorkConserving} {b : CapacityBudget} {now : Instant} {q : Request} {t : Tier}

private theorem tier_of_bestOf? {e : Entry} (h : s.bestOf? now t = some e) : e.tier = t :=
  beq_iff_eq.1 (List.mem_filter.1 (mem_of_best?_map h)).2

/-- A tier that is short of its share and has a queued request sees to it that a tier that is short
of its share is served. -/
theorem isUnderServed_of_selectNext (h : s.selectNext b now = some q)
    (hq : ∃ e ∈ s.roster.queuedEntries, e.tier = t)
    (ht : s.isUnderServed b.maxConcurrent t = true) :
    s.isUnderServed b.maxConcurrent q.tier = true := by
  unfold selectNext at h
  split at h
  · cases h
  · obtain ⟨e, he, rfl⟩ := Option.map_eq_some_iff.1 h
    rcases Option.or_eq_some_iff.1 he with he | ⟨hnone, -⟩
    · obtain ⟨u, -, hu⟩ := List.exists_of_findSome?_eq_some he
      split at hu
      · next hserved =>
        rw [show e.request.tier = u from tier_of_bestOf? hu]
        exact hserved
      · cases hu
    · -- The tier itself would have been found.
      have hbest := List.findSome?_eq_none_iff.1 hnone t (Tier.mem_all t)
      rw [if_pos ht] at hbest
      have hsome := bestOf?_isSome now hq
      rw [hbest] at hsome
      cases hsome

end WorkConserving

/-! ### Runs in which every tier wants slots -/

/-- The turn belongs to a run on a number of slots in which every tier wants them. Requests go to
the backend by dispatches only, on the slots that are not in use, and then every tier has a queued
request. -/
def Turn.Contends (slots : Nat) (s : Scheduler) : Turn → Prop
  | .enqueue _ _ | .complete _ | .withdraw _ => True
  | .dispatch b _ =>
    b.maxConcurrent = slots ∧ b.available = slots - s.processing.total ∧
      ∀ t ∈ Tier.all, ∃ e ∈ s.roster.queuedEntries, e.tier = t
  | .beginProcessing _ _ | .start _ _ => False

instance (slots : Nat) (s : Scheduler) : DecidablePred (Turn.Contends slots s)
  | .enqueue _ _ | .complete _ | .withdraw _ => inferInstanceAs (Decidable True)
  | .dispatch b _ =>
    inferInstanceAs (Decidable (b.maxConcurrent = slots ∧
      b.available = slots - s.processing.total ∧
      ∀ t ∈ Tier.all, ∃ e ∈ s.roster.queuedEntries, e.tier = t))
  | .beginProcessing _ _ | .start _ _ => inferInstanceAs (Decidable False)

namespace Scheduler

/-- Every turn of the run is such a turn. -/
def Contended (slots : Nat) : Scheduler → List Turn → Prop
  | _, [] => True
  | s, turn :: turns => turn.Contends slots s ∧ (s.apply turn).Contended slots turns

instance decidableContended (slots : Nat) :
    (s : Scheduler) → DecidablePred (Contended slots s)
  | _, [] => inferInstanceAs (Decidable True)
  | s, turn :: turns =>
    have := decidableContended slots (s.apply turn) turns
    inferInstanceAs (Decidable (turn.Contends slots s ∧ (s.apply turn).Contended slots turns))

end Scheduler

namespace WorkConserving

variable {slots : Nat} {w : WorkConserving} {r : Roster}

/-- What the tiers are short of is free. -/
structure Fair (slots : Nat) (w : WorkConserving) : Prop where
  wellFormed : w.roster.WellFormed
  room : w.policy.shortfall slots w.roster.processing + w.roster.processing.total ≤ slots

theorem Fair.completed (h : w.Fair slots) {id : RequestId} {e : Entry}
    (found : w.roster.find? id = some e) (processing : e.isProcessing = true) :
    w.policy.shortfall slots (w.roster.completed e).processing +
      (w.roster.completed e).processing.total ≤ slots := by
  have hroom := h.room
  have htotal := h.wellFormed.total_completed found processing
  have hshort := w.policy.shortfall_decrement_le slots w.roster.processing e.tier
  change w.policy.shortfall slots (w.roster.processing.decrement e.tier) + _ ≤ slots
  omega

theorem Fair.dispatched (h : w.Fair slots) {b : CapacityBudget} {now : Instant} {e : Entry}
    (hslots : b.maxConcurrent = slots)
    (havailable : b.available = slots - w.roster.processing.total)
    (hqueued : ∀ t, ∃ e ∈ w.roster.queuedEntries, e.tier = t)
    (selected : w.selectNext b now = some e.request) (found : w.roster.find? e.id = some e)
    (queued : e.stage = .queued) :
    w.policy.shortfall slots (w.roster.started e now).processing +
      (w.roster.started e now).processing.total ≤ slots := by
  have hroom := h.room
  have hpos : 0 < b.available := (selectNext_some selected).1
  have htotal := (h.wellFormed.total_started now found queued).2
  change w.policy.shortfall slots (w.roster.processing.increment e.tier) + _ ≤ slots
  by_cases hall : ∀ t, w.policy.targetShare t slots ≤ w.roster.processing.get t
  · -- Nobody is short, before and after.
    have hzero := w.policy.shortfall_eq_zero hall
    have hzero' : w.policy.shortfall slots (w.roster.processing.increment e.tier) = 0 := by
      refine w.policy.shortfall_eq_zero fun t => ?_
      rw [PerTier.get_increment]
      have := hall t
      split <;> omega
    omega
  · -- Somebody is short, so the slot goes to a tier that is short.
    simp only [not_forall, Nat.not_le] at hall
    obtain ⟨t, hshort⟩ := hall
    have hserved : w.isUnderServed b.maxConcurrent e.tier = true :=
      isUnderServed_of_selectNext selected (hqueued t)
        (by rw [hslots]; exact decide_eq_true hshort)
    rw [hslots] at hserved
    have hless := w.policy.shortfall_increment_of_lt (of_decide_eq_true hserved)
    omega

theorem Fair.apply (h : w.Fair slots) {turn : Turn}
    (ht : turn.Contends slots (.workConserving w))
    (hr : (Scheduler.workConserving w).apply turn = .workConserving { w with roster := r }) :
    Fair slots { w with roster := r } := by
  have hwf : (Scheduler.workConserving w).WellFormed := h.wellFormed
  obtain ⟨hwf', ha⟩ := hwf.applied turn
  rw [hr] at hwf' ha
  refine ⟨hwf', ?_⟩
  change w.policy.shortfall slots r.processing + r.processing.total ≤ slots
  replace ha : Scheduler.Applied (.workConserving w) turn r := ha
  cases ha with
  | queued _ | withdrawn _ _ => exact h.room
  | began _ | started _ _ => cases ht
  | completed found processing => exact h.completed found processing
  | dispatched selected found queued =>
    obtain ⟨hslots, havailable, hqueued⟩ := ht
    exact h.dispatched hslots havailable (fun t => hqueued t (Tier.mem_all t)) selected found queued
  | refused same =>
    rw [same.processing]
    exact h.room

theorem Fair.after (h : w.Fair slots) {turns : List Turn}
    (ht : (Scheduler.workConserving w).Contended slots turns) :
    ∃ r, (Scheduler.workConserving w).after turns = .workConserving { w with roster := r } ∧
      Fair slots { w with roster := r } := by
  induction turns generalizing w with
  | nil => exact ⟨w.roster, rfl, h⟩
  | cons turn turns ih =>
    obtain ⟨r, hr⟩ := Scheduler.apply_workConserving w turn
    obtain ⟨hturn, hturns⟩ := ht
    rw [hr] at hturns
    obtain ⟨r', hr', hfair⟩ := ih (h.apply hturn hr) hturns
    exact ⟨r', by rw [Scheduler.after_cons, hr, hr'], hfair⟩

/-- On slots that the target shares do not exceed, with every tier wanting slots at each dispatch,
the tiers together are never short of more slots than are free, whatever the order and the ages of
the requests and whichever of them are done or withdrawn. So when no slot is free every tier holds
its target share, and exactly that when the shares add up to the slots. -/
theorem fair_shares (policy : TierPolicy) (agingCap : Duration) (slots : Nat) (turns : List Turn)
    (shares : (policy.allocation slots).total ≤ slots)
    (contended : (Scheduler.workConserving { policy, agingCap }).Contended slots turns) :
    let s := (Scheduler.workConserving { policy, agingCap }).after turns
    s.processing.total ≤ slots ∧
    policy.shortfall slots s.processing ≤ slots - s.processing.total ∧
    (s.processing.total = slots →
      (∀ t, policy.targetShare t slots ≤ s.processing.get t) ∧
      ((policy.allocation slots).total = slots →
        ∀ t, s.processing.get t = policy.targetShare t slots)) := by
  intro s
  have hnew : Fair slots { policy, agingCap } := by
    refine ⟨Roster.wellFormed_empty, ?_⟩
    change policy.shortfall slots (.const 0) + 0 ≤ slots
    rwa [TierPolicy.shortfall_const_zero]
  obtain ⟨r, hr, hfair⟩ := hnew.after contended
  have hroom : policy.shortfall slots s.processing + s.processing.total ≤ slots := by
    rw [show s = _ from hr]
    exact hfair.room
  refine ⟨by omega, by omega, fun hfull => ?_⟩
  have hzero : policy.shortfall slots s.processing = 0 := by omega
  have hshares := policy.targetShare_le_of_shortfall hzero
  refine ⟨hshares, fun htotal t => ?_⟩
  rw [← TierPolicy.get_allocation]
  refine PerTier.get_eq_of_total_eq (fun t => ?_) (hfull.trans htotal.symm) t
  rw [TierPolicy.get_allocation]
  exact hshares t

/-- Free requests come first and wait longest, and the shares still come out. -/
theorem fair_shares_of_four :
    let policy : TierPolicy := { weight := ⟨0.5, 0.25, 0.25⟩ }
    let empty : Scheduler := .workConserving { policy, agingCap := .ofSeconds 20 }
    let turns : List Turn :=
      [.enqueue ⟨"f1", .free, .null, {}⟩ ⟨0⟩, .enqueue ⟨"f2", .free, .null, {}⟩ ⟨0⟩,
        .enqueue ⟨"p1", .premium, .null, {}⟩ ⟨1⟩, .enqueue ⟨"p2", .premium, .null, {}⟩ ⟨1⟩,
        .enqueue ⟨"e1", .enterprise, .null, {}⟩ ⟨2⟩, .enqueue ⟨"e2", .enterprise, .null, {}⟩ ⟨2⟩,
        .enqueue ⟨"e3", .enterprise, .null, {}⟩ ⟨2⟩, .enqueue ⟨"e4", .enterprise, .null, {}⟩ ⟨2⟩,
        .dispatch (.ofCounts 4 0) ⟨50000000000⟩, .dispatch (.ofCounts 4 1) ⟨50000000000⟩,
        .dispatch (.ofCounts 4 2) ⟨50000000000⟩, .complete "e1",
        .dispatch (.ofCounts 4 2) ⟨60000000000⟩, .withdraw "f1", .dispatch (.ofCounts 4 3) ⟨0⟩]
    (policy.allocation 4).total = 4 ∧ empty.Contended 4 turns ∧
      (empty.after turns).processing.total = 4 ∧
      ∀ t, (empty.after turns).processing.get t = policy.targetShare t 4 := by
  intro policy empty turns
  have shares : (policy.allocation 4).total = 4 := by decide
  have contended : empty.Contended 4 turns := by decide +kernel
  have full : (empty.after turns).processing.total = 4 := by decide +kernel
  have fair := fair_shares policy (.ofSeconds 20) 4 turns (Nat.le_of_eq shares) contended
  exact ⟨shares, contended, full, (fair.2.2 full).2 shares⟩

end WorkConserving

end TieredAdmission
