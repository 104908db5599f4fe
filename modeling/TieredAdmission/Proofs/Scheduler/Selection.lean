import TieredAdmission.Proofs.Scheduler.Operations

/-!
# What a selection promises

Nothing beats the best candidate. A selection needs a free slot of the budget. The selected request
is queued, and its tier has a slot of its own left where the slots are fixed. Nothing is selected
only when the budget is used up or when every tier with queued requests holds all the slots it may
hold; as every tier may hold at least one, some request is then processing.
-/

namespace TieredAdmission

namespace Candidate

universe u

variable {α : Type u} {a b c d : Candidate α} {cs : List (Candidate α)}

theorem beats_iff :
    a.beats b = true ↔ Decimal.totalKey b.score < Decimal.totalKey a.score ∨
      Decimal.totalKey a.score = Decimal.totalKey b.score ∧ a.sequence < b.sequence := by
  rw [beats, beq_iff_eq, compare, Ordering.then_eq_gt, Int.compare_eq_gt, Int.compare_eq_eq,
    Nat.compare_eq_gt]

private theorem not_beats_self (a : Candidate α) : a.beats a = false := by
  rw [← Bool.not_eq_true, beats_iff]
  omega

private theorem beats_trans (h : a.beats b = true) (h' : b.beats c = true) : a.beats c = true := by
  rw [beats_iff] at *
  omega

/-- Nothing beats the selected candidate. -/
theorem not_beats_of_best? (h : best? cs = some c) (hd : d ∈ cs) : d.beats c = false := by
  induction cs generalizing c with
  | nil => cases hd
  | cons a cs ih =>
    rw [best?] at h
    cases hb : best? cs with
    | none =>
      rw [hb] at h
      cases h
      rw [best?_eq_none_iff.1 hb, List.mem_singleton] at hd
      rw [hd, not_beats_self]
    | some e =>
      rw [hb] at h
      dsimp only at h
      split at h <;> cases h
      · next ha =>
        rcases List.mem_cons.1 hd with rfl | hd
        · exact not_beats_self _
        · -- What beats `a` would beat the best of the others too.
          exact Bool.eq_false_iff.2 fun hda => Bool.eq_false_iff.1 (ih hb hd) (beats_trans hda ha)
      · next ha =>
        rcases List.mem_cons.1 hd with rfl | hd
        · exact Bool.eq_false_iff.2 ha
        · exact ih hb hd

end Candidate

theorem Entry.isQueued_iff {e : Entry} : e.isQueued = true ↔ e.stage = .queued := by
  rw [Entry.isQueued, Entry.state]
  cases e.stage <;> simp [Stage.state]

theorem Roster.mem_queuedEntries {r : Roster} {e : Entry} :
    e ∈ r.queuedEntries ↔ e ∈ r.entries ∧ e.stage = .queued := by
  rw [queuedEntries, List.mem_filter, Entry.isQueued_iff]

/-- Some entry of a tier is queued when the tier's count says so. -/
theorem Roster.WellFormed.exists_queued {r : Roster} (h : r.WellFormed) {t : Tier}
    (ht : 0 < r.queued.get t) : ∃ e ∈ r.queuedEntries, e.tier = t := by
  rw [h.queued] at ht
  obtain ⟨e, he, hp⟩ := List.countP_pos_iff.1 ht
  obtain ⟨hs, htier⟩ := Bool.and_eq_true_iff.1 hp
  exact ⟨e, List.mem_filter.2 ⟨he, hs⟩, beq_iff_eq.1 htier⟩

theorem Roster.WellFormed.queued_pos {r : Roster} {e : Entry} (h : r.WellFormed)
    (he : e ∈ r.queuedEntries) : 0 < r.queued.get e.tier := by
  obtain ⟨he, hq⟩ := Roster.mem_queuedEntries.1 he
  have hpos := Roster.count_pos he
  rwa [Entry.state, hq, Stage.state, ← h.queued] at hpos

namespace WorkConserving

variable {s : WorkConserving} {now : Instant} {b : CapacityBudget}

/-- The best entry of a list of entries is one of them. -/
theorem mem_of_best?_map {es : List Entry} {e : Entry}
    (h : (Candidate.best? (es.map (s.candidate now))).map (·.item) = some e) : e ∈ es := by
  obtain ⟨c, hc, rfl⟩ := Option.map_eq_some_iff.1 h
  obtain ⟨f, hf, rfl⟩ := List.mem_map.1 (Candidate.mem_of_best? hc)
  exact hf

theorem not_beats_of_best? {e f : Entry} (h : s.best? now = some e)
    (hf : f ∈ s.roster.queuedEntries) :
    (s.candidate now f).beats (s.candidate now e) = false := by
  obtain ⟨c, hc, rfl⟩ := Option.map_eq_some_iff.1 h
  obtain ⟨g, -, rfl⟩ := List.mem_map.1 (Candidate.mem_of_best? hc)
  exact Candidate.not_beats_of_best? hc (List.mem_map_of_mem hf)

theorem bestOf?_isSome {t : Tier} (now : Instant)
    (h : ∃ e ∈ s.roster.queuedEntries, e.tier = t) :
    (s.bestOf? now t).isSome = true := by
  obtain ⟨e, he, rfl⟩ := h
  rw [bestOf?, Option.isSome_map, Option.isSome_iff_ne_none, Ne, Candidate.best?_eq_none_iff,
    List.map_eq_nil_iff, List.filter_eq_nil_iff]
  exact fun hnone => hnone e he (by simp)

theorem selectNext_some {q : Request} (h : s.selectNext b now = some q) :
    0 < b.available ∧ ∃ e ∈ s.roster.queuedEntries, e.request = q := by
  unfold selectNext at h
  split at h
  · cases h
  · next hb =>
    refine ⟨Nat.pos_of_ne_zero hb, ?_⟩
    obtain ⟨e, he, hq⟩ := Option.map_eq_some_iff.1 h
    refine ⟨e, ?_, hq⟩
    rcases Option.or_eq_some_iff.1 he with he | ⟨-, he⟩
    · obtain ⟨t, -, ht⟩ := List.exists_of_findSome?_eq_some he
      split at ht
      · exact List.mem_of_mem_filter (mem_of_best?_map ht)
      · cases ht
    · exact mem_of_best?_map he

theorem selectNext_none (h : s.selectNext b now = none) :
    b.available = 0 ∨ s.roster.queuedEntries = [] := by
  unfold selectNext at h
  split at h
  · next hb => exact Or.inl hb
  · right
    have hbest := (Option.or_eq_none_iff.1 (Option.map_eq_none_iff.1 h)).2
    have hnil := Candidate.best?_eq_none_iff.1 (Option.map_eq_none_iff.1 hbest)
    exact List.map_eq_nil_iff.1 hnil

end WorkConserving

namespace FixedSlots

variable {s : FixedSlots} {b : CapacityBudget}

theorem WellFormed.selectNext_some (hs : s.WellFormed) {q : Request}
    (h : s.selectNext b = some q) :
    0 < b.available ∧ s.hasSlot q.tier = true ∧ ∃ e ∈ s.roster.queuedEntries, e.request = q := by
  unfold selectNext at h
  split at h
  · cases h
  · next hb =>
    obtain ⟨e, he, rfl⟩ := Option.map_eq_some_iff.1 h
    obtain ⟨id, hid, hf⟩ := Option.bind_eq_some_iff.1 he
    obtain ⟨t, ht, hhead⟩ := List.exists_of_findSome?_eq_some hid
    have hmem := List.mem_of_mem_head? hhead
    rw [hs.queues] at hmem
    obtain ⟨f, hf', rfl⟩ := List.mem_map.1 hmem
    obtain ⟨hq, htier⟩ := List.mem_filter.1 hf'
    obtain rfl : f = e := by
      have := hs.roster.find?_id (Roster.mem_queuedEntries.1 hq).1
      exact Option.some.inj (this.symm.trans hf)
    refine ⟨Nat.pos_of_ne_zero hb, ?_, f, hq, rfl⟩
    rw [show f.request.tier = t from beq_iff_eq.1 htier]
    exact (List.mem_filter.1 ht).2

theorem WellFormed.selectNext_none (hs : s.WellFormed) (h : s.selectNext b = none) :
    b.available = 0 ∨ ∀ e ∈ s.roster.queuedEntries, s.hasSlot e.tier = false := by
  unfold selectNext at h
  split at h
  · next hb => exact Or.inl hb
  · refine Or.inr fun e he => Bool.eq_false_iff.2 fun hslot => ?_
    have hnone := Option.map_eq_none_iff.1 h
    cases hid : (Tier.all.filter s.hasSlot).findSome? fun t => (s.queues.get t).head? with
    | none =>
      -- The queue of the entry's tier would be empty.
      have hhead := List.findSome?_eq_none_iff.1 hid e.tier
        (List.mem_filter.2 ⟨Tier.mem_all _, hslot⟩)
      rw [List.head?_eq_none_iff, hs.queues, List.map_eq_nil_iff, List.filter_eq_nil_iff] at hhead
      exact hhead e he (by simp)
    | some id =>
      -- The head of a queue is tracked.
      rw [hid, Option.bind_some] at hnone
      obtain ⟨t, -, hhead⟩ := List.exists_of_findSome?_eq_some hid
      have hmem := List.mem_of_mem_head? hhead
      rw [hs.queues] at hmem
      obtain ⟨f, hf, rfl⟩ := List.mem_map.1 hmem
      have hfind := hs.roster.find?_id
        (Roster.mem_queuedEntries.1 (List.mem_filter.1 hf).1).1
      rw [hnone] at hfind
      cases hfind

end FixedSlots

namespace Scheduler

variable {s : Scheduler} {now : Instant} {b : CapacityBudget}

theorem grants_fixedSlots {s : FixedSlots} {t : Tier} :
    (fixedSlots s).Grants t ↔ s.hasSlot t = true := by
  simp [Grants, limits?, FixedSlots.hasSlot, processing, roster]

private theorem grants_workConserving {s : WorkConserving} {t : Tier} :
    (workConserving s).Grants t := by
  simp [Grants, limits?]

/-- A newcomer skips the queue when the budget has a free slot and its tier has one too. -/
theorem canDispatchNow_iff {t : Tier} :
    s.canDispatchNow t b = true ↔ 0 < b.available ∧ s.Grants t := by
  cases s with
  | workConserving s => simp [canDispatchNow, grants_workConserving]
  | fixedSlots s => simp [canDispatchNow, grants_fixedSlots]

/-- The selected request is queued, and both the budget and its tier have a slot for it. -/
theorem WellFormed.selectNext_some (h : s.WellFormed) {q : Request}
    (hs : s.selectNext b now = some q) :
    0 < b.available ∧ s.Grants q.tier ∧
      ∃ e, s.roster.find? q.id = some e ∧ e.stage = .queued ∧ e.request = q := by
  have hmem : 0 < b.available ∧ s.Grants q.tier ∧ ∃ e ∈ s.roster.queuedEntries, e.request = q := by
    cases s with
    | workConserving s =>
      obtain ⟨hb, he⟩ := WorkConserving.selectNext_some hs
      exact ⟨hb, grants_workConserving, he⟩
    | fixedSlots s =>
      obtain ⟨hb, hslot, he⟩ := FixedSlots.WellFormed.selectNext_some h hs
      exact ⟨hb, grants_fixedSlots.2 hslot, he⟩
  obtain ⟨hb, hg, e, he, rfl⟩ := hmem
  obtain ⟨hentry, hq⟩ := Roster.mem_queuedEntries.1 he
  exact ⟨hb, hg, e, h.roster.find?_id hentry, hq, rfl⟩

/-- The selected request can be started at any time. -/
theorem WellFormed.start_selected (h : s.WellFormed) {q : Request}
    (hs : s.selectNext b now = some q) (later : Instant) :
    ∃ e s', s.roster.find? q.id = some e ∧ e.stage = .queued ∧ e.request = q ∧
      s.start q.id later = .ok (⟨q, later.since e.enqueuedAt⟩, s') ∧ s'.WellFormed ∧
      s'.roster = s.roster.started e later ∧ s'.limits? = s.limits? := by
  obtain ⟨-, -, e, hf, hqueued, rfl⟩ := h.selectNext_some hs
  obtain ⟨s', hstart⟩ := exists_start later hf hqueued
  obtain ⟨e', hf', -, -, hwf, hr, hl⟩ := h.start_ok hstart
  obtain rfl : e = e' := Option.some.inj (hf.symm.trans hf')
  exact ⟨e, s', hf, hqueued, rfl, hstart, hwf, hr, hl⟩

/-- Nothing is selected only for want of a slot, of the budget or of every tier with queued
requests. -/
theorem WellFormed.selectNext_none (h : s.WellFormed) (hs : s.selectNext b now = none) :
    b.available = 0 ∨ ∀ t, 0 < s.queued.get t → ¬ s.Grants t := by
  cases s with
  | workConserving s =>
    refine (WorkConserving.selectNext_none hs).imp_right fun hnil t ht => ?_
    obtain ⟨e, he, -⟩ := Roster.WellFormed.exists_queued h ht
    rw [hnil] at he
    cases he
  | fixedSlots s =>
    refine (FixedSlots.WellFormed.selectNext_none h hs).imp_right fun hslot t ht => ?_
    obtain ⟨e, he, rfl⟩ := Roster.WellFormed.exists_queued (FixedSlots.WellFormed.roster h) ht
    rw [grants_fixedSlots, hslot e he]
    exact Bool.false_ne_true

theorem WellFormed.selectNext_eq_none_iff (h : s.WellFormed) :
    s.selectNext b now = none ↔ b.available = 0 ∨ ∀ t, 0 < s.queued.get t → ¬ s.Grants t := by
  refine ⟨h.selectNext_none, fun hfull => Option.eq_none_iff_forall_ne_some.2 fun q hq => ?_⟩
  obtain ⟨hroom, hgrants, e, hf, hqueued, rfl⟩ := h.selectNext_some hq
  rcases hfull with hzero | hfull
  · omega
  · exact hfull e.tier (h.roster.queued_pos (Roster.mem_queuedEntries.2
      ⟨Roster.mem_of_find? hf, hqueued⟩)) hgrants

/-- A queue that cannot move waits for a request that is processing. -/
theorem WellFormed.processing_pos (h : s.WellFormed) (hs : s.selectNext b now = none)
    (hb : b.available = b.maxConcurrent - s.processing.total) (hm : 0 < b.maxConcurrent)
    (hq : 0 < s.queued.total) : 0 < s.processing.total := by
  rcases h.selectNext_none hs with hzero | hfull
  · omega
  · obtain ⟨t, ht⟩ := PerTier.exists_pos_of_total_pos hq
    have hno := hfull t ht
    simp only [Grants, not_forall] at hno
    obtain ⟨limits, hl, hlt⟩ := hno
    have hpos := h.limits_pos hl t
    have hle := PerTier.get_le_total s.processing t
    omega

end Scheduler

end TieredAdmission
