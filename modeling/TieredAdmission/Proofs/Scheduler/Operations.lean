import TieredAdmission.Scheduler
import TieredAdmission.Proofs.Scheduler.Roster

/-!
# The invariant of the schedulers

A well-formed scheduler has a well-formed roster. In one with fixed slots each tier also has at
least one slot, and its queue lists the identifiers of its queued entries in order of arrival. What
an operation does to the roster is the same for both kinds, and so is what a selection promises: the
selected request is queued, so that it can be started.
-/

namespace TieredAdmission

universe u v w

theorem map_eq_ok_iff {ε : Type u} {α : Type v} {β : Type w} {f : α → β} {x : Except ε α} {b : β} :
    x.map f = .ok b ↔ ∃ a, x = .ok a ∧ f a = b := by
  cases x <;> simp [Except.map]

namespace FixedSlots

/-- The invariant of a scheduler with fixed slots. -/
structure WellFormed (s : FixedSlots) : Prop where
  roster : s.roster.WellFormed
  queues : ∀ t, s.queues.get t = (s.roster.queuedEntries.filter fun e => e.tier == t).map Entry.id
  limits : ∀ t, 0 < s.limits.get t

theorem wellFormed_new (limits : PerTier Nat) : (new limits).WellFormed where
  roster := Roster.wellFormed_empty
  queues := fun t => by simp [new, Roster.queuedEntries]
  limits := fun t => by
    rw [new, PerTier.get_map]
    exact Nat.le_max_right _ _

variable {s : FixedSlots} {e : Entry} {id : RequestId} {now : Instant}

/-- Taking an identifier out of its tier's queue erases its entry from the queued ones. -/
theorem WellFormed.get_unqueue (h : s.WellFormed) (hf : s.roster.find? id = some e) (t : Tier) :
    (s.unqueue e.tier id).get t =
      ((Roster.erase e.id s.roster.queuedEntries).filter fun e => e.tier == t).map Entry.id := by
  have hid := Roster.find?_id hf
  have hcomm : (Roster.erase e.id s.roster.queuedEntries).filter (fun e => e.tier == t) =
      Roster.erase e.id (s.roster.queuedEntries.filter fun e => e.tier == t) := List.filter_comm ..
  rw [hcomm, Roster.map_id_erase, ← h.queues, hid, unqueue, PerTier.modify]
  by_cases ht : t = e.tier
  · rw [ht, PerTier.get_set_self]
  · rw [PerTier.get_set_of_ne _ _ ht, eq_comm, List.filter_eq_self]
    intro i hi
    -- An entry of another tier has another identifier.
    rw [h.queues] at hi
    obtain ⟨f, hf', rfl⟩ := List.mem_map.1 hi
    obtain ⟨hfq, hft⟩ := List.mem_filter.1 hf'
    have hmem : f ∈ s.roster.entries := List.mem_of_mem_filter hfq
    by_contra hsame
    have hfid : s.roster.find? id = some f := by
      have := h.roster.find?_id hmem
      rwa [show f.id = id by simpa using hsame] at this
    rw [hf] at hfid
    exact ht (by rw [Option.some.inj hfid]; exact (beq_iff_eq.1 hft).symm)

theorem WellFormed.started (h : s.WellFormed) (hf : s.roster.find? id = some e)
    (hq : e.stage = .queued) :
    WellFormed { s with queues := s.unqueue e.tier id, roster := s.roster.started e now } where
  roster := h.roster.started hf hq
  queues := fun t => by
    rw [h.roster.queuedEntries_started hf]
    exact h.get_unqueue hf t
  limits := h.limits

theorem WellFormed.completed (h : s.WellFormed) (hf : s.roster.find? id = some e)
    (hp : e.isProcessing = true) : WellFormed { s with roster := s.roster.completed e } where
  roster := h.roster.completed hf hp
  queues := fun t => by
    rw [h.roster.queuedEntries_completed hf hp]
    exact h.queues t
  limits := h.limits

theorem WellFormed.withdrawn (h : s.WellFormed) (hf : s.roster.find? id = some e)
    (hq : e.stage = .queued) :
    WellFormed { s with queues := s.unqueue e.tier id, roster := s.roster.withdrawn e } where
  roster := h.roster.withdrawn hf hq
  queues := fun t => by
    rw [Roster.queuedEntries_withdrawn]
    exact h.get_unqueue hf t
  limits := h.limits

theorem WellFormed.addQueued (h : s.WellFormed) {request : Request}
    (hn : s.roster.contains request.id = false) :
    WellFormed
      { s with
        queues := s.queues.modify request.tier (· ++ [request.id])
        roster := s.roster.addQueued request now } where
  roster := h.roster.addQueued hn
  queues := fun t => by
    rw [Roster.queuedEntries_addQueued, List.filter_append, List.map_append, ← h.queues,
      PerTier.modify]
    by_cases ht : t = request.tier
    · rw [ht, PerTier.get_set_self]
      simp [Entry.tier, Entry.id]
    · rw [PerTier.get_set_of_ne _ _ ht]
      simp [Entry.tier, Ne.symm ht]
  limits := h.limits

theorem WellFormed.addProcessing (h : s.WellFormed) {request : Request}
    (hn : s.roster.contains request.id = false) :
    WellFormed { s with roster := s.roster.addProcessing request now } where
  roster := h.roster.addProcessing hn
  queues := fun t => by
    rw [Roster.queuedEntries_addProcessing]
    exact h.queues t
  limits := h.limits

end FixedSlots

namespace Scheduler

/-- The invariant of a scheduler of either kind. -/
def WellFormed : Scheduler → Prop
  | workConserving s => s.roster.WellFormed
  | fixedSlots s => s.WellFormed

/-- The slots of the tiers, of a scheduler that has fixed ones. -/
def limits? : Scheduler → Option (PerTier Nat)
  | workConserving _ => none
  | fixedSlots s => some s.limits

/-- A tier with fixed slots has one of them left. -/
def Grants (s : Scheduler) (t : Tier) : Prop :=
  ∀ limits, s.limits? = some limits → s.processing.get t < limits.get t

variable {s s' : Scheduler} {id : RequestId} {request : Request} {now : Instant}
  {b : CapacityBudget}

theorem wellFormed_new (c : SchedulerConfig) : (new c).WellFormed := by
  unfold new
  cases c.kind
  · exact Roster.wellFormed_empty
  · exact FixedSlots.wellFormed_new _

theorem roster_new (c : SchedulerConfig) : (new c).roster = {} := by
  unfold new
  cases c.kind <;> rfl

/-- A new scheduler has fixed slots when its kind says so, at least one for each tier. -/
theorem limits?_new (c : SchedulerConfig) :
    (new c).limits? =
      if c.kind = .fixedConcurrency then some (c.fixedLimits.map fun _ n => max n 1) else none := by
  unfold new
  cases c.kind <;> rfl

theorem WellFormed.roster (h : s.WellFormed) : s.roster.WellFormed := by
  cases s with
  | workConserving s => exact h
  | fixedSlots s => exact FixedSlots.WellFormed.roster h

theorem WellFormed.limits_pos (h : s.WellFormed) {limits : PerTier Nat}
    (hl : s.limits? = some limits) (t : Tier) : 0 < limits.get t := by
  cases s with
  | workConserving s => simp [limits?] at hl
  | fixedSlots s =>
    obtain rfl : s.limits = limits := Option.some.inj hl
    exact FixedSlots.WellFormed.limits h t

/-! ### The operations -/

/-- A request that is not tracked can be queued. -/
theorem WellFormed.enqueue (h : s.WellFormed) (now : Instant)
    (hn : s.contains request.id = false) :
    ∃ s', s.enqueue request now = (.ok (), s') ∧ s'.WellFormed ∧
      s'.roster = s.roster.addQueued request now ∧ s'.limits? = s.limits? := by
  cases s with
  | workConserving s =>
    replace hn : s.roster.contains request.id = false := hn
    let s' : WorkConserving := { s with roster := s.roster.addQueued request now }
    refine ⟨workConserving s', ?_, Roster.WellFormed.addQueued h hn, rfl, rfl⟩
    simp [Scheduler.enqueue, WorkConserving.enqueue, hn, s']
  | fixedSlots s =>
    replace hn : s.roster.contains request.id = false := hn
    refine ⟨fixedSlots _, ?_, FixedSlots.WellFormed.addQueued h hn, rfl, rfl⟩
    simp [Scheduler.enqueue, FixedSlots.enqueue, hn]

/-- A request that is not tracked can go to the backend at once. -/
theorem WellFormed.beginProcessing (h : s.WellFormed) (now : Instant)
    (hn : s.contains request.id = false) :
    ∃ s', s.beginProcessing request now = (.ok ⟨request, .zero⟩, s') ∧ s'.WellFormed ∧
      s'.roster = s.roster.addProcessing request now ∧ s'.limits? = s.limits? := by
  cases s with
  | workConserving s =>
    replace hn : s.roster.contains request.id = false := hn
    let s' : WorkConserving := { s with roster := s.roster.addProcessing request now }
    refine ⟨workConserving s', ?_, Roster.WellFormed.addProcessing h hn, rfl, rfl⟩
    simp [Scheduler.beginProcessing, WorkConserving.beginProcessing, hn, s']
  | fixedSlots s =>
    replace hn : s.roster.contains request.id = false := hn
    refine ⟨fixedSlots _, ?_, FixedSlots.WellFormed.addProcessing h hn, rfl, rfl⟩
    simp [Scheduler.beginProcessing, FixedSlots.beginProcessing, hn]

/-- A started request was queued, and moves to the processing ones. -/
theorem WellFormed.start_ok (h : s.WellFormed) {d : Dispatch} (hs : s.start id now = .ok (d, s')) :
    ∃ e, s.roster.find? id = some e ∧ e.stage = .queued ∧
      d = ⟨e.request, now.since e.enqueuedAt⟩ ∧ s'.WellFormed ∧
      s'.roster = s.roster.started e now ∧ s'.limits? = s.limits? := by
  cases s with
  | workConserving s =>
    obtain ⟨⟨d', r⟩, hr, heq⟩ := map_eq_ok_iff.1 hs
    obtain ⟨e, hf, hq, rfl, rfl⟩ := Roster.start_eq_ok_iff.1 hr
    cases heq
    exact ⟨e, hf, hq, rfl, Roster.WellFormed.started h hf hq, rfl, rfl⟩
  | fixedSlots s =>
    obtain ⟨⟨d', f⟩, hr, heq⟩ := map_eq_ok_iff.1 hs
    cases heq
    unfold FixedSlots.start at hr
    split at hr
    · cases hr
    · next d' r hr' =>
      obtain ⟨e, hf, hq, rfl, rfl⟩ := Roster.start_eq_ok_iff.1 hr'
      cases hr
      exact ⟨e, hf, hq, rfl, FixedSlots.WellFormed.started h hf hq, rfl, rfl⟩

theorem exists_start {e : Entry} (now : Instant) (hf : s.roster.find? id = some e)
    (hq : e.stage = .queued) :
    ∃ s', s.start id now = .ok (⟨e.request, now.since e.enqueuedAt⟩, s') := by
  have hr : s.roster.start id now = .ok (⟨e.request, now.since e.enqueuedAt⟩, _) :=
    Roster.start_eq_ok_iff.2 ⟨e, hf, hq, rfl, rfl⟩
  cases s with
  | workConserving s => exact ⟨_, map_eq_ok_iff.2 ⟨_, hr, rfl⟩⟩
  | fixedSlots s =>
    replace hr : s.roster.start id now = _ := hr
    exact ⟨_, map_eq_ok_iff.2 ⟨_, by rw [FixedSlots.start, hr], rfl⟩⟩

/-- A completed request was processing, and is not tracked any more. -/
theorem WellFormed.complete_ok (h : s.WellFormed) {e : Entry}
    (hs : s.complete id = .ok (e, s')) :
    s.roster.find? id = some e ∧ e.isProcessing = true ∧ s'.WellFormed ∧
      s'.roster = s.roster.completed e ∧ s'.limits? = s.limits? := by
  cases s with
  | workConserving s =>
    obtain ⟨⟨e', r⟩, hr, heq⟩ := map_eq_ok_iff.1 hs
    obtain ⟨hf, hp, rfl⟩ := Roster.complete_eq_ok_iff.1 hr
    cases heq
    exact ⟨hf, hp, Roster.WellFormed.completed h hf hp, rfl, rfl⟩
  | fixedSlots s =>
    obtain ⟨⟨e', r⟩, hr, heq⟩ := map_eq_ok_iff.1 hs
    obtain ⟨hf, hp, rfl⟩ := Roster.complete_eq_ok_iff.1 hr
    cases heq
    exact ⟨hf, hp, FixedSlots.WellFormed.completed h hf hp, rfl, rfl⟩

theorem exists_complete {e : Entry} (hf : s.roster.find? id = some e)
    (hp : e.isProcessing = true) : ∃ s', s.complete id = .ok (e, s') := by
  have hr : s.roster.complete id = .ok (e, _) := Roster.complete_eq_ok_iff.2 ⟨hf, hp, rfl⟩
  cases s with
  | workConserving s => exact ⟨_, map_eq_ok_iff.2 ⟨_, hr, rfl⟩⟩
  | fixedSlots s => exact ⟨_, map_eq_ok_iff.2 ⟨_, hr, rfl⟩⟩

/-- A withdrawn request was queued, and is not tracked any more. -/
theorem WellFormed.withdraw_some (h : s.WellFormed) {q : Request}
    (hs : s.withdraw id = some (q, s')) :
    ∃ e, s.roster.find? id = some e ∧ e.stage = .queued ∧ q = e.request ∧ s'.WellFormed ∧
      s'.roster = s.roster.withdrawn e ∧ s'.limits? = s.limits? := by
  cases s with
  | workConserving s =>
    obtain ⟨⟨q', r⟩, hr, heq⟩ := Option.map_eq_some_iff.1 hs
    obtain ⟨e, hf, hq, rfl, rfl⟩ := Roster.withdraw_eq_some_iff.1 hr
    cases heq
    exact ⟨e, hf, hq, rfl, Roster.WellFormed.withdrawn h hf hq, rfl, rfl⟩
  | fixedSlots s =>
    obtain ⟨⟨q', f⟩, hr, heq⟩ := Option.map_eq_some_iff.1 hs
    cases heq
    unfold FixedSlots.withdraw at hr
    split at hr
    · cases hr
    · next q' r hr' =>
      obtain ⟨e, hf, hq, rfl, rfl⟩ := Roster.withdraw_eq_some_iff.1 hr'
      cases hr
      exact ⟨e, hf, hq, rfl, FixedSlots.WellFormed.withdrawn h hf hq, rfl, rfl⟩

theorem exists_withdraw {e : Entry} (hf : s.roster.find? id = some e) (hq : e.stage = .queued) :
    ∃ s', s.withdraw id = some (e.request, s') := by
  have hr : s.roster.withdraw id = some (e.request, _) :=
    Roster.withdraw_eq_some_iff.2 ⟨e, hf, hq, rfl, rfl⟩
  cases s with
  | workConserving s => exact ⟨_, Option.map_eq_some_iff.2 ⟨_, hr, rfl⟩⟩
  | fixedSlots s =>
    replace hr : s.roster.withdraw id = _ := hr
    exact ⟨_, Option.map_eq_some_iff.2 ⟨_, by rw [FixedSlots.withdraw, hr], rfl⟩⟩

end Scheduler

end TieredAdmission
