import TieredAdmission.Proofs.Scheduler.Run

/-!
# How much a loop of dispatches takes

Selecting and starting requests on a constant number of slots ends by itself. Every round takes a
free slot of the budget, a queued request and, where the slots of the tiers are fixed, one of its
tier's; so the rounds that are left to make fall by one with each round, and nothing is selected
exactly when none is left. What the clock reads in the meantime makes no difference to the number.
-/

namespace TieredAdmission

/-- One less for one tier is one less in total. -/
theorem PerTier.total_ofFn_succ {f g : Tier → Nat} {t : Tier} (ht : f t + 1 = g t)
    (hother : ∀ u, u ≠ t → f u = g u) : (ofFn f).total + 1 = (ofFn g).total := by
  have he := hother .enterprise
  have hp := hother .premium
  have hf := hother .free
  cases t <;> simp at he hp hf <;> simp only [ofFn, total] <;> omega

/-- Started requests leave the queue. -/
theorem Roster.WellFormed.queuedEntries_perm {r : Roster} {e : Entry} {id : RequestId}
    (h : r.WellFormed) (now : Instant) (hf : r.find? id = some e) (hq : e.stage = .queued) :
    r.queuedEntries.Perm (e :: (r.started e now).queuedEntries) := by
  have hid := Roster.find?_id hf
  obtain ⟨as, bs, hes, has, hbs⟩ := h.split hf
  have hset : (r.started e now).queuedEntries =
      as.filter Entry.isQueued ++ bs.filter Entry.isQueued := by
    rw [h.queuedEntries_started hf, ← queuedEntries_withdrawn, queuedEntries, Roster.withdrawn, hes,
      erase_split rfl (hid ▸ has) (hid ▸ hbs), List.filter_append]
  rw [hset, queuedEntries, hes, List.filter_append,
    List.filter_cons_of_pos (Entry.isQueued_iff.2 hq)]
  exact List.perm_middle

namespace Scheduler

variable {s s' : Scheduler} {slots : Nat} {now later : Instant} {q : Request} {d : Dispatch}
  {ds : List Dispatch}

/-- The number of queued requests that there are slots for. -/
def dispatchable (s : Scheduler) (slots : Nat) : Nat :=
  match s.limits? with
  | none => min s.queued.total (slots - s.processing.total)
  | some limits => min (slots - s.processing.total)
      (PerTier.ofFn fun t => min (s.queued.get t) (limits.get t - s.processing.get t)).total

/-- The loop can make these dispatches, at whatever readings of the clock. -/
inductive Fills (slots : Nat) : Scheduler → List Dispatch → Scheduler → Prop
  | stop (s : Scheduler) : Fills slots s [] s
  | round {s s' s'' : Scheduler} {now later : Instant} {q : Request} {d : Dispatch}
      {ds : List Dispatch}
      (selected : s.selectNext (.ofCounts slots s.processing.total) now = some q)
      (started : s.start q.id later = .ok (d, s')) (rest : Fills slots s' ds s'') :
      Fills slots s (d :: ds) s''

/-! ### One round -/

theorem WellFormed.selectNext_eq_none_iff_dispatchable (h : s.WellFormed) (slots : Nat)
    (now : Instant) : s.selectNext (.ofCounts slots s.processing.total) now = none ↔
      s.dispatchable slots = 0 := by
  rw [h.selectNext_eq_none_iff, dispatchable, CapacityBudget.available_ofCounts]
  cases hl : s.limits? with
  | none =>
    have hqueued : (∀ t, 0 < s.queued.get t → ¬ s.Grants t) ↔ s.queued.total = 0 := by
      rw [PerTier.total_eq_zero_iff]
      exact forall_congr' fun t => by simp [Grants, hl]
    rw [hqueued]
    dsimp only
    omega
  | some limits =>
    have hfull : (∀ t, 0 < s.queued.get t → ¬ s.Grants t) ↔ (PerTier.ofFn fun t =>
        min (s.queued.get t) (limits.get t - s.processing.get t)).total = 0 := by
      rw [PerTier.total_eq_zero_iff]
      refine forall_congr' fun t => ?_
      simp only [Grants, hl, Option.some.injEq, forall_eq', PerTier.get_ofFn]
      omega
    rw [hfull]
    dsimp only
    omega

/-- What a round does: a queued entry leaves the queue, and one dispatch less is left to make. -/
theorem WellFormed.round (h : s.WellFormed)
    (hq : s.selectNext (.ofCounts slots s.processing.total) now = some q)
    (hs : s.start q.id later = .ok (d, s')) :
    s'.WellFormed ∧ s'.dispatchable slots + 1 = s.dispatchable slots ∧
      (s.roster.queuedEntries.map Entry.request).Perm
        (d.request :: s'.roster.queuedEntries.map Entry.request) := by
  obtain ⟨hroom, hgrants, -⟩ := h.selectNext_some hq
  obtain ⟨e, s'', hf, hqueued, rfl, hs', hwf, hr, hl⟩ := h.start_selected hq later
  obtain ⟨rfl, rfl⟩ : _ = d ∧ s'' = s' := Prod.mk.inj (Except.ok.inj (hs'.symm.trans hs))
  refine ⟨hwf, ?_, ?_⟩
  · rw [CapacityBudget.available_ofCounts] at hroom
    obtain ⟨hqueuedTotal, hprocessingTotal⟩ := h.roster.total_started later hf hqueued
    have hpos := h.roster.queued_pos (Roster.mem_queuedEntries.2 ⟨Roster.mem_of_find? hf, hqueued⟩)
    rw [dispatchable, dispatchable, hl, queued, processing, hr]
    rw [processing] at hroom
    cases hlimits : s.limits? with
    | none =>
      dsimp only [queued, processing]
      omega
    | some limits =>
      have hfree : s.processing.get e.tier < limits.get e.tier := hgrants limits hlimits
      -- The dispatch takes one of the tier's slots, and one of its queued requests.
      have htiers : (PerTier.ofFn fun t => min ((s.roster.started e later).queued.get t)
          (limits.get t - (s.roster.started e later).processing.get t)).total + 1 =
          (PerTier.ofFn fun t =>
            min (s.queued.get t) (limits.get t - s.processing.get t)).total := by
        refine PerTier.total_ofFn_succ (t := e.tier) ?_ fun t ht => ?_
        · simp only [Roster.started, PerTier.get_decrement, PerTier.get_increment, if_true]
          dsimp only [queued, processing] at hfree ⊢
          omega
        · simp only [Roster.started, PerTier.get_decrement, PerTier.get_increment, if_neg ht]
          rfl
      dsimp only [processing] at htiers ⊢
      omega
  · rw [hr]
    exact (h.roster.queuedEntries_perm later hf hqueued).map Entry.request

/-! ### The loop -/

/-- What the loop comes to. -/
structure Filled (slots : Nat) (s : Scheduler) (ds : List Dispatch) (s' : Scheduler) : Prop where
  wellFormed : s'.WellFormed
  left : s'.dispatchable slots + ds.length = s.dispatchable slots
  leave : (s.roster.queuedEntries.map Entry.request).Perm
    (ds.map Dispatch.request ++ s'.roster.queuedEntries.map Entry.request)

theorem WellFormed.filled (h : s.WellFormed) (hf : Fills slots s ds s') : Filled slots s ds s' := by
  induction hf with
  | stop s => exact ⟨h, rfl, .refl _⟩
  | round selected started _ ih =>
    obtain ⟨hwf, hleft, hleave⟩ := h.round selected started
    obtain ⟨hwf', hleft', hleave'⟩ := ih hwf
    refine ⟨hwf', ?_, hleave.trans (hleave'.cons _)⟩
    rw [List.length_cons]
    omega

/-- No request is dispatched twice. -/
theorem Filled.nodup (h : s.WellFormed) (hf : Filled slots s ds s') :
    (ds.map fun d => d.request.id).Nodup := by
  have hids : (s.roster.queuedEntries.map Entry.request).map Request.id =
      s.roster.queuedEntries.map Entry.id := List.map_map
  have hqueued : ((s.roster.queuedEntries.map Entry.request).map Request.id).Nodup := by
    rw [hids]
    exact h.roster.nodup.sublist (List.filter_sublist.map _)
  have happend := (hf.leave.map Request.id).nodup_iff.1 hqueued
  rw [List.map_append, List.map_map] at happend
  exact (List.nodup_append.1 happend).1

theorem WellFormed.fill (h : s.WellFormed) (slots fuel : Nat) (now : Instant) :
    let r := fill (fun s => .ofCounts slots s.processing.total) now fuel s
    Fills slots s r.1 r.2 ∧ r.1.length = min fuel (s.dispatchable slots) := by
  induction fuel generalizing s with
  | zero => exact ⟨.stop s, (Nat.zero_min _).symm⟩
  | succ fuel ih =>
    dsimp only
    rw [Scheduler.fill]
    cases hselect : s.selectNext (.ofCounts slots s.processing.total) now with
    | none =>
      rw [(h.selectNext_eq_none_iff_dispatchable slots now).1 hselect]
      exact ⟨.stop s, (Nat.min_zero _).symm⟩
    | some q =>
      obtain ⟨e, s', -, -, -, hstart, hwf, -⟩ := h.start_selected hselect now
      obtain ⟨-, hleft, -⟩ := h.round hselect hstart
      obtain ⟨hfills, hlength⟩ := ih hwf
      simp only [hstart]
      refine ⟨.round hselect hstart hfills, ?_⟩
      rw [List.length_cons, hlength]
      omega

/-- After any run the loop makes as many dispatches as there are queued requests with slots for
them, and no request twice. It can go on without an error until it has made them all, whatever the
clock reads, and then nothing more is selected. -/
theorem loop_dispatches_what_fits (c : SchedulerConfig) (turns : List Turn) (slots : Nat) :
    let s := (new c).after turns
    (c.kind = .workConserving →
      s.dispatchable slots = min s.queued.total (slots - s.processing.total)) ∧
    (c.kind = .fixedConcurrency →
      s.dispatchable slots = min (slots - s.processing.total) (PerTier.ofFn fun t =>
        min (s.queued.get t) (max (c.fixedLimits.get t) 1 - s.processing.get t)).total) ∧
    (∀ ds s', Fills slots s ds s' →
      (ds.map fun d => d.request.id).Nodup ∧
      (∀ d ∈ ds, ∃ e ∈ s.roster.queuedEntries, e.request = d.request) ∧
      ds.length ≤ s.dispatchable slots ∧
      (∀ now q, s'.selectNext (.ofCounts slots s'.processing.total) now = some q →
        ∀ later, ∃ waited s'', s'.start q.id later = .ok (⟨q, waited⟩, s'')) ∧
      ∀ now, s'.selectNext (.ofCounts slots s'.processing.total) now = none ↔
        ds.length = s.dispatchable slots) ∧
    ∀ now fuel, s.dispatchable slots ≤ fuel →
      let r := fill (fun s => .ofCounts slots s.processing.total) now fuel s
      Fills slots s r.1 r.2 ∧ r.1.length = s.dispatchable slots := by
  intro s
  have h : s.WellFormed := (wellFormed_new c).after turns
  have hlimits : s.limits? = (new c).limits? := limits?_after _ turns
  rw [limits?_new] at hlimits
  refine ⟨fun hkind => ?_, fun hkind => ?_, fun ds s' hfills => ?_, fun now fuel hfuel => ?_⟩
  · rw [if_neg (by rw [hkind]; decide)] at hlimits
    rw [dispatchable, hlimits]
  · rw [if_pos hkind] at hlimits
    rw [dispatchable, hlimits]
    simp only [PerTier.get_map]
  · have hfilled := h.filled hfills
    have hleft := hfilled.left
    refine ⟨hfilled.nodup h, fun d hd => ?_, by omega, fun now q hq later => ?_, fun now => ?_⟩
    · exact List.mem_map.1 (hfilled.leave.mem_iff.2
        (List.mem_append_left _ (List.mem_map_of_mem hd)))
    · obtain ⟨e, s'', -, -, -, hs, -⟩ := hfilled.wellFormed.start_selected hq later
      exact ⟨_, s'', hs⟩
    · rw [hfilled.wellFormed.selectNext_eq_none_iff_dispatchable]
      omega
  · obtain ⟨hfills, hlength⟩ := h.fill slots fuel now
    exact ⟨hfills, hlength.trans (Nat.min_eq_right hfuel)⟩

end Scheduler

end TieredAdmission
