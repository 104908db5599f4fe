import TieredAdmission.Drain

/-!
# Drains and the count in flight

Only tracking and letting go change the count of the gate. A drain never waits while the count is
zero, and a drain that waits goes on waiting or ends with a result that is kept. The result agrees
with the count at which the drain ends, and once the gate is closed the count does not rise.
-/

namespace TieredAdmission

def DrainPhase.rank : DrainPhase → Nat
  | running => 0
  | draining => 1
  | stopped => 2

theorem DrainPhase.rank_le (p : DrainPhase) : p.rank ≤ DrainPhase.stopped.rank := by
  cases p <;> decide

theorem DrainPhase.ne_running_iff {p : DrainPhase} : p ≠ .running ↔ 0 < p.rank := by
  cases p <;> decide

/-- The result is right for a drain that ends at a count. -/
def DrainResult.Fits (inFlight : Nat) : DrainResult → Prop
  | drained | complete => inFlight = 0
  | timeout remaining => 0 < remaining ∧ remaining = inFlight

namespace DrainGate

variable {g g' g'' : DrainGate} {d : DrainTask} {r : DrainResult}

/-! ### What settling does -/

def ended (g : DrainGate) : List (Nat × DrainResult) :=
  g.waiting.filterMap fun d => (g.outcome? d).map fun r => (d.index, r)

theorem mem_ended {p : Nat × DrainResult} :
    p ∈ g.ended ↔ ∃ d ∈ g.waiting, d.index = p.1 ∧ g.outcome? d = some p.2 := by
  obtain ⟨i, r⟩ := p
  simp only [ended, List.mem_filterMap, Option.map_eq_some_iff, Prod.mk.injEq]
  constructor
  · rintro ⟨d, hd, r', hr, hi, rfl⟩
    exact ⟨d, hd, hi, hr⟩
  · rintro ⟨d, hd, hi, hr⟩
    exact ⟨d, hd, r, hr, hi, rfl⟩

/-- The drains that do not end wait on, and the first end stops the gate. -/
theorem settle_eq (g : DrainGate) :
    g.settle =
      { g with
        phase := if g.ended = [] then g.phase else .stopped
        waiting := g.waiting.filter fun d => (g.outcome? d).isNone
        finished := g.finished ++ g.ended.toArray } := by
  unfold settle
  change (if g.ended.isEmpty = true then g else _) = _
  by_cases hnone : g.ended = []
  · have hwait : g.waiting.filter (fun d => (g.outcome? d).isNone) = g.waiting := by
      refine List.filter_eq_self.2 fun d hd => ?_
      have := List.filterMap_eq_nil_iff.1 hnone d hd
      simpa using this
    rw [if_pos (List.isEmpty_iff.2 hnone), if_pos hnone, hwait, hnone]
    simp
  · rw [if_neg (by simpa using hnone), if_neg hnone]
    rfl

@[simp] theorem inFlight_settle (g : DrainGate) : g.settle.inFlight = g.inFlight := by
  rw [settle_eq]

private theorem fits_outcome (h : g.outcome? d = some r) : r.Fits g.inFlight := by
  unfold outcome? at h
  split at h
  · next hzero =>
    cases h
    unfold DrainTask.success
    split <;> exact hzero
  · next hpos =>
    split at h
    · cases h
    · split at h
      · cases h
        exact ⟨Nat.pos_of_ne_zero hpos, rfl⟩
      · cases h

/-! ### The count -/

@[simp] theorem inFlight_release (g : DrainGate) : g.release.inFlight = g.inFlight - 1 :=
  inFlight_settle _

@[simp] theorem inFlight_drain (g : DrainGate) (limit : Option Duration) :
    (g.drain limit).inFlight = g.inFlight := inFlight_settle _

theorem pass?_eq_some_iff {d : Duration} :
    g.pass? d = some g' ↔
      (g.now.after d).Readable ∧ g' = { g with now := g.now.after d }.settle := by
  unfold pass?
  split <;> simp_all [eq_comm]

theorem inFlight_pass? {d : Duration} (h : g.pass? d = some g') : g'.inFlight = g.inFlight := by
  obtain ⟨-, rfl⟩ := pass?_eq_some_iff.1 h
  exact inFlight_settle _

theorem track?_eq_some_iff :
    g.track? = some g' ↔ g.phase = .running ∧ g' = { g with inFlight := g.inFlight + 1 } := by
  unfold track?
  split <;> simp_all [eq_comm]

/-! ### Moves of the gate -/

/-- What an operation of the controller does to the gate. -/
inductive Moves (g : DrainGate) : DrainGate → Prop where
  | stay : Moves g g
  | track {g' : DrainGate} (h : g.track? = some g') : Moves g g'
  | release : Moves g g.release
  | drain (limit : Option Duration) : Moves g (g.drain limit)
  | pass {g' : DrainGate} {d : Duration} (h : g.pass? d = some g') : Moves g g'

/-- The gate after a change that drains have not looked at yet. -/
structure Stirs (g g' : DrainGate) : Prop where
  waiting : ∀ d ∈ g.waiting, d ∈ g'.waiting
  finished : g'.finished = g.finished
  inFlight : g'.inFlight ≤ g.inFlight
  rank : g.phase.rank ≤ g'.phase.rank

/-- A move leaves the gate as it is, counts one more, or ends with a look of every drain. -/
theorem Moves.stirs (h : g.Moves g') :
    g' = g ∨ g.track? = some g' ∨ ∃ g₁, g' = g₁.settle ∧ g.Stirs g₁ := by
  cases h with
  | stay => exact Or.inl rfl
  | track h => exact Or.inr (Or.inl h)
  | release =>
    exact Or.inr (Or.inr ⟨_, rfl, fun _ hd => hd, rfl, Nat.sub_le _ _, Nat.le_refl _⟩)
  | drain limit =>
    refine Or.inr (Or.inr ⟨_, rfl, fun _ hd => List.mem_append_left _ hd, rfl, Nat.le_refl _, ?_⟩)
    change _ ≤ DrainPhase.rank (if g.phase = .running then .draining else g.phase)
    split
    · next hrun =>
      rw [hrun]
      exact Nat.zero_le _
    · exact Nat.le_refl _
  | pass h =>
    obtain ⟨-, rfl⟩ := pass?_eq_some_iff.1 h
    exact Or.inr (Or.inr ⟨_, rfl, fun _ hd => hd, rfl, Nat.le_refl _, Nat.le_refl _⟩)

/-! ### No drain waits for nothing -/

/-- A drain that waits has something to wait for. -/
def Prompt (g : DrainGate) : Prop := g.inFlight = 0 → g.waiting = []

private theorem prompt_settle (g : DrainGate) : g.settle.Prompt := by
  intro h
  rw [inFlight_settle] at h
  rw [settle_eq]
  refine List.filter_eq_nil_iff.2 fun d _ => ?_
  simp [outcome?, h]

theorem Moves.prompt (h : g.Moves g') (hp : g.Prompt) : g'.Prompt := by
  rcases h.stirs with rfl | ht | ⟨g₁, rfl, -⟩
  · exact hp
  · obtain ⟨-, rfl⟩ := track?_eq_some_iff.1 ht
    exact fun hzero => absurd hzero (Nat.succ_ne_zero _)
  · exact prompt_settle g₁

/-! ### No drain is forgotten -/

/-- Every drain that waited waits on or has ended, and every result is kept. -/
structure Remembers (g g' : DrainGate) : Prop where
  waiting : ∀ d ∈ g.waiting, d ∈ g'.waiting ∨ ∃ r, (d.index, r) ∈ g'.finished.toList
  finished : ∀ p ∈ g.finished.toList, p ∈ g'.finished.toList

theorem Remembers.of_eq (hw : g'.waiting = g.waiting) (hf : g'.finished = g.finished) :
    g.Remembers g' :=
  ⟨fun _ hd => Or.inl (hw ▸ hd), fun _ hp => hf ▸ hp⟩

theorem Remembers.trans (h : g.Remembers g') (h' : g'.Remembers g'') : g.Remembers g'' := by
  refine ⟨fun d hd => ?_, fun p hp => h'.finished p (h.finished p hp)⟩
  rcases h.waiting d hd with hw | ⟨r, hr⟩
  · exact h'.waiting d hw
  · exact Or.inr ⟨r, h'.finished _ hr⟩

theorem Stirs.remembers (h : g.Stirs g') : g.Remembers g' :=
  ⟨fun d hd => Or.inl (h.waiting d hd), fun _ hp => h.finished ▸ hp⟩

private theorem remembers_settle (g : DrainGate) : g.Remembers g.settle := by
  rw [settle_eq]
  refine ⟨fun d hd => ?_, fun p hp => ?_⟩
  · cases hr : g.outcome? d with
    | none => exact Or.inl (List.mem_filter.2 ⟨hd, by simp [hr]⟩)
    | some r =>
      refine Or.inr ⟨r, ?_⟩
      rw [Array.toList_append]
      exact List.mem_append_right _ (mem_ended.2 ⟨d, hd, rfl, hr⟩)
  · rw [Array.toList_append]
    exact List.mem_append_left _ hp

theorem Moves.remembers (h : g.Moves g') : g.Remembers g' := by
  rcases h.stirs with rfl | ht | ⟨g₁, rfl, hs⟩
  · exact .of_eq rfl rfl
  · obtain ⟨-, rfl⟩ := track?_eq_some_iff.1 ht
    exact .of_eq rfl rfl
  · exact hs.remembers.trans (remembers_settle g₁)

/-! ### The phases -/

private theorem rank_settle (g : DrainGate) : g.phase.rank ≤ g.settle.phase.rank := by
  rw [settle_eq]
  change _ ≤ DrainPhase.rank (if g.ended = [] then g.phase else .stopped)
  split
  · exact Nat.le_refl _
  · exact g.phase.rank_le

theorem Moves.rank_le (h : g.Moves g') : g.phase.rank ≤ g'.phase.rank := by
  rcases h.stirs with rfl | ht | ⟨g₁, rfl, hs⟩
  · exact Nat.le_refl _
  · obtain ⟨-, rfl⟩ := track?_eq_some_iff.1 ht
    exact Nat.le_refl _
  · exact Nat.le_trans hs.rank (rank_settle g₁)

theorem phase_drain_ne_running (g : DrainGate) (limit : Option Duration) :
    (g.drain limit).phase ≠ .running := by
  refine DrainPhase.ne_running_iff.2 (Nat.lt_of_lt_of_le ?_ (rank_settle _))
  change 0 < DrainPhase.rank (if g.phase = .running then .draining else g.phase)
  split
  · exact Nat.one_pos
  · next hclosed => exact DrainPhase.ne_running_iff.1 hclosed

/-- A closed gate stays closed, and its count does not rise. -/
theorem Moves.closed (h : g.Moves g') (hc : g.phase ≠ .running) :
    g'.phase ≠ .running ∧ g'.inFlight ≤ g.inFlight := by
  have hrank := h.rank_le
  rw [DrainPhase.ne_running_iff] at hc ⊢
  refine ⟨Nat.lt_of_lt_of_le hc hrank, ?_⟩
  rcases h.stirs with rfl | ht | ⟨g₁, rfl, hs⟩
  · exact Nat.le_refl _
  · exact absurd (track?_eq_some_iff.1 ht).1 (DrainPhase.ne_running_iff.2 hc)
  · rw [inFlight_settle]
    exact hs.inFlight

/-! ### What drains end with -/

/-- The results of the drains that end in between are right for the count, and stop the gate. -/
structure Ends (g g' : DrainGate) (rs : List (Nat × DrainResult)) : Prop where
  finished : g'.finished.toList = g.finished.toList ++ rs
  fits : ∀ p ∈ rs, p.2.Fits g'.inFlight
  stopped : rs ≠ [] → g'.phase = .stopped

theorem ends_settle (g : DrainGate) : g.Ends g.settle g.ended where
  finished := by
    rw [settle_eq]
    exact Array.toList_append
  fits := by
    intro p hp
    obtain ⟨d, -, -, hr⟩ := mem_ended.1 hp
    rw [inFlight_settle]
    exact fits_outcome hr
  stopped := by
    intro hne
    rw [settle_eq]
    exact if_neg hne

theorem ends_of_finished (h : g'.finished = g.finished) : g.Ends g' [] :=
  ⟨by rw [h, List.append_nil], by simp, by simp⟩

theorem Moves.exists_ends (h : g.Moves g') : ∃ rs, g.Ends g' rs := by
  rcases h.stirs with rfl | ht | ⟨g₁, rfl, hs⟩
  · exact ⟨[], ends_of_finished rfl⟩
  · obtain ⟨-, rfl⟩ := track?_eq_some_iff.1 ht
    exact ⟨[], ends_of_finished rfl⟩
  · have hends := ends_settle g₁
    exact ⟨g₁.ended, hs.finished ▸ hends.finished, hends.fits, hends.stopped⟩

end DrainGate

end TieredAdmission
