import TieredAdmission.Proofs.Scheduler.Run

/-!
# Aging against newcomers

Aging lifts a free request to the score of an enterprise request that has not waited at all, and no
higher. So on a single slot, of which no tier has a share, a request that has aged fully goes before
the requests that arrive at the instant of the selection. It need not go before those that arrived a
moment earlier: they have aged for that moment, and a stream of enterprise requests can hold a free
one back for ever.
-/

namespace TieredAdmission

private theorem Entry.enqueuedAt_lt_of_age {e : Entry} {now : Instant}
    (h : 0 < (e.age now).nanoseconds) : e.enqueuedAt < now := by
  change 0 < (now.nanoseconds - e.enqueuedAt.nanoseconds).toNat at h
  rw [Instant.lt_iff]
  omega

namespace WorkConserving

variable {s : WorkConserving} {b : CapacityBudget} {now : Instant} {e f : Entry}

/-- Where no tier has a share, the best request of all is selected. -/
theorem selectNext_eq_best? (h : ∀ t, s.policy.targetShare t b.maxConcurrent = 0)
    (hb : 0 < b.available) : s.selectNext b now = (s.best? now).map (·.request) := by
  have hnone : ∀ t, s.isUnderServed b.maxConcurrent t = false := fun t =>
    decide_eq_false (by rw [h]; exact Nat.not_lt_zero _)
  have hshares : (Tier.all.findSome? fun t =>
      if s.isUnderServed b.maxConcurrent t then s.bestOf? now t else none) = none :=
    List.findSome?_eq_none_iff.2 fun t _ => by simp [hnone t]
  rw [selectNext, if_neg (Nat.ne_of_gt hb)]
  dsimp only
  rw [hshares, Option.none_or]

private theorem score_of_fresh (h : now ≤ e.enqueuedAt) :
    s.score now e = priorityScore s.policy e.tier .zero s.agingCap := by
  have hage : e.age now = .zero := by
    rw [Instant.le_iff] at h
    rw [Entry.age, Instant.since, Int.toNat_of_nonpos (by omega)]
    rfl
  rw [score, hage]

private theorem score_of_aged (h : s.agingCap ≤ e.age now) :
    s.score now e = priorityScore s.policy e.tier s.agingCap s.agingCap := by
  have hmin : (e.age now).min s.agingCap = s.agingCap.min s.agingCap :=
    congrArg Duration.mk ((Nat.min_eq_right h).trans (Nat.min_self _).symm)
  rw [score, priorityScore, hmin]
  rfl

/-- Where no tier has a share and a fresh request never scores more than a fully aged one, what is
selected while a fully aged request is queued came before it, or is it, or has waited. -/
theorem exists_selected (hshares : ∀ t, s.policy.targetShare t b.maxConcurrent = 0)
    (hscores : ∀ t u, Decimal.totalKey (priorityScore s.policy t .zero s.agingCap) ≤
      Decimal.totalKey (priorityScore s.policy u s.agingCap s.agingCap))
    (hb : 0 < b.available) (hf : f ∈ s.roster.queuedEntries) (aged : s.agingCap ≤ f.age now) :
    ∃ e ∈ s.roster.queuedEntries, s.selectNext b now = some e.request ∧
      (e.sequence ≤ f.sequence ∨ e.enqueuedAt < now) := by
  have hselect : s.selectNext b now = (s.best? now).map (·.request) :=
    selectNext_eq_best? hshares hb
  cases hbest : s.best? now with
  | none =>
    have hnil := Candidate.best?_eq_none_iff.1 (Option.map_eq_none_iff.1 hbest)
    rw [List.map_eq_nil_iff.1 hnil] at hf
    cases hf
  | some e =>
    refine ⟨e, mem_of_best?_map hbest, by rw [hselect, hbest, Option.map_some], ?_⟩
    by_contra hnot
    rw [not_or, Nat.not_le, Instant.lt_iff, Int.not_lt] at hnot
    -- A newcomer scores no more than the aged request, which would win the tie.
    have hscore := hscores e.tier f.tier
    rw [← score_of_fresh hnot.2, ← score_of_aged aged] at hscore
    have hno := not_beats_of_best? hbest hf
    rw [← Bool.not_eq_true, Candidate.beats_iff] at hno
    simp only [candidate] at hno
    omega

end WorkConserving

namespace TierPolicy

private theorem targetShare_one (t : Tier) : ({} : TierPolicy).targetShare t 1 = 0 := by
  cases t <;> decide +kernel

private theorem fresh_le_aged (t u : Tier) :
    let cap : Duration := .ofSeconds 20
    Decimal.totalKey (priorityScore {} t .zero cap) ≤
      Decimal.totalKey (priorityScore {} u cap cap) := by
  cases t <;> cases u <;> decide +kernel

private theorem aged_free_lt_half_second :
    Decimal.totalKey (priorityScore {} .free (.ofSeconds 20) (.ofSeconds 20)) <
      Decimal.totalKey (priorityScore {} .enterprise ⟨500000000⟩ (.ofSeconds 20)) := by
  decide +kernel

end TierPolicy

namespace Scheduler

/-- With the default settings, a single slot and a clock that does not go back, nothing that arrived
after a request that has aged fully is selected before it at the instant of its arrival, and the
aged request is selected when all others arrive at that instant. -/
theorem aged_request_precedes_arrivals (turns : List Turn) (b : CapacityBudget) (now : Instant)
    (f : Entry) (clock : (turns.filterMap Turn.now? ++ [now]).Pairwise (· ≤ ·))
    (slots : b.maxConcurrent = 1)
    (queued : f ∈ ((new {}).after turns).roster.queuedEntries)
    (aged : .ofSeconds 20 ≤ f.age now) :
    let s := (new {}).after turns
    (∀ e ∈ s.roster.queuedEntries, s.selectNext b now = some e.request →
      f.enqueuedAt < e.enqueuedAt → e.enqueuedAt < now) ∧
    (0 < b.available → (∀ e ∈ s.roster.queuedEntries, e ≠ f → now ≤ e.enqueuedAt) →
      s.selectNext b now = some f.request) := by
  intro s
  have hwf : s.WellFormed := (wellFormed_new {}).after turns
  have hclock : (s.roster.entries.map Entry.enqueuedAt).Pairwise (· ≤ ·) := by
    have hsub := (wellFormed_new {}).enqueuedAt_after turns
    exact (List.pairwise_append.1 clock).1.sublist hsub
  have hsequence {e : Entry} (he : e ∈ s.roster.queuedEntries)
      (hlt : f.enqueuedAt < e.enqueuedAt) : f.sequence < e.sequence :=
    hwf.roster.sequence_lt hclock (Roster.mem_queuedEntries.1 he).1
      (Roster.mem_queuedEntries.1 queued).1 hlt
  have hselected (hb : 0 < b.available) : ∃ e ∈ s.roster.queuedEntries,
      s.selectNext b now = some e.request ∧ (e.sequence ≤ f.sequence ∨ e.enqueuedAt < now) := by
    obtain ⟨r, hr⟩ : ∃ r, s = workConserving
        { policy := {}, agingCap := .ofSeconds 20, roster := r } := after_workConserving _ turns
    change f ∈ s.roster.queuedEntries at queued
    rw [hr] at queued ⊢
    refine WorkConserving.exists_selected (fun t => ?_) TierPolicy.fresh_le_aged hb queued aged
    rw [slots]
    exact TierPolicy.targetShare_one t
  have hbefore : f.enqueuedAt < now :=
    Entry.enqueuedAt_lt_of_age (Nat.lt_of_lt_of_le (by decide) aged)
  refine ⟨fun e he hsel hlt => ?_, fun hb hothers => ?_⟩
  · have hb : 0 < b.available := (hwf.selectNext_some hsel).1
    obtain ⟨e', he', hsel', hwaited⟩ := hselected hb
    have hrequest : e'.request = e.request := Option.some.inj (hsel'.symm.trans hsel)
    obtain rfl : e' = e := List.inj_on_of_nodup_map hwf.roster.nodup
      (Roster.mem_queuedEntries.1 he').1 (Roster.mem_queuedEntries.1 he).1
      (congrArg Request.id hrequest)
    exact hwaited.resolve_left (Nat.not_le.2 (hsequence he hlt))
  · obtain ⟨e, he, hsel, hwaited⟩ := hselected hb
    by_cases hef : e = f
    · rw [hsel, hef]
    · have hnow := hothers e he hef
      have hafter := hsequence he (Int.lt_of_lt_of_le hbefore hnow)
      exact absurd hnow (Int.not_le.2 (hwaited.resolve_left (Nat.not_le.2 hafter)))

/-- A free request that has waited for twenty seconds and an enterprise request that arrives now. -/
theorem aged_request_precedes_an_arrival :
    let turns : List Turn :=
      [.enqueue ⟨"f", .free, .null, {}⟩ ⟨0⟩, .enqueue ⟨"e", .enterprise, .null, {}⟩ ⟨20000000000⟩]
    ((new {}).after turns).selectNext (.ofCounts 1 0) ⟨20000000000⟩ =
      some ⟨"f", .free, .null, {}⟩ := by
  intro turns
  have both : ((new {}).after turns).roster.queuedEntries =
      [⟨⟨"f", .free, .null, {}⟩, ⟨0⟩, 0, .queued⟩,
        ⟨⟨"e", .enterprise, .null, {}⟩, ⟨20000000000⟩, 1, .queued⟩] := rfl
  have precedes := aged_request_precedes_arrivals turns (.ofCounts 1 0) ⟨20000000000⟩
    ⟨⟨"f", .free, .null, {}⟩, ⟨0⟩, 0, .queued⟩ (by decide) rfl
    (both ▸ List.mem_cons_self) (by decide)
  refine precedes.2 (by decide) fun e he hne => ?_
  rw [both] at he
  simp only [List.mem_cons, List.not_mem_nil, or_false] at he
  rcases he with rfl | rfl
  · exact absurd rfl hne
  · decide

/-- Half a second after its arrival the enterprise request has half a point more than the free one,
which has aged fully before it came, and goes first. -/
theorem waiting_newcomer_overtakes_aged_request :
    let f : Entry := ⟨⟨"f", .free, .null, {}⟩, ⟨0⟩, 0, .queued⟩
    let e : Entry := ⟨⟨"e", .enterprise, .null, {}⟩, ⟨20000000000⟩, 1, .queued⟩
    let turns : List Turn := [.enqueue f.request f.enqueuedAt, .enqueue e.request e.enqueuedAt]
    let now : Instant := ⟨20500000000⟩
    let s := (new {}).after turns
    (turns.filterMap Turn.now? ++ [now]).Pairwise (· ≤ ·) ∧ s.roster.queuedEntries = [f, e] ∧
      .ofSeconds 20 ≤ f.age e.enqueuedAt ∧
      (s.selectNext (.ofCounts 1 0) now).map Request.id = some e.id := by
  intro f e turns now s
  exact ⟨by decide, rfl, by decide, by decide +kernel⟩

/-! ### A stream of enterprise requests -/

def waitingFree : Entry := ⟨⟨"f", .free, .null, {}⟩, ⟨0⟩, 0, .queued⟩

/-- So many seconds after the free request has aged fully. -/
def arrival (k : Nat) : Instant := ⟨(20 + k) * 1000000000⟩

def halfSecondLater (k : Nat) : Instant := ⟨(20 + k) * 1000000000 + 500000000⟩

def newcomer : Request := ⟨"e", .enterprise, .null, {}⟩

/-- An enterprise request arrives, gets the slot half a second later and is done. -/
def enterpriseRound (k : Nat) : List Turn :=
  [.enqueue newcomer (arrival k), .dispatch (.ofCounts 1 0) (halfSecondLater k),
    .complete newcomer.id]

/-- The default scheduler with the free request queued and `n` others come and gone. -/
def onlyFree (n : Nat) : WorkConserving where
  policy := {}
  agingCap := .ofSeconds 20
  roster := ⟨[waitingFree], ⟨0, 0, 1⟩, .const 0, n + 1⟩

def newcomerEntry (n k : Nat) : Entry := ⟨newcomer, arrival k, n + 1, .queued⟩

/-- The same with the next enterprise request queued. -/
def contested (n k : Nat) : WorkConserving where
  policy := {}
  agingCap := .ofSeconds 20
  roster := ⟨[waitingFree, newcomerEntry n k], ⟨1, 0, 1⟩, .const 0, n + 2⟩

private theorem best?_contested (n k : Nat) :
    (contested n k).best? (halfSecondLater k) = some (newcomerEntry n k) := by
  have hfree : (contested n k).score (halfSecondLater k) waitingFree =
      priorityScore {} .free (.ofSeconds 20) (.ofSeconds 20) :=
    WorkConserving.score_of_aged (by
      change 20000000000 ≤ ((20 + (k : Int)) * 1000000000 + 500000000 - 0).toNat
      omega)
  have hage : (newcomerEntry n k).age (halfSecondLater k) = ⟨500000000⟩ :=
    congrArg Duration.mk (by
      change ((20 + (k : Int)) * 1000000000 + 500000000 - (20 + k) * 1000000000).toNat = _
      omega)
  have hwaited : (contested n k).score (halfSecondLater k) (newcomerEntry n k) =
      priorityScore {} .enterprise ⟨500000000⟩ (.ofSeconds 20) := by
    rw [WorkConserving.score, hage]
    rfl
  have hbeats : ((contested n k).candidate (halfSecondLater k) waitingFree).beats
      ((contested n k).candidate (halfSecondLater k) (newcomerEntry n k)) = false := by
    have hless := TierPolicy.aged_free_lt_half_second
    rw [← hfree, ← hwaited] at hless
    rw [← Bool.not_eq_true, Candidate.beats_iff]
    simp only [WorkConserving.candidate]
    omega
  change Option.map _ (if Candidate.beats _ _ then _ else _) = _
  rw [hbeats]
  rfl

private theorem after_enterpriseRound (n k : Nat) :
    (workConserving (onlyFree n)).after (enterpriseRound k) =
      workConserving (onlyFree (n + 1)) := by
  have harrive : (workConserving (onlyFree n)).apply (.enqueue newcomer (arrival k)) =
      workConserving (contested n k) := rfl
  have hselect : (workConserving (contested n k)).selectNext (.ofCounts 1 0) (halfSecondLater k) =
      some newcomer := by
    have hshares : ∀ t, (contested n k).policy.targetShare t
        (CapacityBudget.ofCounts 1 0).maxConcurrent = 0 := TierPolicy.targetShare_one
    rw [selectNext, WorkConserving.selectNext_eq_best? hshares Nat.one_pos, best?_contested]
    rfl
  have hserve : (workConserving (contested n k)).apply
      (.dispatch (.ofCounts 1 0) (halfSecondLater k)) =
        (workConserving (contested n k)).startOrStay newcomer.id (halfSecondLater k) := by
    rw [apply, hselect]
  rw [enterpriseRound, after_cons, harrive, after_cons, hserve, after_cons, after_nil]
  rfl

/-- However many enterprise requests come, one a second, each of them is served before the free
request, which has aged fully before the first one. -/
theorem enterprise_stream_starves_free (n : Nat) :
    let turns := .enqueue waitingFree.request ⟨0⟩ :: (List.range n).flatMap enterpriseRound
    (turns.filterMap Turn.now?).Pairwise (· ≤ ·) ∧
      (new {}).after turns = workConserving (onlyFree n) := by
  intro turns
  refine ⟨?_, ?_⟩
  · have hnow (k : Nat) : (enterpriseRound k).filterMap Turn.now? =
        [⟨(20 + k) * 1000000000⟩, ⟨(20 + k) * 1000000000 + 500000000⟩] := rfl
    simp only [turns, List.filterMap_cons, Turn.now?, List.filterMap_flatMap, hnow]
    refine List.pairwise_cons.2 ⟨?_, List.pairwise_flatMap.2 ⟨?_, ?_⟩⟩
    · simp only [List.mem_flatMap, List.mem_cons, List.not_mem_nil, or_false, Instant.le_iff]
      rintro t ⟨k, -, rfl | rfl⟩ <;> dsimp only <;> omega
    · simp only [List.pairwise_cons, List.mem_cons, List.not_mem_nil, or_false, forall_eq,
        Instant.le_iff]
      intro k _
      exact ⟨by omega, by simp⟩
    · refine List.pairwise_lt_range.imp fun {j k} hjk => ?_
      simp only [List.mem_cons, List.not_mem_nil, or_false, forall_eq_or_imp, forall_eq,
        Instant.le_iff]
      omega
  · change (workConserving (onlyFree 0)).after _ = _
    clear turns
    induction n with
    | zero => rfl
    | succ n ih =>
      rw [List.range_succ, List.flatMap_append, after_append, ih, List.flatMap_singleton,
        after_enterpriseRound]

end Scheduler

end TieredAdmission
