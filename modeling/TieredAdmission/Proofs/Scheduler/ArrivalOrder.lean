import TieredAdmission.Proofs.Scheduler.Rule
import TieredAdmission.Proofs.Scheduler.Scores

/-!
# Requests of a tier are served in the order of arrival

Within a tier the request that came first is selected. In a scheduler with fixed slots the queues
say so. In one that scores it holds because the earlier of two requests has aged at least as much,
and its lower number decides when the scores are equal. So the requests of a tier that are selected
and then started leave in the order in which they were queued, whatever is withdrawn, started by
name or done in between.
-/

namespace TieredAdmission

/-- The score of a tier's requests never falls as they age. -/
def TierPolicy.RisesWithAge (p : TierPolicy) (cap : Duration) : Prop :=
  ∀ (t : Tier) (a b : Duration), a ≤ b →
    Decimal.totalKey (priorityScore p t a cap) ≤ Decimal.totalKey (priorityScore p t b cap)

/-- Every policy is of this kind, under a cap that can be stored. -/
theorem TierPolicy.risesWithAge (p : TierPolicy) {cap : Duration} (h : cap.Fits) :
    p.RisesWithAge cap := fun t _ _ hab => totalKey_priorityScore_le p t h hab

/-! ### The first of a tier -/

/-- What is selected is the first queued request of its tier. -/
def Scheduler.SelectsFirst (s : Scheduler) (b : CapacityBudget) (now : Instant) : Prop :=
  ∀ q, s.selectNext b now = some q →
    ∃ e, (s.roster.queuedEntries.filter fun f => f.tier == q.tier).head? = some e ∧ e.request = q

theorem FixedSlots.WellFormed.selectsFirst {f : FixedSlots} (h : f.WellFormed) (b : CapacityBudget)
    (now : Instant) : (Scheduler.fixedSlots f).SelectsFirst b now := by
  intro q hq
  obtain ⟨-, e, he, rfl⟩ := h.selectNext_eq_some_iff.1 hq
  exact ⟨e, h.roster.head?_queuedEntries.2 ⟨he.queued, rfl, he.earliest⟩, rfl⟩

namespace WorkConserving

variable {w : WorkConserving} {slots : Nat} {now : Instant} {e f : Entry}

theorem IsNext.outranks (h : w.IsNext slots now e) (hf : f ∈ w.roster.queuedEntries)
    (ht : f.tier = e.tier) (hne : f ≠ e) : w.Outranks now e f := by
  rcases h with ⟨t, -, -, h⟩ | ⟨-, h⟩
  · exact h.outranks f hf (ht.trans h.property) hne
  · exact h.outranks f hf trivial hne

private theorem totalKey_score_le (now : Instant) (hrise : w.policy.RisesWithAge w.agingCap)
    (ht : f.tier = e.tier) (hle : f.enqueuedAt ≤ e.enqueuedAt) :
    Decimal.totalKey (w.score now e) ≤ Decimal.totalKey (w.score now f) := by
  rw [score, score, ht]
  refine hrise e.tier _ _ ?_
  change (now.nanoseconds - e.enqueuedAt.nanoseconds).toNat ≤
    (now.nanoseconds - f.enqueuedAt.nanoseconds).toNat
  rw [Instant.le_iff] at hle
  omega

theorem selectsFirst (h : w.roster.WellFormed) (hrise : w.policy.RisesWithAge w.agingCap)
    (hclock : (w.roster.entries.map Entry.enqueuedAt).Pairwise (· ≤ ·)) (b : CapacityBudget)
    (now : Instant) : (Scheduler.workConserving w).SelectsFirst b now := by
  intro q hq
  obtain ⟨-, e, he, rfl⟩ := (selectNext_eq_some_iff h).1 hq
  refine ⟨e, h.head?_queuedEntries.2 ⟨he.queued, rfl, fun f hf ht hne => ?_⟩, rfl⟩
  have hoe := (Roster.mem_queuedEntries.1 he.queued).1
  have hof := (Roster.mem_queuedEntries.1 hf).1
  have houtranks := he.outranks hf ht hne
  by_contra hlt
  -- An earlier entry has aged as much and has the lower number.
  have hearlier : f.enqueuedAt ≤ e.enqueuedAt := by
    by_contra hnot
    exact hlt (h.sequence_lt hclock hof hoe (Int.not_le.1 hnot))
  have hscore := totalKey_score_le now hrise ht hearlier
  rw [Outranks] at houtranks
  omega

end WorkConserving

/-! ### Rounds -/

/-- A part of a run: a turn, or a selection and the start of what it selected, each with its own
reading of the clock. -/
inductive Round where
  | turn (turn : Turn)
  | serve (budget : CapacityBudget) (now later : Instant)

def Round.readings : Round → List Instant
  | turn t => t.now?.toList
  | serve _ now later => [now, later]

namespace Scheduler

variable {s : Scheduler} {b : CapacityBudget} {now later : Instant} {e : Entry} {q : Request}
  {round : Round} {rounds : List Round} {turn : Turn}

/-- The turns that a round comes to. -/
def turnsOf (s : Scheduler) : Round → List Turn
  | .turn turn => [turn]
  | .serve b now later => ((s.selectNext b now).map fun q => Turn.start q.id later).toList

def afterRound (s : Scheduler) (round : Round) : Scheduler := s.after (s.turnsOf round)

def afterRounds (s : Scheduler) (rounds : List Round) : Scheduler := rounds.foldl afterRound s

/-- The entry that a round adds to the queue. -/
def arrival? (s : Scheduler) : Round → Option Entry
  | .turn (.enqueue q now) =>
    match s.enqueue q now with
    | (.ok _, s') => s'.roster.find? q.id
    | (.error _, _) => none
  | _ => none

/-- The queued entry that a round selects and starts. -/
def departure? (s : Scheduler) : Round → Option Entry
  | .turn (.dispatch b now) | .serve b now _ =>
    (s.selectNext b now).bind fun q => s.roster.find? q.id
  | _ => none

/-- The entries that a run adds to the queue, in that order. -/
def arrivals : Scheduler → List Round → List Entry
  | _, [] => []
  | s, round :: rounds => (s.arrival? round).toList ++ (s.afterRound round).arrivals rounds

/-- The entries that a run selects and starts, in that order. -/
def departures : Scheduler → List Round → List Entry
  | _, [] => []
  | s, round :: rounds => (s.departure? round).toList ++ (s.afterRound round).departures rounds

/-- The requests of each tier are served in the order in which they were queued. -/
structure FirstInFirstOut (s : Scheduler) (rounds : List Round) : Prop where
  /-- The entries that were queued are numbered in that order. -/
  numbered : (s.arrivals rounds).Pairwise fun e f => e.sequence < f.sequence
  /-- Those that are still queued stand in that order. -/
  queued : (s.afterRounds rounds).roster.queuedEntries.Sublist (s.arrivals rounds)
  /-- Whatever is selected now is the first of them in its tier. -/
  selected : ∀ b now, (s.afterRounds rounds).SelectsFirst b now
  /-- Those that were selected and started left in that order. -/
  served : ∀ t, ((s.departures rounds).filter fun e => e.tier == t).Sublist
    ((s.arrivals rounds).filter fun e => e.tier == t)

theorem WellFormed.afterRound (h : s.WellFormed) (round : Round) :
    (s.afterRound round).WellFormed := h.after _

theorem kind_after (s : Scheduler) (turns : List Turn) : (s.after turns).kind = s.kind := by
  induction turns generalizing s with
  | nil => rfl
  | cons turn turns ih => rw [after_cons, ih, kind_apply]

/-! ### The queue -/

private theorem WellFormed.arrival?_of_new (h : s.WellFormed) (now : Instant)
    (hn : s.contains q.id = false) :
    s.arrival? (.turn (.enqueue q now)) = some ⟨q, now, s.roster.nextSequence, .queued⟩ := by
  obtain ⟨s', hs, -, hr, -⟩ := h.enqueue now hn
  rw [arrival?, hs]
  dsimp only
  rw [hr, Roster.find?_addQueued hn, if_pos rfl]

private theorem WellFormed.arrival?_eq_some (h : s.WellFormed) (he : s.arrival? round = some e) :
    e.sequence = s.roster.nextSequence ∧
      (s.afterRound round).roster.nextSequence = s.roster.nextSequence + 1 := by
  unfold arrival? at he
  split at he
  · next q now =>
    cases hc : s.contains q.id with
    | true =>
      rw [enqueue_of_contains hc] at he
      cases he
    | false =>
      have hnew := h.arrival?_of_new now hc
      obtain ⟨s', hs, -, hr, -⟩ := h.enqueue now hc
      rw [arrival?, hs] at hnew
      rw [hs] at he
      obtain rfl := Option.some.inj (hnew.symm.trans he)
      refine ⟨rfl, ?_⟩
      change (s.enqueue q now).2.roster.nextSequence = _
      rw [hs, hr]
      rfl
  · cases he

theorem Applied.queuedEntries_sublist (h : s.WellFormed) {r : Roster} (ha : Applied s turn r) :
    r.queuedEntries.Sublist (s.roster.queuedEntries ++ (s.arrival? (.turn turn)).toList) := by
  have herase (id : RequestId) (es fs : List Entry) : (Roster.erase id es).Sublist (es ++ fs) :=
    List.filter_sublist.trans (List.sublist_append_left es fs)
  cases ha with
  | queued new =>
    rw [h.arrival?_of_new _ new, Roster.queuedEntries_addQueued]
    exact .refl _
  | began new =>
    rw [Roster.queuedEntries_addProcessing]
    exact List.sublist_append_left ..
  | started found queued =>
    rw [h.roster.queuedEntries_started found]
    exact herase ..
  | dispatched selected found queued =>
    rw [h.roster.queuedEntries_started found]
    exact herase ..
  | completed found processing =>
    rw [h.roster.queuedEntries_completed found processing]
    exact List.sublist_append_left ..
  | withdrawn found queued =>
    rw [Roster.queuedEntries_withdrawn]
    exact herase ..
  | refused same =>
    rw [Roster.queuedEntries, same.entries]
    exact List.sublist_append_left ..

/-- What is selected can be started, and then it is no longer queued. -/
theorem WellFormed.startOrStay_selected (h : s.WellFormed) (hq : s.selectNext b now = some q)
    (later : Instant) : ∃ e, s.roster.find? q.id = some e ∧ e.stage = .queued ∧ e.request = q ∧
      (s.startOrStay q.id later).roster = s.roster.started e later := by
  obtain ⟨e, s', hf, hqueued, hreq, hs, -, hr, -⟩ := h.start_selected hq later
  exact ⟨e, hf, hqueued, hreq, by rw [startOrStay, hs, hr]⟩

private theorem WellFormed.queuedEntries_afterRound (h : s.WellFormed) (round : Round) :
    (s.afterRound round).roster.queuedEntries.Sublist
      (s.roster.queuedEntries ++ (s.arrival? round).toList) := by
  cases round with
  | turn turn => exact (h.applied turn).2.queuedEntries_sublist h
  | serve b now later =>
    rw [Scheduler.afterRound, turnsOf]
    cases hq : s.selectNext b now with
    | none => exact List.sublist_append_left ..
    | some q =>
      refine ((h.applied (.start q.id later)).2.queuedEntries_sublist h).trans ?_
      exact .refl _

/-- A round that serves an entry selects it and starts it. -/
theorem departure?_eq_some (he : s.departure? round = some e) :
    ∃ b now q later, s.selectNext b now = some q ∧ s.roster.find? q.id = some e ∧
      s.arrival? round = none ∧ s.afterRound round = s.startOrStay q.id later := by
  unfold departure? at he
  split at he
  · next b now =>
    obtain ⟨q, hq, hf⟩ := Option.bind_eq_some_iff.1 he
    refine ⟨b, now, q, now, hq, hf, rfl, ?_⟩
    change s.apply (.dispatch b now) = _
    rw [apply, hq]
  · next b now later =>
    obtain ⟨q, hq, hf⟩ := Option.bind_eq_some_iff.1 he
    refine ⟨b, now, q, later, hq, hf, rfl, ?_⟩
    rw [afterRound, turnsOf, hq]
    rfl
  · cases he

/-- Where a round serves the first entry of a tier, the others of the tier stay in line behind it,
and an entry that the round adds comes after them. -/
theorem WellFormed.departure_sublist (h : s.WellFormed)
    (hfirst : ∀ b now, s.SelectsFirst b now) (round : Round) (t : Tier) :
    (((s.departure? round).toList ++ (s.afterRound round).roster.queuedEntries).filter
      fun e => e.tier == t).Sublist
    ((s.roster.queuedEntries ++ (s.arrival? round).toList).filter fun e => e.tier == t) := by
  cases he : s.departure? round with
  | none => exact (h.queuedEntries_afterRound round).filter _
  | some e =>
    obtain ⟨b, now, q, later, hq, hf, hnone, hafter⟩ := departure?_eq_some he
    obtain ⟨e', hf', -, rfl, hr⟩ := h.startOrStay_selected hq later
    obtain rfl : e' = e := Option.some.inj (hf'.symm.trans hf)
    have hfront : ∃ es, (s.roster.queuedEntries.filter fun f => f.tier == e'.tier) = e' :: es := by
      obtain ⟨f, hhead, hreq⟩ := hfirst b now e'.request hq
      obtain ⟨es, hes⟩ := List.head?_eq_some_iff.1 hhead
      have hmem : f ∈ s.roster.queuedEntries :=
        List.mem_of_mem_filter (hes ▸ List.mem_cons_self)
      obtain rfl : f = e' := List.inj_on_of_nodup_map h.roster.nodup
        (Roster.mem_queuedEntries.1 hmem).1 (Roster.mem_of_find? hf) (congrArg Request.id hreq)
      exact ⟨es, hes⟩
    have hqueued : (s.afterRound round).roster.queuedEntries =
        Roster.erase e'.id s.roster.queuedEntries := by
      rw [hafter, hr, h.roster.queuedEntries_started hf]
    rw [hnone, hqueued, Option.toList_none, List.append_nil, Option.toList_some,
      List.singleton_append]
    by_cases ht : e'.tier = t
    · obtain ⟨es, hes⟩ := hfront
      rw [ht] at hes
      have hcomm : (Roster.erase e'.id s.roster.queuedEntries).filter (fun f => f.tier == t) =
          Roster.erase e'.id (s.roster.queuedEntries.filter fun f => f.tier == t) :=
        List.filter_comm ..
      rw [List.filter_cons_of_pos (by simp [ht]), hcomm, hes, Roster.erase,
        List.filter_cons_of_neg (by simp)]
      exact List.filter_sublist.cons_cons e'
    · rw [List.filter_cons_of_neg (by simp [ht])]
      exact List.filter_sublist.filter _

/-! ### Runs in which the first of a tier is selected -/

/-- At every point of the run the first of a tier is selected. -/
def Orderly : Scheduler → List Round → Prop
  | s, [] => ∀ b now, s.SelectsFirst b now
  | s, round :: rounds => (∀ b now, s.SelectsFirst b now) ∧ (s.afterRound round).Orderly rounds

theorem Orderly.last (h : s.Orderly rounds) (b : CapacityBudget) (now : Instant) :
    (s.afterRounds rounds).SelectsFirst b now := by
  induction rounds generalizing s with
  | nil => exact h b now
  | cons round rounds ih => exact ih h.2

private theorem Orderly.departures_sublist (h : s.Orderly rounds) (hwf : s.WellFormed) (t : Tier) :
    ((s.departures rounds).filter fun e => e.tier == t).Sublist
      ((s.roster.queuedEntries ++ s.arrivals rounds).filter fun e => e.tier == t) := by
  induction rounds generalizing s with
  | nil => exact List.nil_sublist _
  | cons round rounds ih =>
    have hrest := (ih h.2 (hwf.afterRound round)).append_left
      ((s.departure? round).toList.filter fun e => e.tier == t)
    have hround := (hwf.departure_sublist h.1 round t).append_right
      (((s.afterRound round).arrivals rounds).filter fun e => e.tier == t)
    simp only [departures, arrivals, List.filter_append, List.append_assoc] at hrest hround ⊢
    exact hrest.trans hround

theorem WellFormed.queuedEntries_afterRounds (h : s.WellFormed) (rounds : List Round) :
    (s.afterRounds rounds).roster.queuedEntries.Sublist
      (s.roster.queuedEntries ++ s.arrivals rounds) := by
  induction rounds generalizing s with
  | nil => exact List.sublist_append_left ..
  | cons round rounds ih =>
    have hround := (h.queuedEntries_afterRound round).append_right
      ((s.afterRound round).arrivals rounds)
    rw [List.append_assoc] at hround
    exact (ih (h.afterRound round)).trans hround

theorem Applied.nextSequence_le {r : Roster} (ha : Applied s turn r) :
    s.roster.nextSequence ≤ r.nextSequence := by
  cases ha with
  | queued _ | began _ => exact Nat.le_succ _
  | started _ _ | completed _ _ | withdrawn _ _ | dispatched _ _ _ => exact Nat.le_refl _
  | refused same => exact same.next

private theorem WellFormed.nextSequence_le_after (h : s.WellFormed) (turns : List Turn) :
    s.roster.nextSequence ≤ (s.after turns).roster.nextSequence := by
  induction turns generalizing s with
  | nil => exact Nat.le_refl _
  | cons turn turns ih =>
    obtain ⟨hwf, ha⟩ := h.applied turn
    exact Nat.le_trans ha.nextSequence_le (ih hwf)

theorem WellFormed.arrivals_numbered (h : s.WellFormed) (rounds : List Round) :
    (∀ e ∈ s.arrivals rounds, s.roster.nextSequence ≤ e.sequence) ∧
      (s.arrivals rounds).Pairwise fun e f => e.sequence < f.sequence := by
  induction rounds generalizing s with
  | nil => exact ⟨fun e he => absurd he List.not_mem_nil, .nil⟩
  | cons round rounds ih =>
    obtain ⟨hlow, hpairwise⟩ := ih (h.afterRound round)
    rw [arrivals]
    cases he : s.arrival? round with
    | none =>
      exact ⟨fun e hmem => Nat.le_trans (h.nextSequence_le_after _) (hlow e hmem), hpairwise⟩
    | some e =>
      obtain ⟨hnumber, hnext⟩ := h.arrival?_eq_some he
      have hlater : ∀ f ∈ (s.afterRound round).arrivals rounds, e.sequence < f.sequence :=
        fun f hf => by
          have := hlow f hf
          omega
      refine ⟨fun f hf => ?_, List.pairwise_cons.2 ⟨hlater, hpairwise⟩⟩
      rcases List.mem_cons.1 hf with rfl | hf
      · exact Nat.le_of_eq hnumber.symm
      · exact hnumber ▸ Nat.le_of_lt (hlater f hf)

theorem Orderly.firstInFirstOut (h : s.Orderly rounds) (hwf : s.WellFormed)
    (hempty : s.roster.queuedEntries = []) : s.FirstInFirstOut rounds where
  numbered := (hwf.arrivals_numbered rounds).2
  queued := by simpa only [hempty, List.nil_append] using hwf.queuedEntries_afterRounds rounds
  selected := h.last
  served := fun t => by
    simpa only [hempty, List.nil_append] using h.departures_sublist hwf t

theorem orderly_of_fixed (h : s.WellFormed) (hk : s.kind = .fixedConcurrency)
    (rounds : List Round) : s.Orderly rounds := by
  have hfirst {s : Scheduler} (h : s.WellFormed) (hk : s.kind = .fixedConcurrency) :
      ∀ b now, s.SelectsFirst b now := by
    cases s with
    | workConserving s => cases hk
    | fixedSlots s => exact FixedSlots.WellFormed.selectsFirst h
  induction rounds generalizing s with
  | nil => exact hfirst h hk
  | cons round rounds ih =>
    exact ⟨hfirst h hk, ih (h.afterRound round) ((kind_after s _).trans hk)⟩

private theorem turnsOf_readings (s : Scheduler) (round : Round) :
    ((s.turnsOf round).filterMap Turn.now?).Sublist round.readings := by
  cases round with
  | turn t =>
    rw [turnsOf, Round.readings]
    cases ht : t.now? <;> simp [ht]
  | serve b now later =>
    rw [turnsOf, Round.readings]
    cases s.selectNext b now <;> simp [Turn.now?]

/-- Where scores rise with age and the clock does not go back. -/
theorem orderly_of_clock {w : WorkConserving} (h : w.roster.WellFormed)
    (hrise : w.policy.RisesWithAge w.agingCap) {rounds : List Round}
    (hclock : (w.roster.entries.map Entry.enqueuedAt ++ rounds.flatMap Round.readings).Pairwise
      (· ≤ ·)) : (workConserving w).Orderly rounds := by
  induction rounds generalizing w with
  | nil =>
    rw [List.flatMap_nil, List.append_nil] at hclock
    exact WorkConserving.selectsFirst h hrise hclock
  | cons round rounds ih =>
    refine ⟨WorkConserving.selectsFirst h hrise (List.pairwise_append.1 hclock).1, ?_⟩
    have hwf : (workConserving w).WellFormed := h
    have hsub := (hwf.enqueuedAt_after ((workConserving w).turnsOf round)).trans
      ((turnsOf_readings _ round).append_left _)
    have hnext := hwf.afterRound round
    obtain ⟨r, hr⟩ := after_workConserving w ((workConserving w).turnsOf round)
    rw [Scheduler.afterRound, hr] at hnext
    rw [hr] at hsub
    rw [Scheduler.afterRound, hr]
    refine ih (w := { w with roster := r }) hnext hrise (hclock.sublist ?_)
    rw [List.flatMap_cons, ← List.append_assoc]
    exact hsub.append_right _

/-- In a run of a work-conserving scheduler whose scores rise with age, on a clock that does not go
back, and in every run of a scheduler with fixed slots, the requests of each tier are served first
in, first out. -/
theorem tiers_are_first_in_first_out (rounds : List Round) :
    (∀ (policy : TierPolicy) (agingCap : Duration), policy.RisesWithAge agingCap →
      (rounds.flatMap Round.readings).Pairwise (· ≤ ·) →
      (workConserving { policy, agingCap }).FirstInFirstOut rounds) ∧
    ∀ limits : PerTier Nat, (fixedSlots (.new limits)).FirstInFirstOut rounds := by
  refine ⟨fun policy agingCap hrise hclock => ?_, fun limits => ?_⟩
  · have h : ({ policy, agingCap } : WorkConserving).roster.WellFormed := Roster.wellFormed_empty
    exact (orderly_of_clock h hrise hclock).firstInFirstOut h rfl
  · have h : (fixedSlots (.new limits)).WellFormed := FixedSlots.wellFormed_new limits
    exact (orderly_of_fixed h rfl rounds).firstInFirstOut h rfl

/-- Under the default policy and its cap of twenty seconds: two free requests whose scores are
equal, as both have aged past the cap, and a premium one. -/
theorem tiers_are_first_in_first_out_past_the_cap :
    let s : Scheduler := .workConserving { policy := {}, agingCap := .ofSeconds 20 }
    let at_ (seconds : Nat) : Instant := Instant.origin.after (.ofSeconds seconds)
    let rounds : List Round :=
      [.turn (.enqueue ⟨"a", .free, .null, {}⟩ (at_ 0)),
        .turn (.enqueue ⟨"b", .free, .null, {}⟩ (at_ 0)),
        .turn (.enqueue ⟨"c", .free, .null, {}⟩ (at_ 1)),
        .turn (.enqueue ⟨"p", .premium, .null, {}⟩ (at_ 2)),
        .turn (.withdraw "a"), .serve (.ofCounts 10 0) (at_ 30) (at_ 31),
        .serve (.ofCounts 10 1) (at_ 32) (at_ 33), .turn (.complete "p"),
        .turn (.dispatch (.ofCounts 1 0) (at_ 34))]
    ({} : TierPolicy).RisesWithAge (.ofSeconds 20) ∧
      (rounds.flatMap Round.readings).Pairwise (· ≤ ·) ∧
      (s.departures rounds).map Entry.id = ["p", "b", "c"] ∧ s.FirstInFirstOut rounds := by
  intro s at_ rounds
  have rise : ({} : TierPolicy).RisesWithAge (.ofSeconds 20) :=
    TierPolicy.risesWithAge {} (by decide)
  have clock : (rounds.flatMap Round.readings).Pairwise (· ≤ ·) := by decide
  exact ⟨rise, clock, by decide +kernel,
    (tiers_are_first_in_first_out rounds).1 {} (.ofSeconds 20) rise clock⟩

end Scheduler

end TieredAdmission
