import TieredAdmission.Proofs.Admission.Concurrency

/-!
# Work conservation and turns

The loop that dispatches queued requests stops only when nothing can be dispatched: the level is
used up, or every tier with queued requests holds all its fixed slots. Each submission and each end
of a call leaves the controller in such a state, and a newcomer is considered in such a state. So it
never overtakes a request that waits for the same slots, and once it is queued itself it waits for
a later submission or the end of a call.
-/

namespace TieredAdmission

/-- The operation neither brings a request nor ends a backend call. -/
def Operation.isCalm : Operation → Bool
  | .submit _ _ | .endCall _ _ _ => false
  | _ => true

namespace Controller

open Relation

variable {c c' c'' : Controller} {now : Instant} {config : AdmissionConfig} {n : Nat} {q : Request}

/-- No queued request can be dispatched at the instant. -/
def Idle (c : Controller) (now : Instant) : Prop :=
  c.scheduler.selectNext (c.budget now) now = none

/-- What an idle controller means for each kind of scheduler. -/
structure Saturated (config : AdmissionConfig) (c : Controller) (now : Instant) : Prop where
  idle : c.Idle now
  shared : config.scheduler.kind = .workConserving →
    c.scheduler.queued.total = 0 ∨ (c.budget now).maxConcurrent ≤ c.scheduler.processing.total
  fixed : config.scheduler.kind = .fixedConcurrency →
    (c.budget now).maxConcurrent ≤ c.scheduler.processing.total ∨
    ∀ t, 0 < c.scheduler.queued.get t →
      c.scheduler.processing.get t = max (config.scheduler.fixedLimits.get t) 1

theorem available_eq_zero_iff :
    (c.budget now).available = 0 ↔ (c.budget now).maxConcurrent ≤ c.scheduler.processing.total :=
  Nat.sub_eq_zero_iff_le

theorem idle_iff (h : c.scheduler.WellFormed) :
    c.Idle now ↔ (c.budget now).maxConcurrent ≤ c.scheduler.processing.total ∨
      ∀ t, 0 < c.scheduler.queued.get t → ¬ c.scheduler.Grants t := by
  rw [Idle, h.selectNext_eq_none_iff, available_eq_zero_iff]

/-! ### Fixed slots -/

theorem Bounded.grants (h : c.Bounded config) (hk : config.scheduler.kind = .workConserving)
    (t : Tier) : c.scheduler.Grants t := by
  intro limits hl
  rw [h.limits, Scheduler.limits?_new, hk] at hl
  cases hl

private theorem Bounded.limits_eq (h : c.Bounded config)
    (hk : config.scheduler.kind = .fixedConcurrency) :
    c.scheduler.limits? = some (config.scheduler.fixedLimits.map fun _ n => max n 1) := by
  rw [h.limits, Scheduler.limits?_new, if_pos hk]

/-- A tier that is granted nothing holds all its slots. -/
theorem Bounded.processing_eq (h : c.Bounded config)
    (hk : config.scheduler.kind = .fixedConcurrency) {t : Tier} (ht : ¬ c.scheduler.Grants t) :
    c.scheduler.processing.get t = max (config.scheduler.fixedLimits.get t) 1 := by
  have hl := h.limits_eq hk
  have hle := h.tiers _ hl t
  simp only [Scheduler.Grants, hl, Option.some.injEq, forall_eq', PerTier.get_map] at ht hle
  omega

private theorem Bounded.saturated (h : c.Bounded config) (hwf : c.scheduler.WellFormed)
    (hidle : c.Idle now) : c.Saturated config now := by
  refine ⟨hidle, fun hk => ?_, fun hk => ?_⟩
  · rcases (idle_iff hwf).1 hidle with hfull | hnone
    · exact Or.inr hfull
    · refine Or.inl (Nat.eq_zero_of_not_pos fun hpos => ?_)
      obtain ⟨t, ht⟩ := PerTier.exists_pos_of_total_pos hpos
      exact hnone t ht (h.grants hk t)
  · exact ((idle_iff hwf).1 hidle).imp_right fun hnone t ht => h.processing_eq hk (hnone t ht)

/-! ### Work conservation -/

theorem SameWork.idle (h : c.SameWork c') (hidle : c.Idle now) : c'.Idle now := by
  rw [Idle, h.scheduler, h.budget]
  exact hidle

private theorem idle_receive (h : c.scheduler.WellFormed) (now : Instant) :
    (c.receive now).Idle now := by
  unfold receive
  dsimp only
  split
  · exact selectNext_pullReady (c := { c with statistics := c.statistics.recordSubmission }) h now
  · next hempty =>
    refine (idle_iff h).2 (Or.inr fun t ht => absurd ht ?_)
    have hle := PerTier.get_le_total c.scheduler.queued t
    change ¬ 0 < c.scheduler.queued.get t
    omega

theorem Decided.idle (h : Decided c n q now c') (hidle : c.Idle now) : c'.Idle now := by
  cases h with
  | rejected same _ _ => exact same.idle hidle
  | @immediate c₁ g s _ _ _ _ _ _ wellFormed _ _ =>
    exact selectNext_pullReady
      (c := (c₁.register n q .immediate s g).depart q ⟨q, .zero⟩ 0 now) wellFormed now
  | @queued c₁ g s _ _ _ _ wellFormed _ _ =>
    exact selectNext_pullReady (c := c₁.register n q .queued s g) wellFormed now

theorem Finished.idle {call : Call} {outcome : CallOutcome}
    (h : Finished c call outcome now c') : c'.Idle now := by
  cases h with
  | @intro c₁ m e s w _ _ _ wellFormed _ _ _ same _ =>
    have hwf : c₁.scheduler.WellFormed := same.scheduler ▸ wellFormed
    have hidle : Idle { c₁.pullReady now with telemetry := m } now := selectNext_pullReady hwf now
    simpa only [Idle, budget, scheduler_deliver, estimator_deliver] using hidle

/-- Every submission, whatever becomes of it, and every end of a backend call leaves no slot idle
that a queued request could take: nothing is selected at that instant any more. -/
theorem work_is_conserved (config : AdmissionConfig) (ops : List Operation) :
    let c := (new config).after ops
    (∀ q now, (c.apply (.submit q now)).Saturated config now) ∧
    ∀ id outcome now, c.does (.endCall id outcome now) = true →
      (c.apply (.endCall id outcome now)).Saturated config now := by
  intro c
  have h : c.Tracked := tracked_after config ops
  have hsaturated (op : Operation) (now : Instant) (hidle : (c.apply op).Idle now) :
      (c.apply op).Saturated config now := by
    have hb := bounded_after config (ops ++ [op])
    rw [after_append] at hb
    exact Bounded.saturated hb (h.apply op).scheduler hidle
  refine ⟨fun q now => hsaturated _ _ ?_, fun id outcome now hdoes => hsaturated _ _ ?_⟩
  · exact (decided_submit (h.receive now).scheduler).idle (idle_receive h.scheduler now)
  · have ha := h.toConsistent.applied (.endCall id outcome now)
    generalize c.apply (.endCall id outcome now) = c' at ha
    cases ha with
    | ended _ finished => exact finished.idle
    | idle cannot =>
      rw [hdoes] at cannot
      cases cannot

/-! ### Dispatch before the newcomer -/

/-- The loop tells of the dispatch of every entry that it takes from the queue. -/
structure TellsOfTaken (c c' : Controller) : Prop where
  wellFormed : c'.scheduler.WellFormed
  told : ∃ es, c'.events.history.toList = c.events.history.toList ++ es ∧
    ∀ e ∈ c.scheduler.roster.queuedEntries, e ∈ c'.scheduler.roster.queuedEntries ∨
      ∃ ms, .dispatched e.id e.tier ms ∈ es

private theorem tellsOfTaken_pullKeeps (c : Controller) (now : Instant) :
    PullKeeps now (TellsOfTaken c) where
  wellFormed := fun _ h => h.wellFormed
  quiet := by
    intro c' c'' hs he h
    refine ⟨hs.scheduler ▸ h.wellFormed, ?_⟩
    rw [hs.scheduler, he]
    exact h.told
  launch := by
    intro c' next d s h hn hs
    obtain ⟨es, hes, htold⟩ := h.told
    obtain ⟨-, -, e, hf, hq, rfl⟩ := h.wellFormed.selectNext_some hn
    obtain ⟨e', hf', -, -, hwf, hr, -⟩ := h.wellFormed.start_ok hs
    obtain rfl : e = e' := Option.some.inj (hf.symm.trans hf')
    refine ⟨hwf, es ++ [.dispatched e.id e.tier d.waited.millisWord], ?_, fun f hf'' => ?_⟩
    · change (c'.events.history.push _).toList = _
      rw [Array.toList_push, hes, List.append_assoc]
      rfl
    · change f ∈ s.roster.queuedEntries ∨ _
      rw [hr, h.wellFormed.roster.queuedEntries_started hf]
      rcases htold f hf'' with hqueued | ⟨ms, hms⟩
      · by_cases hid : f.id = e.id
        · -- The started entry is the only one with its identifier.
          have hfound := h.wellFormed.roster.find?_id (Roster.mem_queuedEntries.1 hqueued).1
          rw [hid] at hfound
          obtain rfl : e = f := Option.some.inj (hf.symm.trans hfound)
          exact Or.inr ⟨_, List.mem_append_right _ (List.mem_singleton_self _)⟩
        · exact Or.inl (List.mem_filter.2 ⟨hqueued, by simpa using hid⟩)
      · exact Or.inr ⟨ms, List.mem_append_left _ hms⟩

private theorem tellsOfTaken_receive (h : c.scheduler.WellFormed) (now : Instant) :
    c.TellsOfTaken (c.receive now) :=
  (tellsOfTaken_pullKeeps c now).receive ⟨h, [], by simp, fun _ he => Or.inl he⟩

/-! ### Turns -/

private theorem Judged.queued_eq_zero (h : Judged c n q now (some .immediate) c')
    (hwf : c.scheduler.WellFormed) (hidle : c.Idle now) : c.scheduler.queued.get q.tier = 0 := by
  cases h with
  | immediate _ _ _ _ room grants _ _ _ =>
    rcases (idle_iff hwf).1 hidle with hfull | hnone
    · rw [← available_eq_zero_iff] at hfull
      omega
    · exact Nat.eq_zero_of_not_pos fun hpos => hnone _ hpos grants

private theorem Judged.queued_total_eq_zero (h : Judged c n q now (some .immediate) c')
    (hwf : c.scheduler.WellFormed) (hidle : c.Idle now) (hg : ∀ t, c.scheduler.Grants t) :
    c.scheduler.queued.total = 0 := by
  cases h with
  | immediate _ _ _ _ room _ _ _ _ =>
    rcases (idle_iff hwf).1 hidle with hfull | hnone
    · rw [← available_eq_zero_iff] at hfull
      omega
    · refine Nat.eq_zero_of_not_pos fun hpos => ?_
      obtain ⟨t, ht⟩ := PerTier.exists_pos_of_total_pos hpos
      exact hnone t ht (hg t)

private theorem Judged.path_eq_queued_iff {path : DispatchPath}
    (h : Judged c n q now (some path) c') (hg : ∀ t, c.scheduler.Grants t) :
    path = .queued ↔ (c.budget now).maxConcurrent ≤ c.scheduler.processing.total := by
  rw [← available_eq_zero_iff]
  cases h with
  | immediate _ _ _ _ room _ _ _ _ => simp [Nat.ne_of_gt room]
  | queued _ _ _ _ full _ _ _ => simp [full.resolve_right fun hno => hno (hg q.tier)]

/-- The loop does nothing in an idle controller. -/
theorem sameWork_pullReady (h : c.Idle now) : c.SameWork (c.pullReady now) := by
  have hnone := (sameWork_refresh c now).idle h
  rw [Idle] at hnone
  refine SameWork.trans ?_ (sameWork_recordQueueDepths _)
  rw [pull_succ, hnone]
  exact sameWork_refresh c now

/-- What made it wait keeps it waiting for the rest of its submission. -/
theorem Judged.waits (h : Judged c n q now (some .queued) c') (hwf : c.scheduler.WellFormed)
    (hidle : c.Idle now) :
    ⟨q, now, c.scheduler.roster.nextSequence, .queued⟩ ∈ c'.scheduler.roster.queuedEntries := by
  cases h with
  | @queued c₁ g s asked _ _ _ full wellFormed roster limits =>
    have hprocessing : s.processing = c.scheduler.processing := by
      rw [Scheduler.processing, roster]
      rfl
    have hidle' : (c₁.register n q .queued s g).Idle now := by
      have hlevel : ((c₁.register n q .queued s g).budget now).maxConcurrent =
          (c.budget now).maxConcurrent := by
        rw [← asked.budget]
        rfl
      refine (idle_iff wellFormed).2 ?_
      change _ ≤ s.processing.total ∨ ∀ t, 0 < s.queued.get t → ¬ s.Grants t
      rw [hlevel, hprocessing]
      rcases (idle_iff hwf).1 hidle with hfull | hnone
      · exact Or.inl hfull
      · refine (full.imp available_eq_zero_iff.1 fun hno t ht => ?_)
        rw [Scheduler.Grants, limits, hprocessing]
        rw [Scheduler.queued, roster] at ht
        by_cases htier : t = q.tier
        · exact htier ▸ hno
        · refine hnone t ?_
          change 0 < (c.scheduler.roster.queued.increment q.tier).get t at ht
          rwa [PerTier.get_increment, if_neg htier] at ht
    rw [(sameWork_pullReady hidle').scheduler]
    change _ ∈ s.roster.queuedEntries
    rw [roster, Roster.queuedEntries_addQueued]
    exact List.mem_append_right _ (List.mem_singleton_self _)

/-! ### Waiting -/

theorem Silent.trans (h : c.Silent c') (h' : c'.Silent c'') : c.Silent c'' := by
  obtain ⟨es, hes, hdispatch⟩ := h
  obtain ⟨fs, hfs, hdispatch'⟩ := h'
  refine ⟨es ++ fs, by rw [hfs, hes, List.append_assoc], fun e he => ?_⟩
  exact (List.mem_append.1 he).elim (hdispatch e) (hdispatch' e)

/-- Only its own cancellation takes an entry from the queue in a calm operation. -/
theorem Applied.calm {op : Operation} (h : Applied c op c') (hop : op.isCalm = true) :
    c.Silent c' ∧ ∀ e ∈ c.scheduler.roster.queuedEntries, op ≠ .cancel e.id →
      e ∈ c'.scheduler.roster.queuedEntries := by
  cases h with
  | submitted _ | ended _ _ => cases hop
  | began begins =>
    obtain ⟨d, -, -, rfl⟩ := beginAt?_eq_some begins
    exact ⟨silent_of_events rfl, fun e he _ => he⟩
  | @withdrew id c' does withdrawn =>
    cases withdrawn with
    | @yes c₁ e s w found queued _ roster _ _ same told =>
      refine ⟨⟨[.cancelled id e.request.tier], ?_, by simp [AdmissionEvent.isDispatch]⟩,
        fun f hf hne => ?_⟩
      · rw [events_deliver]
        exact told
      · rw [scheduler_deliver, same.scheduler]
        change f ∈ s.roster.queuedEntries
        rw [roster, Roster.queuedEntries_withdrawn, Roster.find?_id found]
        exact List.mem_filter.2 ⟨hf, bne_iff_ne.2 fun hid => hne (by rw [hid])⟩
  | abandoned _ | drained | passed _ => exact ⟨silent_of_events rfl, fun e he _ => he⟩
  | idle _ => exact ⟨.refl c, fun e he _ => he⟩

theorem Tracked.calm_after (h : c.Tracked) {ops : List Operation}
    (hops : ∀ op ∈ ops, op.isCalm = true) :
    c.Silent (c.after ops) ∧ ∀ e ∈ c.scheduler.roster.queuedEntries, .cancel e.id ∉ ops →
      e ∈ (c.after ops).scheduler.roster.queuedEntries := by
  induction ops generalizing c with
  | nil => exact ⟨.refl c, fun e he _ => he⟩
  | cons op ops ih =>
    obtain ⟨hsilent, hkeeps⟩ := (h.toConsistent.applied op).calm (hops op List.mem_cons_self)
    obtain ⟨hsilent', hkeeps'⟩ := ih (h.apply op) fun o ho => hops o (List.mem_cons_of_mem _ ho)
    refine ⟨hsilent.trans hsilent', fun e he hcancel => ?_⟩
    rw [List.mem_cons, not_or] at hcancel
    exact hkeeps' e (hkeeps e he (Ne.symm hcancel.1)) hcancel.2

/-- A newcomer is considered at `r`, after the free slots went to queued requests. With shared slots
it goes to the backend at once only when nobody is queued, everyone queued before having been
dispatched first, and it is queued exactly when the level is used up; with fixed slots it goes at
once only when nobody of its tier is queued. One that is queued is still so when its submission is
over, and until it is cancelled it stays so, and nothing is dispatched, while nothing is submitted
and no call ends. -/
theorem newcomers_wait_their_turn (config : AdmissionConfig) (ops : List Operation) (q : Request)
    (now : Instant) :
    let c := (new config).after ops
    let r := c.receive now
    let c' := c.submit q now
    let admitted (path : DispatchPath) : Prop := .admitted q.id q.tier path ∈ c.news c'
    (config.scheduler.kind = .workConserving →
      (admitted .immediate → r.scheduler.queued.total = 0 ∧
        ∃ before after, c.news c' = before ++ .admitted q.id q.tier .immediate :: after ∧
          ∀ e ∈ c.scheduler.roster.queuedEntries, ∃ ms, .dispatched e.id e.tier ms ∈ before) ∧
      ((∃ path, admitted path) →
        (admitted .queued ↔ (r.budget now).maxConcurrent ≤ r.scheduler.processing.total))) ∧
    (config.scheduler.kind = .fixedConcurrency →
      admitted .immediate → r.scheduler.queued.get q.tier = 0) ∧
    (admitted .queued → ∃ e ∈ c'.scheduler.roster.queuedEntries, e.request = q ∧
      e.enqueuedAt = now ∧ ∀ more : List Operation, (∀ op ∈ more, op.isCalm = true) →
        c'.Silent (c'.after more) ∧
        (.cancel q.id ∉ more → e ∈ (c'.after more).scheduler.roster.queuedEntries)) := by
  intro c r c' admitted
  have h : c.Tracked := tracked_after config ops
  have hpaced : ReflTransGen (Paced (.submit q now)) c r := paced_receive h.scheduler rfl
  have hb : r.Bounded config := Bounded.of_paced hpaced (bounded_after config ops)
  have hwf : r.scheduler.WellFormed := (h.receive now).scheduler
  have hidle : r.Idle now := idle_receive h.scheduler now
  obtain ⟨path, hj⟩ := judged_submit (q := q) hwf
  have hpath (p : DispatchPath) : admitted p ↔ path = some p := hj.admitted_mem_news_iff p
  refine ⟨fun hk => ⟨fun hp => ?_, ?_⟩, fun _ hp => ?_, fun hp => ?_⟩
  · obtain rfl := (hpath _).1 hp
    have hzero := hj.queued_total_eq_zero hwf hidle (hb.grants hk)
    refine ⟨hzero, ?_⟩
    obtain ⟨ds, hds, htaken⟩ := (tellsOfTaken_receive h.scheduler now).told
    obtain ⟨es, hes, -⟩ := hj.told_some
    rw [hds, List.append_assoc, List.append_assoc, ← List.append_assoc ds] at hes
    refine ⟨_, es, news_eq hes, fun e he => ?_⟩
    rcases htaken e he with hqueued | ⟨ms, hms⟩
    · -- Nobody is queued any more.
      have hlen := hwf.roster.total_queued
      change r.scheduler.queued.total = _ at hlen
      rw [hzero, eq_comm, List.length_eq_zero_iff] at hlen
      rw [hlen] at hqueued
      cases hqueued
    · exact ⟨ms, List.mem_append_left _ hms⟩
  · rintro ⟨p, hp⟩
    obtain rfl := (hpath _).1 hp
    rw [hpath, Option.some.injEq]
    exact hj.path_eq_queued_iff (hb.grants hk)
  · obtain rfl := (hpath _).1 hp
    exact hj.queued_eq_zero hwf hidle
  · obtain rfl := (hpath _).1 hp
    refine ⟨_, hj.waits hwf hidle, rfl, rfl, fun more hmore => ?_⟩
    obtain ⟨hsilent, hkeeps⟩ := (h.apply (.submit q now)).calm_after hmore
    exact ⟨hsilent, hkeeps _ (hj.waits hwf hidle)⟩

end Controller

end TieredAdmission
