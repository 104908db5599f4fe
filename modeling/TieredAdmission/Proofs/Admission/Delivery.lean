import TieredAdmission.Proofs.Admission.Linkage
import TieredAdmission.Proofs.Admission.Progress

/-!
# Every outcome reaches its caller

A submission resolves at most once, and with its own outcome: a rejection, its cancellation, or the
result of the one backend call that was made for it. A submission that has ended has been resolved,
unless its caller had stopped waiting before. The proof follows the ledger through every operation:
the open submissions are linked to the controller's state, and those that ended to the outcomes
handed out.
-/

namespace TieredAdmission

/-- The outcome that is right for a submission that ended. -/
inductive Submission.Delivered (s : Submission) : Except AdmissionError Completion → Prop where
  | rejected {error : AdmissionError} (ending : s.ending = some .rejected) (path : s.path = none)
      (calls : s.calls = []) (rejection : error.isRejection = true) : Delivered s (.error error)
  | cancelled (ending : s.ending = some .cancelled) (path : s.path = some .queued)
      (undispatched : s.dispatchedAt = none) (calls : s.calls = []) :
      Delivered s (.error (.cancelled s.request.id))
  | answered {call : Call} {output : ExecutionOutput} {now : Instant} {path : DispatchPath}
      {waited : Duration} (ending : s.ending = some (.returned (.answered (.ok output)) now))
      (path_eq : s.path = some path) (waited_eq : s.waited? = some waited)
      (calls : s.calls = [call]) :
      Delivered s (.ok
        { id := s.request.id
          tier := s.request.tier
          path
          output
          waited
          processing := now.since call.startedAt })
  | failed {call : Call} {source : BackendError} {now : Instant}
      (ending : s.ending = some (.returned (.answered (.error source)) now))
      (calls : s.calls = [call]) :
      Delivered s (.error (.backend s.request.id s.request.tier source))
  | panicked {call : Call} {now : Instant} (ending : s.ending = some (.returned .panicked now))
      (calls : s.calls = [call]) :
      Delivered s
        (.error (.backend s.request.id s.request.tier (.failed "executor panicked")))

namespace Controller

/-- The outcomes handed out are those of the submissions that ended, except those whose callers
stopped waiting. -/
structure Settled (rs : List Resolution) (ls : Ledger) : Prop where
  nodup : (rs.map Resolution.submission).Nodup
  sound : ∀ r ∈ rs, ∃ s ∈ ls, s.isOpen = false ∧ s.number = r.submission ∧ s.request.id = r.id ∧
    s.abandoned = false ∧ s.Delivered r.result
  complete : ∀ s ∈ ls, s.isOpen = false → s.abandoned = false → ∃ r ∈ rs, r.submission = s.number

variable {c c' : Controller} {ls ls' : Ledger} {rs : List Resolution} {now : Instant}
  {s : Submission} {id : RequestId}

theorem Settled.congr (h : Settled rs ls)
    (he : ls'.filter (fun s => !s.isOpen) = ls.filter fun s => !s.isOpen) : Settled rs ls' := by
  have hmem (s : Submission) : s ∈ ls' ∧ s.isOpen = false ↔ s ∈ ls ∧ s.isOpen = false := by
    have := congrArg (s ∈ ·) he
    simpa [List.mem_filter] using this
  refine ⟨h.nodup, fun r hr => ?_, fun s hs ho => ?_⟩
  · obtain ⟨s, hs, ho, hrest⟩ := h.sound r hr
    obtain ⟨hs', ho'⟩ := (hmem s).2 ⟨hs, ho⟩
    exact ⟨s, hs', ho', hrest⟩
  · exact h.complete s ((hmem s).1 ⟨hs, ho⟩).1 ho

/-- One more submission ended: `s`. -/
structure Ends (ls ls' : Ledger) (s : Submission) : Prop where
  mem : ∀ k, k ∈ ls' ∧ k.isOpen = false ↔ (k ∈ ls ∧ k.isOpen = false) ∨ k = s
  number : ∀ k ∈ ls, k.isOpen = false → k.number ≠ s.number

/-- The caller of the submission is told its outcome. -/
theorem Settled.told (h : Settled rs ls) (he : Ends ls ls' s) (ha : s.abandoned = false)
    {result : Except AdmissionError Completion} (hd : s.Delivered result) :
    Settled (rs ++ [⟨s.number, s.request.id, result⟩]) ls' where
  nodup := by
    rw [List.map_append, List.nodup_append]
    refine ⟨h.nodup, by simp, fun a ha b hb => ?_⟩
    obtain ⟨r, hr, rfl⟩ := List.mem_map.1 ha
    obtain ⟨k, hk, ho, hn, -⟩ := h.sound r hr
    rw [List.map_singleton, List.mem_singleton] at hb
    rw [hb, ← hn]
    exact he.number k hk ho
  sound := by
    intro r hr
    rcases List.mem_append.1 hr with hr | hr
    · obtain ⟨k, hk, ho, hrest⟩ := h.sound r hr
      obtain ⟨hk', ho'⟩ := (he.mem k).2 (Or.inl ⟨hk, ho⟩)
      exact ⟨k, hk', ho', hrest⟩
    · obtain ⟨hs, ho⟩ := (he.mem s).2 (Or.inr rfl)
      rw [List.mem_singleton.1 hr]
      exact ⟨s, hs, ho, rfl, rfl, ha, hd⟩
  complete := by
    intro k hk ho hka
    rcases (he.mem k).1 ⟨hk, ho⟩ with ⟨hk, ho⟩ | rfl
    · obtain ⟨r, hr, hn⟩ := h.complete k hk ho hka
      exact ⟨r, List.mem_append_left _ hr, hn⟩
    · exact ⟨_, List.mem_append_right _ (List.mem_singleton_self _), rfl⟩

/-- Nobody is told the outcome of a submission whose caller stopped waiting. -/
theorem Settled.untold (h : Settled rs ls) (he : Ends ls ls' s) (ha : s.abandoned = true) :
    Settled rs ls' where
  nodup := h.nodup
  sound := by
    intro r hr
    obtain ⟨k, hk, ho, hrest⟩ := h.sound r hr
    obtain ⟨hk', ho'⟩ := (he.mem k).2 (Or.inl ⟨hk, ho⟩)
    exact ⟨k, hk', ho', hrest⟩
  complete := by
    intro k hk ho hka
    rcases (he.mem k).1 ⟨hk, ho⟩ with ⟨hk, ho⟩ | rfl
    · exact h.complete k hk ho hka
    · rw [ha] at hka
      cases hka

theorem Settled.deliver (h : Settled c.resolutions.toList ls) {ending : Ending}
    (he : Ends ls ls' (s.close ending)) {result : Except AdmissionError Completion}
    (hd : (s.close ending).Delivered result) :
    Settled (c.deliver s.waiter result).resolutions.toList ls' := by
  unfold Controller.deliver
  cases ha : s.abandoned with
  | false =>
    have hl : s.waiter.listening = true := by simp [Submission.waiter, ha]
    simp only [hl, if_true, resolve, Array.toList_push]
    exact h.told he ha hd
  | true =>
    have hl : s.waiter.listening = false := by simp [Submission.waiter, ha]
    simp only [hl, Bool.false_eq_true, if_false]
    exact h.untold he ha

/-- Closing the open submission of an identifier ends it and no other. -/
theorem Linked.ends_close (h : c.Linked ls) (hc : c.scheduler.WellFormed) (hs : s ∈ ls)
    (ho : s.isOpen = true) (hid : s.request.id = id) (ending : Ending) :
    Ends ls (ls.amendOpen id (.close ending)) (s.close ending) where
  mem := by
    intro k
    constructor
    · rintro ⟨hk, hko⟩
      obtain ⟨j, hj, rfl⟩ := Ledger.mem_amend.1 hk
      split at hko
      · next hp =>
        obtain ⟨hopen, hjid⟩ := Bool.and_eq_true_iff.1 hp
        have hjs := h.eq_of_id hc hj hopen hs ho ((beq_iff_eq.1 hjid).trans hid.symm)
        rw [if_pos hp, hjs]
        exact Or.inr rfl
      · next hp =>
        rw [if_neg hp]
        exact Or.inl ⟨hj, hko⟩
    · rintro (⟨hk, hko⟩ | rfl)
      · exact ⟨Ledger.mem_amend_of_neg hk (by rw [hko, Bool.false_and]), hko⟩
      · refine ⟨Ledger.mem_amend_of_pos hs ?_, Submission.isOpen_close _ _⟩
        simp [ho, Submission.hasId, hid]
  number := by
    intro k hk hko hn
    rw [h.eq_of_number hk hs hn, ho] at hko
    cases hko

/-! ### The dispatching loop -/

/-- The loop publishes dispatches only, and notes them at open submissions. -/
structure Pulled (now : Instant) (c : Controller) (ls : Ledger) (c' : Controller) (ls' : Ledger) :
    Prop where
  consistent : c'.Consistent
  linked : c'.Linked ls'
  ended : ls'.filter (fun s => !s.isOpen) = ls.filter fun s => !s.isOpen
  length : ls'.length = ls.length
  resolutions : c'.resolutions = c.resolutions
  told : ∃ es, c'.events.history.toList = c.events.history.toList ++ es ∧
    ls' = es.foldl (Ledger.tell now) ls ∧ ∀ e ∈ es, e.isDispatch = true

theorem Pulled.refl (hc : c.Consistent) (hl : c.Linked ls) : Pulled now c ls c ls :=
  ⟨hc, hl, rfl, rfl, rfl, [], by simp⟩

private theorem pulled_pullKeeps (now : Instant) (c : Controller) (ls : Ledger) :
    PullKeeps now fun c' => ∃ ls', Pulled now c ls c' ls' where
  wellFormed := fun _ ⟨_, h⟩ => h.consistent.scheduler
  quiet := by
    rintro c' c'' hs he ⟨ls', h⟩
    refine ⟨ls', h.consistent.of_sameWork hs, h.linked.of_sameWork hs, h.ended, h.length,
      hs.resolutions.trans h.resolutions, ?_⟩
    rw [he]
    exact h.told
  launch := by
    rintro c' next d s ⟨ls', h⟩ - hs
    obtain ⟨es, hes, hls, hdispatch⟩ := h.told
    refine ⟨ls'.amendOpen next.id (.dispatch now), h.consistent.launch hs,
      h.linked.launch h.consistent hs, ?_, ?_, h.resolutions,
      es ++ [.dispatched next.id next.tier d.waited.millisWord], ?_, ?_, ?_⟩
    · rw [Ledger.filter_ended_amendOpen (Submission.isOpen_dispatch now), h.ended]
    · rw [Ledger.length_amendOpen, h.length]
    · change (c'.events.history.push _).toList = _
      rw [Array.toList_push, hes, List.append_assoc]
    · rw [List.foldl_append, ← hls]
      rfl
    · intro e he
      rcases List.mem_append.1 he with he | he
      · exact hdispatch e he
      · rw [List.mem_singleton.1 he]
        rfl

theorem Linked.pullReady (hl : c.Linked ls) (hc : c.Consistent) (now : Instant) :
    ∃ ls', Pulled now c ls (c.pullReady now) ls' :=
  (pulled_pullKeeps now c ls).pullReady ⟨ls, .refl hc hl⟩

/-- Nothing new is undecided. -/
theorem Pulled.decided {c' : Controller} (h : Pulled now c ls c' ls')
    (hls : ∀ s ∈ ls, s.isFresh = false) : ∀ s ∈ ls', s.isFresh = false := by
  intro s hs
  cases ho : s.isOpen with
  | true =>
    have hpath := (Bool.and_eq_true_iff.1 ho).1
    simp [Submission.isFresh, ← Option.not_isSome, hpath]
  | false =>
    have hmem : s ∈ ls'.filter fun s => !s.isOpen := List.mem_filter.2 ⟨hs, by simp [ho]⟩
    rw [h.ended] at hmem
    exact hls s (List.mem_filter.1 hmem).1

/-! ### Operations -/

/-- The ledger agrees with the controller. -/
structure Balanced (c : Controller) (ls : Ledger) : Prop where
  linked : c.Linked ls
  settled : Settled c.resolutions.toList ls
  total : c.statistics.counters.total = ls.length
  decided : ∀ s ∈ ls, s.isFresh = false

theorem balanced_new (config : AdmissionConfig) : (new config).Balanced [] where
  linked := linked_new config
  settled := ⟨.nil, by simp [new], by simp⟩
  total := rfl
  decided := by simp

theorem Balanced.pulled (h : c.Balanced ls) (hp : Pulled now c ls c' ls')
    (hs : c'.statistics.counters.total = c.statistics.counters.total) : c'.Balanced ls' where
  linked := hp.linked
  settled := hp.resolutions ▸ h.settled.congr hp.ended
  total := by rw [hs, h.total, hp.length]
  decided := hp.decided h.decided

section Submit

variable {q : Request} {n : Nat}

def arrived (n : Nat) (q : Request) (now : Instant) : Submission where
  number := n
  request := q
  submittedAt := now

theorem amendFresh_arrived (hls : ∀ s ∈ ls, s.isFresh = false) (f : Submission → Submission) :
    Ledger.amendFresh q.id f (ls ++ [arrived n q now]) = ls ++ [f (arrived n q now)] :=
  Ledger.amendFresh_append hls rfl rfl

theorem note_submit {es : List AdmissionEvent}
    (h : c'.events.history.toList = c.events.history.toList ++ es) :
    ls.note c c' (.submit q now) = es.foldl (Ledger.tell now) (ls ++ [arrived ls.length q now]) := by
  rw [Ledger.note, h, List.drop_left]
  rfl

private theorem total_receive (c : Controller) (now : Instant) :
    (c.receive now).statistics.counters.total = c.statistics.counters.total + 1 := by
  rw [statistics_receive]
  rfl

/-- The free slots go to queued requests before the newcomer is considered. -/
theorem Consistent.receive_pulled (hc : c.Consistent) (hl : c.Linked ls) (now : Instant) :
    ∃ ls', Pulled now c ls (c.receive now) ls' := by
  refine (pulled_pullKeeps now c ls).receive ⟨ls, ?_, ?_, rfl, rfl, rfl, [], by simp⟩
  · exact ⟨hc.scheduler, hc.waiters, hc.calls, hc.samples, hc.faults, hc.internal⟩
  · exact hl.congr rfl rfl rfl rfl rfl

/-- The events of a submission: those of the dispatches before it, those of the breaker, and those
after its admission or rejection. -/
theorem Pulled.note_submit {r c₁ : Controller} (h : Pulled now c ls r ls')
    (told : r.TellsOfBreaker c₁) {es : List AdmissionEvent}
    (hes : c'.events.history.toList = c₁.events.history.toList ++ es) :
    ls.note c c' (.submit q now) =
      es.foldl (Ledger.tell now) (ls' ++ [arrived ls.length q now]) := by
  obtain ⟨ds, hds, hls, hdispatch⟩ := h.told
  obtain ⟨ts, hts⟩ := told
  rw [hts, hds, List.append_assoc, List.append_assoc] at hes
  rw [Controller.note_submit hes, List.foldl_append, List.foldl_append,
    Ledger.foldl_tell_append hdispatch rfl, ← hls, Ledger.foldl_tell_transitions]

/-- The loop that follows an admission goes on with the ledger in which the admission is noted. -/
theorem Pulled.note_accepted {r c₁ c₂ : Controller} {ks ks' : Ledger} {es : List AdmissionEvent}
    (h : Pulled now c ls r ls') (told : r.TellsOfBreaker c₁)
    (hes : c₂.events.history.toList = c₁.events.history.toList ++ es)
    (hks : es.foldl (Ledger.tell now) (ls' ++ [arrived ls'.length q now]) = ks)
    (hp : Pulled now c₂ ks c' ks') : ls.note c c' (.submit q now) = ks' := by
  obtain ⟨ds, hds, hks', -⟩ := hp.told
  rw [hes, List.append_assoc] at hds
  rw [h.note_submit told hds, List.foldl_append, ← h.length, hks, hks']

/-- A rejected submission ends at once. -/
theorem Linked.ends_rejected (h : c.Linked ls) :
    Ends ls (ls ++ [(arrived ls.length q now).close .rejected])
      ((arrived ls.length q now).close .rejected) where
  mem := by
    intro k
    rw [List.mem_append, List.mem_singleton]
    constructor
    · rintro ⟨hk | hk, ho⟩
      · exact Or.inl ⟨hk, ho⟩
      · exact Or.inr hk
    · rintro (⟨hk, ho⟩ | rfl)
      · exact ⟨Or.inl hk, ho⟩
      · exact ⟨Or.inr rfl, Submission.isOpen_close _ _⟩
  number := by
    intro k hk _ hn
    have hmem : k.number ∈ ls.map Submission.number := List.mem_map_of_mem hk
    rw [h.numbers, List.mem_range, hn] at hmem
    exact absurd hmem (Nat.lt_irrefl _)

/-- The ledger agrees with the controller, but for a submission that it has counted already. -/
structure Awaits (c : Controller) (ls : Ledger) : Prop where
  linked : c.Linked ls
  settled : Settled c.resolutions.toList ls
  total : c.statistics.counters.total = ls.length + 1
  decided : ∀ s ∈ ls, s.isFresh = false

private theorem Balanced.awaits (h : c.Balanced ls) (hp : Pulled now c ls (c.receive now) ls') :
    (c.receive now).Awaits ls' where
  linked := hp.linked
  settled := hp.resolutions ▸ h.settled.congr hp.ended
  total := by rw [total_receive, h.total, hp.length]
  decided := hp.decided h.decided

theorem Awaits.of_sameWork (h : c.Awaits ls) (same : c.SameWork c') : c'.Awaits ls where
  linked := h.linked.of_sameWork same
  settled := same.resolutions ▸ h.settled
  total := same.statistics ▸ h.total
  decided := h.decided

theorem Awaits.rejected (h : c.Awaits ls) {error : AdmissionError}
    (rejection : error.isRejection = true) :
    (c.reject ls.length q error).Balanced (ls ++ [(arrived ls.length q now).close .rejected]) where
  linked := by
    refine h.linked.append rfl rfl (fun ho => ?_) ?_ ?_ (fun d hd => Or.inl hd) rfl rfl
    · cases ho
    · exact (List.append_nil _).symm
    · exact (List.append_nil _).symm
  settled := by
    change Settled (c.resolutions.push _).toList _
    rw [Array.toList_push]
    exact h.settled.told h.linked.ends_rejected rfl (.rejected rfl rfl rfl rejection)
  total := by
    rw [List.length_append]
    exact h.total
  decided := by
    intro k hk
    rcases List.mem_append.1 hk with hk | hk
    · exact h.decided k hk
    · rw [List.mem_singleton.1 hk]
      rfl

/-- An accepted submission is open, and nothing else changes in the ledger. -/
theorem Awaits.accepted (h : c.Awaits ls) (hl : c'.Linked (ls ++ [s])) (ho : s.isOpen = true)
    (hr : c'.resolutions = c.resolutions) (hs : c'.statistics = c.statistics) :
    c'.Balanced (ls ++ [s]) where
  linked := hl
  settled := by
    rw [hr]
    exact h.settled.congr (by simp [ho])
  total := by
    rw [hs, h.total, List.length_append]
    rfl
  decided := by
    intro k hk
    rcases List.mem_append.1 hk with hk | hk
    · exact h.decided k hk
    · have hpath := (Bool.and_eq_true_iff.1 ho).1
      rw [List.mem_singleton.1 hk]
      simp [Submission.isFresh, ← Option.not_isSome, hpath]

theorem Awaits.immediate (h : c.Awaits ls) {g : DrainGate} {σ : Scheduler}
    (hr : σ.roster = c.scheduler.roster.addProcessing q now) :
    ((c.register ls.length q .immediate σ g).depart q ⟨q, .zero⟩ 0 now).Balanced
      (ls ++ [((arrived ls.length q now).accept .immediate).dispatch now]) := by
  refine h.accepted (h.linked.append rfl rfl ?_ rfl ?_ ?_ rfl rfl) rfl rfl rfl
  · intro _ hd
    cases hd
  · change σ.roster.entries.map Entry.view = _
    rw [hr]
    exact List.map_append
  · intro d hd
    refine (List.mem_append.1 hd).imp_right fun hd => ?_
    rw [List.mem_singleton.1 hd]
    exact ⟨rfl, rfl, rfl⟩

theorem Awaits.queued (h : c.Awaits ls) {g : DrainGate} {σ : Scheduler}
    (hr : σ.roster = c.scheduler.roster.addQueued q now) :
    (c.register ls.length q .queued σ g).Balanced
      (ls ++ [(arrived ls.length q now).accept .queued]) := by
  refine h.accepted (h.linked.append rfl rfl (fun _ _ => rfl) rfl ?_ ?_ rfl rfl) rfl rfl rfl
  · change σ.roster.entries.map Entry.view = _
    rw [hr]
    exact List.map_append
  · exact fun d hd => Or.inl hd

/-- The dispatch of a submission concerns no other: its identifier is new. -/
theorem Linked.amendOpen_append (h : c.Linked ls) (hc : c.scheduler.WellFormed)
    (hnew : c.scheduler.contains q.id = false)
    (ho : s.isOpen = true) (hq : s.request = q) (f : Submission → Submission) :
    Ledger.amendOpen q.id f (ls ++ [s]) = ls ++ [f s] := by
  have hls : ∀ k ∈ ls, (k.isOpen && k.hasId q.id) = false := by
    intro k hk
    by_contra hp
    obtain ⟨hko, hkid⟩ := Bool.and_eq_true_iff.1 (by simpa using hp)
    obtain ⟨e, hf, -⟩ := h.exists_entry hc hk hko
    rw [show k.request.id = q.id from beq_iff_eq.1 hkid] at hf
    exact Roster.contains_eq_false_iff.1 hnew (Roster.contains_iff.1 (by simp [Roster.contains, hf]))
  rw [Ledger.amendOpen, Ledger.amend_append, Ledger.amend_eq_self hls]
  simp [Ledger.amend, ho, Submission.hasId, hq]

theorem Balanced.submitted (h : c.Balanced ls) (hc : c.Tracked)
    (hd : Decided (c.receive now) c.statistics.counters.total q now c') :
    c'.Balanced (ls.note c c' (.submit q now)) := by
  obtain ⟨ls', hp⟩ := hc.receive_pulled h.linked now
  have ha := h.awaits hp
  have hr := hc.receive now
  rw [h.total, ← hp.length] at hd
  generalize c.receive now = r at hd hp ha hr
  cases hd with
  | @rejected c₁ error same told rejection =>
    rw [hp.note_submit told Array.toList_push, ← hp.length]
    change Balanced _ (Ledger.amendFresh _ _ _)
    rw [amendFresh_arrived ha.decided]
    exact (ha.of_sameWork same).rejected rejection
  | @immediate c₁ g σ same told gate new room grants wellFormed roster limits =>
    have hc₁ := hr.of_sameWork same
    have hnew : c₁.scheduler.contains q.id = false := same.scheduler ▸ new
    rw [← same.gate] at gate
    rw [← same.scheduler] at roster
    have hc₂ := hc₁.dispatched (n := ls'.length) gate wellFormed roster
    have hb := (ha.of_sameWork same).immediate (g := g) roster
    obtain ⟨ls'', hp'⟩ := hb.linked.pullReady hc₂.toConsistent now
    have hdispatch := (ha.of_sameWork same).linked.amendOpen_append hc₁.scheduler hnew
      (s := (arrived ls'.length q now).accept .immediate) rfl rfl (.dispatch now)
    rw [← amendFresh_arrived ha.decided] at hdispatch
    rw [hp.note_accepted told history_dispatched hdispatch hp']
    exact hb.pulled hp' (by rw [statistics_pullReady])
  | @queued c₁ g σ same told gate new wellFormed roster limits =>
    have hc₁ := hr.of_sameWork same
    rw [← same.gate] at gate
    rw [← same.scheduler] at roster
    have hc₂ := hc₁.queued (n := ls'.length) gate wellFormed roster
    have hb := (ha.of_sameWork same).queued (g := g) roster
    obtain ⟨ls'', hp'⟩ := hb.linked.pullReady hc₂.toConsistent now
    rw [hp.note_accepted told history_queued (amendFresh_arrived ha.decided _) hp']
    exact hb.pulled hp' (by rw [statistics_pullReady])

end Submit

/-! ### Endings -/

/-- The caller is told the result of the call that was made for its submission. -/
theorem delivered_report {call : Call} (ho : s.isOpen = true) (hreq : s.request = call.request)
    (hw : s.waited? = some call.waited) (hcalls : s.calls = [call]) (outcome : CallOutcome)
    (now : Instant) :
    (s.close (.returned outcome now)).Delivered
      (report call outcome s.waiter.path (now.since call.startedAt)) := by
  obtain ⟨path, hpath⟩ := Option.isSome_iff_exists.1 (Bool.and_eq_true_iff.1 ho).1
  have hwaiter : s.waiter.path = path := by simp [Submission.waiter, hpath]
  rw [hwaiter, report, ← hreq]
  cases outcome with
  | answered result =>
    cases result with
    | ok output => exact .answered rfl hpath hw hcalls
    | error source => exact .failed rfl hcalls
  | panicked => exact .panicked rfl hcalls

theorem total_countCompletion (k : RequestCounters) (success : Bool) :
    (Statistics.countCompletion k success).total = k.total := by
  cases success <;> rfl

theorem Linked.deliver (h : c.Linked ls) (w : Waiter) (result : Except AdmissionError Completion) :
    (c.deliver w result).Linked ls := by
  unfold Controller.deliver
  dsimp only
  split <;> exact h.congr rfl rfl rfl rfl rfl

private theorem decided_close {ending : Ending} (h : ∀ s ∈ ls, s.isFresh = false) :
    ∀ s ∈ ls.amendOpen id (.close ending), s.isFresh = false :=
  Ledger.forall_mem_amend h fun s _ _ => by simp [Submission.isFresh, Submission.close]

/-- The submission whose call ended is open no more. -/
theorem Linked.without (h : c.Linked ls) (hc : c.Consistent) {call : Call}
    (hcall : call ∈ c.running) {e : Entry} {σ : Scheduler}
    (found : c.scheduler.roster.find? call.request.id = some e)
    (roster : σ.roster = c.scheduler.roster.completed e) (outcome : CallOutcome) (now : Instant) :
    (c.without call outcome now σ).Linked
      (ls.amendOpen call.request.id (.close (.returned outcome now))) := by
  refine h.close _ rfl ?_ rfl ?_ rfl rfl
  · change σ.roster.entries = _
    rw [roster, ← Roster.find?_id found]
    rfl
  · exact fun d hd => hc.pending_ne_running hd hcall

/-- The events of the end of a call: those of the breaker, the completion, and those of the
dispatches into the freed slot. -/
theorem Pulled.note_ended {c₁ c₂ k : Controller} {call : Call} {outcome : CallOutcome}
    (hp : Pulled now c₁ (ls.amendOpen call.request.id (.close (.returned outcome now))) c₂ ls')
    (hdoes : c.does (.endCall call.request.id outcome now) = true)
    (told : ∃ ts : List BreakerTransition, c₁.events.history.toList =
      c.events.history.toList ++ (ts.map fun t => .breakerTransition t.source t.target) ++
        [.completed call.request.id call.request.tier outcome.result.isOk
          (now.since call.startedAt).millisWord])
    (he : k.events = c₂.events) :
    ls.note c k (.endCall call.request.id outcome now) = ls' := by
  obtain ⟨ts, hts⟩ := told
  obtain ⟨es, hes, hls', -⟩ := hp.told
  rw [hts, List.append_assoc, List.append_assoc] at hes
  rw [Ledger.note, if_pos hdoes, he, hes, List.drop_left, List.foldl_append,
    Ledger.foldl_tell_transitions, hls']
  rfl

theorem Balanced.ended (h : c.Balanced ls) (hc : c.Consistent) {call : Call}
    {outcome : CallOutcome} (hrun : c.running.find? (fun r => r.request.id == id) = some call)
    (hfin : Finished c call outcome now c') :
    c'.Balanced (ls.note c c' (.endCall id outcome now)) := by
  have hcall := List.mem_of_find?_eq_some hrun
  obtain rfl : call.request.id = id := by simpa using List.find?_some hrun
  have hdoes : c.does (.endCall call.request.id outcome now) = true :=
    List.any_eq_true.2 ⟨call, hcall, by simp⟩
  obtain ⟨s, hs, ho, hreq, hw, hcalls⟩ := h.linked.running call hcall
  have hid : s.request.id = call.request.id := by rw [hreq]
  cases hfin with
  | @intro c₁ m e σ w found processing request wellFormed roster limits waiter same told =>
    obtain rfl := h.linked.eq_waiter hc.scheduler waiter hs ho hid
    have hc₁ := (hc.without hcall found processing wellFormed roster).of_sameWork same
    have hl₁ := (h.linked.without hc hcall found roster outcome now).of_sameWork same
    obtain ⟨ls', hp⟩ := hl₁.pullReady hc₁ now
    have hends := h.linked.ends_close hc.scheduler hs ho hid (.returned outcome now)
    rw [hp.note_ended (k := Controller.deliver { c₁.pullReady now with telemetry := m } _ _) hdoes
      told (events_deliver _ _ _)]
    refine ⟨?_, ?_, ?_, ?_⟩
    · have hl : Linked { c₁.pullReady now with telemetry := m } ls' :=
        hp.linked.congr rfl rfl rfl rfl rfl
      exact hl.deliver _ _
    · have hset : Settled (c₁.pullReady now).resolutions.toList ls := by
        rw [hp.resolutions, same.resolutions]
        exact h.settled
      have hdel := delivered_report ho hreq hw hcalls outcome now
      exact (hset.deliver (c := { c₁.pullReady now with telemetry := m }) hends hdel).congr hp.ended
    · rw [statistics_deliver]
      change (c₁.pullReady now).statistics.counters.total = _
      rw [statistics_pullReady, same.statistics, hp.length, Ledger.length_amendOpen, ← h.total]
      exact total_countCompletion _ _
    · exact hp.decided (decided_close h.decided)

/-- The submission of a request that is withdrawn is open no more. -/
theorem Linked.withdrawn (h : c.Linked ls) (hc : c.Consistent) {e : Entry} {σ : Scheduler}
    (found : c.scheduler.roster.find? id = some e) (queued : e.stage = .queued)
    (roster : σ.roster = c.scheduler.roster.withdrawn e) :
    Linked
      { c with
        scheduler := σ
        statistics := c.statistics.recordCancellation
        waiters := c.waiters.filter fun w => w.id != id }
      (ls.amendOpen id (.close .cancelled)) := by
  -- No call is in hand for a queued request.
  have hnone : ∀ q ∈ c.pending.map Dispatch.request ++ c.running.map Call.request, q.id ≠ id := by
    intro q hq hqid
    obtain ⟨f, hf, hp, -⟩ := hc.find?_of_call hq
    rw [hqid, found] at hf
    rw [← Option.some.inj hf, Entry.isProcessing, Entry.state, queued] at hp
    cases hp
  refine h.close _ rfl ?_ rfl ?_ ?_ rfl
  · change σ.roster.entries = _
    rw [roster, ← Roster.find?_id found]
    rfl
  · exact fun d hd => hnone _ (List.mem_append_left _ (List.mem_map_of_mem hd))
  · refine (List.filter_eq_self.2 fun r hr => ?_).symm
    simpa using hnone _ (List.mem_append_right _ (List.mem_map_of_mem hr))

theorem Balanced.withdrew (h : c.Balanced ls) (hc : c.Consistent) (hdoes : c.does (.cancel id) = true)
    (hw : Withdrawn c id (true, c')) : c'.Balanced (ls.note c c' (.cancel id)) := by
  have hnote : ls.note c c' (.cancel id) = ls.amendOpen id (.close .cancelled) := by
    rw [Ledger.note, if_pos hdoes]
  rw [hnote]
  cases hw with
  | @yes c₁ e σ w found queued wellFormed roster limits waiter same told =>
    obtain ⟨s, hs, ho, hreq, -, hstage⟩ := h.linked.exists_open found
    have hid : s.request.id = id := by rw [hreq]; exact Roster.find?_id found
    have hundispatched := Submission.stage_eq_queued_iff.1 (hstage.trans queued)
    obtain ⟨hpath, hcalls⟩ := h.linked.queued s hs ho hundispatched
    obtain rfl := h.linked.eq_waiter hc.scheduler waiter hs ho hid
    have hl₁ := (h.linked.withdrawn hc found queued roster).of_sameWork same
    have hends := h.linked.ends_close hc.scheduler hs ho hid .cancelled
    refine ⟨hl₁.deliver _ _, ?_, ?_, decided_close h.decided⟩
    · have hset : Settled c₁.resolutions.toList ls := same.resolutions ▸ h.settled
      have hdel : (s.close .cancelled).Delivered (.error (.cancelled id)) :=
        hid ▸ .cancelled rfl hpath hundispatched hcalls
      exact hset.deliver hends hdel
    · rw [statistics_deliver, same.statistics, Ledger.length_amendOpen]
      exact h.total

/-! ### Every operation -/

/-- An amendment of open submissions that leaves them open. -/
theorem Balanced.amendOpen (h : c.Balanced ls) {f : Submission → Submission}
    (ho : ∀ s, (f s).isOpen = s.isOpen) (hf : ∀ s, (f s).isFresh = s.isFresh)
    (hl : c'.Linked (ls.amendOpen id f)) (hr : c'.resolutions = c.resolutions)
    (hs : c'.statistics = c.statistics) : c'.Balanced (ls.amendOpen id f) where
  linked := hl
  settled := by
    rw [hr]
    exact h.settled.congr (Ledger.filter_ended_amendOpen ho)
  total := by
    rw [hs, h.total, Ledger.length_amendOpen]
  decided := Ledger.forall_mem_amend h.decided fun s hs _ => (hf s).trans (h.decided s hs)

private theorem note_idle {op : Operation} (h : c.does op = false) : ls.note c c op = ls := by
  cases op with
  | submit q now => cases h
  | beginCall position now =>
    have hnone : c.beginAt? position now = none := by
      have hle : c.pending.length ≤ position := by simpa [does] using h
      simp [beginAt?, hle]
    rw [Ledger.note, hnone]
  | endCall | cancel | abandon => simp [Ledger.note, h]
  | drain | passTime => rfl

theorem Balanced.applied (h : c.Balanced ls) (hc : c.Tracked) {op : Operation}
    (ha : Applied c op c') : c'.Balanced (ls.note c c' op) := by
  cases ha with
  | submitted decided => exact h.submitted hc decided
  | @began position now call c' begins =>
    have hl := h.linked.beginAt? hc.toConsistent begins
    have hnote : ls.note c c' (.beginCall position now) =
        ls.amendOpen call.request.id (.call call) := by rw [Ledger.note, begins]
    rw [hnote]
    obtain ⟨d, -, -, rfl⟩ := beginAt?_eq_some begins
    exact h.amendOpen (Submission.isOpen_call call) (fun _ => rfl) hl rfl rfl
  | ended running finished => exact h.ended hc.toConsistent running finished
  | withdrew does withdrawn => exact h.withdrew hc.toConsistent does withdrawn
  | @abandoned i waits =>
    have hdoes : c.does (.abandon i) = true := by simp [does, abandon, waits]
    have hnote (c' : Controller) : ls.note c c' (.abandon i) = ls.amendOpen i .leave := by
      rw [Ledger.note, if_pos hdoes]
    rw [hnote]
    exact h.amendOpen Submission.isOpen_leave (fun _ => rfl) (h.linked.abandoned i) rfl rfl
  | drained | passed _ =>
    exact ⟨h.linked.congr rfl rfl rfl rfl rfl, h.settled, h.total, h.decided⟩
  | idle cannot =>
    rw [note_idle cannot]
    exact h

theorem Balanced.after (h : c.Balanced ls) (hc : c.Tracked) (ops : List Operation) :
    (c.after ops).Balanced (ls.after c ops) := by
  induction ops generalizing c ls with
  | nil => exact h
  | cons op ops ih =>
    have ha := hc.toConsistent.applied op
    exact ih (h.applied hc ha) (hc.applied ha)

/-- Exactly the open submissions that have not been dispatched can be cancelled. -/
theorem Linked.cancel_iff (h : c.Linked ls) (hc : c.Consistent) (id : RequestId) :
    (c.cancel id).1 = true ↔
      ∃ s ∈ ls, s.isOpen = true ∧ s.request.id = id ∧ s.dispatchedAt = none := by
  constructor
  · have hw := hc.withdrawn id
    generalize c.cancel id = p at hw
    cases hw with
    | no => simp
    | yes found queued =>
      intro _
      obtain ⟨s, hs, ho, hreq, -, hstage⟩ := h.exists_open found
      refine ⟨s, hs, ho, ?_, Submission.stage_eq_queued_iff.1 (hstage.trans queued)⟩
      rw [hreq]
      exact Roster.find?_id found
  · rintro ⟨s, hs, ho, rfl, hd⟩
    obtain ⟨e, hf, -, hstage⟩ := h.exists_entry hc.scheduler hs ho
    have hqueued := hstage.trans (Submission.stage_eq_queued_iff.2 hd)
    obtain ⟨σ, hσ⟩ := Scheduler.exists_withdraw hf hqueued
    unfold cancel
    rw [hσ]
    dsimp only
    split <;> rfl

/-- A submission that is not open has ended. -/
theorem Balanced.ended_of_not_open (h : c.Balanced ls) (hs : s ∈ ls) (ho : s.isOpen = false) :
    s.ending.isSome = true := by
  have hfresh := h.decided s hs
  unfold Submission.isFresh at hfresh
  unfold Submission.isOpen at ho
  cases hp : s.path <;> cases he : s.ending <;> simp_all

/-- Every submission of a run resolves at most once, with its own outcome. The ledger has the
submissions of the run, numbered from zero, and at most one open submission of an identifier. The
outcomes handed out belong to different submissions; each is the right one for a submission that
ended and whose caller had not stopped waiting; and each such submission has one. The calls that
reached the backend are those of the ledger: at most one for a submission, with its request. A
cancellation succeeds exactly for an open submission that has not been dispatched. When no call is
in hand any more, every submission has ended, and so has been resolved unless its caller stopped
waiting. -/
theorem each_submission_resolves_once (config : AdmissionConfig) (ops : List Operation) :
    let c := (new config).after ops
    let ls := Ledger.after [] (new config) ops
    ls.map (fun s => (s.request, s.submittedAt)) = ops.filterMap Operation.submission? ∧
    ls.map Submission.number = List.range ls.length ∧
    ((ls.filter Submission.isOpen).map fun s => s.request.id).Nodup ∧
    (∀ s ∈ ls, s.isOpen = false → s.ending.isSome = true) ∧
    (c.resolutions.toList.map Resolution.submission).Nodup ∧
    (∀ r ∈ c.resolutions.toList, ∃ s ∈ ls, s.number = r.submission ∧ s.request.id = r.id ∧
      s.abandoned = false ∧ s.Delivered r.result) ∧
    (∀ s ∈ ls, s.isOpen = false → s.abandoned = false →
      ∃ r ∈ c.resolutions.toList, r.submission = s.number) ∧
    (ls.flatMap Submission.calls).Perm c.begun.toList ∧
    (∀ s ∈ ls, s.calls.length ≤ 1 ∧ ∀ call ∈ s.calls, call.request = s.request) ∧
    (∀ id, (c.cancel id).1 = true ↔
      ∃ s ∈ ls, s.isOpen = true ∧ s.request.id = id ∧ s.dispatchedAt = none) ∧
    (c.pending = [] → c.running = [] → ∀ s ∈ ls, s.isOpen = false) := by
  intro c ls
  have hc : c.Live config := (live_new config).after ops
  have h : c.Balanced ls := (balanced_new config).after (tracked_new config) ops
  refine ⟨Ledger.map_request_after [] (new config) ops, h.linked.numbers,
    h.linked.nodup_open hc.scheduler, fun s hs ho => h.ended_of_not_open hs ho, h.settled.nodup,
    fun r hr => ?_, h.settled.complete, h.linked.begun, h.linked.calls,
    h.linked.cancel_iff hc.toConsistent, fun hp hr s hs => ?_⟩
  · obtain ⟨s, hs, -, hrest⟩ := h.settled.sound r hr
    exact ⟨s, hs, hrest⟩
  · -- No request is in hand, so no submission is open.
    have hzero : c.inHand = 0 := by
      by_contra hne
      rcases hc.exists_call (Nat.pos_of_ne_zero hne) with hn | hn
      · exact hn hp
      · exact hn hr
    obtain ⟨hentries, -⟩ := hc.finished_of_inHand hzero
    have hopen := h.linked.entries
    rw [hentries, List.map_nil, eq_comm, List.map_eq_nil_iff, List.filter_eq_nil_iff] at hopen
    exact Bool.eq_false_iff.2 (hopen s hs)

end Controller

end TieredAdmission
