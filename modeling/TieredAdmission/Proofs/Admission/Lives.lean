import TieredAdmission.Proofs.Admission.BreakerGate

/-!
# Lives of requests

An identifier may be used again once its request has left. The events that are about it, rejections
aside, tell of one life after the other: a life begins with an admission and ends with a completion
or a cancellation, and the last one is open exactly while the scheduler tracks the identifier. Each
step of the controller publishes the events that explain how the requests came to stand where they
stand after it.
-/

namespace TieredAdmission

namespace AdmissionEvent

/-- The event is about a request and is no rejection. -/
@[simp] def tellsOf (id : RequestId) : AdmissionEvent → Bool
  | admitted i _ _ | dispatched i _ _ | completed i _ _ _ | cancelled i _ => i == id
  | rejected _ _ _ | breakerTransition _ _ => false

private theorem filter_tellsOf_of_ne {id i : RequestId} {es : List AdmissionEvent}
    (h : ∀ e ∈ es, ∀ j, e.tellsOf j = true → id = j) (hi : i ≠ id) :
    es.filter (tellsOf i) = [] :=
  List.filter_eq_nil_iff.2 fun e he htells => hi (h e he i htells).symm

private theorem filter_tellsOf_transitions (id : RequestId) (ts : List BreakerTransition) :
    (ts.map fun t => breakerTransition t.source t.target).filter (tellsOf id) = [] := by
  refine List.filter_eq_nil_iff.2 fun e he => ?_
  obtain ⟨t, -, rfl⟩ := List.mem_map.1 he
  simp

end AdmissionEvent

namespace Roster

/-- Where a request stands: its tier and its state, while it is tracked. -/
def standing (r : Roster) (id : RequestId) : Option (Tier × EntryState) :=
  (r.find? id).map fun e => (e.tier, e.state)

variable {r : Roster} {id : RequestId} {e : Entry} {q : Request} {now : Instant}

theorem standing_of_find? (hf : r.find? id = some e) : r.standing id = some (e.tier, e.state) := by
  rw [standing, hf]
  rfl

private theorem standing_eq_none (hn : r.contains id = false) : r.standing id = none := by
  have hnone : r.find? id = none := by simpa [contains] using hn
  rw [standing, hnone]
  rfl

private theorem standing_addQueued (hn : r.contains q.id = false) (i : RequestId) :
    (r.addQueued q now).standing i = if i = q.id then some (q.tier, .queued) else r.standing i := by
  rw [standing, find?_addQueued hn]
  split <;> rfl

private theorem standing_addProcessing (hn : r.contains q.id = false) (i : RequestId) :
    (r.addProcessing q now).standing i =
      if i = q.id then some (q.tier, .processing) else r.standing i := by
  rw [standing, find?_addProcessing hn]
  split <;> rfl

private theorem standing_started (hf : r.find? id = some e) (i : RequestId) :
    (r.started e now).standing i = if i = id then some (e.tier, .processing) else r.standing i := by
  rw [standing, find?_started hf]
  split <;> rfl

private theorem standing_completed (hf : r.find? id = some e) (i : RequestId) :
    (r.completed e).standing i = if i = id then none else r.standing i := by
  rw [standing, find?_completed hf]
  split <;> rfl

private theorem standing_withdrawn (hf : r.find? id = some e) (i : RequestId) :
    (r.withdrawn e).standing i = if i = id then none else r.standing i := by
  rw [standing, find?_withdrawn hf]
  split <;> rfl

end Roster

/-- What is told of a life that is over. -/
inductive IsLife (id : RequestId) : List AdmissionEvent → Prop where
  | completed (t : Tier) (path : DispatchPath) (waited : Nat) (success : Bool) (took : Nat) :
      IsLife id [.admitted id t path, .dispatched id t waited, .completed id t success took]
  | cancelled (t : Tier) : IsLife id [.admitted id t .queued, .cancelled id t]

/-- What has been told of the present life of a request that stands somewhere. -/
inductive IsOpening (id : RequestId) : Option (Tier × EntryState) → List AdmissionEvent → Prop where
  | untracked : IsOpening id none []
  | queued (t : Tier) : IsOpening id (some (t, .queued)) [.admitted id t .queued]
  | processing (t : Tier) (path : DispatchPath) (waited : Nat) :
      IsOpening id (some (t, .processing)) [.admitted id t path, .dispatched id t waited]

/-- The events are those of lives that are over and of the present one. -/
def Lives (id : RequestId) (standing : Option (Tier × EntryState)) (es : List AdmissionEvent) :
    Prop :=
  ∃ (lives : List (List AdmissionEvent)) (opening : List AdmissionEvent),
    (∀ life ∈ lives, IsLife id life) ∧ IsOpening id standing opening ∧
    es = lives.flatten ++ opening

namespace Lives

variable {id : RequestId} {t : Tier} {es : List AdmissionEvent}

/-- A life that goes on. -/
theorem extend {s s' : Option (Tier × EntryState)} {more : List AdmissionEvent} (h : Lives id s es)
    (hs : ∀ opening, IsOpening id s opening → IsOpening id s' (opening ++ more)) :
    Lives id s' (es ++ more) := by
  obtain ⟨lives, opening, hlives, hopening, rfl⟩ := h
  exact ⟨lives, opening ++ more, hlives, hs opening hopening, List.append_assoc ..⟩

/-- A life that ends. -/
theorem close {s : Option (Tier × EntryState)} {last : AdmissionEvent} (h : Lives id s es)
    (hs : ∀ opening, IsOpening id s opening → IsLife id (opening ++ [last])) :
    Lives id none (es ++ [last]) := by
  obtain ⟨lives, opening, hlives, hopening, rfl⟩ := h
  refine ⟨lives ++ [opening ++ [last]], [], fun life hlife => ?_, .untracked, by simp⟩
  rcases List.mem_append.1 hlife with hlife | hlife
  · exact hlives life hlife
  · rw [List.mem_singleton.1 hlife]
    exact hs opening hopening

theorem enqueue (h : Lives id none es) :
    Lives id (some (t, .queued)) (es ++ [.admitted id t .queued]) := by
  refine h.extend fun opening ho => ?_
  cases ho
  exact .queued t

theorem begin (h : Lives id none es) :
    Lives id (some (t, .processing))
      (es ++ [.admitted id t .immediate, .dispatched id t 0]) := by
  refine h.extend fun opening ho => ?_
  cases ho
  exact .processing t .immediate 0

theorem dispatch (h : Lives id (some (t, .queued)) es) (waited : Nat) :
    Lives id (some (t, .processing)) (es ++ [.dispatched id t waited]) := by
  refine h.extend fun opening ho => ?_
  cases ho
  exact .processing t .queued waited

theorem complete (h : Lives id (some (t, .processing)) es) (success : Bool) (took : Nat) :
    Lives id none (es ++ [.completed id t success took]) := by
  refine h.close fun opening ho => ?_
  cases ho with
  | processing _ path waited => exact .completed t path waited success took

theorem cancel (h : Lives id (some (t, .queued)) es) :
    Lives id none (es ++ [.cancelled id t]) := by
  refine h.close fun opening ho => ?_
  cases ho
  exact .cancelled t

end Lives

/-- Every admission on the immediate path is followed at once by its dispatch. -/
def DispatchedAtOnce (es : List AdmissionEvent) : Prop :=
  ∀ before id t after, es = before ++ .admitted id t .immediate :: after →
    ∃ rest, after = .dispatched id t 0 :: rest

namespace DispatchedAtOnce

variable {es fs : List AdmissionEvent}

theorem append (h : DispatchedAtOnce es) (h' : DispatchedAtOnce fs) :
    DispatchedAtOnce (es ++ fs) := by
  intro before id t after heq
  rcases List.append_eq_append_iff.1 heq with ⟨mid, rfl, hfs⟩ | ⟨mid, hes, hafter⟩
  · exact h' mid id t after hfs
  · cases mid with
    | nil => exact h' [] id t after hafter.symm
    | cons e mid =>
      -- The admission is among the first events, and so is its dispatch.
      obtain ⟨rfl, rfl⟩ := List.cons.inj hafter
      obtain ⟨rest, rfl⟩ := h before id t mid hes
      exact ⟨rest ++ fs, rfl⟩

theorem of_no_admission (h : ∀ e ∈ es, e.isAdmission = false) : DispatchedAtOnce es := by
  rintro before id t after rfl
  cases h (.admitted id t .immediate) (by simp)

theorem begin (id : RequestId) (t : Tier) :
    DispatchedAtOnce [.admitted id t .immediate, .dispatched id t 0] := by
  intro before i u after heq
  cases before with
  | nil =>
    cases heq
    exact ⟨[], rfl⟩
  | cons e before =>
    have hmem : AdmissionEvent.admitted i u .immediate ∈
        [AdmissionEvent.dispatched id t 0] := by
      rw [(List.cons.inj heq).2]
      simp
    cases List.mem_singleton.1 hmem

theorem enqueue (id : RequestId) (t : Tier) : DispatchedAtOnce [.admitted id t .queued] := by
  intro before i u after heq
  have hmem : AdmissionEvent.admitted i u .immediate ∈
      [AdmissionEvent.admitted id t .queued] := by
    rw [heq]
    simp
  cases List.mem_singleton.1 hmem

private theorem transitions (ts : List BreakerTransition) :
    DispatchedAtOnce (ts.map fun t => .breakerTransition t.source t.target) :=
  of_no_admission fun e he => by
    obtain ⟨t, -, rfl⟩ := List.mem_map.1 he
    rfl

end DispatchedAtOnce

namespace Controller

variable {c c' c'' : Controller} {now : Instant}

/-- What is published in between explains how each request came from where it stood to where it
stands. -/
def Explained (c c' : Controller) : Prop :=
  ∃ es, c'.events.history.toList = c.events.history.toList ++ es ∧ DispatchedAtOnce es ∧
    ∀ id told, Lives id (c.scheduler.roster.standing id) told →
      Lives id (c'.scheduler.roster.standing id) (told ++ es.filter (AdmissionEvent.tellsOf id))

theorem Explained.trans (h : c.Explained c') (h' : c'.Explained c'') : c.Explained c'' := by
  obtain ⟨es, hes, honce, hlives⟩ := h
  obtain ⟨fs, hfs, honce', hlives'⟩ := h'
  refine ⟨es ++ fs, by rw [hfs, hes, List.append_assoc], honce.append honce', fun id told ht => ?_⟩
  rw [List.filter_append, ← List.append_assoc]
  exact hlives' id _ (hlives id told ht)

/-- Nobody moves and nothing is told of a life. -/
theorem explained_of_quiet (hs : c'.scheduler = c.scheduler) (he : c'.events = c.events) :
    c.Explained c' := by
  refine ⟨[], by simp [he], .of_no_admission (by simp), fun id told ht => ?_⟩
  rw [hs]
  simpa using ht

/-- One request moves, and the events are about it or about none. -/
theorem explained_of_one {es : List AdmissionEvent} (id : RequestId)
    (he : c'.events.history.toList = c.events.history.toList ++ es) (honce : DispatchedAtOnce es)
    (habout : ∀ e ∈ es, ∀ i, e.tellsOf i = true → id = i)
    (hother : ∀ i, i ≠ id →
      c'.scheduler.roster.standing i = c.scheduler.roster.standing i)
    (hself : ∀ told, Lives id (c.scheduler.roster.standing id) told →
      Lives id (c'.scheduler.roster.standing id)
        (told ++ es.filter (AdmissionEvent.tellsOf id))) : c.Explained c' := by
  refine ⟨es, he, honce, fun i told ht => ?_⟩
  by_cases hi : i = id
  · rw [hi] at ht ⊢
    exact hself told ht
  · rw [AdmissionEvent.filter_tellsOf_of_ne habout hi, List.append_nil, hother i hi]
    exact ht

/-! ### The dispatching loop -/

private theorem explained_launch {next : Request} {d : Dispatch} {s : Scheduler} {e : Entry}
    (hf : c.scheduler.roster.find? next.id = some e) (hq : e.stage = .queued)
    (hreq : e.request = next) (hs : s.roster = c.scheduler.roster.started e now) :
    c.Explained (c.launch next d s now) := by
  have hroster : (c.launch next d s now).scheduler.roster = c.scheduler.roster.started e now := hs
  have htier : e.tier = next.tier := congrArg Request.tier hreq
  have htold : (c.launch next d s now).events.history.toList = c.events.history.toList ++
      [.dispatched next.id next.tier d.waited.millisWord] := Array.toList_push
  refine explained_of_one next.id htold
    (.of_no_admission (by simp [AdmissionEvent.isAdmission])) ?_ ?_ ?_
  · simp
  · intro i hi
    rw [hroster, Roster.standing_started hf, if_neg hi]
  · intro told ht
    rw [hroster, Roster.standing_started hf, if_pos rfl, htier]
    rw [Roster.standing_of_find? hf, htier, Entry.state, hq] at ht
    simpa using ht.dispatch d.waited.millisWord

private theorem explained_pullKeeps (c : Controller) (now : Instant) :
    PullKeeps now fun c' => c'.scheduler.WellFormed ∧ c.Explained c' where
  wellFormed := fun _ h => h.1
  quiet := fun _ _ hs he h =>
    ⟨hs.scheduler ▸ h.1, h.2.trans (explained_of_quiet hs.scheduler he)⟩
  launch := by
    intro c' next d s h hn hs
    obtain ⟨-, -, e, hf, hq, hreq⟩ := h.1.selectNext_some hn
    obtain ⟨e', hf', -, -, hwf, hr, -⟩ := h.1.start_ok hs
    obtain rfl : e = e' := Option.some.inj (hf.symm.trans hf')
    exact ⟨hwf, h.2.trans (explained_launch hf hq hreq hr)⟩

theorem explained_pullReady (h : c.scheduler.WellFormed) (now : Instant) :
    c.Explained (c.pullReady now) :=
  ((explained_pullKeeps c now).pullReady ⟨h, explained_of_quiet rfl rfl⟩).2

private theorem explained_receive (h : c.scheduler.WellFormed) (now : Instant) :
    c.Explained (c.receive now) :=
  ((explained_pullKeeps c now).receive ⟨h, explained_of_quiet rfl rfl⟩).2

/-! ### Operations -/

/-- Changes of the breaker are about no request. -/
theorem TellsOfBreaker.explained (h : c.TellsOfBreaker c') (same : c.SameWork c') :
    c.Explained c' := by
  obtain ⟨ts, hts⟩ := h
  refine ⟨_, hts, .transitions ts, fun id told ht => ?_⟩
  rw [same.scheduler, AdmissionEvent.filter_tellsOf_transitions, List.append_nil]
  exact ht

private theorem explained_reject {n : Nat} {q : Request} {error : AdmissionError} :
    c.Explained (c.reject n q error) := by
  refine explained_of_one q.id (history_reject error)
    (.of_no_admission (by simp [AdmissionEvent.isAdmission])) ?_ (fun _ _ => rfl) ?_
  · simp
  · intro told ht
    change Lives q.id (c.scheduler.roster.standing q.id) _
    simpa using ht

section Accepted

variable {n : Nat} {q : Request} {g : DrainGate} {s : Scheduler}

private theorem explained_dispatched (hn : c.scheduler.contains q.id = false)
    (hs : s.roster = c.scheduler.roster.addProcessing q now) :
    c.Explained ((c.register n q .immediate s g).depart q ⟨q, .zero⟩ 0 now) := by
  refine explained_of_one q.id history_dispatched (.begin q.id q.tier) ?_ ?_ ?_
  · simp
  · intro i hi
    change s.roster.standing i = _
    rw [hs, Roster.standing_addProcessing hn, if_neg hi]
  · intro told ht
    change Lives q.id (s.roster.standing q.id) _
    rw [hs, Roster.standing_addProcessing hn, if_pos rfl]
    rw [Roster.standing_eq_none hn] at ht
    simpa using ht.begin (t := q.tier)

private theorem explained_queued (hn : c.scheduler.contains q.id = false)
    (hs : s.roster = c.scheduler.roster.addQueued q now) :
    c.Explained (c.register n q .queued s g) := by
  refine explained_of_one q.id history_queued (.enqueue q.id q.tier) ?_ ?_ ?_
  · simp
  · intro i hi
    change s.roster.standing i = _
    rw [hs, Roster.standing_addQueued hn, if_neg hi]
  · intro told ht
    change Lives q.id (s.roster.standing q.id) _
    rw [hs, Roster.standing_addQueued hn, if_pos rfl]
    rw [Roster.standing_eq_none hn] at ht
    simpa using ht.enqueue (t := q.tier)

theorem Decided.explained (h : Decided c n q now c') : c.Explained c' := by
  cases h with
  | rejected same told _ => exact (told.explained same).trans explained_reject
  | @immediate c₁ g s same told _ new _ _ wellFormed roster _ =>
    rw [← same.scheduler] at new roster
    exact (told.explained same).trans ((explained_dispatched new roster).trans
      (explained_pullReady
        (c := (c₁.register n q .immediate s g).depart q ⟨q, .zero⟩ 0 now) wellFormed now))
  | @queued c₁ g s same told _ new wellFormed roster _ =>
    rw [← same.scheduler] at new roster
    exact (told.explained same).trans ((explained_queued new roster).trans
      (explained_pullReady (c := c₁.register n q .queued s g) wellFormed now))

end Accepted

private theorem explained_deliver (c : Controller) (w : Waiter)
    (result : Except AdmissionError Completion) : c.Explained (c.deliver w result) :=
  explained_of_quiet (scheduler_deliver c w result) (events_deliver c w result)

theorem Finished.explained {call : Call} {outcome : CallOutcome}
    (h : Finished c call outcome now c') : c.Explained c' := by
  cases h with
  | @intro c₁ m e s w found processing request wellFormed roster _ _ same told =>
    obtain ⟨ts, hts⟩ := told
    rw [List.append_assoc] at hts
    have hroster : c₁.scheduler.roster = c.scheduler.roster.completed e := by
      rw [same.scheduler]
      exact roster
    have hstate : e.state = .processing := by simpa [Entry.isProcessing] using processing
    have htier : e.tier = call.request.tier := congrArg Request.tier request
    have hc₁ : c.Explained c₁ := by
      refine explained_of_one call.request.id hts ?_ ?_ ?_ ?_
      · exact (DispatchedAtOnce.transitions ts).append
          (.of_no_admission (by simp [AdmissionEvent.isAdmission]))
      · intro e he i hi
        rcases List.mem_append.1 he with he | he
        · obtain ⟨t, -, rfl⟩ := List.mem_map.1 he
          cases hi
        · rw [List.mem_singleton.1 he] at hi
          exact beq_iff_eq.1 hi
      · intro i hi
        rw [hroster, Roster.standing_completed found, if_neg hi]
      · intro told ht
        rw [hroster, Roster.standing_completed found, if_pos rfl, List.filter_append,
          AdmissionEvent.filter_tellsOf_transitions, List.nil_append]
        rw [Roster.standing_of_find? found, hstate, htier] at ht
        simpa using ht.complete outcome.result.isOk (now.since call.startedAt).millisWord
    have hpull := explained_pullReady (same.scheduler ▸ wellFormed : c₁.scheduler.WellFormed) now
    have hm : (c₁.pullReady now).Explained { c₁.pullReady now with telemetry := m } :=
      explained_of_quiet rfl rfl
    exact hc₁.trans (hpull.trans (hm.trans (explained_deliver _ w _)))

theorem Withdrawn.explained {id : RequestId} {b : Bool} (h : Withdrawn c id (b, c')) :
    c.Explained c' := by
  cases h with
  | no => exact explained_of_quiet rfl rfl
  | @yes c₁ e s w found queued _ roster _ _ same told =>
    have hroster : c₁.scheduler.roster = c.scheduler.roster.withdrawn e := by
      rw [same.scheduler]
      exact roster
    have hc₁ : c.Explained c₁ := by
      refine explained_of_one id told (.of_no_admission (by simp [AdmissionEvent.isAdmission]))
        ?_ ?_ ?_
      · simp
      · intro i hi
        rw [hroster, Roster.standing_withdrawn found, if_neg hi]
      · intro told ht
        rw [hroster, Roster.standing_withdrawn found, if_pos rfl]
        rw [Roster.standing_of_find? found, Entry.state, queued, Entry.tier] at ht
        simpa using ht.cancel
    exact hc₁.trans (explained_deliver _ w _)

theorem Tracked.explained (h : c.Tracked) {op : Operation} (ha : Applied c op c') :
    c.Explained c' := by
  cases ha with
  | submitted decided => exact (explained_receive h.scheduler _).trans decided.explained
  | began begins =>
    obtain ⟨d, -, -, rfl⟩ := beginAt?_eq_some begins
    exact explained_of_quiet rfl rfl
  | ended _ finished => exact finished.explained
  | withdrew _ withdrawn => exact withdrawn.explained
  | abandoned _ | drained | passed _ | idle _ => exact explained_of_quiet rfl rfl

theorem Tracked.explained_after (h : c.Tracked) (ops : List Operation) :
    c.Explained (c.after ops) := by
  induction ops generalizing c with
  | nil => exact explained_of_quiet rfl rfl
  | cons op ops ih =>
    exact (h.explained (h.toConsistent.applied op)).trans (ih (h.apply op))

/-- A submission whose identifier is tracked at the duplicate check is rejected, and nothing else is
told after the dispatches before the check. -/
theorem Tracked.rejects_tracked (h : c.Tracked) {q : Request}
    (ht : (c.receive now).scheduler.contains q.id = true) :
    ∃ ds, ∃ error : AdmissionError,
      c.news (c.submit q now) = ds ++ [.rejected q.id q.tier error.message] ∧
      ∀ e ∈ ds, e.isDispatch = true := by
  obtain ⟨ds, hds, hdispatch⟩ := tellsOfDispatches_receive c now
  have hnews (error : AdmissionError) {n : Nat} :
      c.news ((c.receive now).reject n q error) =
        ds ++ [.rejected q.id q.tier error.message] := by
    refine news_eq ?_
    rw [history_reject, hds, List.append_assoc]
  obtain ⟨path, hj⟩ := judged_submit (q := q) (h.receive now).scheduler
  generalize c.submit q now = c' at hj
  cases hj with
  | closed _ => exact ⟨ds, _, hnews _, hdispatch⟩
  | duplicate _ _ => exact ⟨ds, _, hnews _, hdispatch⟩
  | refused _ _ new _ | immediate _ _ new _ _ _ _ _ _ | queued _ _ new _ _ _ _ _ =>
    rw [ht] at new
    cases new

/-- After any run the events about a request, rejections aside, are those of lives that are over and
of the one that is open: nothing when the scheduler does not track the request, an admission while
it is queued, and its dispatch too while it is processing, all of one tier. An admission on the
immediate path is followed at once by a dispatch that did not wait. A further submission that finds
the request tracked ends in a rejection and is not admitted. -/
theorem events_tell_lives (config : AdmissionConfig) (ops : List Operation) :
    let c := (new config).after ops
    let events := c.events.history.toList
    (∀ id, ∃ (lives : List (List AdmissionEvent)) (opening : List AdmissionEvent),
      (∀ life ∈ lives, IsLife id life) ∧
      IsOpening id (c.scheduler.roster.standing id) opening ∧
      events.filter (AdmissionEvent.tellsOf id) = lives.flatten ++ opening) ∧
    (∀ before id t after, events = before ++ .admitted id t .immediate :: after →
      ∃ rest, after = .dispatched id t 0 :: rest) ∧
    ∀ q now, (c.receive now).scheduler.contains q.id = true →
      ∃ ds, ∃ error : AdmissionError,
        c.news (c.submit q now) = ds ++ [.rejected q.id q.tier error.message] ∧
        ∀ e ∈ ds, e.isDispatch = true := by
  intro c events
  obtain ⟨es, hes, honce, hlives⟩ := (tracked_new config).explained_after ops
  obtain rfl : events = es := hes
  refine ⟨fun id => ?_, honce, fun q now => (tracked_after config ops).rejects_tracked⟩
  have hnew : (new config).scheduler.roster.standing id = none := by
    rw [new, Scheduler.roster_new]
    rfl
  refine hlives id [] ?_
  rw [hnew]
  exact ⟨[], [], by simp, .untracked, rfl⟩

end Controller

end TieredAdmission
