import TieredAdmission.Proofs.Scheduler.Trimming

/-!
# Failed and withdrawn work leaves no trace

Delete from a run the calls that were refused, and the requests that were queued and withdrawn again
without having been selected or started. The calls that remain are answered as before. The two runs
are led side by side: the shorter one tracks what the longer one does, but for the requests that
will be withdrawn; and none of these is selected before that.
-/

namespace TieredAdmission

inductive SchedulerCall where
  | turn (turn : Turn)
  /-- Asks which request is dispatched next. -/
  | select (budget : CapacityBudget) (now : Instant)
  /-- Asks whether a newly submitted request may skip the queue. -/
  | mayDispatch (tier : Tier) (budget : CapacityBudget)

def SchedulerCall.isWithdrawal : SchedulerCall → Bool
  | .turn (.withdraw _) => true
  | _ => false

private theorem SchedulerCall.isWithdrawal_iff {call : SchedulerCall} :
    call.isWithdrawal = true ↔ ∃ id, call = .turn (.withdraw id) := by
  constructor
  · intro h
    unfold isWithdrawal at h
    split at h
    · exact ⟨_, rfl⟩
    · cases h
  · rintro ⟨id, rfl⟩
    rfl

inductive SchedulerAnswer where
  | reply (reply : Reply)
  | selected (request : Option Request)
  | mayDispatch (may : Bool)

/-- A turn ended with an error, or there was nothing to withdraw. -/
def Reply.isFailure : Reply → Bool
  | enqueue (.error _) | beginProcessing (.error _) | start (.error _) | complete (.error _)
  | withdraw none | dispatch (some (.error _)) => true
  | enqueue (.ok _) | beginProcessing (.ok _) | start (.ok _) | complete (.ok _)
  | withdraw (some _) | dispatch (some (.ok _)) | dispatch none => false

namespace SchedulerAnswer

def isFailure : SchedulerAnswer → Bool
  | reply r => r.isFailure
  | selected _ | mayDispatch _ => false

def unnumbered : SchedulerAnswer → SchedulerAnswer
  | reply r => reply r.unnumbered
  | selected q => selected q
  | mayDispatch may => mayDispatch may

end SchedulerAnswer

namespace Scheduler

def answer (s : Scheduler) : SchedulerCall → SchedulerAnswer
  | .turn turn => .reply (s.reply turn)
  | .select b now => .selected (s.selectNext b now)
  | .mayDispatch t b => .mayDispatch (s.canDispatchNow t b)

def afterCall (s : Scheduler) : SchedulerCall → Scheduler
  | .turn turn => s.apply turn
  | .select _ _ | .mayDispatch _ _ => s

def afterCalls (s : Scheduler) (calls : List SchedulerCall) : Scheduler := calls.foldl afterCall s

def answers : Scheduler → List SchedulerCall → List SchedulerAnswer
  | _, [] => []
  | s, call :: calls => s.answer call :: (s.afterCall call).answers calls

/-! ### What is deleted -/

/-- The request that a call names, or that a selection returns. -/
def concerns? (s : Scheduler) : SchedulerCall → Option RequestId
  | .turn (.enqueue q _) | .turn (.beginProcessing q _) => some q.id
  | .turn (.start id _) | .turn (.complete id) | .turn (.withdraw id) => some id
  | .turn (.dispatch b now) | .select b now => (s.selectNext b now).map Request.id
  | .mayDispatch _ _ => none

/-- The first call that concerns a request and does not fail withdraws it. -/
def vanishes (id : RequestId) : Scheduler → List SchedulerCall → Bool
  | _, [] => false
  | s, call :: calls =>
    if (s.answer call).isFailure || s.concerns? call != some id then
      vanishes id (s.afterCall call) calls
    else call.isWithdrawal

/-- A call is deleted if it fails, if it queues a request that will vanish, or if it withdraws such
a request. `gone` are the vanishing requests that are queued; those after a deleted call are
returned, and none for a call that is kept. -/
def deleted? (s : Scheduler) (gone : List RequestId) (call : SchedulerCall)
    (rest : List SchedulerCall) : Option (List RequestId) :=
  if (s.answer call).isFailure then some gone
  else
    match call with
    | .turn (.enqueue q now) =>
      if (s.apply (.enqueue q now)).vanishes q.id rest then some (q.id :: gone) else none
    | .turn (.withdraw id) => if id ∈ gone then some (gone.filter (· != id)) else none
    | _ => none

/-- The calls of a run that are not deleted, each with its answer. -/
def kept : Scheduler → List RequestId → List SchedulerCall → List (SchedulerCall × SchedulerAnswer)
  | _, _, [] => []
  | s, gone, call :: calls =>
    match s.deleted? gone call calls with
    | some gone => kept (s.afterCall call) gone calls
    | none => (call, s.answer call) :: kept (s.afterCall call) gone calls

variable {s s' s₁ : Scheduler} {gone gone' : List RequestId} {id : RequestId} {now : Instant}
  {call : SchedulerCall} {calls : List SchedulerCall} {turn : Turn} {d : Dispatch} {e : Entry}
  {q : Request}

theorem WellFormed.afterCall (h : s.WellFormed) (call : SchedulerCall) :
    (s.afterCall call).WellFormed := by
  cases call with
  | turn turn => exact h.apply turn
  | select b now => exact h
  | mayDispatch t b => exact h

private theorem emptied_afterCall (s : Scheduler) (call : SchedulerCall) :
    (s.afterCall call).emptied = s.emptied := by
  cases call with
  | turn turn => exact emptied_apply s turn
  | select b now => rfl
  | mayDispatch t b => rfl

/-- What is kept is a part of the run, with its answers. -/
theorem kept_sublist (s : Scheduler) (gone : List RequestId) (calls : List SchedulerCall) :
    (s.kept gone calls).Sublist (calls.zip (s.answers calls)) := by
  induction calls generalizing s gone with
  | nil => exact .refl _
  | cons call calls ih =>
    rw [kept, answers, List.zip_cons_cons]
    split
    · exact (ih ..).cons _
    · exact (ih ..).cons_cons _

/-! ### Turns that fail -/

theorem WellFormed.isFailure_enqueue (h : s.WellFormed) (q : Request) (now : Instant) :
    (s.reply (.enqueue q now)).isFailure = s.contains q.id := by
  cases hc : s.contains q.id with
  | true =>
    rw [reply, enqueue_of_contains hc]
    rfl
  | false =>
    obtain ⟨s', hs, -⟩ := h.enqueue now hc
    rw [reply, hs]
    rfl

private theorem WellFormed.isFailure_beginProcessing (h : s.WellFormed) (q : Request)
    (now : Instant) : (s.reply (.beginProcessing q now)).isFailure = s.contains q.id := by
  cases hc : s.contains q.id with
  | true =>
    rw [reply, beginProcessing_of_contains hc]
    rfl
  | false =>
    obtain ⟨s', hs, -⟩ := h.beginProcessing now hc
    rw [reply, hs]
    rfl

private theorem isFailure_start : (s.reply (.start id now)).isFailure = false ↔
    ∃ p, s.start id now = .ok p := by
  rw [reply]
  cases s.start id now <;> simp [Except.map, Reply.isFailure]

private theorem isFailure_complete : (s.reply (.complete id)).isFailure = false ↔
    ∃ p, s.complete id = .ok p := by
  rw [reply]
  cases s.complete id <;> simp [Except.map, Reply.isFailure]

theorem isFailure_withdraw : (s.reply (.withdraw id)).isFailure = false ↔
    ∃ p, s.withdraw id = some p := by
  rw [reply]
  cases s.withdraw id <;> simp [Reply.isFailure]

/-- What is selected can be started. -/
theorem WellFormed.isFailure_dispatch (h : s.WellFormed) (b : CapacityBudget) (now : Instant) :
    (s.reply (.dispatch b now)).isFailure = false := by
  rw [reply]
  cases hs : s.selectNext b now with
  | none => rfl
  | some q =>
    obtain ⟨e, s', -, -, -, hstart, -⟩ := h.start_selected hs now
    rw [Option.map_some, hstart]
    rfl

/-- A turn that fails changes no entry. -/
theorem WellFormed.failed (h : s.WellFormed) (hfail : (s.reply turn).isFailure = true) :
    SameEntries s.roster (s.apply turn).roster := by
  cases turn with
  | enqueue q now =>
    rw [h.isFailure_enqueue] at hfail
    rw [Scheduler.apply, enqueue_of_contains hfail]
    exact sameEntries_skipped s
  | beginProcessing q now =>
    rw [h.isFailure_beginProcessing] at hfail
    rw [Scheduler.apply, beginProcessing_of_contains hfail]
    exact sameEntries_skipped s
  | start id now =>
    cases hs : s.start id now with
    | ok p => simp [isFailure_start.2 ⟨p, hs⟩] at hfail
    | error e =>
      rw [Scheduler.apply, startOrStay, hs]
      exact .refl _
  | complete id =>
    cases hs : s.complete id with
    | ok p => simp [isFailure_complete.2 ⟨p, hs⟩] at hfail
    | error e =>
      rw [Scheduler.apply, hs]
      exact .refl _
  | withdraw id =>
    cases hs : s.withdraw id with
    | some p => simp [isFailure_withdraw.2 ⟨p, hs⟩] at hfail
    | none =>
      rw [Scheduler.apply, hs]
      exact .refl _
  | dispatch b now =>
    rw [h.isFailure_dispatch] at hfail
    cases hfail

/-! ### Calls that are deleted -/

namespace Trims

theorem failed (h : s.Trims gone s') (hfail : (s.answer call).isFailure = true) :
    (s.afterCall call).Trims gone s' where
  wellFormed := h.wellFormed.afterCall call
  wellFormed' := h.wellFormed'
  settings := h.settings.trans (emptied_afterCall s call).symm
  roster := by
    cases call with
    | turn turn =>
      exact h.roster.refused (h.wellFormed.apply turn).roster (h.wellFormed.failed hfail)
    | select b now => exact h.roster
    | mayDispatch t b => exact h.roster

theorem comes (h : s.Trims gone s') (hn : s.contains q.id = false) :
    (s.apply (.enqueue q now)).Trims (q.id :: gone) s' where
  wellFormed := h.wellFormed.apply _
  wellFormed' := h.wellFormed'
  settings := h.settings.trans (emptied_apply s _).symm
  roster := by
    obtain ⟨s₁, hs, -, hr, -⟩ := h.wellFormed.enqueue now hn
    rw [Scheduler.apply, hs, hr]
    exact h.roster.comes hn

theorem goes (h : s.Trims gone s') (hs : s.withdraw id = some (q, s₁)) (hid : id ∈ gone) :
    (s.apply (.withdraw id)).Trims (gone.filter (· != id)) s' where
  wellFormed := h.wellFormed.apply _
  wellFormed' := h.wellFormed'
  settings := h.settings.trans (emptied_apply s _).symm
  roster := by
    obtain ⟨e, hf, hq, -, -, hr, -⟩ := h.wellFormed.withdraw_some hs
    rw [Scheduler.apply, hs]
    dsimp only
    rw [hr]
    exact h.roster.goes hf hq hid

/-! ### Calls that are kept -/

theorem start (h : s.Trims gone s') (hs : s.start id now = .ok (d, s₁)) (hid : id ∉ gone) :
    ∃ s₁', s'.start id now = .ok (d, s₁') ∧ s₁.roster.Trims gone s₁'.roster := by
  obtain ⟨e, hf, hq, rfl, -, hr, -⟩ := h.wellFormed.start_ok hs
  obtain ⟨e', hf', he⟩ := h.roster.exists_find? hf hid
  have hq' : e'.stage = .queued := he.stage_eq.symm.trans hq
  obtain ⟨s₁', hs'⟩ := exists_start now hf' hq'
  obtain ⟨f, hff, -, -, -, hr', -⟩ := h.wellFormed'.start_ok hs'
  obtain rfl : e' = f := Option.some.inj (hf'.symm.trans hff)
  refine ⟨s₁', by rw [hs', he.request_eq, he.enqueuedAt_eq], ?_⟩
  rw [hr, hr']
  exact h.roster.started hf hf' he hq

theorem complete (h : s.Trims gone s') (hs : s.complete id = .ok (e, s₁)) (hid : id ∉ gone) :
    ∃ e' s₁', s'.complete id = .ok (e', s₁') ∧ e.unnumbered = e'.unnumbered ∧
      s₁.roster.Trims gone s₁'.roster := by
  obtain ⟨hf, hp, -, hr, -⟩ := h.wellFormed.complete_ok hs
  obtain ⟨e', hf', he⟩ := h.roster.exists_find? hf hid
  have hp' : e'.isProcessing = true := by
    rwa [Entry.isProcessing, Entry.state, he.stage_eq] at hp
  obtain ⟨s₁', hs'⟩ := exists_complete hf' hp'
  obtain ⟨-, -, -, hr', -⟩ := h.wellFormed'.complete_ok hs'
  refine ⟨e', s₁', hs', he.same, ?_⟩
  rw [hr, hr']
  exact h.roster.completed hf hf' he hp

theorem withdraw (h : s.Trims gone s') (hs : s.withdraw id = some (q, s₁)) (hid : id ∉ gone) :
    ∃ s₁', s'.withdraw id = some (q, s₁') ∧ s₁.roster.Trims gone s₁'.roster := by
  obtain ⟨e, hf, hq, rfl, -, hr, -⟩ := h.wellFormed.withdraw_some hs
  obtain ⟨e', hf', he⟩ := h.roster.exists_find? hf hid
  have hq' : e'.stage = .queued := he.stage_eq.symm.trans hq
  obtain ⟨s₁', hs'⟩ := exists_withdraw hf' hq'
  obtain ⟨f, hff, -, -, -, hr', -⟩ := h.wellFormed'.withdraw_some hs'
  obtain rfl : e' = f := Option.some.inj (hf'.symm.trans hff)
  refine ⟨s₁', by rw [hs', he.request_eq], ?_⟩
  rw [hr, hr']
  exact h.roster.withdrawn hf hf' he hq

/-- A turn about a request of both runs, which does not fail, is answered alike. -/
theorem replied (h : s.Trims gone s') (hok : (s.reply turn).isFailure = false)
    (hid : ∀ id ∈ gone, s.concerns? (.turn turn) ≠ some id) :
    (s'.reply turn).unnumbered = (s.reply turn).unnumbered ∧
      (s.apply turn).roster.Trims gone (s'.apply turn).roster := by
  cases turn with
  | enqueue q now =>
    rw [h.wellFormed.isFailure_enqueue] at hok
    obtain ⟨s₁, hs, -, hr, -⟩ := h.wellFormed.enqueue now hok
    obtain ⟨s₁', hs', -, hr', -⟩ := h.wellFormed'.enqueue now (h.roster.contains_eq_false hok)
    simp only [reply, Scheduler.apply, hs, hs', hr, hr']
    exact ⟨trivial, h.roster.addQueued hok⟩
  | beginProcessing q now =>
    rw [h.wellFormed.isFailure_beginProcessing] at hok
    obtain ⟨s₁, hs, -, hr, -⟩ := h.wellFormed.beginProcessing now hok
    obtain ⟨s₁', hs', -, hr', -⟩ :=
      h.wellFormed'.beginProcessing now (h.roster.contains_eq_false hok)
    simp only [reply, Scheduler.apply, hs, hs', hr, hr']
    exact ⟨trivial, h.roster.addProcessing hok⟩
  | start id now =>
    obtain ⟨⟨d, s₁⟩, hs⟩ := isFailure_start.1 hok
    obtain ⟨s₁', hs', hroster⟩ := h.start hs fun hmem => hid id hmem rfl
    simp only [reply, Scheduler.apply, startOrStay, hs, hs']
    exact ⟨rfl, hroster⟩
  | complete id =>
    obtain ⟨⟨e, s₁⟩, hs⟩ := isFailure_complete.1 hok
    obtain ⟨e', s₁', hs', hsame, hroster⟩ := h.complete hs fun hmem => hid id hmem rfl
    simp only [reply, Scheduler.apply, hs, hs', Except.map, Reply.unnumbered, hsame]
    exact ⟨trivial, hroster⟩
  | withdraw id =>
    obtain ⟨⟨q, s₁⟩, hs⟩ := isFailure_withdraw.1 hok
    obtain ⟨s₁', hs', hroster⟩ := h.withdraw hs fun hmem => hid id hmem rfl
    simp only [reply, Scheduler.apply, hs, hs']
    exact ⟨rfl, hroster⟩
  | dispatch b now =>
    have hlose (q : Request) (hq : s.selectNext b now = some q) : q.id ∉ gone := fun hmem =>
      hid q.id hmem (by rw [concerns?, hq, Option.map_some])
    rw [reply, reply, Scheduler.apply, Scheduler.apply, h.selectNext_eq hlose]
    cases hselect : s.selectNext b now with
    | none => exact ⟨rfl, h.roster⟩
    | some q =>
      obtain ⟨e, s₁, -, -, -, hs, -⟩ := h.wellFormed.start_selected hselect now
      obtain ⟨s₁', hs', hroster⟩ := h.start hs (hlose q hselect)
      simp only [startOrStay, Option.map_some, hs, hs']
      exact ⟨rfl, hroster⟩

theorem answered (h : s.Trims gone s') (hok : (s.answer call).isFailure = false)
    (hid : ∀ id ∈ gone, s.concerns? call ≠ some id) :
    (s'.answer call).unnumbered = (s.answer call).unnumbered ∧
      (s.afterCall call).Trims gone (s'.afterCall call) := by
  cases call with
  | turn turn =>
    obtain ⟨hanswer, hroster⟩ := h.replied hok hid
    refine ⟨congrArg SchedulerAnswer.reply hanswer, h.wellFormed.apply turn,
      h.wellFormed'.apply turn, ?_, hroster⟩
    exact (emptied_apply s' turn).trans (h.settings.trans (emptied_apply s turn).symm)
  | select b now =>
    refine ⟨?_, h⟩
    rw [answer, answer, h.selectNext_eq fun q hq hmem => hid q.id hmem (by
      rw [concerns?, hq, Option.map_some])]
  | mayDispatch t b =>
    refine ⟨?_, h⟩
    rw [answer, answer, h.canDispatchNow_eq]

end Trims

/-! ### Runs -/

private theorem vanishes_of_failed (hv : s.vanishes id (call :: calls) = true)
    (hfail : (s.answer call).isFailure = true) : (s.afterCall call).vanishes id calls = true := by
  rwa [vanishes, hfail, Bool.true_or, if_pos rfl] at hv

theorem vanishes_of_ne (hv : s.vanishes id (call :: calls) = true)
    (hne : s.concerns? call ≠ some id) : (s.afterCall call).vanishes id calls = true := by
  rwa [vanishes, if_pos (by simp [hne])] at hv

private theorem isWithdrawal_of_vanishes (hv : s.vanishes id (call :: calls) = true)
    (hok : (s.answer call).isFailure = false) (hid : s.concerns? call = some id) :
    call.isWithdrawal = true := by
  rwa [vanishes, hok, hid, if_neg (by simp)] at hv

/-- What the two runs have in common before some calls of the longer one. -/
structure Abreast (calls : List SchedulerCall) (gone : List RequestId) (s s' : Scheduler) :
    Prop where
  trims : s.Trims gone s'
  vanish : ∀ id ∈ gone, s.vanishes id calls = true

/-- The longer run makes a call that is deleted. -/
theorem Abreast.deleted (h : Abreast (call :: calls) gone s s')
    (hd : s.deleted? gone call calls = some gone') : Abreast calls gone' (s.afterCall call) s' := by
  unfold deleted? at hd
  split at hd
  · next hfail =>
    obtain rfl := Option.some.inj hd
    exact ⟨h.trims.failed hfail, fun id hid => vanishes_of_failed (h.vanish id hid) hfail⟩
  · next hok =>
    replace hok := Bool.eq_false_iff.2 hok
    split at hd
    · next q now =>
      have hn : s.contains q.id = false :=
        (h.trims.wellFormed.isFailure_enqueue q now).symm.trans hok
      obtain ⟨hvanishes, heq⟩ := Option.ite_none_right_eq_some.1 hd
      obtain rfl := Option.some.inj heq
      refine ⟨h.trims.comes hn, fun id hid => ?_⟩
      rcases List.mem_cons.1 hid with rfl | hid
      · exact hvanishes
      · refine vanishes_of_ne (h.vanish id hid) fun heq => ?_
        exact h.trims.roster.ne_of_gone hn hid (Option.some.inj heq).symm
    · next id =>
      obtain ⟨hmem, heq⟩ := Option.ite_none_right_eq_some.1 hd
      obtain rfl := Option.some.inj heq
      obtain ⟨⟨q, s₁⟩, hs⟩ := isFailure_withdraw.1 hok
      refine ⟨h.trims.goes hs hmem, fun i hi => ?_⟩
      obtain ⟨hi, hne⟩ := List.mem_filter.1 hi
      refine vanishes_of_ne (h.vanish i hi) fun heq => ?_
      simp [Option.some.inj heq] at hne
    · cases hd

/-- Both runs make a call. -/
theorem Abreast.kept (h : Abreast (call :: calls) gone s s')
    (hd : s.deleted? gone call calls = none) :
    (s'.answer call).unnumbered = (s.answer call).unnumbered ∧
      Abreast calls gone (s.afterCall call) (s'.afterCall call) := by
  have hok : (s.answer call).isFailure = false := by
    rw [← Bool.not_eq_true]
    intro hfail
    unfold deleted? at hd
    rw [if_pos hfail] at hd
    cases hd
  have hid : ∀ id ∈ gone, s.concerns? call ≠ some id := by
    intro id hid hconcerns
    obtain ⟨i, rfl⟩ := SchedulerCall.isWithdrawal_iff.1
      (isWithdrawal_of_vanishes (h.vanish id hid) hok hconcerns)
    obtain rfl : i = id := Option.some.inj hconcerns
    simp [deleted?, hok, hid] at hd
  obtain ⟨hanswer, htrims⟩ := h.trims.answered hok hid
  exact ⟨hanswer, htrims, fun id hmem => vanishes_of_ne (h.vanish id hmem) (hid id hmem)⟩

theorem Abreast.run (h : Abreast calls gone s s') :
    (s'.answers ((s.kept gone calls).map Prod.fst)).map SchedulerAnswer.unnumbered =
        (s.kept gone calls).map (fun p => p.2.unnumbered) ∧
      (s.afterCalls calls).Trims [] (s'.afterCalls ((s.kept gone calls).map Prod.fst)) := by
  induction calls generalizing s s' gone with
  | nil =>
    obtain rfl : gone = [] :=
      List.eq_nil_iff_forall_not_mem.2 fun id hid => Bool.false_ne_true (h.vanish id hid)
    exact ⟨rfl, h.trims⟩
  | cons call calls ih =>
    cases hd : s.deleted? gone call calls with
    | some gone' =>
      rw [Scheduler.kept, hd]
      exact ih (h.deleted hd)
    | none =>
      obtain ⟨hanswer, hrest⟩ := h.kept hd
      obtain ⟨hanswers, htrims⟩ := ih hrest
      rw [Scheduler.kept, hd]
      refine ⟨?_, htrims⟩
      simp only [List.map_cons, answers, hanswer, hanswers]

/-- Delete from a run every call that failed, and every request that was queued and withdrawn with
nothing in between. The other calls are answered as before but for the numbers in the order of
arrival, and the same requests are tracked in the end. -/
theorem discarded_work_leaves_no_trace (c : SchedulerConfig) (calls : List SchedulerCall) :
    let kept := (new c).kept [] calls
    let s := (new c).afterCalls calls
    let s' := (new c).afterCalls (kept.map Prod.fst)
    kept.Sublist (calls.zip ((new c).answers calls)) ∧
      ((new c).answers (kept.map Prod.fst)).map SchedulerAnswer.unnumbered =
        kept.map (fun p => p.2.unnumbered) ∧
      s.roster.entries.map Entry.unnumbered = s'.roster.entries.map Entry.unnumbered ∧
      s.queued = s'.queued ∧ s.processing = s'.processing := by
  intro kept s s'
  have hnew : Abreast calls [] (new c) (new c) := by
    refine ⟨⟨wellFormed_new c, wellFormed_new c, rfl, ?_⟩, fun id hid => by cases hid⟩
    exact ⟨(wellFormed_new c).roster, (wellFormed_new c).roster, rfl, fun id hid => by cases hid⟩
  obtain ⟨hanswers, htrims⟩ := hnew.run
  have hentries := htrims.roster.entries
  rw [Roster.besides_nil, Roster.besides_nil] at hentries
  exact ⟨kept_sublist _ _ _, hanswers, hentries, htrims.roster.queued, htrims.roster.processing⟩

/-- The refused calls go, and so does the request that is withdrawn before its turn. -/
example :
    ((new {}).kept []
      [.turn (.enqueue ⟨"a", .premium, .null, {}⟩ ⟨0⟩),
        .turn (.enqueue ⟨"a", .free, .null, {}⟩ ⟨1⟩),
        .turn (.enqueue ⟨"b", .premium, .null, {}⟩ ⟨2⟩), .select (.ofCounts 1 0) ⟨3⟩,
        .turn (.start "c" ⟨4⟩), .turn (.withdraw "b"), .turn (.start "a" ⟨5⟩)]).map
      (fun p => (new {}).concerns? p.1) = [some "a", none, some "a"] := by
  decide +kernel

end Scheduler

end TieredAdmission
