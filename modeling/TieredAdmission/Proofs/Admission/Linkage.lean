import TieredAdmission.Proofs.Admission.Ledger
import TieredAdmission.Proofs.Admission.Tracking

/-!
# The ledger and the controller

The open submissions of the ledger are, in their order, the entries of the roster and the waiters of
the table. A pending dispatch belongs to an open submission without a call, a running call to the
open submission whose only call it is. The controller itself knows a request only by its identifier;
what ties an identifier to one submission is that no two open ones share it.
-/

namespace TieredAdmission

/-- What the ledger says of an entry. -/
def Entry.view (e : Entry) : Request × Instant × Stage := (e.request, e.enqueuedAt, e.stage)

/-- What the roster says of an open submission. -/
def Submission.view (s : Submission) : Request × Instant × Stage :=
  (s.request, s.submittedAt, s.stage)

/-- The view with the stage of one identifier changed. -/
def restage (id : RequestId) (stage : Stage) (v : Request × Instant × Stage) :
    Request × Instant × Stage := if v.1.id == id then (v.1, v.2.1, stage) else v

private theorem map_view_setStage (id : RequestId) (stage : Stage) (es : List Entry) :
    (Roster.setStage id stage es).map Entry.view = (es.map Entry.view).map (restage id stage) := by
  rw [Roster.setStage, List.map_map, List.map_map]
  refine List.map_congr_left fun e _ => ?_
  by_cases h : e.request.id = id <;> simp [Entry.view, restage, Entry.id, h]

private theorem map_view_erase (id : RequestId) (es : List Entry) :
    (Roster.erase id es).map Entry.view = (es.map Entry.view).filter fun v => v.1.id != id := by
  rw [Roster.erase, List.filter_map]
  rfl

theorem Submission.stage_eq_queued_iff {s : Submission} :
    s.stage = .queued ↔ s.dispatchedAt = none := by
  unfold stage
  cases s.dispatchedAt <;> simp

/-- A submission that waited has been dispatched. -/
theorem Submission.dispatchedAt_ne_none {s : Submission} {d : Duration} (h : s.waited? = some d) :
    s.dispatchedAt ≠ none := by
  intro hn
  rw [waited?, hn] at h
  cases h

/-- Dispatching changes the stages of the open submissions of the identifier. -/
theorem Ledger.map_view_dispatch (ls : Ledger) (id : RequestId) (now : Instant) :
    ((ls.amendOpen id (.dispatch now)).filter Submission.isOpen).map Submission.view =
      ((ls.filter Submission.isOpen).map Submission.view).map (restage id (.processing now)) := by
  rw [amendOpen, filter_amend (Submission.isOpen_dispatch now), amend, List.map_map, List.map_map]
  refine List.map_congr_left fun s hs => ?_
  have ho := (List.mem_filter.1 hs).2
  by_cases h : s.request.id = id <;>
    simp [Submission.view, restage, Submission.hasId, Submission.dispatch, Submission.stage, ho, h]

namespace Controller

/-- The open submissions are what the controller has in hand. -/
structure Linked (c : Controller) (ls : Ledger) : Prop where
  numbers : ls.map Submission.number = List.range ls.length
  waiters : c.waiters = (ls.filter Submission.isOpen).map Submission.waiter
  entries : c.scheduler.roster.entries.map Entry.view =
    (ls.filter Submission.isOpen).map Submission.view
  queued : ∀ s ∈ ls, s.isOpen = true → s.dispatchedAt = none →
    s.path = some .queued ∧ s.calls = []
  pending : ∀ d ∈ c.pending, ∃ s ∈ ls, s.isOpen = true ∧ s.request = d.request ∧
    s.waited? = some d.waited ∧ s.calls = []
  running : ∀ call ∈ c.running, ∃ s ∈ ls, s.isOpen = true ∧ s.request = call.request ∧
    s.waited? = some call.waited ∧ s.calls = [call]
  begun : (ls.flatMap Submission.calls).Perm c.begun.toList
  calls : ∀ s ∈ ls, s.calls.length ≤ 1 ∧ ∀ call ∈ s.calls, call.request = s.request

variable {c c' : Controller} {ls : Ledger} {now : Instant} {id : RequestId} {e : Entry}
  {s k : Submission}

theorem linked_new (config : AdmissionConfig) : (new config).Linked [] where
  numbers := rfl
  waiters := rfl
  entries := by simp [new, Scheduler.roster_new]
  queued := by simp
  pending := by simp [new]
  running := by simp [new]
  begun := by simp [new]
  calls := by simp

/-- Only these parts of the controller are linked. -/
theorem Linked.congr (h : c.Linked ls) (hw : c'.waiters = c.waiters)
    (hs : c'.scheduler.roster.entries = c.scheduler.roster.entries) (hp : c'.pending = c.pending)
    (hr : c'.running = c.running) (hb : c'.begun = c.begun) : c'.Linked ls where
  numbers := h.numbers
  waiters := hw.trans h.waiters
  entries := by rw [hs, h.entries]
  queued := h.queued
  pending := hp ▸ h.pending
  running := hr ▸ h.running
  begun := hb ▸ h.begun
  calls := h.calls

theorem Linked.of_sameWork (h : c.Linked ls) (hs : c.SameWork c') : c'.Linked ls :=
  h.congr hs.waiters (by rw [hs.scheduler]) hs.pending hs.running hs.begun

/-! ### The open submission of an identifier -/

theorem Linked.nodup_open (h : c.Linked ls) (hc : c.scheduler.WellFormed) :
    ((ls.filter Submission.isOpen).map fun s => s.request.id).Nodup := by
  have hn := hc.roster.nodup
  have hmap : c.scheduler.roster.entries.map Entry.id =
      (ls.filter Submission.isOpen).map fun s => s.request.id := by
    have := congrArg (List.map fun v => v.1.id) h.entries
    rw [List.map_map, List.map_map] at this
    exact this
  rwa [hmap] at hn

theorem Linked.eq_of_id (h : c.Linked ls) (hc : c.scheduler.WellFormed) (hs : s ∈ ls)
    (hso : s.isOpen = true) (hk : k ∈ ls) (hko : k.isOpen = true)
    (hid : s.request.id = k.request.id) : s = k :=
  List.inj_on_of_nodup_map (h.nodup_open hc) (List.mem_filter.2 ⟨hs, hso⟩)
    (List.mem_filter.2 ⟨hk, hko⟩) hid

theorem Linked.exists_open (h : c.Linked ls) (hf : c.scheduler.roster.find? id = some e) :
    ∃ s ∈ ls, s.isOpen = true ∧ s.request = e.request ∧ s.submittedAt = e.enqueuedAt ∧
      s.stage = e.stage := by
  have hmem : e.view ∈ c.scheduler.roster.entries.map Entry.view :=
    List.mem_map_of_mem (Roster.mem_of_find? hf)
  rw [h.entries] at hmem
  obtain ⟨s, hs, hview⟩ := List.mem_map.1 hmem
  obtain ⟨hs, ho⟩ := List.mem_filter.1 hs
  simp only [Submission.view, Entry.view, Prod.mk.injEq] at hview
  exact ⟨s, hs, ho, hview.1, hview.2.1, hview.2.2⟩

theorem Linked.exists_entry (h : c.Linked ls) (hc : c.scheduler.WellFormed) (hs : s ∈ ls)
    (ho : s.isOpen = true) : ∃ e, c.scheduler.roster.find? s.request.id = some e ∧
      e.request = s.request ∧ e.stage = s.stage := by
  have hview : s.view ∈ (ls.filter Submission.isOpen).map Submission.view :=
    List.mem_map_of_mem (List.mem_filter.2 ⟨hs, ho⟩)
  rw [← h.entries] at hview
  obtain ⟨e, he, hev⟩ := List.mem_map.1 hview
  simp only [Submission.view, Entry.view, Prod.mk.injEq] at hev
  have hf := hc.roster.find?_id he
  rw [Entry.id, hev.1] at hf
  exact ⟨e, hf, hev.1, hev.2.2⟩

/-- The waiter of an identifier stands for the open submission of that identifier. -/
theorem Linked.eq_waiter (h : c.Linked ls) (hc : c.scheduler.WellFormed) {w : Waiter}
    (hw : c.waiter? id = some w) (hs : s ∈ ls) (ho : s.isOpen = true) (hid : s.request.id = id) :
    w = s.waiter := by
  have hmem := List.mem_of_find?_eq_some hw
  have hwid : w.id = id := by simpa using List.find?_some hw
  rw [h.waiters] at hmem
  obtain ⟨k, hk, rfl⟩ := List.mem_map.1 hmem
  obtain ⟨hk, hko⟩ := List.mem_filter.1 hk
  rw [h.eq_of_id hc hk hko hs ho (hwid.trans hid.symm)]

/-- The numbers tell the submissions apart. -/
theorem Linked.eq_of_number (h : c.Linked ls) (hs : s ∈ ls) (hk : k ∈ ls)
    (hn : s.number = k.number) : s = k := by
  have hnodup : (ls.map Submission.number).Nodup := h.numbers ▸ List.nodup_range
  exact List.inj_on_of_nodup_map hnodup hs hk hn

theorem numbers_amend {p : Submission → Bool} (f : Submission → Submission)
    (h : ls.map Submission.number = List.range ls.length) (hf : ∀ s, (f s).number = s.number) :
    (ls.amend p f).map Submission.number = List.range (ls.amend p f).length := by
  rw [Ledger.map_amend f hf, h, Ledger.length_amend]

/-! ### Arrival -/

/-- A new submission comes last, with a waiter and an entry if it is open. -/
theorem Linked.append (h : c.Linked ls) (hn : s.number = ls.length) (hcalls : s.calls = [])
    (hqueued : s.isOpen = true → s.dispatchedAt = none → s.path = some .queued)
    (hw : c'.waiters = c.waiters ++ ([s].filter Submission.isOpen).map Submission.waiter)
    (hs : c'.scheduler.roster.entries.map Entry.view =
      c.scheduler.roster.entries.map Entry.view ++
        ([s].filter Submission.isOpen).map Submission.view)
    (hp : ∀ d ∈ c'.pending, d ∈ c.pending ∨
      s.isOpen = true ∧ s.request = d.request ∧ s.waited? = some d.waited)
    (hr : c'.running = c.running) (hb : c'.begun = c.begun) : c'.Linked (ls ++ [s]) where
  numbers := by
    rw [List.map_append, h.numbers, List.map_singleton, hn, List.length_append]
    exact List.range_succ.symm
  waiters := by rw [hw, h.waiters, List.filter_append, List.map_append]
  entries := by rw [hs, h.entries, List.filter_append, List.map_append]
  queued := by
    intro k hk hko hkd
    rcases List.mem_append.1 hk with hk | hk
    · exact h.queued k hk hko hkd
    · rw [List.mem_singleton.1 hk] at hko hkd ⊢
      exact ⟨hqueued hko hkd, hcalls⟩
  pending := by
    intro d hd
    rcases hp d hd with hd | ⟨ho, hreq, hwaited⟩
    · obtain ⟨k, hk, hrest⟩ := h.pending d hd
      exact ⟨k, List.mem_append_left _ hk, hrest⟩
    · exact ⟨s, by simp, ho, hreq, hwaited, hcalls⟩
  running := by
    intro call hcall
    rw [hr] at hcall
    obtain ⟨k, hk, hrest⟩ := h.running call hcall
    exact ⟨k, List.mem_append_left _ hk, hrest⟩
  begun := by
    rw [List.flatMap_append, hb]
    simpa [hcalls] using h.begun
  calls := by
    intro k hk
    rcases List.mem_append.1 hk with hk | hk
    · exact h.calls k hk
    · rw [List.mem_singleton.1 hk, hcalls]
      simp

/-! ### Dispatch from the queue -/

theorem Linked.launch (h : c.Linked ls) (hc : c.Consistent) {next : Request} {d : Dispatch}
    {s : Scheduler} (hs : c.scheduler.start next.id now = .ok (d, s)) :
    (c.launch next d s now).Linked (ls.amendOpen next.id (.dispatch now)) := by
  obtain ⟨e, hf, hq, rfl, -, hr, -⟩ := hc.scheduler.start_ok hs
  have hid := Roster.find?_id hf
  obtain ⟨k, hk, hko, hkr, hka, hks⟩ := h.exists_open hf
  have hkid : k.request.id = next.id := by rw [hkr]; exact hid
  have hkd : k.dispatchedAt = none := Submission.stage_eq_queued_iff.1 (hks.trans hq)
  obtain ⟨hkpath, hkcalls⟩ := h.queued k hk hko hkd
  -- A submission that has been dispatched has another identifier.
  have hother {s : Submission} {w : Duration} (hs : s ∈ ls) (ho : s.isOpen = true)
      (hw : s.waited? = some w) : s ∈ ls.amendOpen next.id (.dispatch now) := by
    refine Ledger.mem_amend_of_neg hs ?_
    by_contra hp
    have hsid : s.request.id = next.id := by simpa [ho, Submission.hasId] using hp
    rw [h.eq_of_id hc.scheduler hs ho hk hko (hsid.trans hkid.symm)] at hw
    exact Submission.dispatchedAt_ne_none hw hkd
  refine ⟨numbers_amend _ h.numbers fun _ => rfl, ?_, ?_, ?_, ?_, ?_, ?_, ?_⟩
  · change c.waiters = _
    exact h.waiters.trans (Ledger.map_open_amend (Submission.dispatch now) (fun _ => rfl) fun _ => rfl).symm
  · change s.roster.entries.map Entry.view = _
    rw [Ledger.map_view_dispatch, ← h.entries, hr, ← hid]
    exact map_view_setStage _ _ _
  · refine Ledger.forall_mem_amend h.queued fun s _ _ _ hd => ?_
    cases hd
  · intro d hd
    rcases List.mem_append.1 hd with hd | hd
    · obtain ⟨s, hs, ho, hreq, hw, hcalls⟩ := h.pending d hd
      exact ⟨s, hother hs ho hw, ho, hreq, hw, hcalls⟩
    · rw [List.mem_singleton.1 hd]
      refine ⟨k.dispatch now, Ledger.mem_amend_of_pos hk ?_, hko, hkr, ?_, hkcalls⟩
      · simp [hko, Submission.hasId, hkid]
      · simp [Submission.waited?, Submission.dispatch, hkpath, hka]
  · intro call hcall
    obtain ⟨s, hs, ho, hreq, hw, hcalls⟩ := h.running call hcall
    exact ⟨s, hother hs ho hw, ho, hreq, hw, hcalls⟩
  · rw [Ledger.amendOpen, Ledger.flatMap_calls_amend (Submission.dispatch now) fun _ => rfl]
    exact h.begun
  · exact Ledger.forall_mem_amend h.calls fun s hs _ => h.calls s hs

/-! ### The beginning of a call -/

/-- The call that begins is noted at one submission. -/
theorem Linked.begun_call (h : c.Linked ls) (hc : c.Consistent) (hk : k ∈ ls)
    (hko : k.isOpen = true) (hid : k.request.id = id) (call : Call) :
    ((ls.amendOpen id (.call call)).flatMap Submission.calls).Perm (c.begun.push call).toList := by
  have hls : ls.Nodup := List.Nodup.of_map _ (h.numbers ▸ List.nodup_range)
  refine (Ledger.flatMap_calls_call hk hls (fun s hs => ?_) call).trans ?_
  · constructor
    · intro hp
      obtain ⟨ho, hsid⟩ := Bool.and_eq_true_iff.1 hp
      exact h.eq_of_id hc.scheduler hs ho hk hko ((beq_iff_eq.1 hsid).trans hid.symm)
    · rintro rfl
      simp [hko, Submission.hasId, hid]
  · rw [Array.toList_push]
    exact h.begun.append_right _

theorem Linked.beginAt? (h : c.Linked ls) (hc : c.Consistent) {position : Nat} {call : Call}
    (hb : c.beginAt? position now = some (call, c')) :
    c'.Linked (ls.amendOpen call.request.id (.call call)) := by
  obtain ⟨d, hd, rfl, rfl⟩ := beginAt?_eq_some hb
  obtain ⟨k, hk, hko, hkr, hkw, hkcalls⟩ := h.pending d (List.mem_of_getElem? hd)
  have hkid : k.request.id = d.request.id := by rw [hkr]
  have hnew := hc.id_not_mem_others hd
  -- The submissions of the other calls have other identifiers.
  have hother {s : Submission} (hs : s ∈ ls) (hmem : s.request ∈
      (c.pending.eraseIdx position).map Dispatch.request ++ c.running.map Call.request) :
      s ∈ ls.amendOpen d.request.id (.call ⟨d.request, d.waited, now⟩) := by
    refine Ledger.mem_amend_of_neg hs ?_
    by_contra hp
    have hsid := (Bool.and_eq_true_iff.1 ((Bool.not_eq_false _).mp hp)).2
    exact hnew (beq_iff_eq.1 hsid ▸ List.mem_map_of_mem hmem)
  refine ⟨numbers_amend _ h.numbers fun _ => rfl, ?_, ?_, ?_, ?_, ?_,
    h.begun_call hc hk hko hkid _, ?_⟩
  · change c.waiters = _
    exact h.waiters.trans (Ledger.map_open_amend (Submission.call _) (fun _ => rfl) fun _ => rfl).symm
  · change c.scheduler.roster.entries.map Entry.view = _
    exact h.entries.trans (Ledger.map_open_amend (Submission.call _) (fun _ => rfl) fun _ => rfl).symm
  · refine Ledger.forall_mem_amend h.queued fun s hs hp ho hd => ?_
    have hsid := beq_iff_eq.1 (Bool.and_eq_true_iff.1 hp).2
    rw [← h.eq_of_id hc.scheduler hs ho hk hko (hsid.trans hkid.symm)] at hkw
    exact absurd hd (Submission.dispatchedAt_ne_none hkw)
  · intro d' hd'
    obtain ⟨s, hs, ho, hreq, hw, hcalls⟩ := h.pending d' (List.mem_of_mem_eraseIdx hd')
    refine ⟨s, hother hs ?_, ho, hreq, hw, hcalls⟩
    rw [hreq]
    exact List.mem_append_left _ (List.mem_map_of_mem hd')
  · intro call hcall
    rcases List.mem_append.1 hcall with hcall | hcall
    · obtain ⟨s, hs, ho, hreq, hw, hcalls⟩ := h.running call hcall
      refine ⟨s, hother hs ?_, ho, hreq, hw, hcalls⟩
      rw [hreq]
      exact List.mem_append_right _ (List.mem_map_of_mem hcall)
    · rw [List.mem_singleton.1 hcall]
      refine ⟨k.call _, Ledger.mem_amend_of_pos hk ?_, hko, hkr, hkw, ?_⟩
      · simp [hko, Submission.hasId, hkid]
      · simp [Submission.call, hkcalls]
  · refine Ledger.forall_mem_amend h.calls fun s hs hp => ?_
    obtain ⟨ho, hsid⟩ := Bool.and_eq_true_iff.1 hp
    rw [h.eq_of_id hc.scheduler hs ho hk hko ((beq_iff_eq.1 hsid).trans hkid.symm)]
    simp [Submission.call, hkcalls, hkr]

/-! ### The end of a submission -/

/-- An ended submission leaves with its entry, its waiter and its call. -/
theorem Linked.close (h : c.Linked ls) (ending : Ending)
    (hw : c'.waiters = c.waiters.filter fun w => w.id != id)
    (hs : c'.scheduler.roster.entries = Roster.erase id c.scheduler.roster.entries)
    (hp : c'.pending = c.pending) (hpid : ∀ d ∈ c.pending, d.request.id ≠ id)
    (hr : c'.running = c.running.filter fun r => r.request.id != id)
    (hb : c'.begun = c.begun) : c'.Linked (ls.amendOpen id (.close ending)) where
  numbers := numbers_amend _ h.numbers fun _ => rfl
  waiters := by
    rw [Ledger.filter_isOpen_close, hw, h.waiters, List.filter_map]
    rfl
  entries := by
    rw [Ledger.filter_isOpen_close, hs, map_view_erase, h.entries, List.filter_map]
    rfl
  queued := by
    refine Ledger.forall_mem_amend h.queued fun s _ _ ho => ?_
    rw [Submission.isOpen_close] at ho
    cases ho
  pending := by
    intro d hd
    rw [hp] at hd
    obtain ⟨s, hs, ho, hreq, hrest⟩ := h.pending d hd
    refine ⟨s, Ledger.mem_amend_of_neg hs ?_, ho, hreq, hrest⟩
    simpa [ho, Submission.hasId, hreq] using hpid d hd
  running := by
    intro call hcall
    rw [hr] at hcall
    obtain ⟨hcall, hid⟩ := List.mem_filter.1 hcall
    obtain ⟨s, hs, ho, hreq, hrest⟩ := h.running call hcall
    refine ⟨s, Ledger.mem_amend_of_neg hs ?_, ho, hreq, hrest⟩
    simpa [ho, Submission.hasId, hreq] using hid
  begun := by
    rw [Ledger.amendOpen, Ledger.flatMap_calls_amend (Submission.close ending) fun _ => rfl, hb]
    exact h.begun
  calls := Ledger.forall_mem_amend h.calls fun s hs _ => h.calls s hs

/-! ### A caller that stops waiting -/

theorem Linked.abandoned (h : c.Linked ls) (id : RequestId) :
    Linked
      { c with
        waiters :=
          c.waiters.map fun w => if w.id == id then { w with listening := false } else w }
      (ls.amendOpen id .leave) where
  numbers := numbers_amend _ h.numbers fun _ => rfl
  waiters := by
    rw [Ledger.amendOpen, Ledger.filter_amend Submission.isOpen_leave, h.waiters, Ledger.amend,
      List.map_map, List.map_map]
    refine List.map_congr_left fun s hs => ?_
    have ho := (List.mem_filter.1 hs).2
    by_cases hid : s.request.id = id <;>
      simp [Submission.waiter, Submission.leave, Submission.hasId, ho, hid]
  entries := h.entries.trans (Ledger.map_open_amend Submission.leave (fun _ => rfl) fun _ => rfl).symm
  queued := Ledger.forall_mem_amend h.queued fun s hs _ => h.queued s hs
  pending := by
    intro d hd
    obtain ⟨s, hs, ho, hreq, hw, hcalls⟩ := h.pending d hd
    exact ⟨_, Ledger.mem_amend.2 ⟨s, hs, rfl⟩, by split <;> exact ⟨ho, hreq, hw, hcalls⟩⟩
  running := by
    intro call hcall
    obtain ⟨s, hs, ho, hreq, hw, hcalls⟩ := h.running call hcall
    exact ⟨_, Ledger.mem_amend.2 ⟨s, hs, rfl⟩, by split <;> exact ⟨ho, hreq, hw, hcalls⟩⟩
  begun := by
    rw [Ledger.amendOpen, Ledger.flatMap_calls_amend Submission.leave fun _ => rfl]
    exact h.begun
  calls := Ledger.forall_mem_amend h.calls fun s hs _ => h.calls s hs

end Controller

end TieredAdmission
