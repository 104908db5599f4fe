import TieredAdmission.Proofs.Scheduler.Selection

/-!
# Runs of a scheduler

A run is a list of turns, each of them one operation with the instant at which it reads the clock.
What a turn can come to is said once: a request arrives, goes to the backend, is done or is
withdrawn, or the entries stay as they are. The invariant holds after every run, the entries stand
in the order in which the clock was read for them, and a scheduler keeps its kind and its settings.
-/

namespace TieredAdmission

inductive Turn where
  | enqueue (request : Request) (now : Instant)
  | beginProcessing (request : Request) (now : Instant)
  | start (id : RequestId) (now : Instant)
  | complete (id : RequestId)
  | withdraw (id : RequestId)
  /-- The request that is selected on a budget, if there is one, is started. -/
  | dispatch (budget : CapacityBudget) (now : Instant)

def Turn.now? : Turn → Option Instant
  | .enqueue _ now | .beginProcessing _ now | .start _ now | .dispatch _ now => some now
  | .complete _ | .withdraw _ => none

namespace Scheduler

variable {s s' : Scheduler} {id : RequestId} {now : Instant}

def startOrStay (s : Scheduler) (id : RequestId) (now : Instant) : Scheduler :=
  match s.start id now with
  | .ok (_, s') => s'
  | .error _ => s

def apply (s : Scheduler) : Turn → Scheduler
  | .enqueue q now => (s.enqueue q now).2
  | .beginProcessing q now => (s.beginProcessing q now).2
  | .start id now => s.startOrStay id now
  | .complete id =>
    match s.complete id with
    | .ok (_, s') => s'
    | .error _ => s
  | .withdraw id =>
    match s.withdraw id with
    | some (_, s') => s'
    | none => s
  | .dispatch b now =>
    match s.selectNext b now with
    | some q => s.startOrStay q.id now
    | none => s

def after (s : Scheduler) (turns : List Turn) : Scheduler := turns.foldl apply s

@[simp] theorem after_nil (s : Scheduler) : s.after [] = s := rfl

@[simp] theorem after_cons (s : Scheduler) (turn : Turn) (turns : List Turn) :
    s.after (turn :: turns) = (s.apply turn).after turns := rfl

@[simp] theorem after_append (s : Scheduler) (turns more : List Turn) :
    s.after (turns ++ more) = (s.after turns).after more := List.foldl_append ..

/-! ### What a turn comes to -/

/-- The entries and the counts of two rosters are the same; the second may have used up more
sequence numbers. -/
structure SameEntries (r r' : Roster) : Prop where
  entries : r'.entries = r.entries
  queued : r'.queued = r.queued
  processing : r'.processing = r.processing
  next : r.nextSequence ≤ r'.nextSequence

theorem SameEntries.refl (r : Roster) : SameEntries r r := ⟨rfl, rfl, rfl, Nat.le_refl _⟩

/-- What a turn does to the roster. -/
inductive Applied (s : Scheduler) : Turn → Roster → Prop where
  | queued {q : Request} {now : Instant} (new : s.contains q.id = false) :
      Applied s (.enqueue q now) (s.roster.addQueued q now)
  | began {q : Request} {now : Instant} (new : s.contains q.id = false) :
      Applied s (.beginProcessing q now) (s.roster.addProcessing q now)
  | started {id : RequestId} {now : Instant} {e : Entry} (found : s.roster.find? id = some e)
      (queued : e.stage = .queued) : Applied s (.start id now) (s.roster.started e now)
  | completed {id : RequestId} {e : Entry} (found : s.roster.find? id = some e)
      (processing : e.isProcessing = true) : Applied s (.complete id) (s.roster.completed e)
  | withdrawn {id : RequestId} {e : Entry} (found : s.roster.find? id = some e)
      (queued : e.stage = .queued) : Applied s (.withdraw id) (s.roster.withdrawn e)
  | dispatched {b : CapacityBudget} {now : Instant} {e : Entry}
      (selected : s.selectNext b now = some e.request) (found : s.roster.find? e.id = some e)
      (queued : e.stage = .queued) : Applied s (.dispatch b now) (s.roster.started e now)
  | refused {turn : Turn} {r : Roster} (same : SameEntries s.roster r) : Applied s turn r

/-- The scheduler that has refused a newcomer. One that scores has used up a sequence number. -/
def skipped : Scheduler → Scheduler
  | workConserving s => workConserving { s with roster := s.roster.skipSequence }
  | fixedSlots s => fixedSlots s

theorem WellFormed.skipped (h : s.WellFormed) : s.skipped.WellFormed := by
  cases s with
  | workConserving s => exact Roster.WellFormed.skipSequence h
  | fixedSlots s => exact h

theorem sameEntries_skipped (s : Scheduler) : SameEntries s.roster s.skipped.roster := by
  cases s with
  | workConserving s => exact ⟨rfl, rfl, rfl, Nat.le_succ _⟩
  | fixedSlots s => exact .refl _

theorem enqueue_of_contains {q : Request} (hc : s.contains q.id = true) :
    s.enqueue q now = (.error (.duplicateRequest q.id), s.skipped) := by
  cases s with
  | workConserving s =>
    replace hc : s.roster.contains q.id = true := hc
    simp [enqueue, WorkConserving.enqueue, hc, Scheduler.skipped]
  | fixedSlots s =>
    replace hc : s.roster.contains q.id = true := hc
    simp [enqueue, FixedSlots.enqueue, hc, Scheduler.skipped]

theorem beginProcessing_of_contains {q : Request} (hc : s.contains q.id = true) :
    s.beginProcessing q now = (.error (.duplicateRequest q.id), s.skipped) := by
  cases s with
  | workConserving s =>
    replace hc : s.roster.contains q.id = true := hc
    simp [beginProcessing, WorkConserving.beginProcessing, hc, Scheduler.skipped]
  | fixedSlots s =>
    replace hc : s.roster.contains q.id = true := hc
    simp [beginProcessing, FixedSlots.beginProcessing, hc, Scheduler.skipped]

theorem WellFormed.applied (h : s.WellFormed) (turn : Turn) :
    (s.apply turn).WellFormed ∧ Applied s turn (s.apply turn).roster := by
  cases turn with
  | enqueue q now =>
    cases hc : s.contains q.id with
    | true =>
      rw [apply, enqueue_of_contains hc]
      exact ⟨h.skipped, .refused (sameEntries_skipped s)⟩
    | false =>
      obtain ⟨s', hs, hwf, hr, -⟩ := h.enqueue now hc
      rw [apply, hs, hr]
      exact ⟨hwf, .queued hc⟩
  | beginProcessing q now =>
    cases hc : s.contains q.id with
    | true =>
      rw [apply, beginProcessing_of_contains hc]
      exact ⟨h.skipped, .refused (sameEntries_skipped s)⟩
    | false =>
      obtain ⟨s', hs, hwf, hr, -⟩ := h.beginProcessing now hc
      rw [apply, hs, hr]
      exact ⟨hwf, .began hc⟩
  | start id now =>
    rw [apply, startOrStay]
    split
    · next d s' hs =>
      obtain ⟨e, hf, hq, -, hwf, hr, -⟩ := h.start_ok hs
      rw [hr]
      exact ⟨hwf, .started hf hq⟩
    · exact ⟨h, .refused (.refl _)⟩
  | complete id =>
    rw [apply]
    split
    · next e s' hs =>
      obtain ⟨hf, hp, hwf, hr, -⟩ := h.complete_ok hs
      rw [hr]
      exact ⟨hwf, .completed hf hp⟩
    · exact ⟨h, .refused (.refl _)⟩
  | withdraw id =>
    rw [apply]
    split
    · next q s' hs =>
      obtain ⟨e, hf, hq, -, hwf, hr, -⟩ := h.withdraw_some hs
      rw [hr]
      exact ⟨hwf, .withdrawn hf hq⟩
    · exact ⟨h, .refused (.refl _)⟩
  | dispatch b now =>
    rw [apply]
    split
    · next q hq =>
      obtain ⟨-, -, e, hf, hqueued, rfl⟩ := h.selectNext_some hq
      obtain ⟨s', hs⟩ := exists_start now hf hqueued
      obtain ⟨e', hf', -, -, hwf, hr, -⟩ := h.start_ok hs
      obtain rfl : e = e' := Option.some.inj (hf.symm.trans hf')
      rw [startOrStay, hs, hr]
      exact ⟨hwf, .dispatched hq hf hqueued⟩
    · exact ⟨h, .refused (.refl _)⟩

theorem WellFormed.apply (h : s.WellFormed) (turn : Turn) : (s.apply turn).WellFormed :=
  (h.applied turn).1

theorem WellFormed.after (h : s.WellFormed) (turns : List Turn) : (s.after turns).WellFormed := by
  induction turns generalizing s with
  | nil => exact h
  | cons turn turns ih => exact ih (h.apply turn)

/-! ### The clock -/

/-- Every entry was enqueued at an instant that the run read off the clock, in the order of the
entries. -/
theorem Applied.enqueuedAt_sublist {turn : Turn} {r : Roster} (h : Applied s turn r) :
    (r.entries.map Entry.enqueuedAt).Sublist
      (s.roster.entries.map Entry.enqueuedAt ++ turn.now?.toList) := by
  have hstage (id : RequestId) (stage : Stage) (es : List Entry) :
      (Roster.setStage id stage es).map Entry.enqueuedAt = es.map Entry.enqueuedAt :=
    Roster.map_setStage (fun _ _ => rfl) id stage es
  have hsub (es : List Entry) :
      (es.map Entry.enqueuedAt).Sublist (es.map Entry.enqueuedAt ++ turn.now?.toList) :=
    List.sublist_append_left ..
  cases h with
  | queued new =>
    rw [Roster.addQueued, List.map_append]
    exact .refl _
  | began new =>
    rw [Roster.addProcessing, List.map_append]
    exact .refl _
  | started found queued =>
    rw [Roster.started, hstage]
    exact hsub _
  | dispatched selected found queued =>
    rw [Roster.started, hstage]
    exact hsub _
  | completed found processing => exact (List.filter_sublist.map _).trans (hsub _)
  | withdrawn found queued => exact (List.filter_sublist.map _).trans (hsub _)
  | refused same =>
    rw [same.entries]
    exact hsub _

theorem WellFormed.enqueuedAt_after (h : s.WellFormed) (turns : List Turn) :
    ((s.after turns).roster.entries.map Entry.enqueuedAt).Sublist
      (s.roster.entries.map Entry.enqueuedAt ++ turns.filterMap Turn.now?) := by
  induction turns generalizing s with
  | nil => simp
  | cons turn turns ih =>
    obtain ⟨hwf, ha⟩ := h.applied turn
    have hstep := (ih hwf).trans (ha.enqueuedAt_sublist.append_right _)
    rw [List.append_assoc] at hstep
    have hnow : turn.now?.toList ++ turns.filterMap Turn.now? =
        (turn :: turns).filterMap Turn.now? := by
      rw [List.filterMap_cons]
      cases turn.now? <;> rfl
    rwa [hnow] at hstep

/-! ### Kind and settings -/

private theorem startOrStay_workConserving (w : WorkConserving) (id : RequestId) (now : Instant) :
    ∃ r, (workConserving w).startOrStay id now = workConserving { w with roster := r } := by
  rw [startOrStay, Scheduler.start]
  cases w.roster.start id now with
  | ok p => exact ⟨p.2, rfl⟩
  | error e => exact ⟨w.roster, rfl⟩

/-- Only the roster of a work-conserving scheduler changes. -/
theorem apply_workConserving (w : WorkConserving) (turn : Turn) :
    ∃ r, (workConserving w).apply turn = workConserving { w with roster := r } := by
  cases turn with
  | enqueue q now =>
    rw [apply, Scheduler.enqueue, WorkConserving.enqueue]
    split <;> exact ⟨_, rfl⟩
  | beginProcessing q now =>
    rw [apply, Scheduler.beginProcessing, WorkConserving.beginProcessing]
    split <;> exact ⟨_, rfl⟩
  | start id now => exact startOrStay_workConserving w id now
  | complete id =>
    rw [apply, Scheduler.complete]
    cases w.roster.complete id with
    | ok p => exact ⟨p.2, rfl⟩
    | error e => exact ⟨w.roster, rfl⟩
  | withdraw id =>
    rw [apply, Scheduler.withdraw]
    cases w.roster.withdraw id with
    | some p => exact ⟨p.2, rfl⟩
    | none => exact ⟨w.roster, rfl⟩
  | dispatch b now =>
    rw [apply]
    split
    · exact startOrStay_workConserving w _ now
    · exact ⟨w.roster, rfl⟩

theorem after_workConserving (w : WorkConserving) (turns : List Turn) :
    ∃ r, (workConserving w).after turns = workConserving { w with roster := r } := by
  induction turns generalizing w with
  | nil => exact ⟨w.roster, rfl⟩
  | cons turn turns ih =>
    obtain ⟨r, hr⟩ := apply_workConserving w turn
    rw [after_cons, hr]
    exact ih { w with roster := r }

private theorem startOrStay_fixedSlots (f : FixedSlots) (id : RequestId) (now : Instant) :
    ∃ f', (fixedSlots f).startOrStay id now = fixedSlots f' ∧ f'.limits = f.limits := by
  simp only [startOrStay, Scheduler.start, FixedSlots.start]
  cases f.roster.start id now with
  | ok p => exact ⟨_, rfl, rfl⟩
  | error e => exact ⟨f, rfl, rfl⟩

/-- A scheduler with fixed slots keeps their numbers. -/
theorem apply_fixedSlots (f : FixedSlots) (turn : Turn) :
    ∃ f', (fixedSlots f).apply turn = fixedSlots f' ∧ f'.limits = f.limits := by
  cases turn with
  | enqueue q now =>
    simp only [apply, Scheduler.enqueue, FixedSlots.enqueue]
    split <;> exact ⟨_, rfl, rfl⟩
  | beginProcessing q now =>
    simp only [apply, Scheduler.beginProcessing, FixedSlots.beginProcessing]
    split <;> exact ⟨_, rfl, rfl⟩
  | start id now => exact startOrStay_fixedSlots f id now
  | complete id =>
    rw [apply, Scheduler.complete]
    cases f.roster.complete id with
    | ok p => exact ⟨_, rfl, rfl⟩
    | error e => exact ⟨f, rfl, rfl⟩
  | withdraw id =>
    simp only [apply, Scheduler.withdraw, FixedSlots.withdraw]
    cases f.roster.withdraw id with
    | some p => exact ⟨_, rfl, rfl⟩
    | none => exact ⟨f, rfl, rfl⟩
  | dispatch b now =>
    rw [apply]
    split
    · exact startOrStay_fixedSlots f _ now
    · exact ⟨f, rfl, rfl⟩

/-- Every scheduler keeps its kind. -/
theorem kind_apply (s : Scheduler) (turn : Turn) : (s.apply turn).kind = s.kind := by
  cases s with
  | workConserving w =>
    obtain ⟨r, hr⟩ := apply_workConserving w turn
    rw [hr]
    rfl
  | fixedSlots f =>
    obtain ⟨f', hf, -⟩ := apply_fixedSlots f turn
    rw [hf]
    rfl

theorem limits?_apply (s : Scheduler) (turn : Turn) : (s.apply turn).limits? = s.limits? := by
  cases s with
  | workConserving w =>
    obtain ⟨r, hr⟩ := apply_workConserving w turn
    rw [hr]
    rfl
  | fixedSlots f =>
    obtain ⟨f', hf, hlimits⟩ := apply_fixedSlots f turn
    rw [hf, limits?, limits?, hlimits]

theorem limits?_after (s : Scheduler) (turns : List Turn) :
    (s.after turns).limits? = s.limits? := by
  induction turns generalizing s with
  | nil => rfl
  | cons turn turns ih => exact (ih _).trans (limits?_apply s turn)

end Scheduler

/-! ### What a turn is answered -/

inductive Reply where
  | enqueue (answer : Except SchedulerError Unit)
  | beginProcessing (answer : Except SchedulerError Dispatch)
  | start (answer : Except SchedulerError Dispatch)
  | complete (answer : Except SchedulerError Entry)
  | withdraw (answer : Option Request)
  /-- What the start of the selected request is answered, if one is selected. -/
  | dispatch (answer : Option (Except SchedulerError Dispatch))

namespace Scheduler

def reply (s : Scheduler) : Turn → Reply
  | .enqueue q now => .enqueue (s.enqueue q now).1
  | .beginProcessing q now => .beginProcessing (s.beginProcessing q now).1
  | .start id now => .start ((s.start id now).map Prod.fst)
  | .complete id => .complete ((s.complete id).map Prod.fst)
  | .withdraw id => .withdraw ((s.withdraw id).map Prod.fst)
  | .dispatch b now => .dispatch ((s.selectNext b now).map fun q => (s.start q.id now).map Prod.fst)

def replies : Scheduler → List Turn → List Reply
  | _, [] => []
  | s, turn :: turns => s.reply turn :: (s.apply turn).replies turns

end Scheduler

end TieredAdmission
