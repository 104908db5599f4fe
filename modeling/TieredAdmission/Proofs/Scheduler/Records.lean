import TieredAdmission.Proofs.Scheduler.Interchange
import TieredAdmission.Proofs.Scheduler.Representation

/-!
# Entries as they are stored

A stored entry has its state and the start of its processing in two fields, which nothing but the
operations keeps in step. Run side by side with a scheduler, the stored entries are always those of
its roster, a start is stored exactly for what is processing, and the listing is what sorting the
stored entries by state and number gives, in whatever order they are looked through.
-/

namespace TieredAdmission

/-- A tracked request as it is stored. -/
structure EntryRecord where
  request : Request
  enqueuedAt : Instant
  sequence : Nat
  state : EntryState
  processingSince : Option Instant

namespace EntryRecord

def queued (request : Request) (now : Instant) (sequence : Nat) : EntryRecord :=
  ⟨request, now, sequence, .queued, none⟩

def processing (request : Request) (now : Instant) (sequence : Nat) : EntryRecord :=
  ⟨request, now, sequence, .processing, some now⟩

def id (r : EntryRecord) : RequestId := r.request.id

def marked (r : EntryRecord) (now : Instant) : EntryRecord :=
  { r with state := .processing, processingSince := some now }

def waited (r : EntryRecord) : Duration :=
  match r.processingSince with
  | none => .zero
  | some t => t.since r.enqueuedAt

def snapshot (r : EntryRecord) (now : Instant) (priority : Option Float) : EntrySnapshot where
  id := r.id
  tier := r.request.tier
  state := r.state
  waitedMs := (match r.state with
    | .queued => now.since r.enqueuedAt
    | .processing => r.waited).millisWord
  processingMs := r.processingSince.map fun t => (now.since t).millisWord
  priority := priority

/-- A start is stored exactly for what is processing. -/
def Consistent (r : EntryRecord) : Prop :=
  r.processingSince.isSome = true ↔ r.state = .processing

/-! ### Operations on stored entries -/

def find? (rs : List EntryRecord) (id : RequestId) : Option EntryRecord :=
  rs.find? fun r => r.id == id

def insert (r : EntryRecord) (rs : List EntryRecord) : List EntryRecord :=
  if (find? rs r.id).isSome then rs else rs ++ [r]

def mark (id : RequestId) (now : Instant) (rs : List EntryRecord) : List EntryRecord :=
  match find? rs id with
  | none => rs
  | some r =>
    match r.state with
    | .processing => rs
    | .queued => rs.map fun r => if r.id == id then r.marked now else r

/-- Drops the entry of an identifier, which has to be in the given state. -/
def drop (state : EntryState) (id : RequestId) (rs : List EntryRecord) : List EntryRecord :=
  match find? rs id with
  | none => rs
  | some r => if r.state = state then rs.filter fun r => r.id != id else rs

variable {r : EntryRecord} {rs : List EntryRecord}

private theorem consistent_queued (request : Request) (now : Instant) (sequence : Nat) :
    (queued request now sequence).Consistent := iff_of_false Bool.false_ne_true nofun

private theorem consistent_processing (request : Request) (now : Instant) (sequence : Nat) :
    (processing request now sequence).Consistent := iff_of_true rfl rfl

private theorem consistent_insert (hr : r.Consistent) (h : ∀ r ∈ rs, r.Consistent) :
    ∀ q ∈ insert r rs, q.Consistent := by
  rw [insert]
  split
  · exact h
  · exact List.forall_mem_append.2 ⟨h, List.forall_mem_singleton.2 hr⟩

private theorem consistent_mark (h : ∀ r ∈ rs, r.Consistent) (id : RequestId) (now : Instant) :
    ∀ r ∈ mark id now rs, r.Consistent := by
  unfold mark
  split
  · exact h
  · split
    · exact h
    · refine List.forall_mem_map.2 fun r hr => ?_
      split
      · exact iff_of_true rfl rfl
      · exact h r hr

private theorem consistent_drop (h : ∀ r ∈ rs, r.Consistent) (state : EntryState) (id : RequestId) :
    ∀ r ∈ drop state id rs, r.Consistent := by
  unfold drop
  split
  · exact h
  · split
    · exact fun r hr => h r (List.mem_of_mem_filter hr)
    · exact h

end EntryRecord

/-! ### The entries of a roster, stored -/

namespace Entry

def record (e : Entry) : EntryRecord :=
  ⟨e.request, e.enqueuedAt, e.sequence, e.state, e.stage.since?⟩

theorem exists_record_iff {r : EntryRecord} : (∃ e : Entry, e.record = r) ↔ r.Consistent := by
  constructor
  · rintro ⟨e, rfl⟩
    rw [EntryRecord.Consistent, record, Stage.since?_isSome, beq_iff_eq]
    rfl
  · obtain ⟨request, enqueuedAt, sequence, state, since⟩ := r
    intro h
    cases state with
    | queued =>
      obtain rfl : since = none := by
        simpa [EntryRecord.Consistent] using h
      exact ⟨⟨request, enqueuedAt, sequence, .queued⟩, rfl⟩
    | processing =>
      obtain ⟨t, rfl⟩ := Option.isSome_iff_exists.1 (h.2 rfl)
      exact ⟨⟨request, enqueuedAt, sequence, .processing t⟩, rfl⟩

private theorem waited_record (e : Entry) : e.record.waited = e.waited := by
  rw [waited, EntryRecord.waited, record]
  cases e.stage <;> rfl

private theorem snapshot_record (e : Entry) (now : Instant) (priority : Option Float) :
    e.record.snapshot now priority = e.snapshot now priority := by
  rw [snapshot, EntryRecord.snapshot, waited_record, record, state]
  cases e.stage <;> rfl

end Entry

namespace Roster

variable {r : Roster}

def records (r : Roster) : List EntryRecord := r.entries.map Entry.record

theorem find?_records (r : Roster) (id : RequestId) :
    EntryRecord.find? r.records id = (r.find? id).map Entry.record := by
  rw [EntryRecord.find?, records, List.find?_map]
  rfl

end Roster

namespace Scheduler

variable {s : Scheduler}

/-- What an operation does to the stored entries. The scheduler gives the next number and the
selection. -/
def store (s : Scheduler) (rs : List EntryRecord) : Turn → List EntryRecord
  | .enqueue q now => EntryRecord.insert (.queued q now s.roster.nextSequence) rs
  | .beginProcessing q now => EntryRecord.insert (.processing q now s.roster.nextSequence) rs
  | .start id now => EntryRecord.mark id now rs
  | .complete id => EntryRecord.drop .processing id rs
  | .withdraw id => EntryRecord.drop .queued id rs
  | .dispatch b now =>
    match s.selectNext b now with
    | none => rs
    | some q => EntryRecord.mark q.id now rs

def storeAll : Scheduler → List EntryRecord → List Turn → List EntryRecord
  | _, rs, [] => rs
  | s, rs, turn :: turns => (s.apply turn).storeAll (s.store rs turn) turns

private theorem consistent_store {rs : List EntryRecord} (h : ∀ r ∈ rs, r.Consistent)
    (s : Scheduler) (turn : Turn) : ∀ r ∈ s.store rs turn, r.Consistent := by
  cases turn with
  | enqueue q now => exact EntryRecord.consistent_insert (EntryRecord.consistent_queued ..) h
  | beginProcessing q now =>
    exact EntryRecord.consistent_insert (EntryRecord.consistent_processing ..) h
  | start id now => exact EntryRecord.consistent_mark h id now
  | complete id => exact EntryRecord.consistent_drop h .processing id
  | withdraw id => exact EntryRecord.consistent_drop h .queued id
  | dispatch b now =>
    rw [store]
    split
    · exact h
    · exact EntryRecord.consistent_mark h _ now

theorem consistent_storeAll {rs : List EntryRecord} (h : ∀ r ∈ rs, r.Consistent)
    (turns : List Turn) : ∀ r ∈ s.storeAll rs turns, r.Consistent := by
  induction turns generalizing s rs with
  | nil => exact h
  | cons turn turns ih => exact ih (consistent_store h s turn)

private theorem entries_enqueue (s : Scheduler) (q : Request) (now : Instant) :
    (s.apply (.enqueue q now)).roster.entries = if s.contains q.id then s.roster.entries
      else s.roster.entries ++ [⟨q, now, s.roster.nextSequence, .queued⟩] := by
  rw [apply]
  cases s with
  | workConserving w =>
    rw [enqueue, WorkConserving.enqueue]
    change _ = if w.roster.contains q.id then _ else _
    split <;> rfl
  | fixedSlots f =>
    rw [enqueue, FixedSlots.enqueue]
    change _ = if f.roster.contains q.id then _ else _
    split <;> rfl

private theorem entries_beginProcessing (s : Scheduler) (q : Request) (now : Instant) :
    (s.apply (.beginProcessing q now)).roster.entries = if s.contains q.id then s.roster.entries
      else s.roster.entries ++ [⟨q, now, s.roster.nextSequence, .processing now⟩] := by
  rw [apply]
  cases s with
  | workConserving w =>
    rw [beginProcessing, WorkConserving.beginProcessing]
    change _ = if w.roster.contains q.id then _ else _
    split <;> rfl
  | fixedSlots f =>
    rw [beginProcessing, FixedSlots.beginProcessing]
    change _ = if f.roster.contains q.id then _ else _
    split <;> rfl

private theorem records_insert {r : Roster} {e : Entry}
    (hr : r.entries = if s.contains e.id then s.roster.entries else s.roster.entries ++ [e]) :
    r.records = EntryRecord.insert e.record s.roster.records := by
  have hfind : EntryRecord.find? s.roster.records e.record.id =
      (s.roster.find? e.id).map Entry.record := s.roster.find?_records e.id
  rw [EntryRecord.insert, hfind, Option.isSome_map, Roster.records, hr, apply_ite (List.map _),
    List.map_append]
  rfl

private theorem records_startOrStay (s : Scheduler) (id : RequestId) (now : Instant) :
    (s.startOrStay id now).roster.records = EntryRecord.mark id now s.roster.records := by
  have hmark : (Roster.setStage id (.processing now) s.roster.entries).map Entry.record =
      s.roster.records.map fun r => if r.id == id then r.marked now else r := by
    rw [Roster.setStage, Roster.records, List.map_map, List.map_map]
    refine List.map_congr_left fun e _ => ?_
    change Entry.record (if e.id == id then _ else e) = if e.id == id then _ else e.record
    split <;> rfl
  rw [(start_roster s id now).2, EntryRecord.mark, s.roster.find?_records, Roster.start]
  cases s.roster.find? id with
  | none => rfl
  | some e =>
    obtain ⟨request, enqueuedAt, sequence, stage⟩ := e
    cases stage with
    | processing since => rfl
    | queued => exact hmark

private theorem records_erase (id : RequestId) (es : List Entry) :
    (Roster.erase id es).map Entry.record = (es.map Entry.record).filter fun r => r.id != id := by
  rw [Roster.erase, List.filter_map]
  rfl

private theorem records_complete (s : Scheduler) (id : RequestId) :
    (s.apply (.complete id)).roster.records =
      EntryRecord.drop .processing id s.roster.records := by
  rw [(complete_roster s id).2, EntryRecord.drop, s.roster.find?_records, Roster.complete]
  cases s.roster.find? id with
  | none => rfl
  | some e =>
    obtain ⟨request, enqueuedAt, sequence, stage⟩ := e
    cases stage with
    | processing since => exact records_erase id s.roster.entries
    | queued => rfl

private theorem records_withdraw (s : Scheduler) (id : RequestId) :
    (s.apply (.withdraw id)).roster.records = EntryRecord.drop .queued id s.roster.records := by
  rw [(withdraw_roster s id).2, EntryRecord.drop, s.roster.find?_records, Roster.withdraw]
  cases s.roster.find? id with
  | none => rfl
  | some e =>
    obtain ⟨request, enqueuedAt, sequence, stage⟩ := e
    cases stage with
    | processing since => rfl
    | queued => exact records_erase id s.roster.entries

/-- The stored entries stay those of the roster. -/
theorem records_apply (s : Scheduler) (turn : Turn) :
    (s.apply turn).roster.records = s.store s.roster.records turn := by
  cases turn with
  | enqueue q now =>
    exact records_insert (e := ⟨q, now, s.roster.nextSequence, .queued⟩) (entries_enqueue s q now)
  | beginProcessing q now =>
    exact records_insert (e := ⟨q, now, s.roster.nextSequence, .processing now⟩)
      (entries_beginProcessing s q now)
  | start id now => exact records_startOrStay s id now
  | complete id => exact records_complete s id
  | withdraw id => exact records_withdraw s id
  | dispatch b now =>
    rw [apply, store]
    cases s.selectNext b now with
    | none => rfl
    | some q => exact records_startOrStay s q.id now

theorem records_after (s : Scheduler) (turns : List Turn) :
    (s.after turns).roster.records = s.storeAll s.roster.records turns := by
  induction turns generalizing s with
  | nil => rfl
  | cons turn turns ih => rw [after_cons, ih, records_apply, storeAll]

/-! ### The listing -/

/-- Whether the state comes second in a listing. -/
def listingPart : EntryState → Nat
  | .queued => 0
  | .processing => 1

/-- Queued entries come first, and either kind by number. -/
def listsFirst (a b : EntryRecord) : Bool :=
  decide (listingPart a.state < listingPart b.state ∨
    listingPart a.state = listingPart b.state ∧ a.sequence ≤ b.sequence)

def storedScore (s : Scheduler) (now : Instant) (r : EntryRecord) : Option Float :=
  match s, r.state with
  | workConserving w, .queued =>
    some (priorityScore w.policy r.request.tier (now.since r.enqueuedAt) w.agingCap)
  | _, _ => none

private theorem storedScore_record (s : Scheduler) (now : Instant) (e : Entry) :
    s.storedScore now e.record = s.shownScore now e := by
  obtain ⟨request, enqueuedAt, sequence, stage⟩ := e
  cases s <;> cases stage <;> rfl

private theorem listsFirst_of_listedBefore {a b : Entry} (h : a.ListedBefore b) :
    listsFirst a.record b.record = true := by
  refine decide_eq_true ?_
  rcases h with ⟨ha, hb⟩ | ⟨hstate, hlt⟩
  · refine Or.inl ?_
    change listingPart a.state < listingPart b.state
    rw [beq_iff_eq.1 ha, beq_iff_eq.1 hb]
    decide
  · exact Or.inr ⟨congrArg listingPart hstate, Nat.le_of_lt hlt⟩

/-- In whatever order the stored entries are looked through, sorting gives the listing. -/
theorem WellFormed.snapshots_eq_sorted (h : s.WellFormed) {rs : List EntryRecord}
    (hrs : rs.Perm s.roster.records) (now : Instant) :
    s.snapshots now =
      (rs.mergeSort listsFirst).map fun r => r.snapshot now (s.storedScore now r) := by
  have hsorted : rs.mergeSort listsFirst =
      (s.roster.queuedEntries ++ s.roster.processingEntries).map Entry.record := by
    have hperm : (rs.mergeSort listsFirst).Perm
        ((s.roster.queuedEntries ++ s.roster.processingEntries).map Entry.record) :=
      ((List.mergeSort_perm rs listsFirst).trans hrs).trans
        (s.roster.listed_perm.symm.map Entry.record)
    refine hperm.eq_of_pairwise (fun a b ha hb hab hba => ?_)
      (List.pairwise_mergeSort (fun a b c hab hbc => ?_) (fun a b => ?_) rs)
      (List.pairwise_map.2 (h.roster.pairwise_listed.imp listsFirst_of_listedBefore))
    · -- no two entries have the same number
      have hmem {r : EntryRecord}
          (hr : r ∈ (s.roster.queuedEntries ++ s.roster.processingEntries).map Entry.record) :
          ∃ e ∈ s.roster.entries, e.record = r := by
        obtain ⟨e, he, rfl⟩ := List.mem_map.1 hr
        exact ⟨e, s.roster.listed_perm.mem_iff.1 he, rfl⟩
      obtain ⟨e, he, rfl⟩ := hmem (hperm.mem_iff.1 ha)
      obtain ⟨f, hf, rfl⟩ := hmem hb
      have hnumbers : (s.roster.entries.map Entry.sequence).Nodup :=
        List.pairwise_map.2 (h.roster.ordered.imp Nat.ne_of_lt)
      have hnumber : e.record.sequence = f.record.sequence := by
        simp only [listsFirst, decide_eq_true_eq] at hab hba
        omega
      exact congrArg Entry.record (List.inj_on_of_nodup_map hnumbers he hf hnumber)
    · simp only [listsFirst, decide_eq_true_eq] at hab hbc ⊢
      omega
    · simp only [listsFirst, Bool.or_eq_true, decide_eq_true_eq]
      omega
  rw [s.snapshots_eq now, hsorted, List.map_map]
  refine List.map_congr_left fun e _ => ?_
  rw [Function.comp_apply, storedScore_record, Entry.snapshot_record]

/-- After every run the entries of the scheduler are the stored ones, of which exactly those that
are processing have a start, and the listing is what sorting them gives. -/
theorem listing_of_stored (c : SchedulerConfig) (turns : List Turn) :
    let s := (new c).after turns
    let stored := (new c).storeAll [] turns
    s.roster.records = stored ∧ (∀ r ∈ stored, r.Consistent) ∧
      ∀ (rs : List EntryRecord) (now : Instant), rs.Perm stored → s.snapshots now =
        (rs.mergeSort listsFirst).map fun r => r.snapshot now (s.storedScore now r) := by
  intro s stored
  have hnew := wellFormed_new c
  have hnone : (new c).roster.records = [] := by
    rw [roster_new]
    rfl
  have hrecords : s.roster.records = stored := by
    rw [records_after, hnone]
  exact ⟨hrecords, consistent_storeAll (fun _ hr => absurd hr List.not_mem_nil) turns,
    fun rs now hrs => (hnew.after turns).snapshots_eq_sorted (hrecords ▸ hrs) now⟩

end Scheduler

end TieredAdmission
