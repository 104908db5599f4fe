import TieredAdmission.Proofs.Scheduler.ArrivalOrder

/-!
# The books of a scheduler

What the fields of a scheduler say of one another after every run, whatever was refused in it: an
identifier leads to one entry, the numbers of the entries grow in the order in which they arrived,
the counts are those of the entries and are lowered only above zero, the queues of fixed slots list
the queued identifiers by number, and an observer is shown every entry once.
-/

namespace TieredAdmission

namespace Entry

/-- What an entry keeps from its arrival on. -/
def arrival (e : Entry) : Request × Instant × Nat := (e.request, e.enqueuedAt, e.sequence)

/-- Queued entries are listed before processing ones, and either in the order of their numbers. -/
def ListedBefore (a b : Entry) : Prop :=
  a.isQueued = true ∧ b.isProcessing = true ∨ a.state = b.state ∧ a.sequence < b.sequence

end Entry

namespace Roster

variable {r : Roster} {id : RequestId} {e : Entry}

theorem WellFormed.pairwise_listed (h : r.WellFormed) :
    (r.queuedEntries ++ r.processingEntries).Pairwise Entry.ListedBefore := by
  have hpart (s : EntryState) :
      (r.entries.filter fun e => e.state == s).Pairwise Entry.ListedBefore := by
    refine (h.ordered.sublist List.filter_sublist).imp_of_mem fun ha hb hab => .inr ⟨?_, hab⟩
    have ha := (List.mem_filter.1 ha).2
    have hb := (List.mem_filter.1 hb).2
    exact (beq_iff_eq.1 ha).trans (beq_iff_eq.1 hb).symm
  exact List.pairwise_append.2 ⟨hpart .queued, hpart .processing, fun a ha b hb =>
    .inl ⟨(List.mem_filter.1 ha).2, (List.mem_filter.1 hb).2⟩⟩

end Roster

namespace Scheduler

variable {s s' : Scheduler} {turn : Turn} {turns : List Turn} {id : RequestId} {now t : Instant}
  {e : Entry} {r : Roster}

def shownScore (s : Scheduler) (now : Instant) (e : Entry) : Option Float :=
  match s with
  | workConserving w => if e.isQueued then some (w.score now e) else none
  | fixedSlots _ => none

theorem snapshots_eq (s : Scheduler) (now : Instant) :
    s.snapshots now = (s.roster.queuedEntries ++ s.roster.processingEntries).map fun e =>
      e.snapshot now (s.shownScore now e) := by
  have hcongr (es : List Entry) (p : Entry → Bool) (score : Entry → Option Float)
      (h : ∀ e, p e = true → score e = s.shownScore now e) :
      (es.filter p).map (fun e => e.snapshot now (score e)) =
        (es.filter p).map fun e => e.snapshot now (s.shownScore now e) :=
    List.map_congr_left fun e he => by rw [h e (List.mem_filter.1 he).2]
  rw [List.map_append]
  cases s with
  | workConserving w =>
    refine congrArg₂ _ (hcongr _ _ (fun e => some (w.score now e)) fun e he => (if_pos he).symm)
      (hcongr _ _ (fun _ => none) fun e he => (if_neg ?_).symm)
    rw [Entry.isProcessing_eq] at he
    simpa using he
  | fixedSlots f => rfl

end Scheduler

end TieredAdmission
