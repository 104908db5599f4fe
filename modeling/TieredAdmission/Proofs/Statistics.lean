import TieredAdmission.Proofs.Double.Value
import TieredAdmission.Proofs.Retention
import TieredAdmission.Statistics

/-!
# Summaries and the full history

Completions are dropped for their age and at the cap when one is recorded, and once more for their
age when a summary is made. On a clock that does not go backwards the summary is the one of all
completions ever recorded, cut to the last ones and to the retention, and the lifetime counters
count every note of their kind.
-/

namespace TieredAdmission

namespace Statistics

inductive Note where
  | submission
  | rejection
  | cancellation
  | completion (r : CompletionRecord) (success : Bool)
deriving DecidableEq

namespace Note

def completion? : Note → Option CompletionRecord
  | completion r _ => some r
  | _ => none

/-- A completion with the given outcome. -/
def endsWith (success : Bool) : Note → Bool
  | completion _ s => s == success
  | _ => false

end Note

/-- The completions among some notes, the oldest first. -/
def completions (ns : List Note) : List CompletionRecord := ns.filterMap Note.completion?

def record (s : Statistics) : Note → Statistics
  | .submission => s.recordSubmission
  | .rejection => s.recordRejection
  | .cancellation => s.recordCancellation
  | .completion r success => s.recordCompletion r.at_ r.tier r.waited r.processing success

def after (s : Statistics) (ns : List Note) : Statistics := ns.foldl record s

def tally (ns : List Note) : RequestCounters where
  total := ns.count .submission
  succeeded := ns.countP (Note.endsWith true)
  failed := ns.countP (Note.endsWith false)
  rejected := ns.count .rejection
  cancelled := ns.count .cancellation

variable {s : Statistics} {ns : List Note} {now : Instant}

theorem after_append (s : Statistics) (ns ms : List Note) :
    s.after (ns ++ ms) = (s.after ns).after ms := List.foldl_append

private theorem record_settings (s : Statistics) (n : Note) :
    (s.record n).retention = s.retention ∧ (s.record n).maxRecords = s.maxRecords := by
  cases n <;> exact ⟨rfl, rfl⟩

private theorem after_settings (s : Statistics) (ns : List Note) :
    (s.after ns).retention = s.retention ∧ (s.after ns).maxRecords = s.maxRecords := by
  induction ns generalizing s with
  | nil => exact ⟨rfl, rfl⟩
  | cons n ns ih =>
    obtain ⟨hretention, hcap⟩ := record_settings s n
    rw [← hretention, ← hcap]
    exact ih (s.record n)

/-- Only a completion moves the history. -/
theorem records_record (s : Statistics) (n : Note) :
    (s.record n).records =
      match n.completion? with
      | none => s.records
      | some r => s.pruned r.at_ (s.records ++ [r]) := by
  cases n <;> rfl

private theorem pruned_eq {rs : List CompletionRecord}
    (ordered : rs.Pairwise fun a b => a.at_ ≤ b.at_) : s.pruned now rs =
      (rs.filter fun r => Instant.isSince (now.before? s.retention) r.at_).rtake s.maxRecords := by
  rw [← dropWhile_not_eq_filter (History.pairwise_isSince ordered)]
  rfl

private theorem completions_append_singleton (ns : List Note) (n : Note) :
    completions (ns ++ [n]) = completions ns ++ n.completion?.toList := by
  rw [completions, List.filterMap_append]
  cases n <;> rfl

/-- After a run the history is the one that is held of all completions at the last of them. -/
theorem records_after {retention : Duration} {maxRecords : Nat}
    (ordered : ((completions ns).map (·.at_) ++ [now]).Pairwise (· ≤ ·)) :
    ∃ t ≤ now, ((new retention maxRecords).after ns).records =
      History.held CompletionRecord.at_ retention (max maxRecords 1) (completions ns) t := by
  induction ns using List.reverseRecOn generalizing now with
  | nil => exact ⟨now, Int.le_refl _, by simp [History.held, completions, after, new]⟩
  | append_singleton ns n ih =>
    obtain ⟨hretention, hcap⟩ := after_settings (new retention maxRecords) ns
    rw [completions_append_singleton] at ordered ⊢
    rw [after_append]
    change ∃ t ≤ now, (((new retention maxRecords).after ns).record n).records = _
    rw [records_record]
    cases hn : n.completion? with
    | none =>
      simp only [hn, Option.toList_none, List.append_nil] at ordered ⊢
      exact ih ordered
    | some r =>
      simp only [hn, Option.toList_some] at ordered ⊢
      obtain ⟨hrs, -, hnow⟩ := List.pairwise_append.1 ordered
      obtain ⟨t, ht, hrecords⟩ := ih (by simpa using hrs)
      have hall : (completions ns ++ [r]).Pairwise fun a b => a.at_ ≤ b.at_ :=
        List.pairwise_map.1 hrs
      refine ⟨r.at_, hnow r.at_ (by simp) now (by simp), ?_⟩
      rw [hrecords, pruned_eq, hretention, hcap]
      · exact History.held_append hall ht
      · exact hall.sublist ((History.held_sublist _ _ _ _ _).append_right _)

private theorem counters_record (s : Statistics) (n : Note) (h : s.counters = tally ns) :
    (s.record n).counters = tally (ns ++ [n]) := by
  cases n with
  | completion r success =>
    cases success <;>
      simp [record, recordCompletion, countCompletion, tally, h, Note.endsWith, List.countP_append,
        List.count_append]
  | _ =>
    simp [record, recordSubmission, recordRejection, recordCancellation, tally, h, Note.endsWith,
      List.countP_append, List.count_append]

theorem counters_after (retention : Duration) (maxRecords : Nat) (ns : List Note) :
    ((new retention maxRecords).after ns).counters = tally ns := by
  induction ns using List.reverseRecOn with
  | nil => rfl
  | append_singleton ns n ih =>
    rw [after_append]
    exact counters_record _ n ih

/-- The completions that a summary covers: of the last ones those within the retention. -/
def covered (retention : Duration) (maxRecords : Nat) (ns : List Note) (now : Instant) :
    List CompletionRecord :=
  ((completions ns).rtake (max maxRecords 1)).filter fun r =>
    Instant.isSince (now.before? retention) r.at_

theorem retained_after {retention : Duration} {maxRecords : Nat}
    (ordered : ((completions ns).map (·.at_) ++ [now]).Pairwise (· ≤ ·)) :
    ((new retention maxRecords).after ns).retained now = covered retention maxRecords ns now := by
  obtain ⟨t, ht, hrecords⟩ := records_after ordered
  rw [retained, hrecords, (after_settings (new retention maxRecords) ns).1]
  exact History.filter_held ht (Nat.le_refl _)

private theorem nanoseconds_mean (f : CompletionRecord → Duration) (rs : List CompletionRecord) :
    ((Duration.sum (rs.map f)).share rs.length).nanoseconds =
      (rs.map fun r => (f r).nanoseconds).sum / rs.length := by
  rw [Duration.share, Duration.nanoseconds_sum, List.map_map]
  rfl

private theorem value?_sixty : Double.value? 60.0 = some 60 := by
  have hunpack : (60.0 : Float).toModel.unpack =
      .finite .positive (15 * 2 ^ 49) (-47) (by decide) := rfl
  rw [Double.value?, hunpack, Double.valueOf?, Double.signed]
  norm_num

/-- Scaling a count to a minute and back does not round. -/
theorem value?_rate {n : Nat} (h : 60 * n < 2 ^ 53) :
    Double.value? (n.toUInt64.toFloat * 60.0 / rateWindow.toSeconds) = some (n : ℚ) := by
  have hwindow : rateWindow.toSeconds = 60.0 := rfl
  have hcount : Double.value? n.toUInt64.toFloat = some (n : ℚ) := Double.value?_toFloat (by omega)
  have hproduct : Double.Rounded (n.toUInt64.toFloat * 60.0) ((60 * n : Nat) : Int) := by
    have hrounded := Double.rounded_mul hcount value?_sixty
    rwa [show (n : ℚ) * 60 = (((60 * n : Nat) : Int) : ℚ) by push_cast; ring] at hrounded
  have hscaled := hproduct.exact (by rw [Nat.abs_cast]; exact_mod_cast h)
  have hquotient : Double.Rounded (n.toUInt64.toFloat * 60.0 / 60.0) ((n : Int) : ℚ) := by
    have hrounded := Double.rounded_div hscaled value?_sixty (by norm_num)
    rwa [show (((60 * n : Nat) : Int) : ℚ) / 60 = (n : Int) by push_cast; ring] at hrounded
  rw [hwindow]
  simpa using hquotient.exact (by rw [Nat.abs_cast]; exact_mod_cast (by omega : n < 2 ^ 53))

/-- On a clock that does not go backwards a summary is the one of all completions ever recorded, cut
to the last `maxRecords` and to the retention. A mean of no completions is zero. The counters count
all notes, those of completions that were dropped included. -/
theorem summary_of_run {retention : Duration} {maxRecords : Nat} {ns : List Note} {now : Instant}
    (ordered : ((completions ns).map (·.at_) ++ [now]).Pairwise (· ≤ ·)) :
    let s := (new retention maxRecords).after ns
    let shown := covered retention maxRecords ns now
    let lastMinute := shown.filter fun r => Instant.isSince (now.before? (.ofSeconds 60)) r.at_
    (∀ t, (s.summary now).completed.get t = shown.countP (·.tier == t)) ∧
      (s.summary now).avgWait.nanoseconds =
        (shown.map (·.waited.nanoseconds)).sum / shown.length ∧
      (s.summary now).avgProcessing.nanoseconds =
        (shown.map (·.processing.nanoseconds)).sum / shown.length ∧
      (60 * lastMinute.length < 2 ^ 53 →
        Double.value? (s.summary now).ratePerMinute = some (lastMinute.length : ℚ)) ∧
      s.counters = tally ns := by
  intro s shown lastMinute
  have hshown : s.retained now = shown := retained_after ordered
  refine ⟨fun t => ?_, ?_, ?_, fun hcount => ?_, counters_after retention maxRecords ns⟩
  · rw [summary, PerTier.get_ofFn, hshown, List.countP_eq_length_filter]
  · rw [summary, hshown]
    exact nanoseconds_mean _ shown
  · rw [summary, hshown]
    exact nanoseconds_mean _ shown
  · rw [summary, hshown]
    exact value?_rate hcount

/-- Of four completions the cap of three takes the oldest and the retention the next one; the
counters keep both. -/
theorem summary_drops_two_of_four :
    let at_ (s : Nat) (t : Tier) (waited : Nat) (success : Bool) : Note :=
      .completion ⟨.after .origin (.ofSeconds s), t, .ofSeconds waited, .ofSeconds 1⟩ success
    let ns := [.submission, at_ 10 .enterprise 7 true, .rejection, at_ 20 .premium 5 false,
      at_ 200 .premium 3 true, at_ 300 .free 2 true]
    let now : Instant := .after .origin (.ofSeconds 330)
    let s := (new (.ofSeconds 300) 3).after ns
    ((completions ns).map (·.at_) ++ [now]).Pairwise (· ≤ ·) ∧
      (s.summary now).completed.get .enterprise = 0 ∧
      (s.summary now).avgWait.nanoseconds = 2500000000 ∧
      Double.value? (s.summary now).ratePerMinute = some 1 ∧
      s.counters = ⟨1, 3, 1, 1, 0⟩ := by
  intro at_ ns now s
  have ordered : ((completions ns).map (·.at_) ++ [now]).Pairwise (· ≤ ·) := by decide
  have hcovered : covered (.ofSeconds 300) 3 ns now =
      [⟨.after .origin (.ofSeconds 200), .premium, .ofSeconds 3, .ofSeconds 1⟩,
        ⟨.after .origin (.ofSeconds 300), .free, .ofSeconds 2, .ofSeconds 1⟩] := by decide
  have hrecent : ((covered (.ofSeconds 300) 3 ns now).filter fun r =>
      Instant.isSince (now.before? (.ofSeconds 60)) r.at_).length = 1 := by decide
  obtain ⟨hcompleted, hwait, -, hrate, hcounters⟩ :=
    @summary_of_run (.ofSeconds 300) 3 ns now ordered
  rw [hcovered] at hwait
  rw [hrecent] at hrate
  refine ⟨ordered, ?_, hwait, hrate (by decide), hcounters⟩
  rw [hcompleted, hcovered]
  rfl

end Statistics

end TieredAdmission
