import TieredAdmission.Proofs.Scheduler.Run
import Mathlib.Data.List.Forall2

/-!
# The two kinds keep the same books

A scheduler that scores and one with fixed slots differ in what they select. Short of selections
they answer every call alike and track the same requests, at the same stages and in the same order
of arrival, whatever their settings. Only the numbers in that order may differ: a scheduler that
scores uses one up for every newcomer that it refuses. So the entries of the two agree one by one,
except that the numbers of the one are ahead, by at most as many as it has refused newcomers.
-/

namespace TieredAdmission

def Turn.isDispatch : Turn → Bool
  | .dispatch _ _ => true
  | .enqueue _ _ | .beginProcessing _ _ | .start _ _ | .complete _ | .withdraw _ => false

def EntrySnapshot.unscored (s : EntrySnapshot) : EntrySnapshot := { s with priority := none }

namespace Entry

/-- The entry without its number in the order of arrival. -/
def unnumbered (e : Entry) : Entry := { e with sequence := 0 }

/-- The entries agree but for the numbers, of which the first is ahead by at most `k`. -/
structure Ahead (k : Nat) (e e' : Entry) : Prop where
  request : e.request = e'.request
  enqueuedAt : e.enqueuedAt = e'.enqueuedAt
  stage : e.stage = e'.stage
  number : e'.sequence ≤ e.sequence ∧ e.sequence ≤ e'.sequence + k

variable {k : Nat} {e e' : Entry}

theorem Ahead.unnumbered (h : Ahead k e e') : e.unnumbered = e'.unnumbered := by
  simp [Entry.unnumbered, h.request, h.enqueuedAt, h.stage]

theorem Ahead.more (h : Ahead k e e') : Ahead (k + 1) e e' where
  request := h.request
  enqueuedAt := h.enqueuedAt
  stage := h.stage
  number := ⟨h.number.1, by have := h.number.2; omega⟩

theorem Ahead.id (h : Ahead k e e') : e.id = e'.id := congrArg Request.id h.request

theorem Ahead.tier (h : Ahead k e e') : e.tier = e'.tier := congrArg Request.tier h.request

private theorem Ahead.withStage (h : Ahead k e e') (stage : Stage) :
    Ahead k { e with stage := stage } { e' with stage := stage } :=
  ⟨h.request, h.enqueuedAt, rfl, h.number⟩

theorem Ahead.snapshot (h : Ahead k e e') (now : Instant) (p p' : Option Float) :
    (e.snapshot now p).unscored = (e'.snapshot now p').unscored := by
  simp [EntrySnapshot.unscored, Entry.snapshot, Entry.state, Entry.age, Entry.waited, h.id, h.tier,
    h.enqueuedAt, h.stage]

end Entry

namespace Roster

/-- The rosters agree but for the numbers, of which the first has used up `k` more. -/
structure Ahead (k : Nat) (r r' : Roster) : Prop where
  entries : List.Forall₂ (Entry.Ahead k) r.entries r'.entries
  queued : r.queued = r'.queued
  processing : r.processing = r'.processing
  next : r.nextSequence = r'.nextSequence + k

variable {k : Nat} {r r' : Roster} {e e' : Entry} {id : RequestId} {now : Instant}

/-- An identifier is tracked in both or in neither. -/
theorem Ahead.find?_cases (h : Ahead k r r') (id : RequestId) :
    (r.find? id = none ∧ r'.find? id = none) ∨
      ∃ e e', r.find? id = some e ∧ r'.find? id = some e' ∧ e.Ahead k e' := by
  obtain ⟨hentries, -, -, -⟩ := h
  simp only [Roster.find?]
  generalize r.entries = es, r'.entries = es' at hentries
  induction hentries with
  | nil => exact Or.inl ⟨rfl, rfl⟩
  | @cons e e' _ _ he _ ih =>
    by_cases hid : e'.id = id
    · exact Or.inr ⟨e, e', by simp [he.id, hid], by simp [hid], he⟩
    · simpa [he.id, hid] using ih

theorem Ahead.contains (h : Ahead k r r') (id : RequestId) : r.contains id = r'.contains id := by
  rcases h.find?_cases id with ⟨hf, hf'⟩ | ⟨e, e', hf, hf', -⟩ <;> simp [Roster.contains, hf, hf']

theorem Ahead.skipSequence (h : Ahead k r r') : Ahead (k + 1) r.skipSequence r' where
  entries := h.entries.imp fun _ _ he => he.more
  queued := h.queued
  processing := h.processing
  next := by simp [Roster.skipSequence, h.next, Nat.add_assoc]

theorem Ahead.append (h : Ahead k r r') (q : Request) (stage : Stage) :
    List.Forall₂ (Entry.Ahead k) (r.entries ++ [⟨q, now, r.nextSequence, stage⟩])
      (r'.entries ++ [⟨q, now, r'.nextSequence, stage⟩]) := by
  refine List.rel_append h.entries (.cons ⟨rfl, rfl, rfl, ?_⟩ .nil)
  have := h.next
  constructor <;> dsimp only <;> omega

theorem Ahead.addQueued (h : Ahead k r r') (q : Request) (now : Instant) :
    Ahead k (r.addQueued q now) (r'.addQueued q now) where
  entries := h.append q .queued
  queued := by simp [Roster.addQueued, h.queued]
  processing := h.processing
  next := by simp [Roster.addQueued, Roster.skipSequence, h.next, Nat.add_right_comm]

theorem Ahead.addProcessing (h : Ahead k r r') (q : Request) (now : Instant) :
    Ahead k (r.addProcessing q now) (r'.addProcessing q now) where
  entries := h.append q (.processing now)
  queued := h.queued
  processing := by simp [Roster.addProcessing, h.processing]
  next := by simp [Roster.addProcessing, Roster.skipSequence, h.next, Nat.add_right_comm]

theorem Ahead.erase (h : Ahead k r r') (id : RequestId) :
    List.Forall₂ (Entry.Ahead k) (Roster.erase id r.entries) (Roster.erase id r'.entries) :=
  List.rel_filter (fun _ _ he => by simp [he.id]) h.entries

theorem Ahead.started (h : Ahead k r r') (he : e.Ahead k e') (now : Instant) :
    Ahead k (r.started e now) (r'.started e' now) where
  entries := by
    refine List.rel_map (fun a a' ha => ?_) h.entries
    simp only [ha.id, he.id]
    split
    · exact ha.withStage _
    · exact ha
  queued := by simp [Roster.started, h.queued, he.tier]
  processing := by simp [Roster.started, h.processing, he.tier]
  next := h.next

theorem Ahead.completed (h : Ahead k r r') (he : e.Ahead k e') :
    Ahead k (r.completed e) (r'.completed e') where
  entries := by simpa only [Roster.completed, he.id] using h.erase e'.id
  queued := h.queued
  processing := by simp [Roster.completed, h.processing, he.tier]
  next := h.next

theorem Ahead.withdrawn (h : Ahead k r r') (he : e.Ahead k e') :
    Ahead k (r.withdrawn e) (r'.withdrawn e') where
  entries := by simpa only [Roster.withdrawn, he.id] using h.erase e'.id
  queued := by simp [Roster.withdrawn, h.queued, he.tier]
  processing := h.processing
  next := h.next

/-! ### Calls that name a tracked request -/

section Calls

variable {R : Roster → Roster → Prop} {P : Entry → Entry → Prop}

/-- Two rosters answer a start alike if what they find agrees but for the numbers, and then they
stay related if starting the two entries keeps them so. -/
theorem start_congr (h : R r r')
    (hfind : r.find? id = none ∧ r'.find? id = none ∨
      ∃ e e', r.find? id = some e ∧ r'.find? id = some e' ∧ P e e')
    (hsame : ∀ {e e'}, P e e' → e.unnumbered = e'.unnumbered)
    (hstarted : ∀ {e e'}, P e e' → R (r.started e now) (r'.started e' now)) :
    (r.start id now).map Prod.fst = (r'.start id now).map Prod.fst ∧
      R ((r.start id now).toOption.elim r Prod.snd)
        ((r'.start id now).toOption.elim r' Prod.snd) := by
  rcases hfind with ⟨hf, hf'⟩ | ⟨e, e', hf, hf', hP⟩
  · simpa [Roster.start, hf, hf', Except.map, Except.toOption] using h
  · have hrequest : e.request = e'.request := (congrArg Entry.request (hsame hP) :)
    have hat : e.enqueuedAt = e'.enqueuedAt := (congrArg Entry.enqueuedAt (hsame hP) :)
    have hstage : e.stage = e'.stage := (congrArg Entry.stage (hsame hP) :)
    cases hs : e.stage with
    | processing t =>
      simpa [Roster.start, hf, hf', hs, hstage.symm.trans hs, Except.map, Except.toOption] using h
    | queued =>
      rw [start_eq_ok_iff.2 ⟨e, hf, hs, rfl, rfl⟩,
        start_eq_ok_iff.2 ⟨e', hf', hstage.symm.trans hs, rfl, rfl⟩]
      exact ⟨by simp [Except.map, hrequest, hat], hstarted hP⟩

theorem complete_congr (h : R r r')
    (hfind : r.find? id = none ∧ r'.find? id = none ∨
      ∃ e e', r.find? id = some e ∧ r'.find? id = some e' ∧ P e e')
    (hsame : ∀ {e e'}, P e e' → e.unnumbered = e'.unnumbered)
    (hcompleted : ∀ {e e'}, P e e' → R (r.completed e) (r'.completed e')) :
    ((r.complete id).map Prod.fst).map Entry.unnumbered =
        ((r'.complete id).map Prod.fst).map Entry.unnumbered ∧
      R ((r.complete id).toOption.elim r Prod.snd)
        ((r'.complete id).toOption.elim r' Prod.snd) := by
  rcases hfind with ⟨hf, hf'⟩ | ⟨e, e', hf, hf', hP⟩
  · simpa [Roster.complete, hf, hf', Except.map, Except.toOption] using h
  · have hstage : e.stage = e'.stage := (congrArg Entry.stage (hsame hP) :)
    cases hs : e.stage with
    | queued =>
      simpa [Roster.complete, hf, hf', hs, hstage.symm.trans hs, Except.map, Except.toOption]
        using h
    | processing t =>
      have hp : e.isProcessing = true := by simp [Entry.isProcessing, Entry.state, hs, Stage.state]
      have hp' : e'.isProcessing = true := by
        simpa [Entry.isProcessing, Entry.state, hstage] using hp
      rw [complete_eq_ok_iff.2 ⟨hf, hp, rfl⟩, complete_eq_ok_iff.2 ⟨hf', hp', rfl⟩]
      exact ⟨by simp [Except.map, hsame hP], hcompleted hP⟩

theorem withdraw_congr (h : R r r')
    (hfind : r.find? id = none ∧ r'.find? id = none ∨
      ∃ e e', r.find? id = some e ∧ r'.find? id = some e' ∧ P e e')
    (hsame : ∀ {e e'}, P e e' → e.unnumbered = e'.unnumbered)
    (hwithdrawn : ∀ {e e'}, P e e' → R (r.withdrawn e) (r'.withdrawn e')) :
    (r.withdraw id).map Prod.fst = (r'.withdraw id).map Prod.fst ∧
      R ((r.withdraw id).elim r Prod.snd) ((r'.withdraw id).elim r' Prod.snd) := by
  rcases hfind with ⟨hf, hf'⟩ | ⟨e, e', hf, hf', hP⟩
  · simpa [Roster.withdraw, hf, hf'] using h
  · have hrequest : e.request = e'.request := (congrArg Entry.request (hsame hP) :)
    have hstage : e.stage = e'.stage := (congrArg Entry.stage (hsame hP) :)
    cases hs : e.stage with
    | processing t => simpa [Roster.withdraw, hf, hf', hs, hstage.symm.trans hs] using h
    | queued =>
      rw [withdraw_eq_some_iff.2 ⟨e, hf, hs, rfl, rfl⟩,
        withdraw_eq_some_iff.2 ⟨e', hf', hstage.symm.trans hs, rfl, rfl⟩]
      exact ⟨by simp [hrequest], hwithdrawn hP⟩

end Calls

theorem Ahead.start (h : Ahead k r r') (id : RequestId) (now : Instant) :
    (r.start id now).map Prod.fst = (r'.start id now).map Prod.fst ∧
      Ahead k ((r.start id now).toOption.elim r Prod.snd)
        ((r'.start id now).toOption.elim r' Prod.snd) :=
  start_congr h (h.find?_cases id) Entry.Ahead.unnumbered fun he => h.started he now

theorem Ahead.complete (h : Ahead k r r') (id : RequestId) :
    ((r.complete id).map Prod.fst).map Entry.unnumbered =
        ((r'.complete id).map Prod.fst).map Entry.unnumbered ∧
      Ahead k ((r.complete id).toOption.elim r Prod.snd)
        ((r'.complete id).toOption.elim r' Prod.snd) :=
  complete_congr h (h.find?_cases id) Entry.Ahead.unnumbered h.completed

theorem Ahead.withdraw (h : Ahead k r r') (id : RequestId) :
    (r.withdraw id).map Prod.fst = (r'.withdraw id).map Prod.fst ∧
      Ahead k ((r.withdraw id).elim r Prod.snd) ((r'.withdraw id).elim r' Prod.snd) :=
  withdraw_congr h (h.find?_cases id) Entry.Ahead.unnumbered h.withdrawn

theorem Ahead.snapshots (h : Ahead k r r') (now : Instant) (score score' : Entry → Option Float) :
    (r.snapshots now score).map EntrySnapshot.unscored =
      (r'.snapshots now score').map EntrySnapshot.unscored := by
  have hpart (p : EntryState) (score score' : Entry → Option Float) :
      ((r.entries.filter fun e => e.state == p).map
          fun e => (e.snapshot now (score e)).unscored) =
        (r'.entries.filter fun e => e.state == p).map
          fun e => (e.snapshot now (score' e)).unscored := by
    have hfilter := List.rel_filter (p := fun e : Entry => e.state == p)
      (q := fun e : Entry => e.state == p) (fun _ _ he => by simp [Entry.state, he.stage]) h.entries
    rw [← List.forall₂_eq_eq_eq]
    exact List.rel_map (fun a a' ha => ha.snapshot now _ _) hfilter
  rw [Roster.snapshots, Roster.snapshots, List.map_append, List.map_append, List.map_map,
    List.map_map, List.map_map, List.map_map]
  exact congrArg₂ _ (hpart .queued _ _) (hpart .processing _ _)

end Roster

/-! ### Turns -/

namespace Reply

def unnumbered : Reply → Reply
  | complete answer => complete (answer.map Entry.unnumbered)
  | enqueue answer => enqueue answer
  | beginProcessing answer => beginProcessing answer
  | start answer => start answer
  | withdraw answer => withdraw answer
  | dispatch answer => dispatch answer

def isRefusal : Reply → Bool
  | enqueue (.error _) | beginProcessing (.error _) => true
  | enqueue (.ok _) | beginProcessing (.ok _) | start _ | complete _ | withdraw _ | dispatch _ =>
    false

end Reply

namespace Scheduler

variable {k : Nat} {s s' : Scheduler} {turn : Turn}

private theorem roster_skipped (h : s.kind = .workConserving) :
    s.skipped.roster = s.roster.skipSequence := by
  cases s with
  | workConserving w => rfl
  | fixedSlots f => cases h

theorem skipped_eq_self (h : s.kind = .fixedConcurrency) : s.skipped = s := by
  cases s with
  | workConserving w => cases h
  | fixedSlots f => rfl

theorem start_roster (s : Scheduler) (id : RequestId) (now : Instant) :
    (s.start id now).map Prod.fst = (s.roster.start id now).map Prod.fst ∧
      (s.startOrStay id now).roster = (s.roster.start id now).toOption.elim s.roster Prod.snd := by
  cases s with
  | workConserving w =>
    simp only [startOrStay, Scheduler.start, roster]
    cases w.roster.start id now <;> exact ⟨rfl, rfl⟩
  | fixedSlots f =>
    simp only [startOrStay, Scheduler.start, FixedSlots.start, roster]
    cases f.roster.start id now <;> exact ⟨rfl, rfl⟩

theorem complete_roster (s : Scheduler) (id : RequestId) :
    (s.complete id).map Prod.fst = (s.roster.complete id).map Prod.fst ∧
      (s.apply (.complete id)).roster =
        (s.roster.complete id).toOption.elim s.roster Prod.snd := by
  cases s with
  | workConserving w =>
    simp only [apply, Scheduler.complete, roster]
    cases w.roster.complete id <;> exact ⟨rfl, rfl⟩
  | fixedSlots f =>
    simp only [apply, Scheduler.complete, roster]
    cases f.roster.complete id <;> exact ⟨rfl, rfl⟩

theorem withdraw_roster (s : Scheduler) (id : RequestId) :
    (s.withdraw id).map Prod.fst = (s.roster.withdraw id).map Prod.fst ∧
      (s.apply (.withdraw id)).roster = (s.roster.withdraw id).elim s.roster Prod.snd := by
  cases s with
  | workConserving w =>
    simp only [apply, Scheduler.withdraw, roster]
    cases w.roster.withdraw id <;> exact ⟨rfl, rfl⟩
  | fixedSlots f =>
    simp only [apply, Scheduler.withdraw, FixedSlots.withdraw, roster]
    cases f.roster.withdraw id <;> exact ⟨rfl, rfl⟩

/-- Only the scores that are shown depend on the kind. -/
theorem snapshots_roster (s : Scheduler) (now : Instant) :
    ∃ score, s.snapshots now = s.roster.snapshots now score := by
  cases s <;> exact ⟨_, rfl⟩

/-- The schedulers are of the two kinds, and the one that scores has refused `k` newcomers. -/
structure Twins (k : Nat) (s f : Scheduler) : Prop where
  scores : s.kind = .workConserving
  fixed : f.kind = .fixedConcurrency
  wellFormed : s.WellFormed ∧ f.WellFormed
  ahead : s.roster.Ahead k f.roster

variable {f : Scheduler}

theorem twins_new (policy : TierPolicy) (agingCap : Duration) (limits : PerTier Nat) :
    Twins 0 (workConserving { policy, agingCap }) (fixedSlots (.new limits)) where
  scores := rfl
  fixed := rfl
  wellFormed := ⟨Roster.wellFormed_empty, FixedSlots.wellFormed_new limits⟩
  ahead := ⟨.nil, rfl, rfl, rfl⟩

/-- Both answer a call alike, and the first is ahead by one more if it refused a newcomer. -/
theorem Twins.answer (h : Twins k s f) (hturn : turn.isDispatch = false) :
    (s.reply turn).unnumbered = (f.reply turn).unnumbered ∧
      (s.apply turn).roster.Ahead (k + if (s.reply turn).isRefusal then 1 else 0)
        (f.apply turn).roster := by
  have hcontains (id : RequestId) : s.contains id = f.contains id := h.ahead.contains id
  cases turn with
  | enqueue q now =>
    cases hc : s.contains q.id with
    | true =>
      have hc' := (hcontains q.id).symm.trans hc
      simp only [reply, apply, enqueue_of_contains hc, enqueue_of_contains hc',
        roster_skipped h.scores, skipped_eq_self h.fixed]
      exact ⟨trivial, h.ahead.skipSequence⟩
    | false =>
      obtain ⟨s', hs, -, hr, -⟩ := h.wellFormed.1.enqueue now hc
      obtain ⟨f', hf, -, hr', -⟩ := h.wellFormed.2.enqueue now ((hcontains q.id).symm.trans hc)
      simp only [reply, apply, hs, hf, hr, hr']
      exact ⟨trivial, h.ahead.addQueued q now⟩
  | beginProcessing q now =>
    cases hc : s.contains q.id with
    | true =>
      have hc' := (hcontains q.id).symm.trans hc
      simp only [reply, apply, beginProcessing_of_contains hc, beginProcessing_of_contains hc',
        roster_skipped h.scores, skipped_eq_self h.fixed]
      exact ⟨trivial, h.ahead.skipSequence⟩
    | false =>
      obtain ⟨s', hs, -, hr, -⟩ := h.wellFormed.1.beginProcessing now hc
      obtain ⟨f', hf, -, hr', -⟩ :=
        h.wellFormed.2.beginProcessing now ((hcontains q.id).symm.trans hc)
      simp only [reply, apply, hs, hf, hr, hr']
      exact ⟨trivial, h.ahead.addProcessing q now⟩
  | start id now =>
    obtain ⟨hanswer, hahead⟩ := h.ahead.start id now
    simp only [reply, apply, start_roster, hanswer]
    exact ⟨trivial, hahead⟩
  | complete id =>
    obtain ⟨hanswer, hahead⟩ := h.ahead.complete id
    simp only [reply, complete_roster, Reply.unnumbered, hanswer]
    exact ⟨trivial, hahead⟩
  | withdraw id =>
    obtain ⟨hanswer, hahead⟩ := h.ahead.withdraw id
    simp only [reply, withdraw_roster, hanswer]
    exact ⟨trivial, hahead⟩
  | dispatch b now => cases hturn

theorem Twins.apply (h : Twins k s f) (hturn : turn.isDispatch = false) :
    Twins (k + if (s.reply turn).isRefusal then 1 else 0) (s.apply turn) (f.apply turn) where
  scores := (kind_apply s turn).trans h.scores
  fixed := (kind_apply f turn).trans h.fixed
  wellFormed := ⟨h.wellFormed.1.apply turn, h.wellFormed.2.apply turn⟩
  ahead := (h.answer hturn).2

theorem Twins.after (h : Twins k s f) {turns : List Turn}
    (calls : ∀ turn ∈ turns, turn.isDispatch = false) :
    (s.replies turns).map Reply.unnumbered = (f.replies turns).map Reply.unnumbered ∧
      Twins (k + (s.replies turns).countP Reply.isRefusal) (s.after turns) (f.after turns) := by
  induction turns generalizing s f k with
  | nil => exact ⟨rfl, h⟩
  | cons turn turns ih =>
    have hturn := calls turn List.mem_cons_self
    obtain ⟨hreplies, htwins⟩ :=
      ih (h.apply hturn) fun turn hmem => calls turn (List.mem_cons_of_mem _ hmem)
    refine ⟨?_, ?_⟩
    · simp only [replies, List.map_cons, (h.answer hturn).1, hreplies]
    · rwa [replies, List.countP_cons, Nat.add_comm (List.countP _ _), ← Nat.add_assoc]

/-- From the same calls, refused ones included, the two kinds give the same answers and show the
same requests, whatever their settings. Only the numbers in the order of arrival may differ, by at
most as many as newcomers have been refused. -/
theorem kinds_keep_the_same_books (policy : TierPolicy) (agingCap : Duration)
    (limits : PerTier Nat) (turns : List Turn)
    (calls : ∀ turn ∈ turns, turn.isDispatch = false) :
    let scoring : Scheduler := .workConserving { policy, agingCap }
    let fixed : Scheduler := .fixedSlots (.new limits)
    let s := scoring.after turns
    let f := fixed.after turns
    (scoring.replies turns).map Reply.unnumbered = (fixed.replies turns).map Reply.unnumbered ∧
      (∀ id, s.contains id = f.contains id) ∧ s.queued = f.queued ∧ s.processing = f.processing ∧
      (∀ now, (s.snapshots now).map EntrySnapshot.unscored =
        (f.snapshots now).map EntrySnapshot.unscored) ∧
      List.Forall₂ (Entry.Ahead ((scoring.replies turns).countP Reply.isRefusal))
        s.roster.entries f.roster.entries := by
  intro scoring fixed s f
  obtain ⟨hreplies, htwins⟩ := (twins_new policy agingCap limits).after calls
  rw [Nat.zero_add] at htwins
  refine ⟨hreplies, htwins.ahead.contains, htwins.ahead.queued, htwins.ahead.processing,
    fun now => ?_, htwins.ahead.entries⟩
  obtain ⟨score, hs⟩ := s.snapshots_roster now
  obtain ⟨score', hf⟩ := f.snapshots_roster now
  rw [hs, hf]
  exact htwins.ahead.snapshots now score score'

/-- A duplicate is refused by both, and from then on the numbers differ. -/
theorem kinds_keep_the_same_books_after_duplicate :
    let scoring : Scheduler := .workConserving { policy := {}, agingCap := .ofSeconds 20 }
    let fixed : Scheduler := .fixedSlots (.new ⟨3, 2, 1⟩)
    let turns : List Turn :=
      [.enqueue ⟨"a", .free, .null, {}⟩ ⟨0⟩, .enqueue ⟨"a", .premium, .null, {}⟩ ⟨1⟩,
        .beginProcessing ⟨"b", .enterprise, .null, {}⟩ ⟨2⟩, .start "b" ⟨3⟩, .start "a" ⟨1⟩,
        .withdraw "a", .complete "a", .enqueue ⟨"c", .free, .null, {}⟩ ⟨4⟩]
    (∀ turn ∈ turns, turn.isDispatch = false) ∧
      (scoring.replies turns).countP Reply.isRefusal = 1 ∧
      (scoring.after turns).roster.entries.map Entry.sequence = [2, 3] ∧
      (fixed.after turns).roster.entries.map Entry.sequence = [1, 2] ∧
      (scoring.replies turns).map Reply.unnumbered = (fixed.replies turns).map Reply.unnumbered ∧
      ∀ now, ((scoring.after turns).snapshots now).map EntrySnapshot.unscored =
        ((fixed.after turns).snapshots now).map EntrySnapshot.unscored := by
  intro scoring fixed turns
  have calls : ∀ turn ∈ turns, turn.isDispatch = false := by simp [turns, Turn.isDispatch]
  have same := kinds_keep_the_same_books {} (.ofSeconds 20) ⟨3, 2, 1⟩ turns calls
  exact ⟨calls, by decide, by decide, by decide, same.1, same.2.2.2.2.1⟩

end Scheduler

end TieredAdmission
