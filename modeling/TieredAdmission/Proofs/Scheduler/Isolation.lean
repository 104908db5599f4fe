import TieredAdmission.Proofs.Scheduler.Filling
import TieredAdmission.Proofs.Scheduler.Trimming

/-!
# Tiers with slots of their own

In a scheduler with fixed slots no tier feels the load on the others. A run with the operations of
all tiers is led beside the run that has only the operations of one tier and the fills. The second
scheduler tracks the entries of that tier and no others. Its own operations are answered alike in
both, those of other tiers leave its entries alone, and a fill dispatches the same requests of the
tier, in the same order, as long as the common budget does not run out.
-/

namespace TieredAdmission

def Turn.subject? : Turn → Option RequestId
  | .enqueue q _ | .beginProcessing q _ => some q.id
  | .start id _ | .complete id | .withdraw id => some id
  | .dispatch _ _ => none

inductive LoadStep where
  | turn (turn : Turn)
  /-- Selects and starts one request after another until none is selected. -/
  | fill (slots : Nat) (now : Instant)

inductive Outcome where
  | reply (reply : Reply)
  | dispatched (ds : List Dispatch)

namespace LoadStep

/-- The step is an operation on an identifier of the tier, or a fill. -/
def concerns (tierOf : RequestId → Tier) (t : Tier) : LoadStep → Bool
  | .turn call => call.subject?.map tierOf == some t
  | .fill _ _ => true

/-- A newcomer is of the tier of its identifier, and fills alone select requests. -/
def KeepsTiers (tierOf : RequestId → Tier) : LoadStep → Prop
  | .turn (.enqueue q _) | .turn (.beginProcessing q _) => q.tier = tierOf q.id
  | .turn (.dispatch _ _) => False
  | .turn (.start _ _) | .turn (.complete _) | .turn (.withdraw _) | .fill _ _ => True

/-- A fill has more slots than requests are tracked. -/
def HasRoom (s : Scheduler) : LoadStep → Prop
  | .turn _ => True
  | .fill slots _ => s.roster.entries.length < slots

instance (s : Scheduler) : DecidablePred (HasRoom s)
  | .turn _ => inferInstanceAs (Decidable True)
  | .fill slots _ => inferInstanceAs (Decidable (s.roster.entries.length < slots))

end LoadStep

namespace Outcome

def unnumbered : Outcome → Outcome
  | reply r => reply r.unnumbered
  | dispatched ds => dispatched ds

/-- What of an outcome is the business of a tier. -/
def ofTier (t : Tier) : Outcome → Outcome
  | reply r => reply r.unnumbered
  | dispatched ds => dispatched (ds.filter fun d => d.request.tier == t)

end Outcome

namespace Roster

def ofTier (t : Tier) (es : List Entry) : List Entry := es.filter fun e => e.tier == t

/-- The second roster has the entries that the first has of a tier, but for their numbers. -/
def SameTier (t : Tier) (r r' : Roster) : Prop :=
  (ofTier t r.entries).map Entry.unnumbered = r'.entries.map Entry.unnumbered

variable {tierOf : RequestId → Tier} {t : Tier} {r r' : Roster} {e e' : Entry} {es : List Entry}
  {id : RequestId} {q : Request} {now : Instant}

theorem mem_ofTier : e ∈ ofTier t es ↔ e ∈ es ∧ e.tier = t := by
  simp [ofTier]

private theorem ofTier_append (es fs : List Entry) :
    ofTier t (es ++ fs) = ofTier t es ++ ofTier t fs :=
  List.filter_append ..

private theorem ofTier_setStage (stage : Stage) :
    ofTier t (setStage id stage es) = setStage id stage (ofTier t es) := by
  rw [ofTier, ofTier, setStage, setStage, List.filter_map]
  congr 2
  funext e
  simp only [Function.comp_apply]
  split <;> rfl

private theorem ofTier_erase :
    ofTier t (erase id es) = erase id (ofTier t es) := List.filter_comm ..

private theorem map_unnumbered_setStage (stage : Stage) :
    (setStage id stage es).map Entry.unnumbered = setStage id stage (es.map Entry.unnumbered) := by
  rw [← besides_nil, ← besides_nil]
  exact besides_setStage stage

private theorem map_unnumbered_erase :
    (erase id es).map Entry.unnumbered = erase id (es.map Entry.unnumbered) := by
  rw [← besides_nil, ← besides_nil]
  exact besides_erase

namespace SameTier

theorem exists_right (h : SameTier t r r') (he : e ∈ r.entries) (ht : e.tier = t) :
    ∃ e' ∈ r'.entries, e.unnumbered = e'.unnumbered := by
  have hmem : e.unnumbered ∈ r'.entries.map Entry.unnumbered := by
    rw [← h]
    exact List.mem_map_of_mem (mem_ofTier.2 ⟨he, ht⟩)
  obtain ⟨e', he', hsame⟩ := List.mem_map.1 hmem
  exact ⟨e', he', hsame.symm⟩

theorem exists_left (h : SameTier t r r') (he : e' ∈ r'.entries) :
    ∃ e ∈ r.entries, e.tier = t ∧ e.unnumbered = e'.unnumbered := by
  have hmem : e'.unnumbered ∈ (ofTier t r.entries).map Entry.unnumbered := by
    rw [h]
    exact List.mem_map_of_mem he
  obtain ⟨e, he, hsame⟩ := List.mem_map.1 hmem
  obtain ⟨he, ht⟩ := mem_ofTier.1 he
  exact ⟨e, he, ht, hsame⟩

theorem tier_right (h : SameTier t r r') (he : e' ∈ r'.entries) : e'.tier = t := by
  obtain ⟨e, -, ht, hsame⟩ := h.exists_left he
  exact (congrArg Entry.tier hsame.symm :).trans ht

private theorem length_le (h : SameTier t r r') : r'.entries.length ≤ r.entries.length := by
  rw [← List.length_map Entry.unnumbered, ← h, List.length_map]
  exact List.length_filter_le _ _

/-- What the second roster has in a stage are the entries that the first has there of the tier. -/
theorem filter_state (h : SameTier t r r') (s : EntryState) :
    ((r.entries.filter fun e => e.state == s).filter fun e => e.tier == t).map Entry.unnumbered =
      (r'.entries.filter fun e => e.state == s).map Entry.unnumbered := by
  have hkeep (es : List Entry) : (es.filter fun e => e.state == s).map Entry.unnumbered =
      (es.map Entry.unnumbered).filter fun e => e.state == s := by
    rw [List.filter_map]
    rfl
  rw [List.filter_comm, hkeep, hkeep]
  exact congrArg _ h

private theorem filter_tier (h : SameTier t r r') (p : Entry → Bool) :
    ((r'.entries.filter p).filter fun e => e.tier == t) = r'.entries.filter p :=
  List.filter_eq_self.2 fun e' he' => by
    simpa using h.tier_right (List.mem_of_mem_filter he')

theorem count_eq (h : SameTier t r r') (s : EntryState) :
    count r.entries s t = count r'.entries s t := by
  have hcount (es : List Entry) : count es s t =
      ((es.filter fun e => e.state == s).filter fun e => e.tier == t).length := by
    rw [List.filter_filter, ← List.countP_eq_length_filter]
    exact List.countP_congr fun e _ => by simp [and_comm]
  rw [hcount, hcount, h.filter_tier, ← List.length_map Entry.unnumbered, h.filter_state,
    List.length_map]

/-- The first queued entry of the tier is the same. -/
theorem head?_queuedEntries (h : SameTier t r r')
    (he : (r.queuedEntries.filter fun f => f.tier == t).head? = some e) :
    ∃ e', (r'.queuedEntries.filter fun f => f.tier == t).head? = some e' ∧
      e.unnumbered = e'.unnumbered := by
  have hhead := congrArg List.head? (h.filter_state .queued)
  rw [List.head?_map, List.head?_map] at hhead
  change ((r.queuedEntries.filter _).head?).map _ = (r'.queuedEntries.head?).map _ at hhead
  rw [he, Option.map_some, eq_comm, Option.map_eq_some_iff] at hhead
  obtain ⟨e', he', hsame⟩ := hhead
  exact ⟨e', (congrArg List.head? (h.filter_tier Entry.isQueued)).trans he', hsame.symm⟩

/-- An identifier of the tier is tracked in both or in neither. -/
theorem find?_cases (h : SameTier t r r') (hwf' : r'.WellFormed)
    (htiers : ∀ e ∈ r.entries, e.tier = tierOf e.id) (hid : tierOf id = t) :
    r.find? id = none ∧ r'.find? id = none ∨ ∃ e e', r.find? id = some e ∧
      r'.find? id = some e' ∧ e.unnumbered = e'.unnumbered := by
  cases hf : r.find? id with
  | none =>
    refine Or.inl ⟨rfl, Option.eq_none_iff_forall_ne_some.2 fun e' hf' => ?_⟩
    obtain ⟨e, he, -, hsame⟩ := h.exists_left (mem_of_find? hf')
    have hname : e.id = e'.id := (congrArg Entry.id hsame :)
    exact List.find?_eq_none.1 hf e he (beq_iff_eq.2 (hname.trans (Roster.find?_id hf')))
  | some e =>
    obtain rfl := Roster.find?_id hf
    have hmem := mem_of_find? hf
    obtain ⟨e', he', hsame⟩ := h.exists_right hmem ((htiers e hmem).trans hid)
    have hname : e.id = e'.id := (congrArg Entry.id hsame :)
    exact Or.inr ⟨e, e', rfl, hname ▸ hwf'.find?_id he', hsame⟩

/-! ### Operations of the tier -/

theorem append (h : SameTier t r r') (hq : q.tier = t) (stage : Stage) {n n' : Nat} :
    List.map Entry.unnumbered (ofTier t (r.entries ++ [⟨q, now, n, stage⟩])) =
      List.map Entry.unnumbered (r'.entries ++ [⟨q, now, n', stage⟩]) := by
  have hone : ofTier t [(⟨q, now, n, stage⟩ : Entry)] = [⟨q, now, n, stage⟩] := by
    simp [ofTier, Entry.tier, hq]
  rw [ofTier_append, List.map_append, List.map_append, h, hone]
  rfl

theorem started (h : SameTier t r r') (he : e.unnumbered = e'.unnumbered) (now : Instant) :
    SameTier t (r.started e now) (r'.started e' now) := by
  have hname : e.id = e'.id := (congrArg Entry.id he :)
  rw [SameTier, Roster.started, Roster.started]
  dsimp only
  rw [ofTier_setStage, map_unnumbered_setStage, map_unnumbered_setStage, h, hname]

theorem erase (h : SameTier t r r') (he : e.unnumbered = e'.unnumbered) :
    (ofTier t (Roster.erase e.id r.entries)).map Entry.unnumbered =
      (Roster.erase e'.id r'.entries).map Entry.unnumbered := by
  have hname : e.id = e'.id := (congrArg Entry.id he :)
  rw [ofTier_erase, map_unnumbered_erase, map_unnumbered_erase, h, hname]

end SameTier

end Roster

namespace Scheduler

variable {tierOf : RequestId → Tier} {t : Tier} {s s' s₁ : Scheduler} {turn : Turn}
  {step : LoadStep} {steps : List LoadStep} {b b' : CapacityBudget} {now : Instant} {slots : Nat}
  {q : Request} {e : Entry} {r : Roster}

/-- The common budget of so many slots. -/
def shared (slots : Nat) (s : Scheduler) : CapacityBudget := .ofCounts slots s.processing.total

/-- The scheduler after a step. A fill has as many rounds as there are queued requests. -/
def perform (s : Scheduler) : LoadStep → Scheduler
  | .turn turn => s.apply turn
  | .fill slots now => (fill (shared slots) now s.queued.total s).2

def outcome (s : Scheduler) : LoadStep → Outcome
  | .turn turn => .reply (s.reply turn)
  | .fill slots now => .dispatched (fill (shared slots) now s.queued.total s).1

def outcomes : Scheduler → List LoadStep → List Outcome
  | _, [] => []
  | s, step :: steps => s.outcome step :: (s.perform step).outcomes steps

/-- No fill of the run is short of common slots. -/
def Ample : Scheduler → List LoadStep → Prop
  | _, [] => True
  | s, step :: steps => step.HasRoom s ∧ (s.perform step).Ample steps

instance decidableAmple : (s : Scheduler) → DecidablePred (Ample s)
  | _, [] => inferInstanceAs (Decidable True)
  | s, step :: steps =>
    have := decidableAmple (s.perform step) steps
    inferInstanceAs (Decidable (step.HasRoom s ∧ (s.perform step).Ample steps))

/-! ### The two runs side by side -/

/-- The second scheduler has the same slots and tracks what the first one tracks of a tier. -/
structure Isolates (tierOf : RequestId → Tier) (t : Tier) (s s' : Scheduler) : Prop where
  fixed : s.kind = .fixedConcurrency
  settings : s'.emptied = s.emptied
  wellFormed : s.WellFormed
  wellFormed' : s'.WellFormed
  tiers : ∀ e ∈ s.roster.entries, e.tier = tierOf e.id
  roster : s.roster.SameTier t s'.roster

theorem isolates_new (tierOf : RequestId → Tier) (t : Tier) (limits : PerTier Nat) :
    Isolates tierOf t (fixedSlots (.new limits)) (fixedSlots (.new limits)) where
  fixed := rfl
  settings := rfl
  wellFormed := FixedSlots.wellFormed_new limits
  wellFormed' := FixedSlots.wellFormed_new limits
  tiers := by simp [roster, FixedSlots.new]
  roster := rfl

namespace Isolates

private theorem fixed' (h : s.Isolates tierOf t s') : s'.kind = .fixedConcurrency := by
  have hkind (s : Scheduler) : s.emptied.kind = s.kind := by cases s <;> rfl
  rw [← hkind, h.settings, hkind, h.fixed]

private theorem tiers_applied (h : s.Isolates tierOf t s') (ha : Applied s turn r)
    (hkeeps : (LoadStep.turn turn).KeepsTiers tierOf) : ∀ e ∈ r.entries, e.tier = tierOf e.id := by
  have hset (id : RequestId) (stage : Stage) :
      ∀ e ∈ Roster.setStage id stage s.roster.entries, e.tier = tierOf e.id := by
    intro e he
    obtain ⟨f, hf, rfl⟩ := List.mem_map.1 he
    have htier := h.tiers f hf
    split <;> exact htier
  have happend {q : Request} (hq : q.tier = tierOf q.id) (now : Instant) (n : Nat)
      (stage : Stage) : ∀ e ∈ s.roster.entries ++ [⟨q, now, n, stage⟩], e.tier = tierOf e.id := by
    intro e he
    rcases List.mem_append.1 he with he | he
    · exact h.tiers e he
    · rw [List.mem_singleton.1 he]
      exact hq
  cases ha with
  | queued new => exact happend hkeeps _ _ _
  | began new => exact happend hkeeps _ _ _
  | started found queued => exact hset _ _
  | dispatched selected found queued => exact hset _ _
  | completed found processing => exact fun e he => h.tiers e (List.mem_of_mem_filter he)
  | withdrawn found queued => exact fun e he => h.tiers e (List.mem_of_mem_filter he)
  | refused same => exact same.entries ▸ h.tiers

private theorem after_turns (h : s.Isolates tierOf t s')
    (hkeeps : (LoadStep.turn turn).KeepsTiers tierOf)
    (hr : (s.apply turn).roster.SameTier t (s'.apply turn).roster) :
    (s.apply turn).Isolates tierOf t (s'.apply turn) where
  fixed := (kind_apply s turn).trans h.fixed
  settings := by rw [emptied_apply, emptied_apply, h.settings]
  wellFormed := h.wellFormed.apply turn
  wellFormed' := h.wellFormed'.apply turn
  tiers := h.tiers_applied (h.wellFormed.applied turn).2 hkeeps
  roster := hr

/-- A turn of the tier is answered alike and keeps the two together. -/
theorem own_turn (h : s.Isolates tierOf t s') (hkeeps : (LoadStep.turn turn).KeepsTiers tierOf)
    (hown : turn.subject?.map tierOf = some t) :
    (s.reply turn).unnumbered = (s'.reply turn).unnumbered ∧
      (s.apply turn).Isolates tierOf t (s'.apply turn) := by
  have hfind {id : RequestId} (hid : some (tierOf id) = some t) :=
    h.roster.find?_cases h.wellFormed'.roster h.tiers (Option.some.inj hid)
  have hcontains {id : RequestId} (hid : some (tierOf id) = some t) :
      s'.contains id = s.contains id := by
    rcases hfind hid with ⟨hf, hf'⟩ | ⟨e, e', hf, hf', -⟩ <;>
      simp [contains, Roster.contains, hf, hf']
  suffices hboth : (s.reply turn).unnumbered = (s'.reply turn).unnumbered ∧
      (s.apply turn).roster.SameTier t (s'.apply turn).roster from
    ⟨hboth.1, h.after_turns hkeeps hboth.2⟩
  cases turn with
  | enqueue q now =>
    cases hc : s.contains q.id with
    | true =>
      have hc' := (hcontains hown).trans hc
      simp only [reply, apply, enqueue_of_contains hc, enqueue_of_contains hc',
        skipped_eq_self h.fixed, skipped_eq_self h.fixed']
      exact ⟨trivial, h.roster⟩
    | false =>
      obtain ⟨s₁, hs, -, hr, -⟩ := h.wellFormed.enqueue now hc
      obtain ⟨s₁', hs', -, hr', -⟩ := h.wellFormed'.enqueue now ((hcontains hown).trans hc)
      simp only [reply, apply, hs, hs', hr, hr']
      exact ⟨trivial, h.roster.append (Eq.trans hkeeps (Option.some.inj hown)) _⟩
  | beginProcessing q now =>
    cases hc : s.contains q.id with
    | true =>
      have hc' := (hcontains hown).trans hc
      simp only [reply, apply, beginProcessing_of_contains hc, beginProcessing_of_contains hc',
        skipped_eq_self h.fixed, skipped_eq_self h.fixed']
      exact ⟨trivial, h.roster⟩
    | false =>
      obtain ⟨s₁, hs, -, hr, -⟩ := h.wellFormed.beginProcessing now hc
      obtain ⟨s₁', hs', -, hr', -⟩ := h.wellFormed'.beginProcessing now ((hcontains hown).trans hc)
      simp only [reply, apply, hs, hs', hr, hr']
      exact ⟨trivial, h.roster.append (Eq.trans hkeeps (Option.some.inj hown)) _⟩
  | start id now =>
    obtain ⟨hanswer, hroster⟩ := Roster.start_congr h.roster (hfind hown) (fun he => he)
      fun he => h.roster.started he now
    simp only [reply, apply, start_roster, hanswer]
    exact ⟨trivial, hroster⟩
  | complete id =>
    obtain ⟨hanswer, hroster⟩ := Roster.complete_congr h.roster (hfind hown) (fun he => he) h.roster.erase
    simp only [reply, complete_roster, Reply.unnumbered, hanswer]
    exact ⟨trivial, hroster⟩
  | withdraw id =>
    obtain ⟨hanswer, hroster⟩ := Roster.withdraw_congr h.roster (hfind hown) (fun he => he) h.roster.erase
    simp only [reply, withdraw_roster, hanswer]
    exact ⟨trivial, hroster⟩
  | dispatch b now => exact hkeeps.elim

/-- A turn of another tier leaves the entries of the tier as they are. -/
theorem ofTier_applied (h : s.Isolates tierOf t s') (ha : Applied s turn r)
    (hkeeps : (LoadStep.turn turn).KeepsTiers tierOf)
    (hforeign : turn.subject?.map tierOf ≠ some t) :
    Roster.ofTier t r.entries = Roster.ofTier t s.roster.entries := by
  have hother {id : RequestId} (hid : some (tierOf id) ≠ some t) {e : Entry}
      (hf : s.roster.find? id = some e) : ∀ f ∈ Roster.ofTier t s.roster.entries, f.id ≠ e.id := by
    obtain rfl := Roster.find?_id hf
    intro f hf' hname
    obtain ⟨hmem, ht⟩ := Roster.mem_ofTier.1 hf'
    exact hid (congrArg some (hname ▸ (h.tiers f hmem).symm.trans ht))
  have hnone {q : Request} (hq : q.tier = tierOf q.id) (hid : some (tierOf q.id) ≠ some t)
      (now : Instant) (n : Nat) (stage : Stage) :
      Roster.ofTier t (s.roster.entries ++ [⟨q, now, n, stage⟩]) =
        Roster.ofTier t s.roster.entries := by
    have ht : q.tier ≠ t := fun ht => hid (congrArg some (hq.symm.trans ht))
    rw [Roster.ofTier_append]
    simp [Roster.ofTier, Entry.tier, ht]
  have herase {e : Entry} (hne : ∀ f ∈ Roster.ofTier t s.roster.entries, f.id ≠ e.id) :
      Roster.ofTier t (Roster.erase e.id s.roster.entries) =
        Roster.ofTier t s.roster.entries := by
    rw [Roster.ofTier_erase]
    exact List.filter_eq_self.2 fun f hf => by simpa using hne f hf
  cases ha with
  | queued new => exact hnone hkeeps hforeign _ _ _
  | began new => exact hnone hkeeps hforeign _ _ _
  | started found queued =>
    exact (Roster.ofTier_setStage _).trans (Roster.setStage_of_ne (hother hforeign found))
  | completed found processing => exact herase (hother hforeign found)
  | withdrawn found queued => exact herase (hother hforeign found)
  | dispatched selected found queued => exact hkeeps.elim
  | refused same => rw [same.entries]

private theorem foreign_turn (h : s.Isolates tierOf t s')
    (hkeeps : (LoadStep.turn turn).KeepsTiers tierOf)
    (hforeign : turn.subject?.map tierOf ≠ some t) : (s.apply turn).Isolates tierOf t s' where
  fixed := (kind_apply s turn).trans h.fixed
  settings := by rw [emptied_apply, h.settings]
  wellFormed := h.wellFormed.apply turn
  wellFormed' := h.wellFormed'
  tiers := h.tiers_applied (h.wellFormed.applied turn).2 hkeeps
  roster := by
    rw [Roster.SameTier, h.ofTier_applied (h.wellFormed.applied turn).2 hkeeps hforeign]
    exact h.roster

/-! ### Fills -/

theorem grants_iff (h : s.Isolates tierOf t s') : s'.Grants t ↔ s.Grants t := by
  rw [Grants, Grants, limits?_eq_of_emptied h.settings, processing, processing,
    h.wellFormed.roster.processing, h.wellFormed'.roster.processing, h.roster.count_eq]

theorem selectNext_none (h : s.Isolates tierOf t s') (hb : 0 < b.available)
    (hnone : s.selectNext b now = none) : s'.selectNext b' now = none := by
  refine h.wellFormed'.selectNext_eq_none_iff.2 (Or.inr fun u hu => ?_)
  obtain ⟨e', he', rfl⟩ := h.wellFormed'.roster.exists_queued hu
  rw [h.roster.tier_right (Roster.mem_queuedEntries.1 he').1] at hu ⊢
  rw [h.grants_iff]
  refine (h.wellFormed.selectNext_none hnone).resolve_left (Nat.ne_of_gt hb) t ?_
  rw [queued, h.wellFormed'.roster.queued] at hu
  rwa [queued, h.wellFormed.roster.queued, h.roster.count_eq]

/-- The first queued request of a tier that is served is also the first of the tier alone. -/
theorem selectNext_some (h : s.Isolates tierOf t s') (hb' : 0 < b'.available)
    (hsome : s.selectNext b now = some q) (ht : q.tier = t) : s'.selectNext b' now = some q := by
  obtain ⟨-, e, hnext, rfl⟩ := h.wellFormed.selectNext_eq_some_iff.1 hsome
  obtain ⟨f, rfl⟩ : ∃ f, s = fixedSlots f := by
    cases s with
    | workConserving w => cases h.fixed
    | fixedSlots f => exact ⟨f, rfl⟩
  obtain ⟨f', rfl, -⟩ := exists_fixedSlots_of_emptied h.settings
  replace hnext : f.IsNext e := hnext
  have hearliest : ∀ g ∈ f.roster.queuedEntries, g.tier = t → g ≠ e → e.sequence < g.sequence :=
    fun g hg hgt => hnext.earliest g hg (hgt.trans ht.symm)
  obtain ⟨e', he', hsame⟩ := h.roster.head?_queuedEntries
    (h.wellFormed.roster.head?_queuedEntries.2 ⟨hnext.queued, ht, hearliest⟩)
  obtain ⟨hqueued, ht', hearliest'⟩ := h.wellFormed'.roster.head?_queuedEntries.1 he'
  have hrequest : e.request = e'.request := (congrArg Entry.request hsame :)
  refine h.wellFormed'.selectNext_eq_some_iff.2 ⟨hb', e', ?_, hrequest.symm⟩
  exact
    { queued := hqueued
      slot := by
        rw [ht']
        exact grants_fixedSlots.1 (h.grants_iff.2 (grants_fixedSlots.2 (ht ▸ hnext.slot)))
      first := fun u hu _ g hg => by
        rw [h.roster.tier_right (Roster.mem_queuedEntries.1 hg).1, ← ht']
        rintro rfl
        exact Nat.lt_irrefl _ hu
      earliest := fun g hg hgt => hearliest' g hg (hgt.trans ht') }

theorem available_shared_pos (h : s.WellFormed) (hroom : s.roster.entries.length < slots) :
    0 < (shared slots s).available := by
  have hle := List.length_filter_le Entry.isProcessing s.roster.entries
  rw [shared, CapacityBudget.available_ofCounts, processing, h.roster.total_processing]
  exact Nat.sub_pos_of_lt (Nat.lt_of_le_of_lt hle hroom)

theorem fill_of_none (hnone : s.selectNext (shared slots s) now = none) (fuel : Nat) :
    fill (shared slots) now fuel s = ([], s) := by
  cases fuel with
  | zero => rfl
  | succ fuel => simp only [Scheduler.fill, hnone]

private theorem fill_of_some {fuel : Nat} {d : Dispatch}
    (hsome : s.selectNext (shared slots s) now = some q) (hs : s.start q.id now = .ok (d, s₁)) :
    fill (shared slots) now (fuel + 1) s =
      (d :: (fill (shared slots) now fuel s₁).1, (fill (shared slots) now fuel s₁).2) := by
  simp only [Scheduler.fill, hsome, hs]

/-- A round of a fill is a turn that starts the selected request. -/
theorem start_round (h : s.WellFormed) (hsome : s.selectNext b now = some q) :
    ∃ d, s.start q.id now = .ok (d, s.apply (.start q.id now)) ∧ d.request = q ∧
      (s.apply (.start q.id now)).queued.total + 1 = s.queued.total ∧
      (s.apply (.start q.id now)).roster.entries.length = s.roster.entries.length := by
  obtain ⟨e, s₁, hf, hqueued, rfl, hs, -, hr, -⟩ := h.start_selected hsome now
  have happly : s.apply (.start e.request.id now) = s₁ := by rw [apply, startOrStay, hs]
  rw [happly, queued, hr]
  exact ⟨_, hs, rfl, (h.roster.total_started now hf hqueued).1, List.length_map _⟩

private theorem selectNext_of_queued_zero (h : s.WellFormed) (hzero : s.queued.total = 0) :
    s.selectNext b now = none :=
  h.selectNext_eq_none_iff.2 (Or.inr fun t ht => absurd ht (by
    rw [PerTier.total_eq_zero_iff.1 hzero t]
    exact Nat.lt_irrefl 0))

/-- A fill dispatches the same requests of the tier in both. The rounds that serve other tiers are
rounds of the first scheduler alone. -/
theorem fill (h : s.Isolates tierOf t s') (hroom : s.roster.entries.length < slots)
    {fuel fuel' : Nat} (hfuel : s.queued.total ≤ fuel) (hfuel' : s'.queued.total ≤ fuel') :
    ((Scheduler.fill (shared slots) now fuel s).1.filter fun d => d.request.tier == t) =
        (Scheduler.fill (shared slots) now fuel' s').1 ∧
      (Scheduler.fill (shared slots) now fuel s).2.Isolates tierOf t
        (Scheduler.fill (shared slots) now fuel' s').2 := by
  induction fuel generalizing s s' fuel' with
  | zero =>
    have hnone : s.selectNext (shared slots s) now = none :=
      selectNext_of_queued_zero h.wellFormed (Nat.eq_zero_of_le_zero hfuel)
    rw [fill_of_none hnone,
      fill_of_none (h.selectNext_none (available_shared_pos h.wellFormed hroom) hnone)]
    exact ⟨rfl, h⟩
  | succ fuel ih =>
    have hb := available_shared_pos h.wellFormed hroom
    have hb' := available_shared_pos h.wellFormed'
      (Nat.lt_of_le_of_lt h.roster.length_le hroom)
    cases hselect : s.selectNext (shared slots s) now with
    | none =>
      rw [fill_of_none hselect, fill_of_none (h.selectNext_none hb hselect)]
      exact ⟨rfl, h⟩
    | some q =>
      obtain ⟨d, hs, rfl, hleft, hlength⟩ := start_round h.wellFormed hselect
      obtain ⟨-, -, e, hf, -, he⟩ := h.wellFormed.selectNext_some hselect
      have htier : d.request.tier = tierOf d.request.id := by
        rw [← he]
        exact h.tiers e (Roster.mem_of_find? hf)
      have hkeeps : (LoadStep.turn (.start d.request.id now)).KeepsTiers tierOf := trivial
      rw [fill_of_some hselect hs]
      by_cases ht : d.request.tier = t
      · obtain ⟨d', hs', -, hleft', -⟩ :=
          start_round h.wellFormed' (h.selectNext_some hb' hselect ht)
        obtain ⟨n, rfl⟩ : ∃ n, fuel' = n + 1 := ⟨fuel' - 1, by omega⟩
        obtain ⟨hanswer, hnext⟩ := h.own_turn hkeeps (congrArg some (htier.symm.trans ht))
        simp only [reply, hs, hs', Except.map, Reply.unnumbered, Reply.start.injEq,
          Except.ok.injEq] at hanswer
        obtain ⟨hds, hrest⟩ := @ih _ _ hnext (hlength ▸ hroom) n (by omega) (by omega)
        rw [fill_of_some (h.selectNext_some hb' hselect ht) hs']
        exact ⟨(List.filter_cons_of_pos (by simpa using ht)).trans
          (congrArg₂ List.cons hanswer hds), hrest⟩
      · have hforeign : some (tierOf d.request.id) ≠ some t := fun heq =>
          ht (htier.trans (Option.some.inj heq))
        rw [List.filter_cons_of_neg (by simpa using ht)]
        exact ih (h.foreign_turn hkeeps hforeign) (hlength ▸ hroom) (by omega) hfuel'

/-! ### Steps and runs -/

theorem own_step (h : s.Isolates tierOf t s') (hkeeps : step.KeepsTiers tierOf)
    (hroom : step.HasRoom s) (hown : step.concerns tierOf t = true) :
    (s.outcome step).ofTier t = (s'.outcome step).unnumbered ∧
      (s.perform step).Isolates tierOf t (s'.perform step) := by
  cases step with
  | turn turn =>
    obtain ⟨hanswer, hnext⟩ := h.own_turn hkeeps (beq_iff_eq.1 hown)
    exact ⟨congrArg Outcome.reply hanswer, hnext⟩
  | fill slots now =>
    obtain ⟨hds, hnext⟩ : _ ∧ (s.perform (.fill slots now)).Isolates tierOf t
        (s'.perform (.fill slots now)) := h.fill hroom (Nat.le_refl _) (Nat.le_refl _)
    exact ⟨congrArg Outcome.dispatched hds, hnext⟩

theorem foreign_step (h : s.Isolates tierOf t s') (hkeeps : step.KeepsTiers tierOf)
    (hforeign : step.concerns tierOf t = false) : (s.perform step).Isolates tierOf t s' := by
  cases step with
  | turn turn => exact h.foreign_turn hkeeps (beq_eq_false_iff_ne.1 hforeign)
  | fill slots now => cases hforeign

theorem outcomes (h : s.Isolates tierOf t s') (hkeeps : ∀ step ∈ steps, step.KeepsTiers tierOf)
    (hample : s.Ample steps) :
    ((steps.zip (s.outcomes steps)).filter fun p => p.1.concerns tierOf t).map
        (fun p => p.2.ofTier t) =
      (s'.outcomes (steps.filter fun step => step.concerns tierOf t)).map Outcome.unnumbered := by
  induction steps generalizing s s' with
  | nil => rfl
  | cons step steps ih =>
    obtain ⟨hroom, hample⟩ := hample
    obtain ⟨hstep, hkeeps⟩ := List.forall_mem_cons.1 hkeeps
    rw [Scheduler.outcomes, List.zip_cons_cons]
    cases hown : step.concerns tierOf t with
    | true =>
      obtain ⟨houtcome, hnext⟩ := h.own_step hstep hroom hown
      simp only [List.filter_cons, hown, if_true]
      rw [List.map_cons, Scheduler.outcomes, List.map_cons, houtcome, ih hnext hkeeps hample]
    | false =>
      simp only [List.filter_cons, hown, Bool.false_eq_true, if_false]
      exact ih (h.foreign_step hstep hown) hkeeps hample

end Isolates

/-- Take a run in which every identifier belongs to one tier and no fill is short of common slots.
What the operations of a tier are answered, and what the fills dispatch of it, first to last, is the
same in the run that has only these operations and the fills; there nothing else is dispatched. The
numbers in the order of arrival may differ. -/
theorem tiers_are_isolated (limits : PerTier Nat) (tierOf : RequestId → Tier)
    (steps : List LoadStep) (keeps : ∀ step ∈ steps, step.KeepsTiers tierOf)
    (ample : (fixedSlots (.new limits)).Ample steps) (t : Tier) :
    let s := fixedSlots (.new limits)
    ((steps.zip (s.outcomes steps)).filter fun p => p.1.concerns tierOf t).map
        (fun p => p.2.ofTier t) =
      (s.outcomes (steps.filter fun step => step.concerns tierOf t)).map Outcome.unnumbered :=
  (isolates_new tierOf t limits).outcomes keeps ample

/-- Two enterprise requests do not delay two free ones. -/
theorem free_isolated_from_enterprise :
    let s := fixedSlots (.new ⟨1, 1, 1⟩)
    let tierOf : RequestId → Tier := fun id => if id = "a" ∨ id = "b" then .enterprise else .free
    let steps : List LoadStep :=
      [.turn (.enqueue ⟨"a", .enterprise, .null, {}⟩ ⟨0⟩),
        .turn (.enqueue ⟨"f", .free, .null, {}⟩ ⟨1⟩),
        .turn (.enqueue ⟨"b", .enterprise, .null, {}⟩ ⟨2⟩),
        .turn (.enqueue ⟨"g", .free, .null, {}⟩ ⟨3⟩), .fill 5 ⟨4⟩, .turn (.complete "a"),
        .turn (.complete "f"), .turn (.withdraw "a"), .fill 5 ⟨6⟩]
    (∀ step ∈ steps, step.KeepsTiers tierOf) ∧ s.Ample steps ∧
      (s.outcomes steps).map (fun
        | .reply _ => []
        | .dispatched ds => ds.map fun d => d.request.id) =
          [[], [], [], [], ["a", "f"], [], [], [], ["b", "g"]] ∧
      ((steps.zip (s.outcomes steps)).filter fun p => p.1.concerns tierOf .free).map
          (fun p => p.2.ofTier .free) =
        (s.outcomes (steps.filter fun step => step.concerns tierOf .free)).map
          Outcome.unnumbered := by
  intro s tierOf steps
  have keeps : ∀ step ∈ steps, step.KeepsTiers tierOf := by
    simp [steps, LoadStep.KeepsTiers, tierOf]
  have ample : s.Ample steps := by decide
  exact ⟨keeps, ample, by decide, tiers_are_isolated ⟨1, 1, 1⟩ tierOf steps keeps ample .free⟩

end Scheduler

end TieredAdmission
