import TieredAdmission.Proofs.Drain
import Mathlib.Data.List.Perm.Basic

/-!
# The gate and its users

The users of a gate take guards and let go of them, ask for drains and let time pass, in any order.
The count is that of the guards held. Every drain asked for waits or has ended, and it ends for a
reason of its own: no guard is held any more, or its limit has passed while some are.
-/

namespace TieredAdmission

inductive GateUse where
  /-- Asks for a guard. -/
  | track
  /-- Lets go of a guard, if it is held. -/
  | drop (guard : Nat)
  | drain (limit : Option Duration)
  | passTime (d : Duration)

structure DrainAsk where
  limit : Option Duration
  /-- The reading of the gate's clock. -/
  askedAt : Instant
deriving DecidableEq

/-- The instant at which the drain gives up. -/
def DrainAsk.deadline? (a : DrainAsk) : Option Instant :=
  a.limit.map a.askedAt.after

/-- A gate, the guards that its users hold and the drains they asked for. -/
structure GateSession where
  gate : DrainGate := {}
  /-- The guards given so far; they are numbered from zero. -/
  given : Nat := 0
  /-- The guards held, oldest first. -/
  held : List Nat := []
  /-- The drains asked for, by their indices. -/
  asked : List DrainAsk := []

namespace GateSession

def use (s : GateSession) : GateUse → GateSession
  | .track =>
    match s.gate.track? with
    | none => s
    | some gate => { s with gate, given := s.given + 1, held := s.held ++ [s.given] }
  | .drop guard =>
    if guard ∈ s.held then { s with gate := s.gate.release, held := s.held.erase guard } else s
  | .drain limit =>
    { s with gate := s.gate.drain limit, asked := s.asked ++ [⟨limit, s.gate.now⟩] }
  | .passTime d => { s with gate := (s.gate.pass? d).getD s.gate }

def after (s : GateSession) (uses : List GateUse) : GateSession := uses.foldl use s

variable {s s' : GateSession} {g : DrainGate} {d : DrainTask} {r : DrainResult} {a : DrainAsk}

/-- The count, the phase and the drains of the gate are those of the users. -/
structure Coherent (s : GateSession) : Prop where
  inFlight : s.gate.inFlight = s.held.length
  nodup : s.held.Nodup
  given : ∀ i ∈ s.held, i < s.given
  begun : s.gate.begun = s.asked.length
  tasks : ∀ d ∈ s.gate.waiting, ∃ a, s.asked[d.index]? = some a ∧ d.deadline = a.deadline?
  /-- Every drain that was asked for waits or has ended, and not more than once. -/
  once : (s.gate.waiting.map DrainTask.index ++ s.gate.finished.toList.map Prod.fst).Perm
    (List.range s.asked.length)
  running : s.gate.phase = .running ↔ s.asked = []
  stopped : s.gate.phase = .stopped ↔ s.gate.finished.toList ≠ []
  clock : Instant.origin ≤ s.gate.now

/-- The drains that end were waiting before. -/
theorem map_fst_ended (g : DrainGate) :
    g.ended.map Prod.fst =
      (g.waiting.filter fun d => !(g.outcome? d).isNone).map DrainTask.index := by
  rw [DrainGate.ended, List.map_filterMap]
  induction g.waiting with
  | nil => rfl
  | cons d ds ih =>
    cases hd : g.outcome? d <;> simpa [hd] using ih

theorem Coherent.settle (h : s.Coherent) : Coherent { s with gate := s.gate.settle } := by
  have hne : s.gate.ended ≠ [] → s.asked ≠ [] := by
    intro hended
    obtain ⟨p, hp⟩ := List.exists_mem_of_ne_nil _ hended
    obtain ⟨d, hd, -⟩ := DrainGate.mem_ended.1 hp
    obtain ⟨a, ha, -⟩ := h.tasks d hd
    rintro hnil
    simp [hnil] at ha
  rw [DrainGate.settle_eq]
  refine ⟨h.inFlight, h.nodup, h.given, h.begun, ?_, ?_, ?_, ?_, h.clock⟩
  · exact fun d hd => h.tasks d (List.mem_filter.1 hd).1
  · -- The drains that end now move from those that wait to those that have ended.
    refine List.Perm.trans ?_ h.once
    have hsplit := (List.filter_append_perm (fun d => (s.gate.outcome? d).isNone)
      s.gate.waiting).map DrainTask.index
    rw [List.map_append, ← map_fst_ended] at hsplit
    simp only [Array.toList_append, List.map_append]
    refine List.Perm.trans ?_ (hsplit.append_right _)
    rw [List.append_assoc]
    exact List.perm_append_comm.append_left _
  · change (if s.gate.ended = [] then s.gate.phase else .stopped) = .running ↔ _
    split
    · exact h.running
    · next hended => simp [hne hended]
  · simp only [Array.toList_append, ne_eq, List.append_eq_nil_iff, not_and_or]
    split
    · next hended => simpa [hended] using h.stopped
    · next hended => simp [hended]

/-- What a use comes to: nothing, a guard, or a change after which every drain looks. -/
inductive Used (s : GateSession) : GateSession → Prop where
  | same : Used s s
  | tracked {gate : DrainGate} (track : s.gate.track? = some gate) :
      Used s { s with gate, given := s.given + 1, held := s.held ++ [s.given] }
  | looked {s₁ s' : GateSession} (coherent : s₁.Coherent)
      (finished : s₁.gate.finished = s.gate.finished)
      (settles : s' = { s₁ with gate := s₁.gate.settle }) : Used s s'

private theorem Coherent.dropped (h : s.Coherent) {guard : Nat} (hheld : guard ∈ s.held) :
    Coherent
      { s with
        gate := { s.gate with inFlight := s.gate.inFlight - 1 }
        held := s.held.erase guard } where
  inFlight := by
    change s.gate.inFlight - 1 = (s.held.erase guard).length
    rw [List.length_erase_of_mem hheld, h.inFlight]
  nodup := h.nodup.erase guard
  given := fun i hi => h.given i (List.mem_of_mem_erase hi)
  begun := h.begun
  tasks := h.tasks
  once := h.once
  running := h.running
  stopped := h.stopped
  clock := h.clock

private theorem Coherent.asks (h : s.Coherent) (limit : Option Duration) :
    Coherent
      { s with
        gate :=
          { s.gate with
            phase := if s.gate.phase = .running then .draining else s.gate.phase
            waiting := s.gate.waiting ++ [⟨s.gate.begun, limit.map s.gate.now.after⟩]
            begun := s.gate.begun + 1 }
        asked := s.asked ++ [⟨limit, s.gate.now⟩] } where
  inFlight := h.inFlight
  nodup := h.nodup
  given := h.given
  begun := by simp [h.begun]
  tasks := by
    intro d hd
    rcases List.mem_append.1 hd with hd | hd
    · obtain ⟨a, ha, hdeadline⟩ := h.tasks d hd
      have hlt := (List.getElem?_eq_some_iff.1 ha).1
      exact ⟨a, by rw [List.getElem?_append_left hlt, ha], hdeadline⟩
    · rw [List.mem_singleton.1 hd]
      exact ⟨⟨limit, s.gate.now⟩, by simp [h.begun], rfl⟩
  once := by
    simp only [List.map_append, List.map_singleton, List.length_append, List.length_singleton,
      List.range_succ, h.begun]
    refine List.Perm.trans ?_ (h.once.append_right _)
    rw [List.append_assoc, List.append_assoc]
    exact List.perm_append_comm.append_left _
  running := by
    by_cases hrun : s.gate.phase = .running <;> simp [hrun]
  stopped := by
    by_cases hrun : s.gate.phase = .running
    · have := h.stopped
      simp_all
    · simpa [hrun] using h.stopped
  clock := h.clock

theorem Coherent.passed (h : s.Coherent) (d : Duration) :
    Coherent { s with gate := { s.gate with now := s.gate.now.after d } } where
  inFlight := h.inFlight
  nodup := h.nodup
  given := h.given
  begun := h.begun
  tasks := h.tasks
  once := h.once
  running := h.running
  stopped := h.stopped
  clock := Int.le_trans h.clock (Int.le_add_of_nonneg_right (Int.natCast_nonneg _))

/-- A guard is given only while no drain has been asked for. -/
theorem Coherent.tracked (h : s.Coherent) {gate : DrainGate} (ht : s.gate.track? = some gate) :
    Coherent { s with gate, given := s.given + 1, held := s.held ++ [s.given] } := by
  obtain ⟨-, rfl⟩ := DrainGate.track?_eq_some_iff.1 ht
  refine ⟨?_, ?_, ?_, h.begun, h.tasks, h.once, h.running, h.stopped, h.clock⟩
  · change s.gate.inFlight + 1 = (s.held ++ [s.given]).length
    rw [List.length_append, h.inFlight]
    rfl
  · have hnew : s.given ∉ s.held := fun hi => Nat.lt_irrefl _ (h.given _ hi)
    refine List.nodup_append.2 ⟨h.nodup, by simp, fun i hi j hj hij => hnew ?_⟩
    rwa [← List.mem_singleton.1 hj, ← hij]
  · intro i hi
    rcases List.mem_append.1 hi with hi | hi
    · exact Nat.lt_succ_of_lt (h.given i hi)
    · rw [List.mem_singleton.1 hi]
      exact Nat.lt_succ_self _

theorem Coherent.used (h : s.Coherent) (u : GateUse) : Used s (s.use u) := by
  cases u with
  | track =>
    rw [use]
    split
    · exact .same
    · next gate ht => exact .tracked ht
  | drop guard =>
    rw [use]
    split
    · next hheld =>
      exact .looked (h.dropped hheld) rfl rfl
    · exact .same
  | drain limit => exact .looked (h.asks limit) rfl rfl
  | passTime d =>
    change Used s { s with gate := (s.gate.pass? d).getD s.gate }
    cases hg : s.gate.pass? d with
    | none => exact .same
    | some g =>
      obtain ⟨-, rfl⟩ := DrainGate.pass?_eq_some_iff.1 hg
      exact .looked (h.passed d) rfl rfl

theorem Used.coherent (h : Used s s') (hc : s.Coherent) : s'.Coherent := by
  cases h with
  | same => exact hc
  | tracked track => exact hc.tracked track
  | looked coherent _ settles =>
    rw [settles]
    exact coherent.settle

/-! ### Why drains end -/

private theorem le_of_isOver {t : Instant} (hclock : Instant.origin ≤ g.now)
    (h : g.isOver t = true) : t ≤ g.now := by
  -- The clock counts whole milliseconds, the deadline rounded up, so no instant before it will do.
  have hms : (t.since .origin).millisUp ≤ (g.now.since .origin).millis := of_decide_eq_true h
  simp only [Duration.millisUp, Duration.millis, Instant.since, Instant.origin] at hms
  rw [Instant.le_iff] at hclock ⊢
  simp only [Instant.origin] at hclock
  omega

/-- A drain without a limit does not time out, and one with a limit ends as such. Its limit has
passed when it times out. -/
def DrainAsk.Explains (a : DrainAsk) (now : Instant) : DrainResult → Prop
  | .drained => a.limit = none
  | .complete => a.limit ≠ none
  | .timeout _ => ∃ limit, a.limit = some limit ∧ a.askedAt.after limit ≤ now

private theorem explains_outcome (hclock : Instant.origin ≤ g.now) (hd : d.deadline = a.deadline?)
    (h : g.outcome? d = some r) : DrainAsk.Explains a g.now r := by
  unfold DrainGate.outcome? at h
  rw [DrainAsk.deadline?] at hd
  cases hlimit : a.limit with
  | none =>
    have hnone : d.deadline = none := by simpa [hlimit] using hd
    simp only [hnone, DrainTask.success] at h
    split at h
    · cases h
      exact hlimit
    · cases h
  | some limit =>
    rw [hlimit, Option.map_some] at hd
    simp only [hd, DrainTask.success] at h
    split at h
    · cases h
      simp [DrainAsk.Explains, hlimit]
    · split at h
      · next hover =>
        cases h
        exact ⟨limit, hlimit, le_of_isOver hclock hover⟩
      · cases h

/-- The drains that end during a use were asked for, and end as it takes. -/
theorem Used.results (h : Used s s') : ∃ rs, s.gate.Ends s'.gate rs ∧
    ∀ p ∈ rs, ∃ a, s'.asked[p.1]? = some a ∧ DrainAsk.Explains a s'.gate.now p.2 := by
  cases h with
  | same => exact ⟨[], DrainGate.ends_of_finished rfl, by simp⟩
  | tracked track =>
    obtain ⟨-, rfl⟩ := DrainGate.track?_eq_some_iff.1 track
    exact ⟨[], DrainGate.ends_of_finished rfl, by simp⟩
  | @looked s₁ _ coherent finished settles =>
    subst settles
    have hends := DrainGate.ends_settle s₁.gate
    refine ⟨s₁.gate.ended, ⟨finished ▸ hends.finished, hends.fits, hends.stopped⟩, fun p hp => ?_⟩
    obtain ⟨d, hd, hindex, hr⟩ := DrainGate.mem_ended.1 hp
    obtain ⟨a, ha, hdeadline⟩ := coherent.tasks d hd
    refine ⟨a, hindex ▸ ha, ?_⟩
    have hnow : s₁.gate.settle.now = s₁.gate.now := by rw [DrainGate.settle_eq]
    rw [hnow]
    exact explains_outcome coherent.clock hdeadline hr

/-! ### Runs -/

theorem Coherent.after (h : s.Coherent) (uses : List GateUse) : (s.after uses).Coherent := by
  induction uses generalizing s with
  | nil => exact h
  | cons u uses ih => exact ih ((h.used u).coherent h)

end GateSession

end TieredAdmission
