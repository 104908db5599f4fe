import TieredAdmission.Scheduler.Roster
import Mathlib.Data.List.Nodup

/-!
# The invariant of the roster

A well-formed roster has one entry per identifier, counts per tier that agree with the entries, and
sequence numbers that grow in the order of arrival. Every operation keeps it, and on a well-formed
roster the entry of an identifier splits the entries into those before and those after it, which is
how the operations are worked out.
-/

namespace TieredAdmission

namespace PerTier

theorem get_le_total (p : PerTier Nat) (t : Tier) : p.get t ≤ p.total := by
  cases t <;> simp only [get, total] <;> omega

theorem exists_pos_of_total_pos {p : PerTier Nat} (h : 0 < p.total) : ∃ t, 0 < p.get t := by
  by_contra hn
  have hz (t : Tier) : p.get t = 0 := Nat.eq_zero_of_not_pos fun ht => hn ⟨t, ht⟩
  have he := hz .enterprise
  have hp := hz .premium
  have hf := hz .free
  simp only [get] at he hp hf
  simp [total, he, hp, hf] at h

theorem total_eq_zero_iff {p : PerTier Nat} : p.total = 0 ↔ ∀ t, p.get t = 0 := by
  refine ⟨fun h t => Nat.eq_zero_of_le_zero (h ▸ get_le_total p t), fun h => ?_⟩
  by_contra hne
  obtain ⟨t, ht⟩ := exists_pos_of_total_pos (Nat.pos_of_ne_zero hne)
  rw [h t] at ht
  cases ht

end PerTier

theorem Entry.isProcessing_eq (e : Entry) : e.isProcessing = !e.isQueued := by
  rw [isProcessing, isQueued, state]
  cases e.stage <;> rfl

namespace Roster

def count (es : List Entry) (s : EntryState) (t : Tier) : Nat :=
  es.countP fun e => e.state == s && e.tier == t

structure WellFormed (r : Roster) : Prop where
  nodup : (r.entries.map Entry.id).Nodup
  queued : ∀ t, r.queued.get t = count r.entries .queued t
  processing : ∀ t, r.processing.get t = count r.entries .processing t
  ordered : r.entries.Pairwise fun a b => a.sequence < b.sequence
  below : ∀ e ∈ r.entries, e.sequence < r.nextSequence

theorem wellFormed_empty : WellFormed {} where
  nodup := .nil
  queued := fun t => by simp [count]
  processing := fun t => by simp [count]
  ordered := .nil
  below := by simp

variable {r r' : Roster} {id : RequestId} {e : Entry} {now : Instant}

theorem contains_iff : r.contains id = true ↔ id ∈ r.entries.map Entry.id := by
  simp [contains, find?, List.find?_isSome]

theorem contains_eq_false_iff : r.contains id = false ↔ id ∉ r.entries.map Entry.id := by
  rw [← contains_iff, Bool.not_eq_true]

/-- The queued entries and then the processing ones are all of them. -/
theorem listed_perm (r : Roster) : (r.queuedEntries ++ r.processingEntries).Perm r.entries := by
  have hrest : r.processingEntries = r.entries.filter fun e => !e.isQueued :=
    List.filter_congr fun e _ => e.isProcessing_eq
  rw [hrest]
  exact List.filter_append_perm Entry.isQueued r.entries

/-! ### Counts -/

theorem count_append (es fs : List Entry) (s : EntryState) (t : Tier) :
    count (es ++ fs) s t = count es s t + count fs s t := List.countP_append

theorem count_cons (e : Entry) (es : List Entry) (s : EntryState) (t : Tier) :
    count (e :: es) s t = count es s t + if e.state = s ∧ e.tier = t then 1 else 0 := by
  simp [count, List.countP_cons]

/-- The counts of the tiers add up to the number of entries in the state. -/
theorem count_total (es : List Entry) (s : EntryState) :
    count es s .enterprise + count es s .premium + count es s .free =
      (es.filter fun e => e.state == s).length := by
  induction es with
  | nil => rfl
  | cons e es ih =>
    simp only [count_cons, List.filter_cons]
    by_cases h : e.state = s
    · cases ht : e.tier <;> simp [h] <;> omega
    · simpa [h] using ih

theorem WellFormed.total_queued (h : r.WellFormed) : r.queued.total = r.queuedEntries.length := by
  have := count_total r.entries .queued
  rw [← h.queued, ← h.queued, ← h.queued] at this
  exact this

theorem WellFormed.total_processing (h : r.WellFormed) :
    r.processing.total = r.processingEntries.length := by
  have := count_total r.entries .processing
  rw [← h.processing, ← h.processing, ← h.processing] at this
  exact this

/-! ### The entry of an identifier -/

theorem WellFormed.find?_id (h : r.WellFormed) (he : e ∈ r.entries) : r.find? e.id = some e := by
  have hsome : r.contains e.id = true := contains_iff.2 (List.mem_map_of_mem he)
  obtain ⟨f, hf⟩ := Option.isSome_iff_exists.1 hsome
  have hid : f.id = e.id := Roster.find?_id hf
  rw [hf, List.inj_on_of_nodup_map h.nodup (mem_of_find? hf) he hid]

/-- No other entry has the identifier. -/
theorem WellFormed.split (h : r.WellFormed) (hf : r.find? id = some e) :
    ∃ as bs, r.entries = as ++ e :: bs ∧ (∀ a ∈ as, a.id ≠ id) ∧ ∀ b ∈ bs, b.id ≠ id := by
  obtain ⟨hid, as, bs, hes, has⟩ := List.find?_eq_some_iff_append.1 hf
  refine ⟨as, bs, hes, fun a ha => by simpa using has a ha, fun b hb hbid => ?_⟩
  have hn := h.nodup
  rw [hes, List.map_append, List.map_cons] at hn
  have hnot := (List.nodup_cons.1 (List.nodup_append.1 hn).2.1).1
  exact hnot (List.mem_map.2 ⟨b, hb, hbid.trans (beq_iff_eq.1 hid).symm⟩)

theorem setStage_of_ne {stage : Stage} {es : List Entry} (h : ∀ a ∈ es, a.id ≠ id) :
    setStage id stage es = es := by
  refine (List.map_congr_left fun a ha => ?_).trans (List.map_id es)
  simp [h a ha]

theorem setStage_split {stage : Stage} {as bs : List Entry} (hid : e.id = id)
    (has : ∀ a ∈ as, a.id ≠ id) (hbs : ∀ b ∈ bs, b.id ≠ id) :
    setStage id stage (as ++ e :: bs) = as ++ { e with stage := stage } :: bs := by
  have hcons : setStage id stage (e :: bs) = { e with stage := stage } :: setStage id stage bs := by
    simp [setStage, hid]
  have happ : setStage id stage (as ++ e :: bs) =
      setStage id stage as ++ setStage id stage (e :: bs) := List.map_append
  rw [happ, hcons, setStage_of_ne has, setStage_of_ne hbs]

theorem erase_split {as bs : List Entry} (hid : e.id = id)
    (has : ∀ a ∈ as, a.id ≠ id) (hbs : ∀ b ∈ bs, b.id ≠ id) :
    erase id (as ++ e :: bs) = as ++ bs := by
  have ha : as.filter (fun e => e.id != id) = as :=
    List.filter_eq_self.2 fun a ha => by simpa using has a ha
  have hb : bs.filter (fun e => e.id != id) = bs :=
    List.filter_eq_self.2 fun b hb => by simpa using hbs b hb
  simp [erase, hid, ha, hb]

/-- What does not depend on the stage is as before. -/
theorem map_setStage {α : Type} {f : Entry → α}
    (hf : ∀ (e : Entry) (stage : Stage), f { e with stage := stage } = f e) (id : RequestId)
    (stage : Stage) (es : List Entry) : (setStage id stage es).map f = es.map f := by
  rw [setStage, List.map_map]
  refine List.map_congr_left fun e _ => ?_
  simp only [Function.comp_apply]
  split
  · exact hf e stage
  · rfl

theorem map_id_setStage (stage : Stage) (es : List Entry) :
    (setStage id stage es).map Entry.id = es.map Entry.id := map_setStage (fun _ _ => rfl) id stage es

theorem map_id_erase (es : List Entry) :
    (erase id es).map Entry.id = (es.map Entry.id).filter (· != id) := by
  rw [erase, List.filter_map]
  rfl

/-! ### What the operations do -/

def started (r : Roster) (e : Entry) (now : Instant) : Roster :=
  { r with
    entries := setStage e.id (.processing now) r.entries
    queued := r.queued.decrement e.tier
    processing := r.processing.increment e.tier }

def completed (r : Roster) (e : Entry) : Roster :=
  { r with
    entries := erase e.id r.entries
    processing := r.processing.decrement e.tier }

def withdrawn (r : Roster) (e : Entry) : Roster :=
  { r with
    entries := erase e.id r.entries
    queued := r.queued.decrement e.tier }

/-- Exactly the queued requests can go to the backend. -/
theorem start_eq_ok_iff {d : Dispatch} :
    r.start id now = .ok (d, r') ↔
      ∃ e, r.find? id = some e ∧ e.stage = .queued ∧ d = ⟨e.request, now.since e.enqueuedAt⟩ ∧
        r' = r.started e now := by
  unfold start
  cases hf : r.find? id with
  | none => simp
  | some e =>
    have hid := Roster.find?_id hf
    cases hs : e.stage with
    | queued => simp [started, hid, hs, eq_comm]
    | processing t => simp [hs]

/-- Exactly the processing requests can be completed. -/
theorem complete_eq_ok_iff :
    r.complete id = .ok (e, r') ↔
      r.find? id = some e ∧ e.isProcessing = true ∧ r' = r.completed e := by
  unfold complete
  cases hf : r.find? id with
  | none => simp
  | some f =>
    have hid := Roster.find?_id hf
    have hp : f.isProcessing = (f.stage.state == .processing) := rfl
    cases hs : f.stage with
    | queued =>
      simp only [hs, Option.some.injEq, reduceCtorEq, false_iff]
      rintro ⟨rfl, hp', -⟩
      simp [hp, hs, Stage.state] at hp'
    | processing t =>
      simp only [hs, Option.some.injEq, Except.ok.injEq, Prod.mk.injEq]
      constructor
      · rintro ⟨rfl, rfl⟩
        exact ⟨rfl, by simp [hp, hs, Stage.state], by rw [completed, hid]⟩
      · rintro ⟨rfl, -, rfl⟩
        exact ⟨rfl, by rw [completed, hid]⟩

/-- Exactly the queued requests can be withdrawn. -/
theorem withdraw_eq_some_iff {q : Request} :
    r.withdraw id = some (q, r') ↔
      ∃ e, r.find? id = some e ∧ e.stage = .queued ∧ q = e.request ∧ r' = r.withdrawn e := by
  unfold withdraw
  cases hf : r.find? id with
  | none => simp
  | some e =>
    have hid := Roster.find?_id hf
    cases hs : e.stage with
    | queued => simp [withdrawn, hid, hs, eq_comm]
    | processing t => simp [hs]

/-! ### The entry of an identifier after an operation -/

private theorem find?_append_of_not_contains {es : List Entry} (hn : r.contains e.id = false)
    (hes : es = r.entries ++ [e]) (i : RequestId) :
    es.find? (fun e => e.id == i) = if i = e.id then some e else r.find? i := by
  rw [hes, List.find?_append]
  by_cases hi : i = e.id
  · have hnone : r.find? e.id = none := by simpa [contains] using hn
    rw [find?] at hnone
    simp [hi, hnone]
  · have hne : (e.id == i) = false := by simpa using Ne.symm hi
    simp [find?, hi, hne]

theorem find?_addQueued {request : Request} (hn : r.contains request.id = false)
    (i : RequestId) :
    (r.addQueued request now).find? i =
      if i = request.id then some ⟨request, now, r.nextSequence, .queued⟩ else r.find? i :=
  find?_append_of_not_contains (e := ⟨request, now, r.nextSequence, .queued⟩) hn rfl i

theorem find?_addProcessing {request : Request} (hn : r.contains request.id = false)
    (i : RequestId) :
    (r.addProcessing request now).find? i =
      if i = request.id then some ⟨request, now, r.nextSequence, .processing now⟩
      else r.find? i :=
  find?_append_of_not_contains (e := ⟨request, now, r.nextSequence, .processing now⟩) hn rfl i

theorem find?_started (hf : r.find? id = some e) (i : RequestId) :
    (r.started e now).find? i =
      if i = id then some { e with stage := .processing now } else r.find? i := by
  have hid := Roster.find?_id hf
  -- Changing stages leaves identifiers alone, so the same entry is found.
  have hkey : ((fun e : Entry => e.id == i) ∘ fun f : Entry =>
      if f.id == e.id then { f with stage := .processing now } else f) = fun f => f.id == i := by
    funext f
    simp only [Function.comp_apply]
    split <;> rfl
  have hmap : (r.started e now).find? i =
      (r.find? i).map fun f => if f.id == e.id then { f with stage := .processing now } else f := by
    rw [find?, find?, started, setStage, List.find?_map, hkey]
  rw [hmap]
  by_cases hi : i = id
  · simp [hi, hf]
  · rw [if_neg hi]
    cases hfi : r.find? i with
    | none => rfl
    | some f =>
      have hne : f.id ≠ e.id := by
        rw [Roster.find?_id hfi, hid]
        exact hi
      simp [hne]

theorem find?_erase (es : List Entry) (i : RequestId) :
    (erase id es).find? (fun e => e.id == i) =
      if i = id then none else es.find? fun e => e.id == i := by
  rw [erase, List.find?_filter]
  by_cases hi : i = id
  · simp [hi]
  · rw [if_neg hi]
    congr 1
    funext e
    by_cases he : e.id = i
    · simp [he, hi]
    · simp [he]

theorem find?_completed (hf : r.find? id = some e) (i : RequestId) :
    (r.completed e).find? i = if i = id then none else r.find? i := by
  rw [← Roster.find?_id hf]
  exact find?_erase r.entries i

theorem find?_withdrawn (hf : r.find? id = some e) (i : RequestId) :
    (r.withdrawn e).find? i = if i = id then none else r.find? i := by
  rw [← Roster.find?_id hf]
  exact find?_erase r.entries i

/-! ### The operations keep the invariant -/

theorem WellFormed.skipSequence (h : r.WellFormed) : r.skipSequence.WellFormed where
  nodup := h.nodup
  queued := h.queued
  processing := h.processing
  ordered := h.ordered
  below := fun e he => Nat.lt_succ_of_lt (h.below e he)

/-- A new entry with the next sequence number keeps identifiers and sequence numbers in order. -/
theorem WellFormed.append (h : r.WellFormed) (hn : e.id ∉ r.entries.map Entry.id)
    (hs : e.sequence = r.nextSequence) :
    ((r.entries ++ [e]).map Entry.id).Nodup ∧
    (r.entries ++ [e]).Pairwise (fun a b => a.sequence < b.sequence) ∧
    ∀ f ∈ r.entries ++ [e], f.sequence < r.nextSequence + 1 := by
  refine ⟨?_, ?_, ?_⟩
  · rw [List.map_append, List.nodup_append]
    refine ⟨h.nodup, by simp, fun a ha b hb => ?_⟩
    rw [List.map_singleton, List.mem_singleton] at hb
    exact fun hab => hn (hb ▸ hab ▸ ha)
  · rw [List.pairwise_append]
    refine ⟨h.ordered, by simp, fun a ha b hb => ?_⟩
    rw [List.mem_singleton.1 hb, hs]
    exact h.below a ha
  · intro f hf
    rcases List.mem_append.1 hf with hf | hf
    · exact Nat.lt_succ_of_lt (h.below f hf)
    · rw [List.mem_singleton.1 hf, hs]
      exact Nat.lt_succ_self _

theorem WellFormed.addQueued (h : r.WellFormed) {request : Request}
    (hn : r.contains request.id = false) : (r.addQueued request now).WellFormed := by
  let e : Entry := ⟨request, now, r.nextSequence, .queued⟩
  obtain ⟨nodup, ordered, below⟩ := h.append (e := e) (contains_eq_false_iff.1 hn) rfl
  refine ⟨nodup, fun t => ?_, fun t => ?_, ordered, below⟩
  · change (r.queued.increment request.tier).get t = count (r.entries ++ [e]) .queued t
    rw [PerTier.get_increment, h.queued, count_append, count_cons]
    by_cases ht : t = request.tier <;>
      simp [e, count, Entry.state, Entry.tier, Stage.state, ht, eq_comm]
  · change r.processing.get t = count (r.entries ++ [e]) .processing t
    rw [h.processing, count_append, count_cons]
    simp [e, count, Entry.state, Stage.state]

theorem WellFormed.addProcessing (h : r.WellFormed) {request : Request}
    (hn : r.contains request.id = false) : (r.addProcessing request now).WellFormed := by
  let e : Entry := ⟨request, now, r.nextSequence, .processing now⟩
  obtain ⟨nodup, ordered, below⟩ := h.append (e := e) (contains_eq_false_iff.1 hn) rfl
  refine ⟨nodup, fun t => ?_, fun t => ?_, ordered, below⟩
  · change r.queued.get t = count (r.entries ++ [e]) .queued t
    rw [h.queued, count_append, count_cons]
    simp [e, count, Entry.state, Stage.state]
  · change (r.processing.increment request.tier).get t = count (r.entries ++ [e]) .processing t
    rw [PerTier.get_increment, h.processing, count_append, count_cons]
    by_cases ht : t = request.tier <;>
      simp [e, count, Entry.state, Entry.tier, Stage.state, ht, eq_comm]

theorem WellFormed.started (h : r.WellFormed) (hf : r.find? id = some e) (hq : e.stage = .queued) :
    (r.started e now).WellFormed := by
  have hid := Roster.find?_id hf
  obtain ⟨as, bs, hes, has, hbs⟩ := h.split hf
  have hset : (r.started e now).entries = as ++ { e with stage := .processing now } :: bs := by
    simp only [Roster.started, hes]
    exact setStage_split rfl (hid ▸ has) (hid ▸ hbs)
  have hstate : e.state = .queued := by rw [Entry.state, hq]; rfl
  refine ⟨?_, fun t => ?_, fun t => ?_, ?_, ?_⟩
  · simpa only [Roster.started, map_id_setStage] using h.nodup
  · change (r.queued.decrement e.tier).get t = _
    rw [PerTier.get_decrement, h.queued, hset, hes]
    simp only [count_append, count_cons, hstate, Entry.tier]
    by_cases ht : t = e.request.tier
    · simp [ht, Entry.state, Stage.state]
    · simp [ht, Ne.symm ht]
  · change (r.processing.increment e.tier).get t = _
    rw [PerTier.get_increment, h.processing, hset, hes]
    simp only [count_append, count_cons, hstate, Entry.tier]
    by_cases ht : t = e.request.tier
    · simp [ht, Entry.state, Stage.state, Nat.add_assoc]
    · simp [ht, Ne.symm ht]
  · have ho := h.ordered
    rw [hset]
    rw [hes] at ho
    simpa [List.pairwise_append] using ho
  · intro f hf'
    have hb := h.below
    rw [hset] at hf'
    rw [hes] at hb
    simp only [List.mem_append, List.mem_cons] at hf' hb
    rcases hf' with hf' | rfl | hf'
    · exact hb f (Or.inl hf')
    · exact hb e (Or.inr (Or.inl rfl))
    · exact hb f (Or.inr (Or.inr hf'))

/-- Erasing an entry lowers one count by one and keeps identifiers and sequence numbers in order. -/
theorem WellFormed.erase (h : r.WellFormed) (hf : r.find? id = some e) :
    ((Roster.erase e.id r.entries).map Entry.id).Nodup ∧
    (Roster.erase e.id r.entries).Pairwise (fun a b => a.sequence < b.sequence) ∧
    (∀ f ∈ Roster.erase e.id r.entries, f.sequence < r.nextSequence) ∧
    ∀ s t, count r.entries s t =
      count (Roster.erase e.id r.entries) s t + if e.state = s ∧ e.tier = t then 1 else 0 := by
  have hsub : (Roster.erase e.id r.entries).Sublist r.entries := List.filter_sublist
  refine ⟨h.nodup.sublist (hsub.map _), h.ordered.sublist hsub,
    fun f hf => h.below f (hsub.subset hf), fun s t => ?_⟩
  have hid := Roster.find?_id hf
  obtain ⟨as, bs, hes, has, hbs⟩ := h.split hf
  rw [hes, erase_split rfl (hid ▸ has) (hid ▸ hbs)]
  simp only [count_append, count_cons]
  omega

theorem WellFormed.completed (h : r.WellFormed) (hf : r.find? id = some e)
    (hp : e.isProcessing = true) : (r.completed e).WellFormed := by
  have hstate : e.state = .processing := by simpa [Entry.isProcessing] using hp
  obtain ⟨nodup, ordered, below, hcount⟩ := h.erase hf
  refine ⟨nodup, fun t => ?_, fun t => ?_, ordered, below⟩
  · simpa [hstate, Roster.completed] using (h.queued t).trans (hcount .queued t)
  · change (r.processing.decrement e.tier).get t = _
    rw [PerTier.get_decrement, h.processing, hcount]
    by_cases ht : t = e.tier
    · simp [hstate, ht, Roster.completed]
    · simp [ht, Ne.symm ht, Roster.completed]

theorem WellFormed.withdrawn (h : r.WellFormed) (hf : r.find? id = some e)
    (hq : e.stage = .queued) : (r.withdrawn e).WellFormed := by
  have hstate : e.state = .queued := by rw [Entry.state, hq]; rfl
  obtain ⟨nodup, ordered, below, hcount⟩ := h.erase hf
  refine ⟨nodup, fun t => ?_, fun t => ?_, ordered, below⟩
  · change (r.queued.decrement e.tier).get t = _
    rw [PerTier.get_decrement, h.queued, hcount]
    by_cases ht : t = e.tier
    · simp [hstate, ht, Roster.withdrawn]
    · simp [ht, Ne.symm ht, Roster.withdrawn]
  · simpa [hstate, Roster.withdrawn] using (h.processing t).trans (hcount .processing t)

/-! ### Identifiers -/

theorem map_id_addQueued (request : Request) :
    (r.addQueued request now).entries.map Entry.id = r.entries.map Entry.id ++ [request.id] :=
  List.map_append

theorem map_id_addProcessing (request : Request) :
    (r.addProcessing request now).entries.map Entry.id = r.entries.map Entry.id ++ [request.id] :=
  List.map_append

theorem map_id_started : (r.started e now).entries.map Entry.id = r.entries.map Entry.id :=
  map_id_setStage _ _

theorem map_id_completed :
    (r.completed e).entries.map Entry.id = (r.entries.map Entry.id).filter (· != e.id) :=
  map_id_erase _

theorem map_id_withdrawn :
    (r.withdrawn e).entries.map Entry.id = (r.entries.map Entry.id).filter (· != e.id) :=
  map_id_erase _

/-! ### Queued and processing entries -/

theorem queuedEntries_addQueued (request : Request) :
    (r.addQueued request now).queuedEntries =
      r.queuedEntries ++ [⟨request, now, r.nextSequence, .queued⟩] := List.filter_append ..

theorem queuedEntries_addProcessing (request : Request) :
    (r.addProcessing request now).queuedEntries = r.queuedEntries :=
  (List.filter_append ..).trans (List.append_nil _)

theorem processingEntries_addQueued (request : Request) :
    (r.addQueued request now).processingEntries = r.processingEntries :=
  (List.filter_append ..).trans (List.append_nil _)

theorem processingEntries_addProcessing (request : Request) :
    (r.addProcessing request now).processingEntries =
      r.processingEntries ++ [⟨request, now, r.nextSequence, .processing now⟩] :=
  List.filter_append ..

/-- An entry that is not in a state is missing there already. -/
theorem WellFormed.filter_erase {p : Entry → Bool} (h : r.WellFormed) (hf : r.find? id = some e)
    (hp : p e = false) : (Roster.erase e.id r.entries).filter p = r.entries.filter p := by
  have hid := Roster.find?_id hf
  obtain ⟨as, bs, hes, has, hbs⟩ := h.split hf
  rw [hes, erase_split rfl (hid ▸ has) (hid ▸ hbs)]
  simp [List.filter_append, hp]

theorem WellFormed.queuedEntries_started (h : r.WellFormed) (hf : r.find? id = some e) :
    (r.started e now).queuedEntries = Roster.erase e.id r.queuedEntries := by
  have hid := Roster.find?_id hf
  obtain ⟨as, bs, hes, has, hbs⟩ := h.split hf
  have hset : (r.started e now).queuedEntries = (as ++ bs).filter Entry.isQueued := by
    rw [queuedEntries]
    simp only [Roster.started, hes]
    rw [setStage_split rfl (hid ▸ has) (hid ▸ hbs), List.filter_append, List.filter_append]
    rfl
  rw [hset, ← erase_split rfl (hid ▸ has) (hid ▸ hbs), ← hes, queuedEntries]
  exact List.filter_comm ..

theorem WellFormed.queuedEntries_completed (h : r.WellFormed) (hf : r.find? id = some e)
    (hp : e.isProcessing = true) : (r.completed e).queuedEntries = r.queuedEntries := by
  have hstate : e.state = .processing := by simpa [Entry.isProcessing] using hp
  exact h.filter_erase hf (by simp [Entry.isQueued, hstate])

theorem queuedEntries_withdrawn :
    (r.withdrawn e).queuedEntries = Roster.erase e.id r.queuedEntries := List.filter_comm ..

theorem WellFormed.processingEntries_started (h : r.WellFormed) (hf : r.find? id = some e)
    (hq : e.stage = .queued) :
    ((r.started e now).processingEntries.map Entry.request).Perm
      (r.processingEntries.map Entry.request ++ [e.request]) := by
  have hid := Roster.find?_id hf
  obtain ⟨as, bs, hes, has, hbs⟩ := h.split hf
  have hold : r.processingEntries = as.filter Entry.isProcessing ++ bs.filter Entry.isProcessing := by
    simp [processingEntries, hes, Entry.isProcessing, Entry.state, hq, Stage.state]
  have hnew : (r.started e now).processingEntries = as.filter Entry.isProcessing ++
      { e with stage := .processing now } :: bs.filter Entry.isProcessing := by
    rw [processingEntries]
    simp only [Roster.started, hes]
    rw [setStage_split rfl (hid ▸ has) (hid ▸ hbs), List.filter_append]
    rfl
  rw [hold, hnew, List.map_append, List.map_append, List.map_cons, List.append_assoc]
  exact (List.perm_append_singleton _ _).symm.append_left _

theorem processingEntries_completed :
    (r.completed e).processingEntries = Roster.erase e.id r.processingEntries :=
  List.filter_comm ..

theorem WellFormed.processingEntries_withdrawn (h : r.WellFormed) (hf : r.find? id = some e)
    (hq : e.stage = .queued) : (r.withdrawn e).processingEntries = r.processingEntries :=
  h.filter_erase hf (by simp [Entry.isProcessing, Entry.state, hq, Stage.state])

/-! ### Totals -/

theorem count_pos {es : List Entry} (he : e ∈ es) : 0 < count es e.state e.tier :=
  List.countP_pos_iff.2 ⟨e, he, by simp⟩

theorem WellFormed.total_started (h : r.WellFormed) (now : Instant) (hf : r.find? id = some e)
    (hq : e.stage = .queued) :
    (r.started e now).queued.total + 1 = r.queued.total ∧
    (r.started e now).processing.total = r.processing.total + 1 := by
  have hstate : e.state = .queued := by rw [Entry.state, hq]; rfl
  have hpos := count_pos (mem_of_find? hf)
  rw [hstate, ← h.queued] at hpos
  exact ⟨PerTier.total_decrement hpos, PerTier.total_increment _ _⟩

theorem WellFormed.total_completed (h : r.WellFormed) (hf : r.find? id = some e)
    (hp : e.isProcessing = true) : (r.completed e).processing.total + 1 = r.processing.total := by
  have hstate : e.state = .processing := by simpa [Entry.isProcessing] using hp
  have hpos := count_pos (mem_of_find? hf)
  rw [hstate, ← h.processing] at hpos
  exact PerTier.total_decrement hpos

theorem WellFormed.total_withdrawn (h : r.WellFormed) (hf : r.find? id = some e)
    (hq : e.stage = .queued) : (r.withdrawn e).queued.total + 1 = r.queued.total := by
  have hstate : e.state = .queued := by rw [Entry.state, hq]; rfl
  have hpos := count_pos (mem_of_find? hf)
  rw [hstate, ← h.queued] at hpos
  exact PerTier.total_decrement hpos

/-! ### Arrivals -/

/-- Where the clock did not go back, the entry that was enqueued earlier has the lower number. -/
theorem WellFormed.sequence_lt (h : r.WellFormed)
    (hclock : (r.entries.map Entry.enqueuedAt).Pairwise (· ≤ ·)) {f : Entry}
    (he : e ∈ r.entries) (hf : f ∈ r.entries) (hlt : f.enqueuedAt < e.enqueuedAt) :
    f.sequence < e.sequence := by
  obtain ⟨i, hi, rfl⟩ := List.getElem_of_mem he
  obtain ⟨j, hj, rfl⟩ := List.getElem_of_mem hf
  have hclock' := List.pairwise_iff_getElem.1 (List.pairwise_map.1 hclock)
  rcases Nat.lt_trichotomy i j with hij | rfl | hij
  · have hle := hclock' i j hi hj hij
    rw [Instant.le_iff] at hle
    rw [Instant.lt_iff] at hlt
    omega
  · exact absurd hlt (Int.lt_irrefl _)
  · exact List.pairwise_iff_getElem.1 h.ordered j i hj hi hij

end Roster

end TieredAdmission
