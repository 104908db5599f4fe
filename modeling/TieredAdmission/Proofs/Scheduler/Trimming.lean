import TieredAdmission.Proofs.Scheduler.Rule
import TieredAdmission.Proofs.Scheduler.Interchange

/-!
# Requests that wait in vain

One scheduler tracks what another one tracks and some queued requests besides; the numbers in the
order of arrival may differ. As long as none of the additional requests is selected, the two select
alike: whose turn it is depends on the requests that are processing, on the scores and on the order
of arrival, and a request that loses changes none of these.
-/

namespace TieredAdmission

namespace Roster

/-- The entries without those of some identifiers and without their numbers. -/
def besides (gone : List RequestId) (es : List Entry) : List Entry :=
  (es.filter fun e => e.id ∉ gone).map Entry.unnumbered

variable {gone : List RequestId} {r r' : Roster} {e e' f f' : Entry} {es fs : List Entry}
  {id : RequestId} {q : Request} {now : Instant}

theorem mem_besides : f ∈ besides gone es ↔ ∃ e ∈ es, e.id ∉ gone ∧ e.unnumbered = f := by
  simp [besides, and_assoc]

theorem besides_append : besides gone (es ++ fs) = besides gone es ++ besides gone fs := by
  simp [besides]

theorem besides_nil : besides [] es = es.map Entry.unnumbered := by simp [besides]

theorem count_map_unnumbered (es : List Entry) (s : EntryState) (t : Tier) :
    count (es.map Entry.unnumbered) s t = count es s t := List.countP_map

private theorem besides_singleton (h : e.id ∉ gone) : besides gone [e] = [e.unnumbered] := by
  simp [besides, h]

private theorem besides_cons (h : ∀ e ∈ es, e.id ≠ id) :
    besides (id :: gone) es = besides gone es := by
  rw [besides, besides]
  congr 1
  exact List.filter_congr fun e he => by simp [h e he]

theorem besides_setStage (stage : Stage) :
    besides gone (setStage id stage es) = setStage id stage (besides gone es) := by
  rw [besides, besides, setStage, setStage, List.filter_map, List.map_map, List.map_map]
  congr 1
  · funext e
    simp only [Function.comp_apply, Entry.unnumbered]
    split <;> simp_all [Entry.id]
  · congr 1
    funext e
    simp only [Function.comp_apply]
    split <;> rfl

theorem besides_erase : besides gone (erase id es) = erase id (besides gone es) := by
  rw [besides, besides, erase, erase, List.filter_map, List.filter_comm]
  rfl

/-- Erasing an entry that is left out leaves the others. -/
theorem besides_erase_gone (h : id ∈ gone) :
    besides (gone.filter (· != id)) (erase id es) = besides gone es := by
  rw [besides, besides, erase, List.filter_filter]
  congr 1
  refine List.filter_congr fun e _ => ?_
  by_cases he : e.id = id <;> simp [he, h]

/-- The entry with the lower number stands before the other. -/
theorem WellFormed.pair_sublist (h : r.WellFormed) (he : e ∈ r.entries) (hf : f ∈ r.entries)
    (hlt : e.sequence < f.sequence) : [e, f].Sublist r.entries := by
  obtain ⟨as, bs, hes⟩ := List.append_of_mem he
  have hordered := h.ordered
  rw [hes] at hf hordered ⊢
  obtain ⟨-, -, hbefore⟩ := List.pairwise_append.1 hordered
  rcases List.mem_append.1 hf with hf | hf
  · have hgt := hbefore f hf e List.mem_cons_self
    omega
  · have hafter : f ∈ bs := (List.mem_cons.1 hf).resolve_left fun heq => by
      rw [heq] at hlt
      exact Nat.lt_irrefl _ hlt
    exact ((List.singleton_sublist.2 hafter).cons_cons e).trans (List.sublist_append_right ..)

/-- The entries of the second roster are those of the first but for some queued ones. -/
structure Trims (gone : List RequestId) (r r' : Roster) : Prop where
  wellFormed : r.WellFormed
  wellFormed' : r'.WellFormed
  entries : besides gone r.entries = besides [] r'.entries
  gone : ∀ id ∈ gone, ∃ e, r.find? id = some e ∧ e.stage = .queued

/-- The entries of a request that both rosters track. -/
structure Shared (gone : List RequestId) (r r' : Roster) (e e' : Entry) : Prop where
  left : e ∈ r.entries
  stays : e.id ∉ gone
  right : e' ∈ r'.entries
  same : e.unnumbered = e'.unnumbered

namespace Shared

theorem request_eq (h : Shared gone r r' e e') : e.request = e'.request :=
  (congrArg Entry.request h.same :)

theorem enqueuedAt_eq (h : Shared gone r r' e e') : e.enqueuedAt = e'.enqueuedAt :=
  (congrArg Entry.enqueuedAt h.same :)

theorem stage_eq (h : Shared gone r r' e e') : e.stage = e'.stage :=
  (congrArg Entry.stage h.same :)

theorem id_eq (h : Shared gone r r' e e') : e.id = e'.id := congrArg Request.id h.request_eq

theorem tier_eq (h : Shared gone r r' e e') : e.tier = e'.tier := congrArg Request.tier h.request_eq

theorem queued_iff (h : Shared gone r r' e e') : e ∈ r.queuedEntries ↔ e' ∈ r'.queuedEntries := by
  simp [mem_queuedEntries, h.left, h.right, h.stage_eq]

theorem ne_of_gone (h : Shared gone r r' e e') (hf : r.find? id = some e) {i : RequestId}
    (hi : i ∈ gone) : i ≠ id := by
  rintro rfl
  exact h.stays (find?_id hf ▸ hi)

end Shared

namespace Trims

theorem exists_left (h : Trims gone r r') (he : e' ∈ r'.entries) : ∃ e, Shared gone r r' e e' := by
  have hmem : e'.unnumbered ∈ besides gone r.entries := by
    rw [h.entries]
    exact mem_besides.2 ⟨e', he, List.not_mem_nil, rfl⟩
  obtain ⟨e, hleft, hstays, hsame⟩ := mem_besides.1 hmem
  exact ⟨e, hleft, hstays, he, hsame⟩

theorem exists_right (h : Trims gone r r') (he : e ∈ r.entries) (hstays : e.id ∉ gone) :
    ∃ e', Shared gone r r' e e' := by
  have hmem : e.unnumbered ∈ besides [] r'.entries := by
    rw [← h.entries]
    exact mem_besides.2 ⟨e, he, hstays, rfl⟩
  obtain ⟨e', hright, -, hsame⟩ := mem_besides.1 hmem
  exact ⟨e', he, hstays, hright, hsame.symm⟩

theorem exists_find? (h : Trims gone r r') (hf : r.find? id = some e) (hstays : id ∉ gone) :
    ∃ e', r'.find? id = some e' ∧ Shared gone r r' e e' := by
  obtain rfl := Roster.find?_id hf
  obtain ⟨e', he⟩ := h.exists_right (mem_of_find? hf) hstays
  have hfind := h.wellFormed'.find?_id he.right
  rw [← he.id_eq] at hfind
  exact ⟨e', hfind, he⟩

theorem contains_eq_false (h : Trims gone r r') (hn : r.contains id = false) :
    r'.contains id = false := by
  rw [contains_eq_false_iff] at hn ⊢
  intro hmem
  obtain ⟨e', he', rfl⟩ := List.mem_map.1 hmem
  obtain ⟨e, he⟩ := h.exists_left he'
  exact hn (List.mem_map.2 ⟨e, he.left, he.id_eq⟩)

private theorem not_mem_gone (h : Trims gone r r') (hn : r.contains id = false) : id ∉ gone := by
  intro hid
  obtain ⟨e, hf, -⟩ := h.gone id hid
  simp [contains, hf] at hn

theorem ne_of_gone (h : Trims gone r r') {i : RequestId} (hn : r.contains i = false)
    (hid : id ∈ gone) : id ≠ i := fun heq => h.not_mem_gone hn (heq ▸ hid)

/-- The requests left out are queued, so the others make up the processing ones. -/
theorem processing (h : Trims gone r r') : r.processing = r'.processing := by
  refine PerTier.ext_get fun t => ?_
  have hothers : count (r.entries.filter fun e => e.id ∉ gone) .processing t =
      count r.entries .processing t := by
    rw [count, List.countP_filter]
    refine List.countP_congr fun e he => ?_
    by_cases hid : e.id ∈ gone
    · obtain ⟨f, hf, hq⟩ := h.gone e.id hid
      rw [h.wellFormed.find?_id he] at hf
      obtain rfl := Option.some.inj hf
      simp [Entry.state, hq, Stage.state]
    · simp [hid]
  rw [h.wellFormed.processing, h.wellFormed'.processing, ← hothers, ← count_map_unnumbered,
    ← besides, h.entries, besides_nil, count_map_unnumbered]

/-- With nothing left out the rosters agree but for the numbers. -/
theorem queued (h : Trims [] r r') : r.queued = r'.queued := by
  refine PerTier.ext_get fun t => ?_
  rw [h.wellFormed.queued, h.wellFormed'.queued, ← count_map_unnumbered, ← besides_nil, h.entries,
    besides_nil, count_map_unnumbered]

theorem eq_right (h : Trims gone r r') (he : Shared gone r r' e e') (hf : f ∈ r'.entries)
    (hsame : e.unnumbered = f.unnumbered) : f = e' :=
  List.inj_on_of_nodup_map h.wellFormed'.nodup hf he.right
    (congrArg Entry.id (hsame.symm.trans he.same) :)

/-- Both rosters have the entries that they share in the same order. -/
theorem sequence_lt (h : Trims gone r r') (he : Shared gone r r' e e')
    (hf : Shared gone r r' f f') (hlt : e.sequence < f.sequence) : e'.sequence < f'.sequence := by
  have hpair : [e.unnumbered, f.unnumbered].Sublist (r'.entries.map Entry.unnumbered) := by
    have hsub := ((h.wellFormed.pair_sublist he.left hf.left hlt).filter
      fun e => e.id ∉ gone).map Entry.unnumbered
    rw [← besides_nil, ← h.entries, besides]
    simpa [he.stays, hf.stays] using hsub
  obtain ⟨es, hsub, hes⟩ := List.sublist_map_iff.1 hpair
  obtain ⟨a, es, rfl, ha, hes⟩ := List.map_eq_cons_iff.1 hes.symm
  obtain ⟨b, es, rfl, hb, hes⟩ := List.map_eq_cons_iff.1 hes
  obtain rfl := List.map_eq_nil_iff.1 hes
  obtain rfl := h.eq_right he (hsub.subset List.mem_cons_self) ha.symm
  obtain rfl := h.eq_right hf (hsub.subset (by simp)) hb.symm
  simpa using h.wellFormed'.ordered.sublist hsub

/-! ### Steps that both rosters make -/

theorem append (h : Trims gone r r') (hn : r.contains q.id = false) (stage : Stage) :
    besides gone (r.entries ++ [⟨q, now, r.nextSequence, stage⟩]) =
      besides [] (r'.entries ++ [⟨q, now, r'.nextSequence, stage⟩]) := by
  have hstays : q.id ∉ gone := h.not_mem_gone hn
  rw [besides_append, besides_append, h.entries, besides_singleton hstays,
    besides_singleton List.not_mem_nil]
  rfl

theorem addQueued (h : Trims gone r r') (hn : r.contains q.id = false) :
    Trims gone (r.addQueued q now) (r'.addQueued q now) where
  wellFormed := h.wellFormed.addQueued hn
  wellFormed' := h.wellFormed'.addQueued (h.contains_eq_false hn)
  entries := h.append hn .queued
  gone := fun id hid => by
    rw [find?_addQueued hn, if_neg (h.ne_of_gone hn hid)]
    exact h.gone id hid

theorem addProcessing (h : Trims gone r r') (hn : r.contains q.id = false) :
    Trims gone (r.addProcessing q now) (r'.addProcessing q now) where
  wellFormed := h.wellFormed.addProcessing hn
  wellFormed' := h.wellFormed'.addProcessing (h.contains_eq_false hn)
  entries := h.append hn (.processing now)
  gone := fun id hid => by
    rw [find?_addProcessing hn, if_neg (h.ne_of_gone hn hid)]
    exact h.gone id hid

theorem erase (h : Trims gone r r') (he : Shared gone r r' e e') :
    besides gone (Roster.erase e.id r.entries) = besides [] (Roster.erase e'.id r'.entries) := by
  rw [besides_erase, besides_erase, h.entries, he.id_eq]

theorem started (h : Trims gone r r') (hf : r.find? id = some e) (hf' : r'.find? id = some e')
    (he : Shared gone r r' e e') (hq : e.stage = .queued) :
    Trims gone (r.started e now) (r'.started e' now) where
  wellFormed := h.wellFormed.started hf hq
  wellFormed' := h.wellFormed'.started hf' (he.stage_eq.symm.trans hq)
  entries := by
    rw [Roster.started, Roster.started]
    dsimp only
    rw [besides_setStage, besides_setStage, h.entries, he.id_eq]
  gone := fun i hi => by
    rw [find?_started hf, if_neg (he.ne_of_gone hf hi)]
    exact h.gone i hi

theorem completed (h : Trims gone r r') (hf : r.find? id = some e) (hf' : r'.find? id = some e')
    (he : Shared gone r r' e e') (hp : e.isProcessing = true) :
    Trims gone (r.completed e) (r'.completed e') where
  wellFormed := h.wellFormed.completed hf hp
  wellFormed' := h.wellFormed'.completed hf' (by
    rwa [Entry.isProcessing, Entry.state, he.stage_eq] at hp)
  entries := h.erase he
  gone := fun i hi => by
    rw [find?_completed hf, if_neg (he.ne_of_gone hf hi)]
    exact h.gone i hi

theorem withdrawn (h : Trims gone r r') (hf : r.find? id = some e) (hf' : r'.find? id = some e')
    (he : Shared gone r r' e e') (hq : e.stage = .queued) :
    Trims gone (r.withdrawn e) (r'.withdrawn e') where
  wellFormed := h.wellFormed.withdrawn hf hq
  wellFormed' := h.wellFormed'.withdrawn hf' (he.stage_eq.symm.trans hq)
  entries := h.erase he
  gone := fun i hi => by
    rw [find?_withdrawn hf, if_neg (he.ne_of_gone hf hi)]
    exact h.gone i hi

/-! ### Steps that only the first roster makes -/

theorem refused (h : Trims gone r r') {r₁ : Roster} (hwf : r₁.WellFormed)
    (same : Scheduler.SameEntries r r₁) : Trims gone r₁ r' where
  wellFormed := hwf
  wellFormed' := h.wellFormed'
  entries := same.entries ▸ h.entries
  gone := fun id hid => by
    rw [find?, same.entries]
    exact h.gone id hid

theorem comes (h : Trims gone r r') (hn : r.contains q.id = false) :
    Trims (q.id :: gone) (r.addQueued q now) r' where
  wellFormed := h.wellFormed.addQueued hn
  wellFormed' := h.wellFormed'
  entries := by
    have hne : ∀ e ∈ r.entries, e.id ≠ q.id := fun e he heq =>
      contains_eq_false_iff.1 hn (heq ▸ List.mem_map_of_mem he)
    rw [Roster.addQueued, besides_append, besides_cons hne, h.entries]
    simp [besides, Entry.id]
  gone := fun id hid => by
    rw [find?_addQueued hn]
    split
    · exact ⟨_, rfl, rfl⟩
    · next hne => exact h.gone id ((List.mem_cons.1 hid).resolve_left hne)

theorem goes (h : Trims gone r r') (hf : r.find? id = some e) (hq : e.stage = .queued)
    (hid : id ∈ gone) : Trims (gone.filter (· != id)) (r.withdrawn e) r' where
  wellFormed := h.wellFormed.withdrawn hf hq
  wellFormed' := h.wellFormed'
  entries := by
    obtain rfl := Roster.find?_id hf
    exact (besides_erase_gone hid).trans h.entries
  gone := fun i hi => by
    obtain ⟨hi, hne⟩ := List.mem_filter.1 hi
    rw [find?_withdrawn hf, if_neg (by simpa using hne)]
    exact h.gone i hi

end Trims

end Roster

/-! ### Selections -/

namespace WorkConserving

open Roster

variable {w : WorkConserving} {r' : Roster} {gone : List RequestId} {slots : Nat} {now : Instant}
  {e e' f f' : Entry} {t : Tier}

theorem Outranks.trimmed (h : Trims gone w.roster r') (he : Shared gone w.roster r' e e')
    (hf : Shared gone w.roster r' f f') (ho : w.Outranks now e f) :
    ({ w with roster := r' } : WorkConserving).Outranks now e' f' := by
  have hscore {e e' : Entry} (he : Shared gone w.roster r' e e') :
      w.score now e = ({ w with roster := r' } : WorkConserving).score now e' :=
    (congrArg (w.score now) he.same :)
  rw [Outranks, ← hscore he, ← hscore hf]
  refine ho.imp_right ?_
  rintro ⟨hequal, hlt⟩
  exact ⟨hequal, h.sequence_lt he hf hlt⟩

theorem Greatest.trimmed {p : Tier → Prop} (h : Trims gone w.roster r')
    (he : Shared gone w.roster r' e e') (hg : w.Greatest now (fun f => p f.tier) e) :
    ({ w with roster := r' } : WorkConserving).Greatest now (fun f => p f.tier) e' where
  queued := he.queued_iff.1 hg.queued
  property := he.tier_eq ▸ hg.property
  outranks := fun f' hf' hp hne => by
    obtain ⟨f, hf⟩ := h.exists_left (mem_queuedEntries.1 hf').1
    refine (hg.outranks f (hf.queued_iff.2 hf') (by rwa [hf.tier_eq]) ?_).trimmed h he hf
    rintro rfl
    exact hne (h.eq_right he hf.right hf.same)

private theorem IsDue.of_trimmed (h : Trims gone w.roster r')
    (hdue : ({ w with roster := r' } : WorkConserving).IsDue slots t) : w.IsDue slots t := by
  obtain ⟨hshort, e', he', rfl⟩ := hdue
  obtain ⟨e, he⟩ := h.exists_left (mem_queuedEntries.1 he').1
  exact ⟨by rwa [h.processing], e, he.queued_iff.2 he', he.tier_eq⟩

/-- The turn of a request does not depend on others that lose. -/
theorem IsNext.trimmed (h : Trims gone w.roster r') (he : Shared gone w.roster r' e e')
    (hnext : w.IsNext slots now e) :
    ({ w with roster := r' } : WorkConserving).IsNext slots now e' := by
  rcases hnext with ⟨t, hdue, hfirst, hg⟩ | ⟨hnone, hg⟩
  · refine Or.inl ⟨t, ⟨?_, e', he.queued_iff.1 hg.queued, he.tier_eq.symm.trans hg.property⟩,
      fun u hu hdue' => hfirst u hu (hdue'.of_trimmed h), hg.trimmed (p := (· = t)) h he⟩
    have hshort := hdue.1
    rwa [h.processing] at hshort
  · exact Or.inr ⟨fun t hdue => hnone t (hdue.of_trimmed h),
      hg.trimmed (p := fun _ => True) h he⟩

end WorkConserving

namespace FixedSlots

open Roster

variable {s s' : FixedSlots} {gone : List RequestId} {e e' : Entry}

private theorem hasSlot_trimmed (h : Trims gone s.roster s'.roster) (hlimits : s'.limits = s.limits)
    (t : Tier) : s'.hasSlot t = s.hasSlot t := by
  rw [hasSlot, hasSlot, hlimits, h.processing]

/-- The turn of a request does not depend on others that have no slot or come later. -/
theorem IsNext.trimmed (h : Trims gone s.roster s'.roster) (hlimits : s'.limits = s.limits)
    (he : Shared gone s.roster s'.roster e e') (hnext : s.IsNext e) : s'.IsNext e' where
  queued := he.queued_iff.1 hnext.queued
  slot := by
    rw [hasSlot_trimmed h hlimits, ← he.tier_eq]
    exact hnext.slot
  first := fun u hu hslot f' hf' => by
    obtain ⟨f, hf⟩ := h.exists_left (mem_queuedEntries.1 hf').1
    rw [← hf.tier_eq]
    rw [hasSlot_trimmed h hlimits] at hslot
    rw [← he.tier_eq] at hu
    exact hnext.first u hu hslot f (hf.queued_iff.2 hf')
  earliest := fun f' hf' ht hne => by
    obtain ⟨f, hf⟩ := h.exists_left (mem_queuedEntries.1 hf').1
    refine h.sequence_lt he hf (hnext.earliest f (hf.queued_iff.2 hf') ?_ ?_)
    · rw [hf.tier_eq, he.tier_eq, ht]
    · rintro rfl
      exact hne (h.eq_right he hf.right hf.same)

end FixedSlots

namespace Scheduler

variable {gone : List RequestId} {s s' : Scheduler} {b : CapacityBudget} {slots : Nat}
  {now : Instant} {e e' : Entry} {t : Tier} {w : WorkConserving} {f : FixedSlots}

/-- A scheduler with the same settings that tracks nothing. -/
def emptied : Scheduler → Scheduler
  | workConserving w => workConserving { w with roster := {} }
  | fixedSlots f => fixedSlots { limits := f.limits }

theorem emptied_apply (s : Scheduler) (turn : Turn) : (s.apply turn).emptied = s.emptied := by
  cases s with
  | workConserving w =>
    obtain ⟨r, hr⟩ := apply_workConserving w turn
    rw [hr]
    rfl
  | fixedSlots f =>
    obtain ⟨f', hf, hlimits⟩ := apply_fixedSlots f turn
    rw [hf, emptied, emptied, hlimits]

private theorem eq_workConserving_of_emptied (h : s'.emptied = (workConserving w).emptied) :
    s' = workConserving { w with roster := s'.roster } := by
  cases s' with
  | workConserving w' =>
    simp only [emptied, workConserving.injEq, WorkConserving.mk.injEq, and_true] at h
    simp [roster, ← h.1, ← h.2]
  | fixedSlots f' => simp [emptied] at h

theorem exists_fixedSlots_of_emptied (h : s'.emptied = (fixedSlots f).emptied) :
    ∃ f', s' = fixedSlots f' ∧ f'.limits = f.limits := by
  cases s' with
  | workConserving w' => simp [emptied] at h
  | fixedSlots f' =>
    simp only [emptied, fixedSlots.injEq, FixedSlots.mk.injEq, and_true] at h
    exact ⟨f', rfl, h⟩

theorem limits?_eq_of_emptied (h : s'.emptied = s.emptied) : s'.limits? = s.limits? := by
  have hempty (s : Scheduler) : s.emptied.limits? = s.limits? := by cases s <;> rfl
  rw [← hempty s', h, hempty]

/-- The second scheduler tracks what the first does but for some queued requests. -/
structure Trims (gone : List RequestId) (s s' : Scheduler) : Prop where
  wellFormed : s.WellFormed
  wellFormed' : s'.WellFormed
  settings : s'.emptied = s.emptied
  roster : s.roster.Trims gone s'.roster

theorem IsNext.queued (h : s.IsNext slots now e) : e ∈ s.roster.queuedEntries := by
  cases s with
  | workConserving w => exact WorkConserving.IsNext.queued h
  | fixedSlots f => exact FixedSlots.IsNext.queued h

theorem IsNext.trimmed (h : s.Trims gone s')
    (he : Roster.Shared gone s.roster s'.roster e e') (hnext : s.IsNext slots now e) :
    s'.IsNext slots now e' := by
  have hroster := h.roster
  cases s with
  | workConserving w =>
    rw [eq_workConserving_of_emptied h.settings]
    exact WorkConserving.IsNext.trimmed hroster he hnext
  | fixedSlots f =>
    obtain ⟨f', rfl, hlimits⟩ := exists_fixedSlots_of_emptied h.settings
    exact FixedSlots.IsNext.trimmed hroster hlimits he hnext

namespace Trims

theorem grants_iff (h : s.Trims gone s') : s'.Grants t ↔ s.Grants t := by
  rw [Grants, Grants, limits?_eq_of_emptied h.settings, processing, processing,
    h.roster.processing]

theorem canDispatchNow_eq (h : s.Trims gone s') :
    s'.canDispatchNow t b = s.canDispatchNow t b := by
  rw [Bool.eq_iff_iff, canDispatchNow_iff, canDispatchNow_iff, h.grants_iff]

/-- The two select alike unless the first selects one of its additional requests. -/
theorem selectNext_eq (h : s.Trims gone s')
    (hlose : ∀ q, s.selectNext b now = some q → q.id ∉ gone) :
    s'.selectNext b now = s.selectNext b now := by
  cases hs : s.selectNext b now with
  | some q =>
    obtain ⟨hb, e, hnext, rfl⟩ := h.wellFormed.selectNext_eq_some_iff.1 hs
    obtain ⟨e', he⟩ :=
      h.roster.exists_right (Roster.mem_queuedEntries.1 hnext.queued).1 (hlose _ hs)
    exact h.wellFormed'.selectNext_eq_some_iff.2
      ⟨hb, e', hnext.trimmed h he, he.request_eq.symm⟩
  | none =>
    refine h.wellFormed'.selectNext_eq_none_iff.2
      ((h.wellFormed.selectNext_none hs).imp_right fun hfull t ht => ?_)
    obtain ⟨e', he', rfl⟩ := h.roster.wellFormed'.exists_queued ht
    obtain ⟨e, he⟩ := h.roster.exists_left (Roster.mem_queuedEntries.1 he').1
    rw [h.grants_iff, ← he.tier_eq]
    exact hfull e.tier (h.roster.wellFormed.queued_pos (he.queued_iff.2 he'))

end Trims

end Scheduler

end TieredAdmission
