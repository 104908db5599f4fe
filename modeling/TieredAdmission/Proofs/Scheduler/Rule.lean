import TieredAdmission.Proofs.Scheduler.Run

/-!
# The rule of selection

A work-conserving scheduler with a free slot serves the first tier, in priority order, that holds
less than its target share and has a queued request, and of that tier the greatest one; when there
is no such tier it serves the greatest request of all. A scheduler with fixed slots serves the first
tier with a free slot of its own and a queued request, and of that tier the one that came first. The
sequence numbers are distinct, so there is one request whose turn it is. One pass over the entries
that keeps the greatest candidates it has met finds the same one in whatever order it meets them.
-/

namespace TieredAdmission

universe u

namespace Tier

variable {α : Type u} {f : Tier → Option α} {p : Tier → Bool} {a : α}

private theorem rank_injective : Function.Injective rank := by
  intro t u h
  cases t <;> cases u <;> first | rfl | cases h

/-- The scan of the tiers ends at the first of them, in priority order, that has something. -/
theorem findSome?_all_eq_some_iff :
    all.findSome? f = some a ↔ ∃ t, f t = some a ∧ ∀ u, t.rank < u.rank → f u = none := by
  constructor
  · intro h
    obtain ⟨before, t, after, hall, ht, hnone⟩ := List.findSome?_eq_some_iff.1 h
    refine ⟨t, ht, fun u hu => hnone u ?_⟩
    have hsorted : all.Pairwise fun x y => y.rank < x.rank := by decide
    have hmem := mem_all u
    rw [hall] at hsorted hmem
    obtain ⟨-, hafter, -⟩ := List.pairwise_append.1 hsorted
    rcases List.mem_append.1 hmem with hmem | hmem
    · exact hmem
    · rcases List.mem_cons.1 hmem with rfl | hmem
      · exact absurd hu (Nat.lt_irrefl _)
      · exact absurd hu (Nat.lt_asymm ((List.pairwise_cons.1 hafter).1 u hmem))
  · rintro ⟨t, ht, hnone⟩
    cases t with
    | enterprise => simp [all, ht]
    | premium => simp [all, ht, hnone enterprise (by decide)]
    | free => simp [all, ht, hnone enterprise (by decide), hnone premium (by decide)]

private theorem findSome?_filter (ts : List Tier) :
    (ts.filter p).findSome? f = ts.findSome? fun t => if p t then f t else none := by
  induction ts with
  | nil => rfl
  | cons t ts ih => cases hp : p t <;> simp [hp, List.findSome?_cons, ih]

end Tier

namespace Candidate

variable {α : Type u} {a b c : Candidate α} {cs ds : List (Candidate α)}

private theorem not_beats_of_beats (h : a.beats b = true) : b.beats a = false := by
  rw [← Bool.not_eq_true]
  rw [beats_iff] at *
  omega

private theorem beats_or_beats (h : a.sequence ≠ b.sequence) :
    a.beats b = true ∨ b.beats a = true := by
  rw [beats_iff, beats_iff]
  omega

/-- Among candidates with numbers of their own the selected one beats all others. -/
theorem best?_eq_some_iff (hn : (cs.map (·.sequence)).Nodup) :
    best? cs = some c ↔ c ∈ cs ∧ ∀ d ∈ cs, d ≠ c → c.beats d = true := by
  constructor
  · refine fun h => ⟨mem_of_best? h, fun d hd hne => ?_⟩
    have hsequence : d.sequence ≠ c.sequence := fun hs =>
      hne (List.inj_on_of_nodup_map hn hd (mem_of_best? h) hs)
    refine (beats_or_beats hsequence).resolve_left ?_
    rw [not_beats_of_best? h hd]
    exact Bool.false_ne_true
  · rintro ⟨hc, hbeats⟩
    cases hb : best? cs with
    | none =>
      rw [best?_eq_none_iff.1 hb] at hc
      cases hc
    | some d =>
      by_cases hdc : d = c
      · rw [hdc]
      · have hno := not_beats_of_best? hb hc
        rw [hbeats d (mem_of_best? hb) hdc] at hno
        cases hno

/-- The better of the greatest candidate so far and one more; the former unless it is beaten. -/
def keep (best : Option (Candidate α)) (c : Candidate α) : Option (Candidate α) :=
  match best with
  | none => some c
  | some d => if c.beats d then some c else some d

@[simp] theorem keep_some (c d : Candidate α) :
    keep (some d) c = if c.beats d then some c else some d := rfl

private theorem foldl_keep_of_beats (h : ∀ d ∈ cs, d ≠ c → c.beats d = true) :
    cs.foldl keep (some c) = some c := by
  induction cs with
  | nil => rfl
  | cons d cs ih =>
    have hkeep : keep (some c) d = some c := by
      by_cases hdc : d = c
      · rw [hdc, keep_some, ite_self]
      · simp [not_beats_of_beats (h d List.mem_cons_self hdc)]
    rw [List.foldl_cons, hkeep]
    exact ih fun d hd => h d (List.mem_cons_of_mem _ hd)

private theorem foldl_keep_mem {start : Option (Candidate α)} (h : cs.foldl keep start = some c) :
    c ∈ cs ∨ start = some c := by
  induction cs generalizing start with
  | nil => exact Or.inr h
  | cons d cs ih =>
    rcases ih h with hmem | hstart
    · exact Or.inl (List.mem_cons_of_mem _ hmem)
    · cases start with
      | none =>
        obtain rfl := Option.some.inj hstart
        exact Or.inl List.mem_cons_self
      | some b =>
        rw [keep_some] at hstart
        split at hstart
        · obtain rfl := Option.some.inj hstart
          exact Or.inl List.mem_cons_self
        · exact Or.inr hstart

/-- One pass in any order finds the candidate that is selected. -/
theorem foldl_keep_eq_best? (hn : (cs.map (·.sequence)).Nodup) (hp : ds.Perm cs) :
    ds.foldl keep none = best? cs := by
  cases hb : best? cs with
  | none =>
    rw [best?_eq_none_iff.1 hb] at hp
    rw [hp.eq_nil]
    rfl
  | some c =>
    obtain ⟨hc, hbeats⟩ := (best?_eq_some_iff hn).1 hb
    obtain ⟨before, after, rfl⟩ := List.append_of_mem (hp.mem_iff.2 hc)
    replace hbeats : ∀ d ∈ before ++ c :: after, d ≠ c → c.beats d = true :=
      fun d hd => hbeats d (hp.mem_iff.1 hd)
    have hkeep : keep (before.foldl keep none) c = some c := by
      cases hbefore : before.foldl keep none with
      | none => rfl
      | some d =>
        have hd : d ∈ before := (foldl_keep_mem hbefore).resolve_right (by simp)
        by_cases hdc : d = c
        · rw [hdc, keep_some, ite_self]
        · rw [keep_some, if_pos (hbeats d (List.mem_append_left _ hd) hdc)]
    rw [List.foldl_append, List.foldl_cons, hkeep]
    exact foldl_keep_of_beats fun d hd =>
      hbeats d (List.mem_append_right _ (List.mem_cons_of_mem _ hd))

end Candidate

theorem Roster.WellFormed.nodup_sequence {r : Roster} (h : r.WellFormed) :
    (r.entries.map Entry.sequence).Nodup :=
  List.pairwise_map.2 (h.ordered.imp Nat.ne_of_lt)

/-- The first queued entry of a tier is the one with the lowest number. -/
theorem Roster.WellFormed.head?_queuedEntries {r : Roster} (h : r.WellFormed) {t : Tier}
    {e : Entry} : (r.queuedEntries.filter fun f => f.tier == t).head? = some e ↔
      e ∈ r.queuedEntries ∧ e.tier = t ∧
        ∀ f ∈ r.queuedEntries, f.tier = t → f ≠ e → e.sequence < f.sequence := by
  have hordered : (r.queuedEntries.filter fun f => f.tier == t).Pairwise
      fun a b => a.sequence < b.sequence :=
    h.ordered.sublist (List.filter_sublist.trans List.filter_sublist)
  have hmem (f : Entry) : f ∈ r.queuedEntries ∧ f.tier = t ↔
      f ∈ r.queuedEntries.filter fun f => f.tier == t := by
    rw [List.mem_filter, beq_iff_eq]
  simp only [← and_imp, ← and_assoc, hmem]
  generalize r.queuedEntries.filter (fun f => f.tier == t) = es at hordered
  cases es with
  | nil => simp
  | cons a es =>
    obtain ⟨hfirst, -⟩ := List.pairwise_cons.1 hordered
    rw [List.head?_cons, Option.some.injEq]
    constructor
    · rintro rfl
      refine ⟨List.mem_cons_self, ?_⟩
      rintro f ⟨hf, hne⟩
      exact hfirst f ((List.mem_cons.1 hf).resolve_left hne)
    · rintro ⟨he, hlow⟩
      by_contra hne
      have hlt := hfirst e ((List.mem_cons.1 he).resolve_left (Ne.symm hne))
      have hgt := hlow a ⟨List.mem_cons_self, hne⟩
      omega

namespace WorkConserving

variable {s : WorkConserving} {b : CapacityBudget} {slots : Nat} {now : Instant} {e f : Entry}
  {t : Tier} {q : Request}

/-! ### The request whose turn it is -/

/-- The first entry goes before the second: it scores higher, or as high with a lower number. -/
def Outranks (s : WorkConserving) (now : Instant) (e f : Entry) : Prop :=
  Decimal.totalKey (s.score now f) < Decimal.totalKey (s.score now e) ∨
    Decimal.totalKey (s.score now e) = Decimal.totalKey (s.score now f) ∧ e.sequence < f.sequence

/-- The greatest of the queued entries with a property. -/
structure Greatest (s : WorkConserving) (now : Instant) (p : Entry → Prop) (e : Entry) : Prop where
  queued : e ∈ s.roster.queuedEntries
  property : p e
  outranks : ∀ f ∈ s.roster.queuedEntries, p f → f ≠ e → s.Outranks now e f

/-- The tier holds less than its target share and has a queued request. -/
def IsDue (s : WorkConserving) (slots : Nat) (t : Tier) : Prop :=
  s.roster.processing.get t < s.policy.targetShare t slots ∧
    ∃ e ∈ s.roster.queuedEntries, e.tier = t

/-- It is the turn of the entry. -/
def IsNext (s : WorkConserving) (slots : Nat) (now : Instant) (e : Entry) : Prop :=
  (∃ t, s.IsDue slots t ∧ (∀ u, t.rank < u.rank → ¬ s.IsDue slots u) ∧
    s.Greatest now (fun f => f.tier = t) e) ∨
  (∀ t, ¬ s.IsDue slots t) ∧ s.Greatest now (fun _ => True) e

theorem Greatest.unique {p : Entry → Prop} (h : s.Greatest now p e) (h' : s.Greatest now p f) :
    e = f := by
  by_contra hne
  have hef := h.outranks f h'.queued h'.property (Ne.symm hne)
  have hfe := h'.outranks e h.queued h.property hne
  simp only [Outranks] at hef hfe
  omega

theorem IsNext.queued (h : s.IsNext slots now e) : e ∈ s.roster.queuedEntries := by
  rcases h with ⟨t, -, -, h⟩ | ⟨-, h⟩ <;> exact h.queued

theorem IsNext.unique (h : s.IsNext slots now e) (h' : s.IsNext slots now f) : e = f := by
  rcases h with ⟨t, hdue, hfirst, h⟩ | ⟨hnone, h⟩ <;>
    rcases h' with ⟨u, hdue', hfirst', h'⟩ | ⟨hnone', h'⟩
  · obtain rfl : t = u := by
      have hle : ¬ t.rank < u.rank := fun hlt => hfirst u hlt hdue'
      have hge : ¬ u.rank < t.rank := fun hlt => hfirst' t hlt hdue
      exact Tier.rank_injective (by omega)
    exact h.unique h'
  · exact absurd hdue (hnone' t)
  · exact absurd hdue' (hnone u)
  · exact h.unique h'

private theorem beats_candidate :
    (s.candidate now e).beats (s.candidate now f) = true ↔ s.Outranks now e f :=
  Candidate.beats_iff

private theorem candidate_injective : Function.Injective (s.candidate now) := fun _ _ h =>
  congrArg Candidate.item h

private theorem best?_map_eq_some_iff {es : List Entry}
    (hn : ((es.map (s.candidate now)).map (·.sequence)).Nodup) :
    (Candidate.best? (es.map (s.candidate now))).map (·.item) = some e ↔
      e ∈ es ∧ ∀ f ∈ es, f ≠ e → s.Outranks now e f := by
  have hitem : (Candidate.best? (es.map (s.candidate now))).map (·.item) = some e ↔
      Candidate.best? (es.map (s.candidate now)) = some (s.candidate now e) := by
    rw [Option.map_eq_some_iff]
    constructor
    · rintro ⟨c, hc, rfl⟩
      obtain ⟨f, -, rfl⟩ := List.mem_map.1 (Candidate.mem_of_best? hc)
      exact hc
    · exact fun h => ⟨_, h, rfl⟩
  rw [hitem, Candidate.best?_eq_some_iff hn, List.mem_map_of_injective candidate_injective,
    List.forall_mem_map]
  simp only [beats_candidate, candidate_injective.ne_iff]

theorem selectNext_eq_none_iff :
    s.selectNext b now = none ↔ b.available = 0 ∨ s.roster.queuedEntries = [] := by
  refine ⟨selectNext_none, fun hempty => Option.eq_none_iff_forall_ne_some.2 fun q hq => ?_⟩
  obtain ⟨hb, e, he, -⟩ := selectNext_some hq
  rcases hempty with hzero | hnil
  · omega
  · rw [hnil] at he
    cases he

variable (h : s.roster.WellFormed)

include h

theorem nodup_sequence_candidates (now : Instant) (p : Entry → Bool) :
    (((s.roster.queuedEntries.filter p).map (s.candidate now)).map (·.sequence)).Nodup := by
  rw [List.map_map]
  exact h.nodup_sequence.sublist ((List.filter_sublist.trans List.filter_sublist).map _)

theorem best?_eq_some_iff : s.best? now = some e ↔ s.Greatest now (fun _ => True) e := by
  have hn := nodup_sequence_candidates h now fun _ => true
  rw [List.filter_true] at hn
  rw [best?, best?_map_eq_some_iff hn]
  constructor
  · rintro ⟨he, ho⟩
    exact ⟨he, trivial, fun f hf _ => ho f hf⟩
  · intro hg
    exact ⟨hg.queued, fun f hf => hg.outranks f hf trivial⟩

theorem bestOf?_eq_some_iff :
    s.bestOf? now t = some e ↔ s.Greatest now (fun f => f.tier = t) e := by
  rw [bestOf?, best?_map_eq_some_iff (nodup_sequence_candidates h now _)]
  simp only [List.mem_filter, beq_iff_eq]
  constructor
  · rintro ⟨⟨he, ht⟩, ho⟩
    exact ⟨he, ht, fun f hf hft => ho f ⟨hf, hft⟩⟩
  · intro hg
    exact ⟨⟨hg.queued, hg.property⟩, fun f hf => hg.outranks f hf.1 hf.2⟩

theorem dueBest?_eq_some_iff :
    (if s.isUnderServed slots t then s.bestOf? now t else none) = some e ↔
      s.IsDue slots t ∧ s.Greatest now (fun f => f.tier = t) e := by
  rw [Option.ite_none_right_eq_some, isUnderServed, decide_eq_true_iff, bestOf?_eq_some_iff h]
  constructor
  · rintro ⟨hshort, hg⟩
    exact ⟨⟨hshort, e, hg.queued, hg.property⟩, hg⟩
  · rintro ⟨hdue, hg⟩
    exact ⟨hdue.1, hg⟩

theorem dueBest?_eq_none_iff :
    (if s.isUnderServed slots t then s.bestOf? now t else none) = none ↔ ¬ s.IsDue slots t := by
  constructor
  · rintro hnone ⟨hshort, he⟩
    rw [if_pos (show s.isUnderServed slots t = true from decide_eq_true hshort)] at hnone
    have hsome := bestOf?_isSome now he
    rw [hnone] at hsome
    cases hsome
  · refine fun hdue => Option.eq_none_iff_forall_ne_some.2 fun e he => hdue ?_
    exact ((dueBest?_eq_some_iff h).1 he).1

theorem selectNext_eq_some_iff :
    s.selectNext b now = some q ↔
      0 < b.available ∧ ∃ e, s.IsNext b.maxConcurrent now e ∧ e.request = q := by
  unfold selectNext
  split
  · next hb => simp [hb]
  · next hb =>
    rw [Option.map_eq_some_iff, and_iff_right (Nat.pos_of_ne_zero hb)]
    simp only [Option.or_eq_some_iff, Tier.findSome?_all_eq_some_iff, List.findSome?_eq_none_iff,
      dueBest?_eq_some_iff h, dueBest?_eq_none_iff h, best?_eq_some_iff h, Tier.mem_all,
      forall_true_left, IsNext, and_assoc, and_comm]

end WorkConserving

/-! ### One pass over the entries -/

/-- The greatest candidates that a pass has met, of all and of each tier. -/
structure Leaders where
  overall : Option (Candidate Entry) := none
  ofTier : PerTier (Option (Candidate Entry)) := .const none

namespace Leaders

def meet (l : Leaders) (c : Candidate Entry) : Leaders where
  overall := Candidate.keep l.overall c
  ofTier := l.ofTier.modify c.item.tier fun best => Candidate.keep best c

private theorem overall_foldl_meet (l : Leaders) (cs : List (Candidate Entry)) :
    (cs.foldl meet l).overall = cs.foldl Candidate.keep l.overall := by
  induction cs generalizing l with
  | nil => rfl
  | cons c cs ih => exact ih (l.meet c)

private theorem ofTier_foldl_meet (l : Leaders) (cs : List (Candidate Entry)) (t : Tier) :
    (cs.foldl meet l).ofTier.get t =
      (cs.filter fun c => c.item.tier == t).foldl Candidate.keep (l.ofTier.get t) := by
  induction cs generalizing l with
  | nil => rfl
  | cons c cs ih =>
    rw [List.foldl_cons, ih, meet, PerTier.modify]
    by_cases ht : c.item.tier = t
    · rw [ht, PerTier.get_set_self, List.filter_cons_of_pos (by simp [ht]), List.foldl_cons]
    · rw [PerTier.get_set_of_ne _ _ (Ne.symm ht), List.filter_cons_of_neg (by simp [ht])]

end Leaders

namespace WorkConserving

variable {s : WorkConserving} {b : CapacityBudget} {now : Instant} {es : List Entry}

def pass (s : WorkConserving) (now : Instant) (es : List Entry) : Leaders :=
  ((es.filter Entry.isQueued).map (s.candidate now)).foldl Leaders.meet {}

/-- The selection by one pass over the entries in the order in which they are listed. -/
def selectFrom (s : WorkConserving) (b : CapacityBudget) (now : Instant) (es : List Entry) :
    Option Request :=
  if b.available = 0 then none
  else
    let leaders := s.pass now es
    let underServed := Tier.all.findSome? fun t =>
      if s.isUnderServed b.maxConcurrent t then leaders.ofTier.get t else none
    leaders.overall.map fun top => (underServed.getD top).item.request

private theorem overall_pass (h : s.roster.WellFormed) (hp : es.Perm s.roster.entries) :
    (s.pass now es).overall =
      Candidate.best? (s.roster.queuedEntries.map (s.candidate now)) := by
  have hn := nodup_sequence_candidates h now fun _ => true
  rw [List.filter_true] at hn
  rw [pass, Leaders.overall_foldl_meet]
  exact Candidate.foldl_keep_eq_best? hn ((hp.filter _).map _)

private theorem ofTier_pass (h : s.roster.WellFormed) (hp : es.Perm s.roster.entries) (t : Tier) :
    (s.pass now es).ofTier.get t = Candidate.best?
      ((s.roster.queuedEntries.filter fun e => e.tier == t).map (s.candidate now)) := by
  rw [pass, Leaders.ofTier_foldl_meet, List.filter_map, PerTier.get_const]
  exact Candidate.foldl_keep_eq_best? (nodup_sequence_candidates h now _)
    (((hp.filter _).filter _).map _)

/-- The pass finds the selected request in whatever order it meets the entries. -/
theorem selectFrom_eq_selectNext (h : s.roster.WellFormed) (hp : es.Perm s.roster.entries) :
    s.selectFrom b now es = s.selectNext b now := by
  cases hoverall : (s.pass now es).overall with
  | none =>
    have hnil : s.roster.queuedEntries = [] := by
      rw [overall_pass h hp, Candidate.best?_eq_none_iff] at hoverall
      exact List.map_eq_nil_iff.1 hoverall
    rw [selectNext_eq_none_iff.2 (Or.inr hnil), selectFrom]
    split
    · rfl
    · simp [hoverall]
  | some top =>
    have hbest : s.best? now = some top.item := by
      rw [best?, ← overall_pass h hp, hoverall]
      rfl
    have hunderServed : (Tier.all.findSome? fun t =>
        if s.isUnderServed b.maxConcurrent t then s.bestOf? now t else none) =
        (Tier.all.findSome? fun t => if s.isUnderServed b.maxConcurrent t then
          (s.pass now es).ofTier.get t else none).map (·.item) := by
      rw [List.map_findSome?]
      congr 1
      funext t
      rw [bestOf?, ← ofTier_pass h hp, Function.comp_apply]
      split <;> rfl
    rw [selectFrom, selectNext]
    dsimp only
    rw [hunderServed, hbest, hoverall]
    cases (Tier.all.findSome? fun t => if s.isUnderServed b.maxConcurrent t then
      (s.pass now es).ofTier.get t else none) <;> rfl

end WorkConserving

namespace FixedSlots

variable {s : FixedSlots} {b : CapacityBudget} {q : Request} {e : Entry}

/-- It is the turn of the entry: its tier is the first with a free slot and a queued request, and it
came before the others of its tier. -/
structure IsNext (s : FixedSlots) (e : Entry) : Prop where
  queued : e ∈ s.roster.queuedEntries
  slot : s.hasSlot e.tier = true
  first : ∀ u, e.tier.rank < u.rank → s.hasSlot u = true →
    ∀ f ∈ s.roster.queuedEntries, f.tier ≠ u
  earliest : ∀ f ∈ s.roster.queuedEntries, f.tier = e.tier → f ≠ e → e.sequence < f.sequence

private theorem WellFormed.head?_queue_eq_some_iff (hs : s.WellFormed) {t : Tier} {id : RequestId} :
    (s.queues.get t).head? = some id ↔ ∃ e ∈ s.roster.queuedEntries, e.tier = t ∧ e.id = id ∧
      ∀ f ∈ s.roster.queuedEntries, f.tier = t → f ≠ e → e.sequence < f.sequence := by
  rw [hs.queues, List.head?_map, Option.map_eq_some_iff]
  simp only [hs.roster.head?_queuedEntries]
  exact ⟨fun ⟨e, ⟨he, ht, hlow⟩, hid⟩ => ⟨e, he, ht, hid, hlow⟩,
    fun ⟨e, he, ht, hid, hlow⟩ => ⟨e, ⟨he, ht, hlow⟩, hid⟩⟩

private theorem WellFormed.head?_queue_eq_none_iff (hs : s.WellFormed) {t : Tier} :
    (s.queues.get t).head? = none ↔ ∀ e ∈ s.roster.queuedEntries, e.tier ≠ t := by
  rw [hs.queues, List.head?_eq_none_iff, List.map_eq_nil_iff, List.filter_eq_nil_iff]
  simp only [beq_iff_eq, ne_eq]

theorem WellFormed.selectNext_eq_some_iff (hs : s.WellFormed) :
    s.selectNext b = some q ↔ 0 < b.available ∧ ∃ e, s.IsNext e ∧ e.request = q := by
  unfold selectNext
  split
  · next hb => simp [hb]
  · next hb =>
    rw [and_iff_right (Nat.pos_of_ne_zero hb), Option.map_eq_some_iff]
    simp only [Option.bind_eq_some_iff, Tier.findSome?_filter, Tier.findSome?_all_eq_some_iff,
      Option.ite_none_right_eq_some, hs.head?_queue_eq_some_iff]
    constructor
    · rintro ⟨e, ⟨id, ⟨t, ⟨hslot, f, hf, rfl, rfl, hlow⟩, hhigher⟩, hfind⟩, rfl⟩
      obtain rfl : f = e := by
        rw [hs.roster.find?_id (Roster.mem_queuedEntries.1 hf).1] at hfind
        exact Option.some.inj hfind
      refine ⟨f, ⟨hf, hslot, fun u hu hslotu => ?_, hlow⟩, rfl⟩
      have hnone := hhigher u hu
      rwa [if_pos hslotu, hs.head?_queue_eq_none_iff] at hnone
    · rintro ⟨e, he, rfl⟩
      refine ⟨e, ⟨e.id, ⟨e.tier, ⟨he.slot, e, he.queued, rfl, rfl, he.earliest⟩, fun u hu => ?_⟩,
        hs.roster.find?_id (Roster.mem_queuedEntries.1 he.queued).1⟩, rfl⟩
      split
      · next hslot => exact hs.head?_queue_eq_none_iff.2 (he.first u hu hslot)
      · rfl

end FixedSlots

namespace Scheduler

variable {s : Scheduler} {b : CapacityBudget} {now : Instant} {e : Entry} {q : Request}

def IsNext : Scheduler → Nat → Instant → Entry → Prop
  | workConserving s, slots, now, e => s.IsNext slots now e
  | fixedSlots s, _, _, e => s.IsNext e

theorem WellFormed.selectNext_eq_some_iff (h : s.WellFormed) :
    s.selectNext b now = some q ↔
      0 < b.available ∧ ∃ e, s.IsNext b.maxConcurrent now e ∧ e.request = q := by
  cases s with
  | workConserving s => exact WorkConserving.selectNext_eq_some_iff h
  | fixedSlots s => exact FixedSlots.WellFormed.selectNext_eq_some_iff h

/-- After any run a work-conserving scheduler selects nothing exactly when the budget has no free
slot or nothing is queued, and otherwise the one request whose turn it is, which can be started at
any time. A pass over the entries in any order finds the same request. -/
theorem selection_follows_rule (policy : TierPolicy) (agingCap : Duration) (turns : List Turn)
    (b : CapacityBudget) (now : Instant) :
    ∃ w : WorkConserving, (workConserving { policy, agingCap }).after turns = workConserving w ∧
      w.policy = policy ∧ w.agingCap = agingCap ∧
      (w.selectNext b now = none ↔ b.available = 0 ∨ w.roster.queuedEntries = []) ∧
      (∀ q, w.selectNext b now = some q ↔
        0 < b.available ∧ ∃ e, w.IsNext b.maxConcurrent now e ∧ e.request = q) ∧
      (w.roster.entries.map Entry.sequence).Nodup ∧
      (∀ e f, w.IsNext b.maxConcurrent now e → w.IsNext b.maxConcurrent now f → e = f) ∧
      (∀ es, es.Perm w.roster.entries → w.selectFrom b now es = w.selectNext b now) ∧
      ∀ q, w.selectNext b now = some q → ∀ later, ∃ waited s',
        (workConserving w).start q.id later = .ok (⟨q, waited⟩, s') := by
  obtain ⟨r, hr⟩ := after_workConserving { policy, agingCap } turns
  have hnew : (workConserving { policy, agingCap }).WellFormed := Roster.wellFormed_empty
  have hwf := hnew.after turns
  rw [hr] at hwf ⊢
  have h : r.WellFormed := hwf
  refine ⟨_, rfl, rfl, rfl, WorkConserving.selectNext_eq_none_iff,
    fun q => WorkConserving.selectNext_eq_some_iff h, h.nodup_sequence,
    fun e f he hf => he.unique hf, fun es hp => WorkConserving.selectFrom_eq_selectNext h hp,
    fun q hq later => ?_⟩
  obtain ⟨e, s', -, -, -, hs, -⟩ := hwf.start_selected hq later
  exact ⟨_, s', hs⟩

end Scheduler

end TieredAdmission
