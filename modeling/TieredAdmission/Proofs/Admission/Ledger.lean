import TieredAdmission.Proofs.Admission.Run

/-!
# The ledger of submissions

What an observer can write down about every submission, from the operations and their answers, the
calls that reach the backend and the events of the bus. Identifiers may be used again, so an event
or a call is noted at the submission of its identifier that is open at that time.
-/

namespace TieredAdmission

def Operation.submission? : Operation → Option (Request × Instant)
  | .submit request now => some (request, now)
  | _ => none

inductive Ending where
  | rejected
  | cancelled
  /-- Its backend call ended with an outcome at an instant. -/
  | returned (outcome : CallOutcome) (now : Instant)

structure Submission where
  /-- The number of submissions before it. -/
  number : Nat
  request : Request
  submittedAt : Instant
  /-- The path that its admission announced. -/
  path : Option DispatchPath := none
  dispatchedAt : Option Instant := none
  /-- The backend calls made for it. -/
  calls : List Call := []
  abandoned : Bool := false
  ending : Option Ending := none

namespace Submission

/-- Nothing has been decided on it yet. -/
def isFresh (s : Submission) : Bool := s.path.isNone && s.ending.isNone

/-- It was accepted and has not ended. -/
def isOpen (s : Submission) : Bool := s.path.isSome && s.ending.isNone

def hasId (id : RequestId) (s : Submission) : Bool := s.request.id == id

def accept (path : DispatchPath) (s : Submission) : Submission := { s with path := some path }

def dispatch (now : Instant) (s : Submission) : Submission := { s with dispatchedAt := some now }

def call (c : Call) (s : Submission) : Submission := { s with calls := s.calls ++ [c] }

def leave (s : Submission) : Submission := { s with abandoned := true }

def close (e : Ending) (s : Submission) : Submission := { s with ending := some e }

/-- The time between submission and dispatch, none on the immediate path. -/
def waited? (s : Submission) : Option Duration :=
  s.dispatchedAt.map fun t => if s.path = some .immediate then .zero else t.since s.submittedAt

@[simp] theorem isOpen_dispatch (now : Instant) (s : Submission) :
    (s.dispatch now).isOpen = s.isOpen := rfl

@[simp] theorem isOpen_call (c : Call) (s : Submission) : (s.call c).isOpen = s.isOpen := rfl

@[simp] theorem isOpen_leave (s : Submission) : s.leave.isOpen = s.isOpen := rfl

@[simp] theorem isOpen_close (e : Ending) (s : Submission) : (s.close e).isOpen = false := by
  simp [isOpen, close]

def stage (s : Submission) : Stage :=
  match s.dispatchedAt with
  | none => .queued
  | some t => .processing t

/-- The waiter that stands for it in the table. -/
def waiter (s : Submission) : Waiter where
  id := s.request.id
  submission := s.number
  path := s.path.getD .queued
  listening := !s.abandoned

end Submission

/-- The submissions so far, first to last. -/
abbrev Ledger := List Submission

namespace Ledger

def amend (p : Submission → Bool) (f : Submission → Submission) (ls : Ledger) : Ledger :=
  ls.map fun s => if p s then f s else s

/-- The ledger with the open submissions of an identifier changed. -/
def amendOpen (id : RequestId) (f : Submission → Submission) (ls : Ledger) : Ledger :=
  ls.amend (fun s => s.isOpen && s.hasId id) f

/-- The ledger with the submissions of an identifier on which nothing is decided changed. -/
def amendFresh (id : RequestId) (f : Submission → Submission) (ls : Ledger) : Ledger :=
  ls.amend (fun s => s.isFresh && s.hasId id) f

def tell (now : Instant) (ls : Ledger) : AdmissionEvent → Ledger
  | .admitted id _ path => ls.amendFresh id (.accept path)
  | .rejected id _ _ => ls.amendFresh id (.close .rejected)
  | .dispatched id _ _ => ls.amendOpen id (.dispatch now)
  | _ => ls

/-- Notes an operation that takes a controller from one state to another: the submission it brings,
the call that begins or ends, the answer to a cancellation, and the events it publishes. -/
def note (ls : Ledger) (c c' : Controller) (op : Operation) : Ledger :=
  let news := c'.events.history.toList.drop c.events.history.toList.length
  match op with
  | .submit request now =>
    news.foldl (tell now) (ls ++ [{ number := ls.length, request, submittedAt := now }])
  | .beginCall position now =>
    match c.beginAt? position now with
    | none => ls
    | some (call, _) => ls.amendOpen call.request.id (.call call)
  | .endCall id outcome now =>
    if c.does op then news.foldl (tell now) (ls.amendOpen id (.close (.returned outcome now)))
    else ls
  | .cancel id => if c.does op then ls.amendOpen id (.close .cancelled) else ls
  | .abandon id => if c.does op then ls.amendOpen id .leave else ls
  | .drain _ | .passTime _ => ls

def after (ls : Ledger) (c : Controller) : List Operation → Ledger
  | [] => ls
  | op :: ops => (ls.note c (c.apply op) op).after (c.apply op) ops

/-! ### Amendments -/

section Amend

variable {p q : Submission → Bool} {f : Submission → Submission} {ls : Ledger} {s : Submission}
  {id : RequestId}

theorem length_amend : (ls.amend p f).length = ls.length := List.length_map _

theorem length_amendOpen : (ls.amendOpen id f).length = ls.length := length_amend

theorem mem_amend : s ∈ ls.amend p f ↔ ∃ k ∈ ls, (if p k then f k else k) = s := List.mem_map

theorem mem_amend_of_neg (hs : s ∈ ls) (hp : p s = false) : s ∈ ls.amend p f :=
  mem_amend.2 ⟨s, hs, by rw [hp]; rfl⟩

theorem mem_amend_of_pos (hs : s ∈ ls) (hp : p s = true) : f s ∈ ls.amend p f :=
  mem_amend.2 ⟨s, hs, by rw [hp]; rfl⟩

theorem amend_append (ks : Ledger) : amend p f (ls ++ ks) = ls.amend p f ++ ks.amend p f :=
  List.map_append

theorem forall_mem_amend {P : Submission → Prop} (h : ∀ s ∈ ls, P s)
    (hf : ∀ s ∈ ls, p s = true → P (f s)) : ∀ s ∈ ls.amend p f, P s := by
  intro s hs
  obtain ⟨k, hk, rfl⟩ := mem_amend.1 hs
  split
  · next hp => exact hf k hk hp
  · exact h k hk

theorem amend_eq_self (h : ∀ s ∈ ls, p s = false) : ls.amend p f = ls := by
  refine (List.map_congr_left fun s hs => ?_).trans (List.map_id ls)
  rw [h s hs]
  rfl

/-- What the amendment does not change is the same for all submissions. -/
theorem map_amend {α : Type} (f : Submission → Submission) {g : Submission → α}
    (h : ∀ s, g (f s) = g s) :
    (ls.amend p f).map g = ls.map g := by
  rw [amend, List.map_map]
  refine List.map_congr_left fun s _ => ?_
  simp only [Function.comp_apply]
  split
  · exact h s
  · rfl

theorem flatMap_calls_amend (f : Submission → Submission) (h : ∀ s, (f s).calls = s.calls) :
    (ls.amend p f).flatMap Submission.calls = ls.flatMap Submission.calls := by
  rw [List.flatMap_def, List.flatMap_def, map_amend f h]

/-- A call noted at one submission is one call more in the ledger. -/
theorem flatMap_calls_call (hs : s ∈ ls) (hn : ls.Nodup) (hp : ∀ k ∈ ls, p k = true ↔ k = s)
    (c : Call) :
    ((ls.amend p (.call c)).flatMap Submission.calls).Perm
      (ls.flatMap Submission.calls ++ [c]) := by
  obtain ⟨as, bs, rfl⟩ := List.append_of_mem hs
  obtain ⟨-, hcons, hdisjoint⟩ := List.nodup_append.1 hn
  have has : ∀ k ∈ as, p k = false := by
    intro k hk
    by_contra hpk
    have hks := (hp k (List.mem_append_left _ hk)).1 (by simpa using hpk)
    exact hdisjoint k hk s List.mem_cons_self hks
  have hbs : ∀ k ∈ bs, p k = false := by
    intro k hk
    by_contra hpk
    have hks := (hp k (by simp [hk])).1 (by simpa using hpk)
    exact (List.nodup_cons.1 hcons).1 (hks ▸ hk)
  have hself : p s = true := (hp s hs).2 rfl
  have hamend : Ledger.amend p (.call c) (as ++ s :: bs) = as ++ s.call c :: bs := by
    rw [amend_append, amend_eq_self has]
    change as ++ (if p s then s.call c else s) :: amend p (.call c) bs = _
    rw [amend_eq_self hbs, hself]
    rfl
  rw [hamend, List.flatMap_append, List.flatMap_append, List.flatMap_cons, List.flatMap_cons,
    Submission.call, List.append_assoc, List.append_assoc, List.append_assoc]
  exact (List.perm_append_comm.append_left _).append_left _

theorem filter_amend (h : ∀ s, q (f s) = q s) :
    (ls.amend p f).filter q = Ledger.amend p f (ls.filter q) := by
  rw [amend, amend, List.filter_map]
  congr 1
  refine List.filter_congr fun s _ => ?_
  simp only [Function.comp_apply]
  split
  · exact h s
  · rfl

/-- What the amendment does not change is the same for all open submissions. -/
theorem map_open_amend {α : Type} (f : Submission → Submission) {g : Submission → α}
    (ho : ∀ s, (f s).isOpen = s.isOpen) (h : ∀ s, g (f s) = g s) :
    ((ls.amend p f).filter Submission.isOpen).map g = (ls.filter Submission.isOpen).map g := by
  rw [filter_amend ho, map_amend f h]

/-- An amendment that ends submissions takes them from the open ones. -/
theorem filter_isOpen_close (e : Ending) :
    (ls.amendOpen id (.close e)).filter Submission.isOpen =
      (ls.filter Submission.isOpen).filter fun s => !s.hasId id := by
  rw [amendOpen, amend, List.filter_map, List.filter_filter]
  have hfilter : ls.filter (Submission.isOpen ∘ fun s =>
      if (s.isOpen && s.hasId id) = true then s.close e else s) =
      ls.filter fun s => !s.hasId id && s.isOpen := by
    refine List.filter_congr fun s _ => ?_
    simp only [Function.comp_apply]
    by_cases ho : s.isOpen = true <;> by_cases hid : s.hasId id = true <;> simp [ho, hid]
  rw [hfilter]
  refine (List.map_congr_left fun s hs => ?_).trans (List.map_id _)
  have hid := (Bool.and_eq_true_iff.1 (List.mem_filter.1 hs).2).1
  rw [Bool.not_eq_true'] at hid
  simp [hid]

/-- An amendment of open submissions leaves the others as they are. -/
theorem filter_ended_amendOpen (ho : ∀ s, (f s).isOpen = s.isOpen) :
    (ls.amendOpen id f).filter (fun s => !s.isOpen) = ls.filter fun s => !s.isOpen := by
  rw [amendOpen, filter_amend fun s => by rw [ho]]
  refine amend_eq_self fun s hs => ?_
  have hopen := (List.mem_filter.1 hs).2
  rw [Bool.not_eq_true'] at hopen
  rw [hopen, Bool.false_and]

end Amend

/-! ### Events -/

section Events

variable {ls : Ledger} {now : Instant} {s : Submission}

/-- Changes of the breaker concern no submission. -/
theorem foldl_tell_transitions (ts : List BreakerTransition) :
    (ts.map fun t => AdmissionEvent.breakerTransition t.source t.target).foldl (tell now) ls =
      ls := by
  induction ts with
  | nil => rfl
  | cons t ts ih => exact ih

/-- Dispatches concern no submission on which nothing is decided. -/
theorem foldl_tell_append {es : List AdmissionEvent} (hes : ∀ e ∈ es, e.isDispatch = true)
    (hs : s.isOpen = false) :
    es.foldl (tell now) (ls ++ [s]) = es.foldl (tell now) ls ++ [s] := by
  induction es generalizing ls with
  | nil => rfl
  | cons e es ih =>
    have he := hes e List.mem_cons_self
    cases e with
    | dispatched id tier ms =>
      have hstep : tell now (ls ++ [s]) (.dispatched id tier ms) =
          tell now ls (.dispatched id tier ms) ++ [s] := by
        have hself : amendOpen id (.dispatch now) [s] = [s] := by
          refine amend_eq_self fun k hk => ?_
          rw [List.mem_singleton.1 hk, hs, Bool.false_and]
        change amend _ _ (ls ++ [s]) = _
        rw [amend_append]
        exact congrArg _ hself
      rw [List.foldl_cons, hstep, List.foldl_cons]
      exact ih fun e he => hes e (List.mem_cons_of_mem _ he)
    | admitted | completed | rejected | cancelled | breakerTransition => cases he

/-- What is decided on the submission at the end concerns no other. -/
theorem amendFresh_append {f : Submission → Submission} {id : RequestId}
    (hls : ∀ k ∈ ls, k.isFresh = false) (hs : s.isFresh = true) (hid : s.request.id = id) :
    Ledger.amendFresh id f (ls ++ [s]) = ls ++ [f s] := by
  rw [amendFresh, amend_append, amend_eq_self fun k hk => by rw [hls k hk, Bool.false_and]]
  simp [amend, hs, Submission.hasId, hid]

/-- Events change nothing that acceptance, dispatch and rejection leave alone. -/
theorem map_foldl_tell {α : Type} {g : Submission → α} (ha : ∀ p s, g (.accept p s) = g s)
    (hd : ∀ s, g (.dispatch now s) = g s) (hc : ∀ s, g (.close .rejected s) = g s)
    (es : List AdmissionEvent) (ls : Ledger) : (es.foldl (tell now) ls).map g = ls.map g := by
  induction es generalizing ls with
  | nil => rfl
  | cons e es ih =>
    rw [List.foldl_cons, ih]
    cases e with
    | admitted id tier path => exact map_amend _ (ha path)
    | dispatched id tier ms => exact map_amend _ hd
    | rejected id tier reason => exact map_amend _ hc
    | completed | cancelled | breakerTransition => rfl

end Events

/-- The ledger has the submissions of the operations and no others. -/
theorem map_request_note (ls : Ledger) (c c' : Controller) (op : Operation) :
    (ls.note c c' op).map (fun s => (s.request, s.submittedAt)) =
      ls.map (fun s => (s.request, s.submittedAt)) ++ op.submission?.toList := by
  have hnone (ks : Ledger) (h : ks.map (fun s => (s.request, s.submittedAt)) =
      ls.map fun s => (s.request, s.submittedAt)) : ks.map (fun s => (s.request, s.submittedAt)) =
      ls.map (fun s => (s.request, s.submittedAt)) ++ [] := by rw [h, List.append_nil]
  cases op with
  | submit q now =>
    exact (map_foldl_tell (fun _ _ => rfl) (fun _ => rfl) (fun _ => rfl) _ _).trans List.map_append
  | beginCall position now =>
    refine hnone _ ?_
    unfold note
    dsimp only
    split
    · rfl
    · exact map_amend (Submission.call _) fun _ => rfl
  | endCall id outcome now =>
    refine hnone _ ?_
    unfold note
    dsimp only
    split
    · rw [map_foldl_tell (fun _ _ => rfl) (fun _ => rfl) fun _ => rfl]
      exact map_amend (Submission.close _) fun _ => rfl
    · rfl
  | cancel id =>
    refine hnone _ ?_
    unfold note
    dsimp only
    split
    · exact map_amend (Submission.close _) fun _ => rfl
    · rfl
  | abandon id =>
    refine hnone _ ?_
    unfold note
    dsimp only
    split
    · exact map_amend Submission.leave fun _ => rfl
    · rfl
  | drain | passTime => exact hnone _ rfl

theorem map_request_after (ls : Ledger) (c : Controller) (ops : List Operation) :
    (ls.after c ops).map (fun s => (s.request, s.submittedAt)) =
      ls.map (fun s => (s.request, s.submittedAt)) ++ ops.filterMap Operation.submission? := by
  induction ops generalizing ls c with
  | nil => exact (List.append_nil _).symm
  | cons op ops ih =>
    rw [after, ih, map_request_note, List.append_assoc]
    cases hs : op.submission? with
    | none => simp [hs]
    | some q => simp [hs]

end Ledger

end TieredAdmission
