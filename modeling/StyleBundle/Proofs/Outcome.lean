import Mathlib
import StyleBundle.State.Basic

/-!
# StyleBundle.Proofs.Outcome

Laws of outcomes. `andThen` is associative up to how the notes are bracketed, which lists do not
tell apart, and `each` takes a list apart at any point. What does not look at notes is said of
`Outcome.silent`, which leaves them out.

* `each_invariant`: what every step keeps, a whole run keeps; `each_ok`: if no step stops then, no
  run does.
* `each_related`, `each_simulation`: runs of related items, or of the same items, from related
  states stop alike and stay related.
* `carried`: the items that are carried out before a step stops. If steps that stop leave the state
  alone, the state of the run is the one these items lead to (`each_state`).
-/

namespace StyleBundle

/-- A result of which something is known is there. -/
theorem exists_ok_of_map {ε α β : Type} {e : Except ε α} {f : α → β} {b : β}
    (h : e.toOption.map f = some b) : ∃ a, e = .ok a ∧ f a = b := by
  cases e with
  | error e => cases h
  | ok a => exact ⟨a, rfl, Option.some.inj h⟩

/-- The error of a result. -/
def error? {ε α : Type} : Except ε α → Option ε
  | .ok _ => none
  | .error e => some e

theorem eq_error_of_error? {ε α : Type} {r : Except ε α} {e : ε} (h : error? r = some e) :
    r = .error e := by
  cases r with
  | ok a => cases h
  | error e' => rw [Option.some.inj h]

namespace Outcome

variable {α β : Type}

theorem andThen_of_ok {o : Outcome} (h : o.failure = none) (step : State → Outcome) :
    o.andThen step = { step o.state with notes := o.notes ++ (step o.state).notes } := by
  simp [andThen, h]

theorem andThen_of_stopped {o : Outcome} {e : Error} (h : o.failure = some e)
    (step : State → Outcome) : o.andThen step = o := by
  simp [andThen, h]

theorem andThen_assoc (o : Outcome) (f g : State → Outcome) :
    (o.andThen f).andThen g = o.andThen fun s => (f s).andThen g := by
  cases h : o.failure with
  | some e => rw [andThen_of_stopped h, andThen_of_stopped h, andThen_of_stopped h]
  | none =>
    rw [andThen_of_ok h, andThen_of_ok h]
    cases hf : (f o.state).failure with
    | some e => simp [andThen, hf]
    | none => simp [andThen, hf]

theorem pure_andThen (s : State) (f : State → Outcome) : andThen { state := s } f = f s := by
  simp [andThen]

theorem each_append (step : State → α → Outcome) (s : State) (xs ys : List α) :
    each step s (xs ++ ys) = (each step s xs).andThen fun s => each step s ys := by
  induction xs generalizing s with
  | nil => rw [List.nil_append, each, pure_andThen]
  | cons x rest ih => simp only [List.cons_append, each, andThen_assoc, ih]

theorem each_one (step : State → α → Outcome) (s : State) (a : α) :
    each step s [a] = step s a := by
  rw [each]
  cases h : (step s a).failure with
  | some e => exact andThen_of_stopped h _
  | none => rw [andThen_of_ok h, each, List.append_nil, ← h]

theorem ofNoted_of_ok {m : Noted Error α} {a : α} (h : m.result = .ok a) (s : State)
    (step : α → Outcome) :
    ofNoted s m step = { step a with notes := m.notes ++ (step a).notes } := by
  simp [ofNoted, h]

/-- If only the computation can stop, a stop leaves the state alone. -/
theorem ofNoted_stopped {m : Noted Error α} {step : α → Outcome} {s : State} {e : Error}
    (hstep : ∀ a, (step a).failure = none) (h : (ofNoted s m step).failure = some e) :
    (ofNoted s m step).state = s := by
  cases hm : m.result with
  | error e' => simp [ofNoted, hm]
  | ok a =>
    rw [ofNoted_of_ok hm, hstep a] at h
    cases h

/-! ## Without notes -/

/-- An outcome without its notes. -/
def silent (o : Outcome) : Outcome := { o with notes := [] }

theorem silent_eq_iff {o o' : Outcome} :
    o.silent = o'.silent ↔ o.state = o'.state ∧ o.failure = o'.failure := by
  simp [silent]

/-- What follows does not look at the notes taken before. -/
theorem silent_andThen {o o' : Outcome} {f g : State → Outcome} (ho : o.silent = o'.silent)
    (hf : ∀ s, (f s).silent = (g s).silent) : (o.andThen f).silent = (o'.andThen g).silent := by
  obtain ⟨hs, he⟩ := silent_eq_iff.mp ho
  cases h : o.failure with
  | some e => rw [andThen_of_stopped h, andThen_of_stopped (he ▸ h), ho]
  | none =>
    rw [andThen_of_ok h, andThen_of_ok (he ▸ h), silent_eq_iff]
    have := silent_eq_iff.mp (hf o.state)
    rw [← hs]
    exact this

/-! ## Runs -/

theorem each_invariant {P : State → Prop} {step : State → α → Outcome} {xs : List α}
    (hstep : ∀ s, ∀ a ∈ xs, P s → P (step s a).state) {s : State} (hs : P s) :
    P (each step s xs).state := by
  induction xs generalizing s with
  | nil => exact hs
  | cons x rest ih =>
    obtain ⟨hhead, hrest⟩ := forall_and.mp fun s => List.forall_mem_cons.mp (hstep s)
    have hx := hhead s hs
    cases h : (step s x).failure with
    | some e => rwa [each, andThen_of_stopped h]
    | none =>
      rw [each, andThen_of_ok h]
      exact ih hrest hx

/-- If no step stops in a state with a property that the steps keep, the run does not stop. -/
theorem each_ok {P : State → Prop} {step : State → α → Outcome} {xs : List α}
    (hstep : ∀ s, ∀ a ∈ xs, P s → (step s a).failure = none ∧ P (step s a).state) {s : State}
    (hs : P s) : (each step s xs).failure = none := by
  induction xs generalizing s with
  | nil => rfl
  | cons x rest ih =>
    obtain ⟨hhead, hrest⟩ := forall_and.mp fun s => List.forall_mem_cons.mp (hstep s)
    obtain ⟨hx, hkept⟩ := hhead s hs
    rw [each, andThen_of_ok hx]
    exact ih hrest hkept

/-- The items that are carried out: all of them, or those before the one that stops. -/
def carried (step : State → α → Outcome) (s : State) : List α → List α
  | [] => []
  | a :: rest =>
    match (step s a).failure with
    | some _ => []
    | none => a :: carried step (step s a).state rest

theorem carried_prefix (step : State → α → Outcome) (s : State) (xs : List α) :
    carried step s xs <+: xs := by
  induction xs generalizing s with
  | nil => exact List.prefix_rfl
  | cons x rest ih =>
    rw [carried]
    split
    · exact List.nil_prefix
    · exact List.prefix_cons_inj x |>.mpr (ih _)

theorem carried_eq_self {step : State → α → Outcome} {s : State} {xs : List α}
    (h : (each step s xs).failure = none) : carried step s xs = xs := by
  induction xs generalizing s with
  | nil => rfl
  | cons x rest ih =>
    cases hx : (step s x).failure with
    | some e =>
      rw [each, andThen_of_stopped hx, hx] at h
      cases h
    | none =>
      rw [each, andThen_of_ok hx] at h
      simp only [carried, hx, ih h]

/-- The state of a run is the one that the items carried out lead to. -/
theorem each_state {step : State → α → Outcome}
    (hstop : ∀ s a e, (step s a).failure = some e → (step s a).state = s) (s : State)
    (xs : List α) :
    (each step s xs).state = (carried step s xs).foldl (fun s a => (step s a).state) s := by
  induction xs generalizing s with
  | nil => rfl
  | cons x rest ih =>
    cases hx : (step s x).failure with
    | some e =>
      rw [each, andThen_of_stopped hx, hstop s x e hx]
      simp [carried, hx]
    | none =>
      rw [each, andThen_of_ok hx]
      simp only [carried, hx, List.foldl_cons]
      exact ih _

/-- If no step stops, the run does not, and the states are passed on. -/
theorem each_total {step : State → α → Outcome} (h : ∀ s a, (step s a).failure = none) (s : State)
    (xs : List α) :
    (each step s xs).failure = none ∧
      (each step s xs).state = xs.foldl (fun s a => (step s a).state) s := by
  induction xs generalizing s with
  | nil => exact ⟨rfl, rfl⟩
  | cons x rest ih =>
    rw [each, andThen_of_ok (h s x)]
    exact ih _

/-- A simulation between two runs: if related items take related states to related states and stop
alike, so do whole lists of them. -/
theorem each_related {Q : α → β → Prop} {R : State → State → Prop} {step : State → α → Outcome}
    {step' : State → β → Outcome}
    (h : ∀ s t a b, R s t → Q a b → (step s a).failure = (step' t b).failure ∧
      R (step s a).state (step' t b).state) {s t : State} (hst : R s t) {xs : List α} {ys : List β}
    (hxs : List.Forall₂ Q xs ys) :
    (each step s xs).failure = (each step' t ys).failure ∧
      R (each step s xs).state (each step' t ys).state := by
  induction hxs generalizing s t with
  | nil => exact ⟨rfl, hst⟩
  | @cons x y xs ys hxy _ ih =>
    obtain ⟨hfailure, hstate⟩ := h s t x y hst hxy
    cases hy : (step' t y).failure with
    | some e =>
      rw [hy] at hfailure
      rw [each, each, andThen_of_stopped hfailure, andThen_of_stopped hy]
      exact ⟨hfailure.trans hy.symm, hstate⟩
    | none =>
      rw [hy] at hfailure
      rw [each, each, andThen_of_ok hfailure, andThen_of_ok hy]
      exact ih hstate

theorem each_simulation {R : State → State → Prop} {step : State → α → Outcome}
    (h : ∀ s t a, R s t → (step s a).failure = (step t a).failure ∧
      R (step s a).state (step t a).state) {s t : State} (hst : R s t) (xs : List α) :
    (each step s xs).failure = (each step t xs).failure ∧
      R (each step s xs).state (each step t xs).state := by
  have hstep : ∀ s t a b, R s t → a = b → (step s a).failure = (step t b).failure ∧
      R (step s a).state (step t b).state := by
    rintro s t a _ hrel rfl
    exact h s t a hrel
  exact each_related hstep hst (List.forall₂_same.mpr fun _ _ => rfl)

end Outcome

end StyleBundle
