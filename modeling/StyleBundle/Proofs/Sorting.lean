import Mathlib
import StyleBundle.Sorting

/-!
# StyleBundle.Proofs.Sorting

Sorting loses nothing (`sort_perm`), whatever the comparison is. Where the comparison is that of a
key, the result is in the order of the keys (`sort_ascending`), and elements with the same key keep
their order (`sort_filter`).
-/

namespace StyleBundle

namespace Sorting

variable {α : Type} {less : α → α → Bool} {x : α} {xs : List α}

/-! ## Nothing is lost -/

theorem run_append (carriesOn : α → α → Bool) (last : α) (xs : List α) :
    (run carriesOn last xs).1 ++ (run carriesOn last xs).2 = xs := by
  induction xs generalizing last with
  | nil => rfl
  | cons x rest ih =>
    rw [run]
    split
    · simp only [List.cons_append, ih]
    · rfl

theorem front_perm (less : α → α → Bool) (xs : List α) :
    ((front less xs).1 ++ (front less xs).2).Perm xs := by
  unfold front
  split
  · rename_i x y rest
    split
    · refine ((List.reverse_perm _).append_right _).trans ?_
      simp only [List.cons_append, run_append]
      exact List.Perm.refl _
    · simp only [List.cons_append, run_append]
      exact List.Perm.refl _
  · rw [List.append_nil]

theorem bisect_perm (less : α → α → Bool) (x : α) (fuel : Nat) (xs : List α) :
    (bisect less x fuel xs).Perm (x :: xs) := by
  induction fuel generalizing xs with
  | zero => exact List.Perm.refl _
  | succ fuel ih =>
    rw [bisect]
    split
    · exact List.Perm.refl _
    · rename_i y right hdrop
      have hxs : xs = xs.take (xs.length / 2) ++ y :: right := by
        rw [← hdrop, List.take_append_drop]
      split
      · refine ((ih _).append_right _).trans ?_
        rw [List.cons_append, ← hxs]
      · refine (((ih right).cons y).append_left _).trans ?_
        refine ((List.Perm.swap x y right).append_left _).trans ?_
        refine List.perm_middle.trans ?_
        rw [← hxs]

theorem insertAll_perm (less : α → α → Bool) (rest sorted : List α) :
    (rest.foldl (insert less) sorted).Perm (sorted ++ rest) := by
  induction rest generalizing sorted with
  | nil => rw [List.append_nil]; exact List.Perm.refl _
  | cons x rest ih =>
    refine (ih _).trans ?_
    refine ((bisect_perm less x _ sorted).append_right rest).trans ?_
    exact List.perm_middle.symm

theorem sort_perm (less : α → α → Bool) (xs : List α) : (sort less xs).Perm xs :=
  (insertAll_perm less _ _).trans (front_perm less xs)

theorem mem_sort : x ∈ sort less xs ↔ x ∈ xs := (sort_perm less xs).mem_iff

/-! ## Order -/

section Order

variable {κ : Type} [LinearOrder κ] {key : α → κ}

/-- In the order of the keys. -/
def Ascending (key : α → κ) (xs : List α) : Prop := xs.Pairwise fun a b => key a ≤ key b

/-- The comparison is that of the keys. -/
def Compares (less : α → α → Bool) (key : α → κ) (xs : List α) : Prop :=
  ∀ a ∈ xs, ∀ b ∈ xs, less a b = decide (key a < key b)

theorem Compares.subset {ys : List α} (h : Compares less key xs) (hsub : ys ⊆ xs) :
    Compares less key ys :=
  fun a ha b hb => h a (hsub ha) b (hsub hb)

theorem run_pairwise {R : α → α → Prop} (htrans : ∀ a b c, R a b → R b c → R a c)
    (carriesOn : α → α → Bool) (last : α) (xs : List α)
    (h : ∀ a ∈ last :: xs, ∀ b ∈ last :: xs, carriesOn a b = true → R a b) :
    (last :: (run carriesOn last xs).1).Pairwise R := by
  induction xs generalizing last with
  | nil => exact List.pairwise_singleton _ _
  | cons x rest ih =>
    rw [run]
    split
    · rename_i hcarries
      have hx : R last x :=
        h last List.mem_cons_self x (List.mem_cons_of_mem _ List.mem_cons_self) hcarries
      have hrest := ih x fun a ha b hb =>
        h a (List.mem_cons_of_mem _ ha) b (List.mem_cons_of_mem _ hb)
      refine List.pairwise_cons.mpr ⟨?_, hrest⟩
      refine List.forall_mem_cons.mpr ⟨hx, ?_⟩
      intro b hb
      exact htrans last x b hx ((List.pairwise_cons.mp hrest).1 b hb)
    · exact List.pairwise_singleton _ _

/-- An element that starts a run of smaller and smaller ones. -/
theorem run_descending {last : α} (h : Compares less key (last :: xs)) :
    (last :: (run (fun last next => less next last) last xs).1).Pairwise
      fun a b => key b < key a :=
  run_pairwise (fun _ _ _ hab hbc => hbc.trans hab) _ last xs
    fun a ha b hb hless => of_decide_eq_true ((h b hb a ha).symm.trans hless)

theorem run_ascending {last : α} (h : Compares less key (last :: xs)) :
    Ascending key (last :: (run (fun last next => !less next last) last xs).1) := by
  refine run_pairwise (fun _ _ _ hab hbc => hab.trans hbc) _ last xs ?_
  intro a ha b hb hless
  rw [h b hb a ha, Bool.not_eq_true', decide_eq_false_iff_not, not_lt] at hless
  exact hless

theorem front_ascending (h : Compares less key xs) : Ascending key (front less xs).1 := by
  unfold front
  split
  · rename_i x y rest
    -- the second element carries the run of the first one on
    split
    · rename_i hdescends
      have hrun := run_descending h
      rw [run, if_pos hdescends] at hrun
      exact List.pairwise_reverse.mpr (hrun.imp fun hlt => hlt.le)
    · rename_i hascends
      have hrun := run_ascending h
      rw [run, if_pos (by rw [Bool.eq_false_iff.mpr hascends]; rfl)] at hrun
      exact hrun
  · rename_i hshort
    match xs, hshort with
    | [], _ => exact List.Pairwise.nil
    | [x], _ => exact List.pairwise_singleton _ _
    | x :: y :: rest, hshort => exact absurd rfl (hshort x y rest)

/-- Each half is shorter than the list, so the fuel lasts. The element goes behind those that are
not greater, and before the others. -/
theorem bisect_split (x : α) {fuel : Nat} (hfuel : xs.length ≤ fuel) (hxs : Ascending key xs)
    (h : ∀ y ∈ xs, less x y = decide (key x < key y)) :
    ∃ left right, xs = left ++ right ∧ bisect less x fuel xs = left ++ x :: right ∧
      (∀ a ∈ left, key a ≤ key x) ∧ ∀ b ∈ right, key x < key b := by
  have hempty {ys : List α} (hys : ys.length = 0) :
      ∃ left right, ys = left ++ right ∧ x :: ys = left ++ x :: right ∧
        (∀ a ∈ left, key a ≤ key x) ∧ ∀ b ∈ right, key x < key b := by
    refine ⟨[], ys, rfl, rfl, nofun, ?_⟩
    rw [List.length_eq_zero_iff.mp hys]
    exact nofun
  induction fuel generalizing xs with
  | zero => exact hempty (Nat.le_zero.mp hfuel)
  | succ fuel ih =>
    rw [bisect]
    split
    · rename_i hdrop
      have hlength := congrArg List.length hdrop
      simp only [List.length_drop, List.length_nil] at hlength
      exact hempty (by omega)
    · rename_i y right hdrop
      have hsplit : xs = xs.take (xs.length / 2) ++ y :: right := by
        rw [← hdrop, List.take_append_drop]
      have hlength := congrArg List.length hdrop
      simp only [List.length_drop, List.length_cons] at hlength
      have hmem : ∀ z ∈ y :: right, z ∈ xs := by
        rw [hsplit]
        exact fun z hz => List.mem_append_right _ hz
      have hless := h y (hmem y List.mem_cons_self)
      rw [hsplit] at hxs
      obtain ⟨hleft, hright, hcross⟩ := List.pairwise_append.mp hxs
      obtain ⟨hbehind, hright⟩ := List.pairwise_cons.mp hright
      split
      · rename_i hbefore
        rw [hless, decide_eq_true_eq] at hbefore
        have hfuel : (xs.take (xs.length / 2)).length ≤ fuel := by
          rw [List.length_take]
          omega
        obtain ⟨l, r, hlr, hbisect, hl, hr⟩ :=
          ih hfuel hleft fun z hz => h z (List.mem_of_mem_take hz)
        refine ⟨l, r ++ y :: right, ?_, ?_, hl, ?_⟩
        · rw [← List.append_assoc, ← hlr, ← hsplit]
        · rw [hbisect, List.append_assoc, List.cons_append]
        · refine List.forall_mem_append.mpr ⟨hr, List.forall_mem_cons.mpr ⟨hbefore, ?_⟩⟩
          exact fun b hb => hbefore.trans_le (hbehind b hb)
      · rename_i hafter
        rw [hless, decide_eq_true_eq, not_lt] at hafter
        have hfuel : right.length ≤ fuel := by omega
        obtain ⟨l, r, hlr, hbisect, hl, hr⟩ :=
          ih hfuel hright fun z hz => h z (hmem z (List.mem_cons_of_mem _ hz))
        refine ⟨xs.take (xs.length / 2) ++ y :: l, r, ?_, ?_, ?_, hr⟩
        · rw [List.append_assoc, List.cons_append, ← hlr, ← hsplit]
        · rw [hbisect, List.append_assoc, List.cons_append]
        · refine List.forall_mem_append.mpr ⟨?_, List.forall_mem_cons.mpr ⟨hafter, hl⟩⟩
          exact fun a ha => (hcross a ha y List.mem_cons_self).trans hafter

theorem bisect_ascending (x : α) {fuel : Nat} (hfuel : xs.length ≤ fuel) (hxs : Ascending key xs)
    (h : ∀ y ∈ xs, less x y = decide (key x < key y)) : Ascending key (bisect less x fuel xs) := by
  obtain ⟨left, right, rfl, hbisect, hl, hr⟩ := bisect_split x hfuel hxs h
  obtain ⟨hleft, hright, hcross⟩ := List.pairwise_append.mp hxs
  rw [hbisect]
  refine List.pairwise_append.mpr ⟨hleft, ?_, ?_⟩
  · exact List.pairwise_cons.mpr ⟨fun b hb => (hr b hb).le, hright⟩
  · intro a ha
    exact List.forall_mem_cons.mpr ⟨hl a ha, hcross a ha⟩

theorem Compares.insert {rest sorted : List α} (h : Compares less key (sorted ++ x :: rest)) :
    (∀ y ∈ sorted, less x y = decide (key x < key y)) ∧
      Compares less key (Sorting.insert less sorted x ++ rest) := by
  have hx : x ∈ sorted ++ x :: rest := List.mem_append_right _ List.mem_cons_self
  refine ⟨fun y hy => h x hx y (List.mem_append_left _ hy), h.subset fun y hy => ?_⟩
  have hperm := ((bisect_perm less x sorted.length sorted).append_right rest).trans
    List.perm_middle.symm
  exact hperm.mem_iff.mp hy

theorem insertAll_ascending {rest sorted : List α} (hsorted : Ascending key sorted)
    (h : Compares less key (sorted ++ rest)) :
    Ascending key (rest.foldl (insert less) sorted) := by
  induction rest generalizing sorted with
  | nil => exact hsorted
  | cons x rest ih => exact ih (bisect_ascending x (Nat.le_refl _) hsorted h.insert.1) h.insert.2

theorem sort_ascending (h : Compares less key xs) : Ascending key (sort less xs) :=
  insertAll_ascending (front_ascending h) (h.subset (front_perm less xs).subset)

/-! ## Elements with the same key keep their order -/

theorem reverse_filter_key (h : xs.Pairwise fun a b => key b < key a) (k : κ) :
    xs.reverse.filter (key · = k) = xs.filter (key · = k) := by
  -- no two elements of the run have the same key
  rw [List.filter_reverse]
  have hdescends := h.filter (key · = k)
  match hfilter : xs.filter (key · = k) with
  | [] => rfl
  | [x] => rfl
  | x :: y :: rest =>
    have hkeys : ∀ z ∈ x :: y :: rest, key z = k := by
      intro z hz
      rw [← hfilter] at hz
      exact of_decide_eq_true (List.mem_filter.mp hz).2
    rw [hfilter] at hdescends
    have hlt := (List.pairwise_cons.mp hdescends).1 y List.mem_cons_self
    rw [hkeys x List.mem_cons_self, hkeys y (List.mem_cons_of_mem _ List.mem_cons_self)] at hlt
    exact absurd hlt (lt_irrefl k)

theorem front_filter (h : Compares less key xs) (k : κ) :
    ((front less xs).1 ++ (front less xs).2).filter (key · = k) = xs.filter (key · = k) := by
  unfold front
  split
  · rename_i x y rest
    split
    · rename_i hdescends
      have hrun := run_descending h
      rw [run, if_pos hdescends] at hrun
      simp only [List.filter_append, reverse_filter_key hrun]
      rw [← List.filter_append, List.cons_append, List.cons_append, run_append]
    · simp only [List.cons_append, run_append]
  · rw [List.append_nil]

theorem bisect_filter (x : α) {fuel : Nat} (hfuel : xs.length ≤ fuel) (hxs : Ascending key xs)
    (h : ∀ y ∈ xs, less x y = decide (key x < key y)) (k : κ) :
    (bisect less x fuel xs).filter (key · = k) = (xs ++ [x]).filter (key · = k) := by
  obtain ⟨left, right, rfl, hbisect, -, hr⟩ := bisect_split x hfuel hxs h
  rw [hbisect]
  by_cases hx : key x = k
  · have hright : right.filter (key · = k) = [] := by
      refine List.filter_eq_nil_iff.mpr fun b hb => ?_
      rw [decide_eq_true_eq, ← hx]
      exact (hr b hb).ne'
    simp [hx, hright]
  · simp [hx]

theorem insertAll_filter {rest sorted : List α} (hsorted : Ascending key sorted)
    (h : Compares less key (sorted ++ rest)) (k : κ) :
    (rest.foldl (insert less) sorted).filter (key · = k) =
      (sorted ++ rest).filter (key · = k) := by
  induction rest generalizing sorted with
  | nil => simp
  | cons x rest ih =>
    have hfilter : (insert less sorted x).filter (key · = k) = (sorted ++ [x]).filter (key · = k) :=
      bisect_filter x (Nat.le_refl _) hsorted h.insert.1 k
    have hinserted : Ascending key (insert less sorted x) :=
      bisect_ascending x (Nat.le_refl _) hsorted h.insert.1
    rw [List.foldl_cons, ih hinserted h.insert.2, List.filter_append, hfilter,
      ← List.filter_append, List.append_assoc, List.singleton_append]

theorem sort_filter (h : Compares less key xs) (k : κ) :
    (sort less xs).filter (key · = k) = xs.filter (key · = k) := by
  have hfront := insertAll_filter (front_ascending h) (h.subset (front_perm less xs).subset) k
  exact hfront.trans (front_filter h k)

end Order

end Sorting

end StyleBundle
