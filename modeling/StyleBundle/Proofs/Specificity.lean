import Mathlib
import StyleBundle.State.Filing

/-!
# StyleBundle.Proofs.Specificity

Ranks are vectors of five tiers, compared lexicographically and added tier by tier.

* `Specificity.cmp_eq_compare`: two ranks compare as the lists of their tiers do.
* `Specificity.compare_zipWith_add`: the sums of two vectors with a third one first differ where the
  vectors do, and in the same way.
* `Specificity.cmp_ordered_monoid`: ranks are a strictly ordered commutative monoid, and selectors
  that contribute the same leave the order of the rules that they file as it is.
-/

namespace StyleBundle

namespace Specificity

/-! ## Comparison -/

section Comparison

variable {a b : Specificity}

theorem toList_injective : Function.Injective toList := by
  rintro ⟨⟩ ⟨⟩ h
  simpa [toList] using h

theorem cmp_eq_compare (a b : Specificity) : cmp a b = compare a.toList b.toList := by
  simp only [cmp, toList, List.compare_cons_cons, List.compare_nil_nil, Ordering.then_assoc,
    Ordering.then_eq]

theorem cmp_eq_lt_iff : cmp a b = .lt ↔ a.toList < b.toList := by
  simp only [cmp, toList, Ordering.then_assoc, Ordering.then_eq_lt, Nat.compare_eq_lt,
    Nat.compare_eq_eq, List.cons_lt_cons_iff, List.not_lt_nil, and_false, or_false]

theorem cmp_eq_eq_iff : cmp a b = .eq ↔ a = b := by
  rw [cmp_eq_compare, Std.LawfulEqOrd.compare_eq_iff_eq, toList_injective.eq_iff]

theorem cmp_eq_gt_iff : cmp a b = .gt ↔ b.toList < a.toList := by
  rw [cmp_eq_compare, Std.OrientedCmp.gt_iff_lt, ← cmp_eq_compare, cmp_eq_lt_iff]

/-- The lists of tiers are totally ordered, and ranks are ordered as they are. -/
theorem isStrictTotalOrder_cmp : IsStrictTotalOrder Specificity (cmp · · = .lt) where
  trichotomous a b hab hba := by
    rw [cmp_eq_lt_iff, not_lt] at hab hba
    exact toList_injective (le_antisymm hba hab)
  irrefl a h := lt_irrefl _ (cmp_eq_lt_iff.mp h)
  trans a b c hab hbc :=
    cmp_eq_lt_iff.mpr ((cmp_eq_lt_iff.mp hab).trans (cmp_eq_lt_iff.mp hbc))

end Comparison

/-! ## Sums -/

theorem add_def (a b : Specificity) :
    a + b =
      { important := a.important + b.important,
        inline := a.inline + b.inline,
        pseudoElements := a.pseudoElements + b.pseudoElements,
        className := a.className + b.className,
        order := a.order + b.order } := rfl

theorem toList_add (a b : Specificity) :
    (a + b).toList = List.zipWith (· + ·) a.toList b.toList := rfl

instance : Zero Specificity := ⟨{}⟩

theorem zero_def : (0 : Specificity) = {} := rfl

instance : AddCommMonoid Specificity where
  add_assoc a b c := by simp only [add_def, Nat.add_assoc]
  zero_add a := by simp only [add_def, zero_def, Nat.zero_add]
  add_zero a := by simp only [add_def, zero_def, Nat.add_zero]
  add_comm a b := by simp only [add_def, Nat.add_comm]
  nsmul := nsmulRec

theorem tier_natCast (t : Tier) (n : Nat) : tier t n = .ok n := by
  simp [tier, Int.not_lt.mpr (Int.natCast_nonneg n)]

/-- Every rank passes the check of its tiers. -/
theorem ofTiers_natCast (a : Specificity) :
    ofTiers a.important a.inline a.pseudoElements a.className a.order = .ok a := by
  simp only [ofTiers, tier_natCast]
  rfl

/-! ## Comparison of sums -/

theorem compare_add_tier (m n k : Nat) : compare (m + k) (n + k) = compare m n := by
  simp only [Nat.compare_eq_ite_lt, Nat.add_lt_add_iff_right]

/-- As long as two vectors agree their sums do, and the first tier in which they differ decides both
comparisons. -/
theorem compare_zipWith_add {xs ys zs : List Nat} (hxs : xs.length = zs.length)
    (hys : ys.length = zs.length) :
    compare (List.zipWith (· + ·) xs zs) (List.zipWith (· + ·) ys zs) = compare xs ys := by
  induction zs generalizing xs ys with
  | nil => rw [List.length_eq_zero_iff.mp hxs, List.length_eq_zero_iff.mp hys]; rfl
  | cons z zs ih =>
    obtain ⟨x, xs, rfl⟩ := List.exists_cons_of_length_eq_add_one hxs
    obtain ⟨y, ys, rfl⟩ := List.exists_cons_of_length_eq_add_one hys
    simp only [List.length_cons, Nat.add_right_cancel_iff] at hxs hys
    simp only [List.zipWith_cons_cons, List.compare_cons_cons, compare_add_tier, ih hxs hys]

theorem cmp_add_right (a b c : Specificity) : cmp (a + c) (b + c) = cmp a b := by
  rw [cmp_eq_compare, cmp_eq_compare, toList_add, toList_add]
  exact compare_zipWith_add rfl rfl

theorem sort_map_add (c : Specificity) (ss : List Specificity) :
    sort (ss.map (· + c)) = (sort ss).map (· + c) := by
  refine (List.map_mergeSort ?_).symm
  intro a _ b _
  rw [cmp_add_right]

end Specificity

theorem ClassSelector.specificity_of_mem_entries {s : ClassSelector} {r : StyleRule}
    {e : String × StyleRule} (h : e ∈ s.entries r) :
    e.2.specificity = r.specificity + s.specificity := by
  simp only [entries, List.mem_append, Option.mem_toList, Option.map_eq_some_iff,
    List.mem_singleton] at h
  rcases h with ⟨group, -, rfl⟩ | rfl
  · rfl
  · rfl

namespace Specificity

/-- Ranks are a strictly ordered commutative monoid. Their comparison is a total order, the
lexicographic one of the tiers. Sums pass the check of the tiers, are associative and commutative,
and have the rank that counts nothing as their neutral element. Adding a rank to two others, or to
all of a list, changes neither how they compare nor how they are sorted. So if two selectors
contribute the same, whatever they file for two rules compares as the rules do. -/
theorem cmp_ordered_monoid :
    IsStrictTotalOrder Specificity (cmp · · = .lt) ∧
    (∀ a b : Specificity, (cmp a b = .lt ↔ a.toList < b.toList) ∧ (cmp a b = .eq ↔ a = b) ∧
      (cmp a b = .gt ↔ b.toList < a.toList)) ∧
    (∀ a b : Specificity,
      ofTiers (a.important + b.important) (a.inline + b.inline)
        (a.pseudoElements + b.pseudoElements) (a.className + b.className) (a.order + b.order) =
          .ok (a + b)) ∧
    (∀ a b c : Specificity, a + b + c = a + (b + c) ∧ a + b = b + a ∧ a + {} = a ∧ {} + a = a) ∧
    (∀ a b c : Specificity, cmp (a + c) (b + c) = cmp a b) ∧
    (∀ (c : Specificity) (ss : List Specificity),
      sort (ss.map (· + c)) = (sort ss).map (· + c)) ∧
    ∀ (s s' : ClassSelector) (r r' : StyleRule), s.specificity = s'.specificity →
      ∀ e ∈ s.entries r, ∀ e' ∈ s'.entries r',
        cmp e.2.specificity e'.2.specificity = cmp r.specificity r'.specificity := by
  refine ⟨isStrictTotalOrder_cmp, ?_, ?_, ?_, cmp_add_right, sort_map_add, ?_⟩
  · exact fun a b => ⟨cmp_eq_lt_iff, cmp_eq_eq_iff, cmp_eq_gt_iff⟩
  · exact fun a b => ofTiers_natCast (a + b)
  · exact fun a b c => ⟨add_assoc a b c, add_comm a b, add_zero a, zero_add a⟩
  · intro s s' r r' hs e he e' he'
    have hsum := ClassSelector.specificity_of_mem_entries he
    have hsum' := ClassSelector.specificity_of_mem_entries he'
    rw [hsum, hsum', hs, cmp_add_right]

/-- An early block with an important declaration stays above a late one without, for a class and for
the group that another selector of the same weight asks for. -/
theorem cmp_ordered_monoid_group :
    let s : ClassSelector :=
      { className := "a", specificity := { className := 2 }, groupClass := some "group" }
    let s' : ClassSelector := { className := "b", specificity := { className := 2 } }
    let r : StyleRule := { specificity := { order := 7 } }
    let r' : StyleRule := { specificity := { important := 1, order := 3 } }
    s.specificity = s'.specificity ∧ ("group", s.mark r "group") ∈ s.entries r ∧
      ("b", s'.qualify r') ∈ s'.entries r' ∧
      cmp (s.mark r "group").specificity (s'.qualify r').specificity = .lt := by
  intro s s' r r'
  have hs : s.specificity = s'.specificity := rfl
  have hmark : ("group", s.mark r "group") ∈ s.entries r := List.mem_cons_self
  have hplain : ("b", s'.qualify r') ∈ s'.entries r' := List.mem_cons_self
  obtain ⟨-, -, -, -, -, -, hentries⟩ := cmp_ordered_monoid
  refine ⟨hs, hmark, hplain, ?_⟩
  exact (hentries s s' r r' hs _ hmark _ hplain).trans (by decide)

end Specificity

end StyleBundle
