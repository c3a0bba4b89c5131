import Mathlib
import StyleBundle.Number.Basic

/-!
# StyleBundle.Proofs.Rounding

Bounds on rounded doubles. Rounding never goes past a power of two (`Double.ofUnitRatio_le`), so a
difference stays within any power of two that bounds it (`Double.sub_le`). A decimal that is read as
a finite double lies below the limit (`Double.ofDecimal_lt`), so a number of percent is far from it
(`Double.percent_le`).
-/

namespace StyleBundle

/-- A quotient is not rounded past a whole number. -/
theorem roundDiv_le {num den bound : Nat} (hden : 0 < den) (h : num ≤ bound * den) :
    roundDiv num den ≤ bound := by
  have hle : num / den ≤ bound := Nat.div_le_of_le_mul (by rwa [Nat.mul_comm])
  rcases Nat.lt_or_eq_of_le hle with hlt | heq
  · unfold roundDiv
    simp only
    repeat' split
    all_goals omega
  · -- the quotient is the bound already, so nothing is left to round up
    have hrest : num % den = 0 := by
      have hdiv := Nat.div_add_mod num den
      rw [heq, Nat.mul_comm den bound] at hdiv
      omega
    unfold roundDiv
    simp only
    rw [hrest, if_pos (by omega)]
    exact hle

theorem bitLength_le {n k : Nat} (h : n ≤ 2 ^ k) : bitLength n ≤ k + 1 := by
  unfold bitLength
  split
  · omega
  · rename_i hn
    have hlog : n.log2 < k + 1 := by
      rw [Nat.log2_lt hn]
      exact Nat.lt_of_le_of_lt h (Nat.pow_lt_pow_right (by omega) (Nat.lt_succ_self k))
    omega

namespace Double

theorem two_pow_lt_limit {k : Nat} (h : k < 2098) : 2 ^ k < limit := by
  unfold limit
  -- nothing depends on the exponent, and the power is better not computed
  generalize 2098 = n at h
  exact Nat.pow_lt_pow_right Nat.one_lt_two h

/-- Up to a power of two that is in range, rounding gives a finite double up to it. -/
theorem ofUnitRatio_le (negative : Bool) {num den k : Nat} (hden : 0 < den)
    (h : num ≤ 2 ^ k * den) (hk : k < 2098) :
    ∃ units ≤ 2 ^ k, ofUnitRatio negative num den = .finite negative units := by
  let spare := bitLength (num / den) - precision
  have hquotient : num / den ≤ 2 ^ k := Nat.div_le_of_le_mul (by rwa [Nat.mul_comm])
  have hspare : spare ≤ k := by
    have hbits : bitLength (num / den) ≤ k + 1 := bitLength_le hquotient
    simp only [spare, precision]
    omega
  have hpow : 2 ^ k = 2 ^ (k - spare) * 2 ^ spare := by
    rw [← Nat.pow_add, Nat.sub_add_cancel hspare]
  have hrounded : roundDiv num (den * 2 ^ spare) ≤ 2 ^ (k - spare) := by
    refine roundDiv_le (Nat.mul_pos hden (Nat.two_pow_pos spare)) ?_
    calc num ≤ 2 ^ k * den := h
      _ = 2 ^ (k - spare) * (den * 2 ^ spare) := by
        rw [hpow, Nat.mul_assoc, Nat.mul_comm (2 ^ spare) den]
  have hunits : roundDiv num (den * 2 ^ spare) * 2 ^ spare ≤ 2 ^ k := by
    rw [hpow]
    exact Nat.mul_le_mul_right _ hrounded
  have hfinite : roundDiv num (den * 2 ^ spare) * 2 ^ spare < limit :=
    Nat.lt_of_le_of_lt hunits (two_pow_lt_limit hk)
  refine ⟨_, hunits, ?_⟩
  simp only [ofUnitRatio, Nat.pow_eq]
  exact if_pos hfinite

/-- A difference is as exact as its size allows: within a power of two it stays there, it is zero
for equal numbers, and it is not negative if the first number is not the smaller one. -/
theorem sub_le {a b : Bool} {x y k : Nat} (h : (signed a x - signed b y).natAbs ≤ 2 ^ k)
    (hk : k < 2098) :
    ∃ negative, ∃ units ≤ 2 ^ k, sub (.finite a x) (.finite b y) = .finite negative units ∧
      (signed a x = signed b y → units = 0) ∧
      (signed b y ≤ signed a x → negative = true → units = 0) := by
  unfold sub
  simp only
  split
  · exact ⟨_, 0, Nat.zero_le _, rfl, fun _ => rfl, fun _ _ => rfl⟩
  · rename_i hne
    have hsize : (signed a x - signed b y).natAbs ≤ 2 ^ k * 1 := by rwa [Nat.mul_one]
    obtain ⟨units, hunits, hfinite⟩ := ofUnitRatio_le (decide (signed a x - signed b y < 0))
      Nat.one_pos hsize hk
    refine ⟨_, units, hunits, hfinite, ?_, ?_⟩
    · intro heq
      omega
    · intro hle hneg
      have := of_decide_eq_true hneg
      omega

theorem sub_finite {a b : Bool} {x y k : Nat} (hx : x ≤ 2 ^ k) (hy : y ≤ 2 ^ k)
    (hk : k + 1 < 2098) :
    ∃ negative units, sub (.finite a x) (.finite b y) = .finite negative units := by
  have hsize : (signed a x - signed b y).natAbs ≤ 2 ^ (k + 1) := by
    rw [Nat.pow_succ]
    generalize 2 ^ k = bound at hx hy ⊢
    unfold signed
    split
    · split <;> omega
    · split <;> omega
  obtain ⟨negative, units, _, hsub, _⟩ := sub_le hsize hk
  exact ⟨negative, units, hsub⟩

/-! ## Decimals and percentages -/

theorem ofUnitRatio_lt {negative sign : Bool} {num den units : Nat}
    (h : ofUnitRatio negative num den = .finite sign units) : units < limit := by
  unfold ofUnitRatio at h
  simp only at h
  split at h
  · rename_i hlt
    cases h
    exact hlt
  · cases h

theorem ofDecimal_lt {negative sign : Bool} {digits units : Nat} {exponent : Int}
    (h : ofDecimal negative digits exponent = .finite sign units) : units < limit := by
  have hzero : 0 < limit := Nat.lt_trans Nat.one_pos (two_pow_lt_limit (k := 0) (by decide))
  unfold ofDecimal at h
  simp only at h
  split at h
  · cases h
    exact hzero
  · split at h
    · cases h
    · split at h
      · cases h
        exact hzero
      · split at h
        · exact ofUnitRatio_lt h
        · exact ofUnitRatio_lt h

theorem limit_le {k : Nat} (h : 2098 ≤ k + 6) : limit ≤ 2 ^ k * 100 := by
  unfold limit
  generalize 2098 = n at h
  calc 2 ^ n ≤ 2 ^ (k + 6) := Nat.pow_le_pow_right (by decide) h
    _ = 2 ^ k * 64 := Nat.pow_add 2 k 6
    _ ≤ 2 ^ k * 100 := Nat.mul_le_mul_left _ (by decide)

theorem percent_le (negative : Bool) {units k : Nat} (h : units < limit) (hlow : 2098 ≤ k + 6)
    (hhigh : k < 2098) :
    ∃ rounded ≤ 2 ^ k, percent (.finite negative units) = .finite negative rounded := by
  have hle : units ≤ 2 ^ k * 100 := Nat.le_trans (Nat.le_of_lt h) (limit_le hlow)
  rw [percent]
  exact ofUnitRatio_le negative (by decide) hle hhigh

theorem one_eq_two_pow : one = 2 ^ 1074 := by
  unfold one
  generalize 1074 = n
  rfl

theorem one_le_two_pow {k : Nat} (h : 1074 ≤ k) : one ≤ 2 ^ k := by
  rw [one_eq_two_pow]
  generalize 1074 = n at h ⊢
  exact Nat.pow_le_pow_right (by decide) h

end Double

end StyleBundle
