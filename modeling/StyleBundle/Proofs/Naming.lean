import Mathlib
import StyleBundle.Text.Name

/-!
# StyleBundle.Proofs.Naming

Property names in the bundle. Making capitals never brings a hyphen to the front of a name, in any
script (`upper_head`), so a name is one of a custom property after it is made native exactly if it
was one before (`isCustom_native`).
-/

namespace StyleBundle

namespace Text

theorem ofNat_ne_hyphen {n : Nat} (h : n ≠ 0x2d) : Char.ofNat n ≠ '-' := by
  intro heq
  unfold Char.ofNat at heq
  split at heq
  · have hcode := congrArg Char.toNat heq
    simp only [Char.ofNatAux, Char.toNat] at hcode
    exact h hcode
  · cases heq

theorem toUpper_ne_hyphen : ∀ n < 0x80, (Char.ofNat n).toUpper = '-' → n = 0x2d := by
  decide +kernel

theorem wideCapitals_head : ∀ e ∈ wideCapitals, ∃ n, e.2.head? = some n ∧ n ≠ 0x2d := by
  have hall : ∀ e ∈ wideCapitals, e.2.head?.any (· != 0x2d) = true := by decide +kernel
  intro e he
  cases hhead : e.2.head? with
  | none => simpa [hhead] using hall e he
  | some n => exact ⟨n, rfl, by simpa [hhead] using hall e he⟩

theorem caseRuns_above : ∀ r ∈ caseRuns, (0x2d : Int) < r.first + r.shift := by
  decide +kernel

/-- The capital form of a character other than a hyphen is there and does not begin with one. -/
theorem upper_head {c : Char} (h : c ≠ '-') : ∃ d, (upper c).head? = some d ∧ d ≠ '-' := by
  have hcode : c.toNat ≠ 0x2d := by
    intro heq
    exact h (Char.toNat_inj.mp heq)
  unfold upper
  simp only
  split
  · rename_i hascii
    refine ⟨c.toUpper, rfl, ?_⟩
    intro heq
    rw [← Char.ofNat_toNat c] at heq
    exact hcode (toUpper_ne_hyphen _ hascii heq)
  · split
    · rename_i ns hns
      obtain ⟨before, after, hsplit, -⟩ := List.lookup_eq_some_iff.mp hns
      have hmem : (c.toNat, ns) ∈ wideCapitals := by simp [hsplit]
      obtain ⟨n, hn, hne⟩ := wideCapitals_head _ hmem
      refine ⟨Char.ofNat n, ?_, ofNat_ne_hyphen hne⟩
      rw [List.head?_map, hn]
      rfl
    · split
      · rename_i r hr
        have habove := caseRuns_above r (List.mem_of_find?_eq_some hr)
        have hcovers := List.find?_some hr
        simp only [CaseRun.covers, Bool.and_eq_true, decide_eq_true_eq] at hcovers
        refine ⟨_, rfl, ofNat_ne_hyphen ?_⟩
        omega
      · exact ⟨c, rfl, h⟩

end Text

namespace Name

theorem camelChars_hyphens {cs : List Char} (h : ['-', '-'].isPrefixOf cs = false) :
    ['-', '-'].isPrefixOf (camelChars cs) = false := by
  cases cs with
  | nil => rfl
  | cons c rest =>
    by_cases hc : c = '-'
    · subst hc
      cases rest with
      | nil => rfl
      | cons d rest =>
        have hd : d ≠ '-' := by
          rintro rfl
          cases h
        rw [camelChars]
        split
        · rename_i hline
          subst hline
          rfl
        · obtain ⟨e, he, hne⟩ := Text.upper_head hd
          cases hupper : Text.upper d with
          | nil => simp [hupper] at he
          | cons e' es =>
            rw [hupper] at he
            cases he
            simp [List.isPrefixOf, Ne.symm hne]
    · rw [camelChars]
      · simp [List.isPrefixOf, Ne.symm hc]
      · intro heq
        simp_all
      · intro d ds heq
        simp_all

/-- A name is that of a custom property in the bundle exactly if it is one in the source. -/
theorem isCustom_native (name : String) : isCustom (native name) = isCustom name := by
  cases h : isCustom name with
  | true => rw [native, if_pos h, h]
  | false =>
    rw [native, if_neg (by simp [h]), isCustom, String.toList_ofList]
    exact camelChars_hyphens h

end Name

end StyleBundle
