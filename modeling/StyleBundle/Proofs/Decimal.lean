import StyleBundle.Number.Basic
import StyleBundle.Proofs.Rounding
import StyleBundle.Token.Read

/-!
# StyleBundle.Proofs.Decimal

The decimal texts of numbers, as parts of a numeral. A strict numeral has no plus sign before it, no
zero before its other digits, and digits on both sides of its point.

* `strict_toString`: the text of an integer is strict and is read as that integer.
* `Double.strict_text`: the text of a finite double is strict and is not read as an integer. The
  shortest decimal of a positive number has a digit that is not zero (`Double.shortest_pos`).
-/

namespace StyleBundle

/-- One or more decimal digits. -/
structure Digits (cs : List Char) : Prop where
  ne_nil : cs ≠ []
  digit : ∀ c ∈ cs, c.isDigit = true

/-- The digits of a whole number: no zero stands before other digits. -/
structure WholeDigits (cs : List Char) : Prop extends Digits cs where
  zero : cs.head? = some '0' → cs = ['0']

/-- Digits that do not begin with a zero. -/
structure SignificantDigits (cs : List Char) : Prop extends Digits cs where
  head : cs.head? ≠ some '0'

variable {cs ds : List Char}

theorem forall_mem_zeros (n : Nat) : ∀ c ∈ List.replicate n '0', c.isDigit = true := by
  intro c hc
  rw [List.eq_of_mem_replicate hc]
  rfl

theorem wholeDigits_zero : WholeDigits ['0'] where
  ne_nil := List.cons_ne_nil _ _
  digit := List.forall_mem_singleton.mpr rfl
  zero _ := rfl

namespace SignificantDigits

theorem whole (h : SignificantDigits cs) : WholeDigits cs where
  toDigits := h.toDigits
  zero hzero := absurd hzero h.head

theorem append (h : SignificantDigits cs) (hds : ∀ c ∈ ds, c.isDigit = true) :
    SignificantDigits (cs ++ ds) where
  ne_nil := List.append_ne_nil_of_left_ne_nil h.ne_nil ds
  digit := List.forall_mem_append.mpr ⟨h.digit, hds⟩
  head := by
    cases cs with
    | nil => exact absurd rfl h.ne_nil
    | cons c rest => exact h.head

theorem take (h : SignificantDigits cs) (n : Nat) : SignificantDigits (cs.take (n + 1)) where
  ne_nil := by simp [h.ne_nil]
  digit c hc := h.digit c (List.mem_of_mem_take hc)
  head := by
    rw [List.head?_take]
    exact h.head

end SignificantDigits

theorem toDigits_digits (n : Nat) : Digits (Nat.toDigits 10 n) where
  ne_nil := Nat.toDigits_ne_nil
  digit _ hc := Nat.isDigit_of_mem_toDigits (by decide) (by decide) hc

theorem toDigits_significant {n : Nat} (h : 0 < n) : SignificantDigits (Nat.toDigits 10 n) := by
  induction n using Nat.strongRecOn with
  | ind n ih =>
    by_cases hn : n < 10
    · refine ⟨toDigits_digits n, ?_⟩
      rw [Nat.toDigits_of_lt_base hn]
      intro hhead
      have hzero : n = 0 := Nat.digitChar_eq_zero.mp (Option.some.inj hhead)
      omega
    · have hlast : (n % 10).digitChar.isDigit = true := by
        rw [Nat.isDigit_digitChar]
        exact decide_eq_true (Nat.mod_lt n (by decide))
      rw [Nat.toDigits_of_base_le (by decide) (Nat.le_of_not_lt hn)]
      exact (ih (n / 10) (by omega) (by omega)).append (List.forall_mem_singleton.mpr hlast)

theorem toDigits_whole (n : Nat) : WholeDigits (Nat.toDigits 10 n) := by
  rcases Nat.eq_zero_or_pos n with rfl | hpos
  · exact wholeDigits_zero
  · exact (toDigits_significant hpos).whole

namespace Read.NumeralParts

/-- A numeral in its strict form. -/
structure IsStrict (p : NumeralParts) : Prop where
  sign : p.sign = [] ∨ p.sign = ['-']
  whole : WholeDigits p.whole
  fraction : ∀ ds, p.fraction = some ds → Digits ds
  exponent : ∀ letter sign ds, p.exponent = some (letter, sign, ds) →
    (letter = 'e' ∨ letter = 'E') ∧ (sign = [] ∨ sign = ['+'] ∨ sign = ['-']) ∧ Digits ds

/-- A strict numeral without a sign that has a fraction or an exponent. -/
structure IsMagnitude (p : NumeralParts) : Prop extends IsStrict p where
  unsigned : p.sign = []
  inexact : (p.fraction.isNone && p.exponent.isNone) = false

theorem IsMagnitude.integer {p : NumeralParts} (h : p.IsMagnitude) : p.numeral.integer = none := by
  rw [numeral, h.inexact]
  rfl

theorem isMagnitude_fraction {whole fraction : List Char} (hwhole : WholeDigits whole)
    (hfraction : Digits fraction) : IsMagnitude ⟨[], whole, some fraction, none⟩ where
  sign := .inl rfl
  whole := hwhole
  fraction := by
    rintro _ ⟨⟩
    exact hfraction
  exponent := nofun
  unsigned := rfl
  inexact := rfl

theorem isMagnitude_exponent {whole : List Char} (hwhole : WholeDigits whole)
    (fraction : Option (List Char)) (hfraction : ∀ cs, fraction = some cs → Digits cs)
    {sign : Char} (hsign : sign = '+' ∨ sign = '-') {ds : List Char} (hds : Digits ds) :
    IsMagnitude ⟨[], whole, fraction, some ('e', [sign], ds)⟩ where
  sign := .inl rfl
  whole := hwhole
  fraction := hfraction
  exponent := by
    rintro _ _ _ ⟨⟩
    refine ⟨.inl rfl, .inr ?_, hds⟩
    rcases hsign with rfl | rfl
    · exact .inl rfl
    · exact .inr rfl
  unsigned := rfl
  inexact := by simp

end Read.NumeralParts

open Read

/-! ## Integers -/

/-- The parts of the text of an integer. -/
def intParts (n : Int) : NumeralParts where
  sign := if n < 0 then ['-'] else []
  whole := Nat.toDigits 10 n.natAbs
  fraction := none
  exponent := none

theorem intParts_strict (n : Int) : (intParts n).IsStrict := by
  refine ⟨?_, toDigits_whole _, nofun, nofun⟩
  unfold intParts
  split
  · exact .inr rfl
  · exact .inl rfl

theorem integer_intParts (n : Int) : (intParts n).numeral.integer = some n := by
  have hvalue : decimalValue (Nat.toDigits 10 n.natAbs) = n.natAbs :=
    Nat.ofDigitChars_toDigits (by decide) (by decide)
  unfold NumeralParts.numeral NumeralParts.isNegative intParts
  simp only [Option.isNone_none, Bool.and_self, if_true, hvalue, Option.some.injEq]
  split
  · simp only [beq_self_eq_true, if_true]
    omega
  · simp only [show (([] : List Char) == ['-']) = false from rfl, Bool.false_eq_true, if_false]
    omega

theorem source_intParts (n : Int) : (toString n).toList = (intParts n).source := by
  have hsource : (intParts n).source = (intParts n).sign ++ (intParts n).whole := by
    simp [NumeralParts.source, intParts]
  rw [hsource, Int.toString_eq_repr, Int.repr_eq_if]
  unfold intParts
  split
  · rw [if_neg (by omega), Nat.toList_repr, show n.toNat = n.natAbs by omega]
    rfl
  · rw [if_pos (by omega), String.toList_append, Nat.toList_repr,
      show (-n).toNat = n.natAbs by omega]
    rfl

/-- The text of an integer is strict, and it is read as that integer. -/
theorem strict_toString (n : Int) :
    ∃ p : NumeralParts, p.IsStrict ∧ p.numeral.integer = some n ∧
      (toString n).toList = p.source :=
  ⟨intParts n, intParts_strict n, integer_intParts n, source_intParts n⟩

namespace Double

/-! ## The shortest decimal -/

theorem readsBack_pos {units digits : Nat} {place : Int} (hunits : 0 < units)
    (h : readsBack units digits place = true) : 0 < digits := by
  rcases Nat.eq_zero_or_pos digits with rfl | hpos
  · -- zero digits are read as zero
    have hzero : (finite false 0 : Double) = .finite false units := of_decide_eq_true h
    cases hzero
    omega
  · exact hpos

theorem le_roundDiv {num den : Nat} : num / den ≤ roundDiv num den := by
  unfold roundDiv
  simp only
  repeat' split
  all_goals omega

theorem one_pos : 0 < one := by
  rw [one_eq_two_pow]
  generalize 1074 = n
  exact Nat.two_pow_pos n

theorem step_onGrid (units : Nat) (place : Int) : 0 < (onGrid units place).2.2 := by
  have hone := one_pos
  unfold onGrid
  generalize one = unit at hone ⊢
  split
  · exact Nat.mul_pos hone (Nat.pow_pos (by decide))
  · exact hone

theorem gridHit_pos {units : Nat} {place : Int} {hit : Nat × Int} (hunits : 0 < units)
    (h : gridHit units place = some hit) : 0 < hit.1 := by
  have hstep := step_onGrid units place
  unfold gridHit at h
  cases hgrid : onGrid units place with
  | mk q rest =>
  obtain ⟨r, step⟩ := rest
  rw [hgrid] at h hstep
  simp only at h hstep
  split at h
  · rename_i hq _
    cases h
    have hle : q ≤ (q * step + r) / step := by
      rw [Nat.le_div_iff_mul_le hstep]
      exact Nat.le_add_right _ _
    exact Nat.lt_of_lt_of_le (readsBack_pos hunits hq) (Nat.le_trans hle le_roundDiv)
  · rename_i hq _
    cases h
    exact readsBack_pos hunits hq
  · cases h
    exact Nat.succ_pos _
  · cases h

-- The powers in the next lemmas are large: they stand as in the definitions and are never computed.

theorem one_le_ten_pow {n : Nat} (h : 1074 ≤ 3 * n) : one ≤ Nat.pow 10 n := by
  unfold one
  generalize 1074 = m at h
  calc 2 ^ m ≤ 2 ^ (3 * n) := Nat.pow_le_pow_right (by decide) h
    _ = (2 ^ 3) ^ n := Nat.pow_mul 2 3 n
    _ ≤ 10 ^ n := Nat.pow_le_pow_left (by decide) n

theorem ten_pow_le_of_digitCount {n k : Nat} (h : 0 < n) (hk : digitCount n = k + 1) :
    10 ^ k ≤ n := by
  rcases Nat.eq_zero_or_pos k with rfl | hpos
  · exact h
  · refine Nat.le_of_not_lt fun hlt => ?_
    have hle : digitCount n ≤ k := (Nat.length_toDigits_le_iff (by decide) hpos).mpr hlt
    omega

theorem ten_pow_le_scaled {unit units shift : Nat} (hunit : 0 < unit) (hshift : unit ≤ shift)
    (h : 0 < units) :
    ∃ n, digitCount (units * shift / unit) = n + 1 ∧ unit * 10 ^ n ≤ units * shift := by
  have hscaled : 0 < units * shift / unit :=
    Nat.div_pos (Nat.le_trans hshift (Nat.le_mul_of_pos_left _ h)) hunit
  have hcount : 0 < digitCount (units * shift / unit) := Nat.length_toDigits_pos
  obtain ⟨n, hn⟩ := Nat.exists_eq_succ_of_ne_zero (Nat.ne_of_gt hcount)
  refine ⟨n, hn, ?_⟩
  calc unit * 10 ^ n ≤ unit * (units * shift / unit) :=
        Nat.mul_le_mul_left _ (ten_pow_le_of_digitCount hscaled hn)
    _ ≤ units * shift := Nat.mul_div_le _ _

/-- A positive number is not smaller than the place of its leading digit. -/
theorem leadingPlace_le {units : Nat} (h : 0 < units) :
    ∃ n : Nat, leadingPlace units = n - 400 ∧ one * 10 ^ n ≤ units * Nat.pow 10 400 := by
  obtain ⟨n, hcount, hle⟩ := ten_pow_le_scaled one_pos (one_le_ten_pow (n := 400) (by decide)) h
  refine ⟨n, ?_, hle⟩
  rw [leadingPlace, hcount]
  omega

theorem le_of_ten_pow_le {unit units n k m : Nat} (hle : unit * 10 ^ n ≤ units * Nat.pow 10 k)
    (h : m + k ≤ n) : unit * Nat.pow 10 m ≤ units := by
  refine Nat.le_of_mul_le_mul_right (Nat.le_trans ?_ hle) (Nat.pow_pos (by decide))
  rw [Nat.mul_assoc]
  refine Nat.mul_le_mul_left unit ?_
  calc 10 ^ m * 10 ^ k = 10 ^ (m + k) := (Nat.pow_add 10 m k).symm
    _ ≤ 10 ^ n := Nat.pow_le_pow_right (by decide) h

theorem le_mul_ten_pow {unit units n k m : Nat} (hle : unit * 10 ^ n ≤ units * Nat.pow 10 k)
    (h : k ≤ m + n) : unit ≤ units * Nat.pow 10 m := by
  refine Nat.le_of_mul_le_mul_right (Nat.le_trans hle ?_) (Nat.pow_pos (by decide) : 0 < 10 ^ n)
  rw [Nat.mul_assoc]
  refine Nat.mul_le_mul_left units ?_
  calc 10 ^ k ≤ 10 ^ (m + n) := Nat.pow_le_pow_right (by decide) h
    _ = 10 ^ m * 10 ^ n := Nat.pow_add 10 m n

/-- Sixteen places below its leading digit a number still has whole steps. -/
theorem onGrid_pos {units : Nat} (h : 0 < units) :
    0 < (onGrid units (leadingPlace units - 16)).1 := by
  obtain ⟨n, hlead, hle⟩ := leadingPlace_le h
  have hone := one_pos
  rw [hlead]
  unfold onGrid
  generalize one = unit at hle hone ⊢
  split
  · have hstep : 0 < unit * Nat.pow 10 ((n : Int) - 400 - 16).toNat :=
      Nat.mul_pos hone (Nat.pow_pos (by decide))
    exact Nat.div_pos (le_of_ten_pow_le hle (by omega)) hstep
  · exact Nat.div_pos (le_mul_ten_pow hle (by omega)) hone

theorem getD_pos {o : Option (Nat × Int)} {last : Nat} (place : Int) (hlast : 0 < last)
    (h : ∀ hit, o = some hit → 0 < hit.1) : 0 < (o.getD (last, place)).1 := by
  cases o with
  | none => exact hlast
  | some hit => exact h hit rfl

/-- The shortest decimal of a positive number is not zero. -/
theorem shortest_pos {units : Nat} (h : 0 < units) : 0 < (shortest units).1 := by
  refine getD_pos (leadingPlace units - 16) (onGrid_pos h) ?_
  intro hit hhit
  obtain ⟨n, _, hn⟩ := List.exists_of_findSome?_eq_some hhit
  exact gridHit_pos h hn

/-! ## The text of a double -/

theorem trimZeros_cons {c : Char} (hc : c ≠ '0') (rest : List Char) :
    trimZeros (c :: rest) = c :: trimZeros rest := by
  have hkeep : [c].dropWhile (· == '0') = [c] := by simp [hc]
  unfold trimZeros
  rw [List.reverse_cons, List.dropWhile_append]
  split
  · rename_i hnil
    rw [hkeep, List.isEmpty_iff.mp hnil]
    rfl
  · rw [List.reverse_append]
    rfl

theorem mem_of_mem_trimZeros {c : Char} (h : c ∈ trimZeros cs) : c ∈ cs := by
  have hdrop := List.mem_reverse.mp h
  exact List.mem_reverse.mp ((List.dropWhile_sublist _).subset hdrop)

theorem trimZeros_significant (h : SignificantDigits cs) :
    SignificantDigits (trimZeros cs) := by
  cases cs with
  | nil => exact absurd rfl h.ne_nil
  | cons c rest =>
    have hc : c ≠ '0' := fun hzero => h.head (congrArg some hzero)
    refine ⟨⟨?_, fun d hd => h.digit d (mem_of_mem_trimZeros hd)⟩, ?_⟩
    · rw [trimZeros_cons hc]
      exact List.cons_ne_nil _ _
    · rw [trimZeros_cons hc]
      exact h.head

/-- The parts of an exponent. -/
theorem exponentText_eq (e : Int) :
    ∃ sign ds, exponentText e = sign :: ds ∧ (sign = '+' ∨ sign = '-') ∧ Digits ds := by
  have hdigits := toDigits_digits e.natAbs
  refine ⟨_, _, rfl, ?_, ?_⟩
  · split
    · exact .inr rfl
    · exact .inl rfl
  · split
    · exact ⟨List.cons_ne_nil _ _, List.forall_mem_cons.mpr ⟨rfl, hdigits.digit⟩⟩
    · exact hdigits

theorem layOut_magnitude (h : SignificantDigits ds) (lead : Int) :
    ∃ p : NumeralParts, p.IsMagnitude ∧ p.source = layOut ds lead := by
  unfold layOut
  split
  · split
    · -- the leading digit stands behind the point
      have hfraction : Digits (List.replicate (-lead - 1).toNat '0' ++ ds) :=
        ⟨List.append_ne_nil_of_right_ne_nil _ h.ne_nil,
          List.forall_mem_append.mpr ⟨forall_mem_zeros _, h.digit⟩⟩
      refine ⟨_, NumeralParts.isMagnitude_fraction wholeDigits_zero hfraction, ?_⟩
      simp [NumeralParts.source]
    · simp only
      split
      · have hwhole := h.append (forall_mem_zeros (lead.toNat + 1 - ds.length))
        refine ⟨_, NumeralParts.isMagnitude_fraction hwhole.whole wholeDigits_zero.toDigits, ?_⟩
        simp [NumeralParts.source]
      · rename_i hlength
        have hfraction : Digits (ds.drop (lead.toNat + 1)) := by
          refine ⟨?_, fun c hc => h.digit c (List.mem_of_mem_drop hc)⟩
          rw [ne_eq, List.drop_eq_nil_iff]
          exact hlength
        refine ⟨_, NumeralParts.isMagnitude_fraction (h.take lead.toNat).whole hfraction, ?_⟩
        simp [NumeralParts.source]
  · obtain ⟨sign, es, hexponent, hsign, hes⟩ := exponentText_eq lead
    have hwhole : WholeDigits (ds.take 1) := (h.take 0).whole
    simp only [hexponent]
    by_cases hone : (ds.drop 1).isEmpty = true
    · refine ⟨_, NumeralParts.isMagnitude_exponent hwhole none nofun hsign hes, ?_⟩
      rw [if_pos hone]
      simp [NumeralParts.source]
    · have hfraction : Digits (ds.drop 1) := by
        refine ⟨?_, fun c hc => h.digit c (List.mem_of_mem_drop hc)⟩
        intro hnil
        exact hone (List.isEmpty_iff.mpr hnil)
      refine ⟨_, NumeralParts.isMagnitude_exponent hwhole (some (ds.drop 1)) ?_ hsign hes, ?_⟩
      · rintro _ ⟨⟩
        exact hfraction
      · rw [if_neg hone]
        simp [NumeralParts.source]

theorem magnitudeText_eq (units : Nat) :
    ∃ p : NumeralParts, p.IsMagnitude ∧ p.source = magnitudeText units := by
  unfold magnitudeText
  split
  · exact ⟨_, NumeralParts.isMagnitude_fraction wholeDigits_zero wholeDigits_zero.toDigits, rfl⟩
  · rename_i hunits
    have hpos := shortest_pos (Nat.pos_of_ne_zero hunits)
    generalize shortest units = decimal at hpos ⊢
    obtain ⟨digits, place⟩ := decimal
    exact layOut_magnitude (trimZeros_significant (toDigits_significant hpos)) _

/-- The text of a finite double is strict, and it is not read as an integer. -/
theorem strict_text (negative : Bool) (units : Nat) :
    ∃ p : NumeralParts, p.IsStrict ∧ p.numeral.integer = none ∧
      (text (.finite negative units)).toList = p.source := by
  obtain ⟨p, hp, hsource⟩ := magnitudeText_eq units
  cases negative with
  | false => exact ⟨p, hp.toIsStrict, hp.integer, by rw [hsource, text]; simp⟩
  | true =>
    refine ⟨{ p with sign := ['-'] }, { hp.toIsStrict with sign := .inr rfl }, ?_, ?_⟩
    · rw [NumeralParts.numeral, hp.inexact]
      rfl
    · have hsigned : NumeralParts.source { p with sign := ['-'] } = '-' :: p.source := by
        simp [NumeralParts.source, hp.unsigned]
      rw [hsigned, hsource, text]
      simp

end Double

end StyleBundle
