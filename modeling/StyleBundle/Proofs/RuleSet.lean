import StyleBundle.Proofs.Table
import StyleBundle.Style.RuleSet

/-!
# StyleBundle.Proofs.RuleSet

Rule sets sort the rules of a key and lose nothing.

`Summarises s rs` says what a rule set `s` has to do with the rules `rs` it was made of: the rules
that contribute something stand in two lists by their importance, in their order; the warnings of
all rules stand in one list, also those of rules that contribute nothing; and each indicator is
set exactly if one of the contributing rules asks for it. Adding a rule keeps this
(`Summarises.addRule`), so it holds of every rule set (`summarises_ofRules`).
-/

namespace StyleBundle

section Nonempty

variable {α : Type}

@[simp] theorem nonempty_nil : nonempty ([] : List α) = none := rfl

@[simp] theorem getD_nonempty (xs : List α) : (nonempty xs).getD [] = xs := by
  cases xs <;> rfl

@[simp] theorem isSome_nonempty (xs : List α) : (nonempty xs).isSome = !xs.isEmpty := by
  cases xs <;> rfl

theorem nonempty_append_cons (xs : List α) (y : α) (ys : List α) :
    nonempty (xs ++ y :: ys) = some (xs ++ y :: ys) := by
  cases xs <;> rfl

theorem holds_iff {xs : Option (List α)} : holds xs = true ↔ xs.getD [] ≠ [] := by
  rcases xs with _ | _ | ⟨x, rest⟩ <;> simp [holds]

end Nonempty

/-- A rule contributes nothing if it has no declaration, no custom property, no container, no
animation and no transition. -/
theorem StyleRule.isEmpty_iff {r : StyleRule} :
    r.isEmpty = true ↔ r.declarations = [] ∧ r.customProperties.getD [] = [] ∧
      r.container = none ∧ r.animations.getD [] = [] ∧ r.transition = none := by
  simp only [isEmpty, Bool.and_eq_true, Bool.not_eq_true', ← Bool.not_eq_true, holds_iff, ne_eq,
    not_not, List.isEmpty_iff, Option.isNone_iff_eq_none, and_assoc]

/-- A rule without its warnings. -/
def StyleRule.unwarned (r : StyleRule) : StyleRule := { r with warnings := none }

namespace RuleSet

/-- The rules that contribute something and whose importance is as asked for, without their
warnings. -/
def bucket (wanted : Nat → Bool) (rs : List StyleRule) : List StyleRule :=
  (rs.filter fun r => !r.isEmpty && wanted r.specificity.important).map StyleRule.unwarned

/-- The warnings of some rules, in their order. -/
def allWarnings (rs : List StyleRule) : List Warning := rs.flatMap (·.warnings.getD [])

/-- An indicator is set exactly if a rule that contributes something asks for it. -/
def Indicates (indicator : Bool) (rs : List StyleRule) (asks : StyleRule → Prop) : Prop :=
  indicator = true ↔ ∃ r ∈ rs, r.isEmpty = false ∧ asks r

/-- Whether a rule is for elements in the state that a pseudo-class names. -/
def AsksFor (name : String) (r : StyleRule) : Prop :=
  ∃ names, r.pseudoClasses = some names ∧ name ∈ names.names

/-- A rule set is what some rules come to. -/
structure Summarises (s : RuleSet) (rs : List StyleRule) : Prop where
  normal : s.normal = nonempty (bucket (· == 0) rs)
  important : s.important = nonempty (bucket (0 < ·) rs)
  warnings : s.warnings = nonempty (allWarnings rs)
  customProperties : Indicates s.customProperties rs fun r => r.customProperties.getD [] ≠ []
  container : Indicates s.container rs fun r => r.container.isSome
  animation : Indicates s.animation rs fun r => r.animations.getD [] ≠ [] ∨ r.transition.isSome
  hover : Indicates s.hover rs (AsksFor "hover")
  active : Indicates s.active rs (AsksFor "active")
  focus : Indicates s.focus rs (AsksFor "focus")

/-! ## One more rule -/

theorem bucket_append (wanted : Nat → Bool) (rs rs' : List StyleRule) :
    bucket wanted (rs ++ rs') = bucket wanted rs ++ bucket wanted rs' := by
  simp [bucket]

theorem bucket_empty {wanted : Nat → Bool} {r : StyleRule} (h : r.isEmpty = true) :
    bucket wanted [r] = [] := by
  simp [bucket, h]

theorem bucket_content {wanted : Nat → Bool} {r : StyleRule} (h : r.isEmpty = false) :
    bucket wanted [r] = if wanted r.specificity.important then [r.unwarned] else [] := by
  by_cases hw : wanted r.specificity.important = true
  · simp [bucket, h, hw]
  · simp [bucket, h, hw]

theorem allWarnings_append (rs rs' : List StyleRule) :
    allWarnings (rs ++ rs') = allWarnings rs ++ allWarnings rs' := by
  simp [allWarnings]

theorem hasPseudoClass_iff {r : StyleRule} {name : String} :
    hasPseudoClass r name = true ↔ AsksFor name r := by
  unfold hasPseudoClass AsksFor
  split
  · rename_i names h
    simp [NameSet.contains, h]
  · rename_i h
    simp [h]

theorem Indicates.empty {indicator : Bool} {rs : List StyleRule} {asks : StyleRule → Prop}
    {r : StyleRule} (h : Indicates indicator rs asks) (hr : r.isEmpty = true) :
    Indicates indicator (rs ++ [r]) asks := by
  unfold Indicates at h ⊢
  rw [h]
  simp [or_and_right, exists_or, hr]

theorem Indicates.content {indicator asked : Bool} {rs : List StyleRule} {asks : StyleRule → Prop}
    {r : StyleRule} (h : Indicates indicator rs asks) (hr : r.isEmpty = false)
    (hasked : asked = true ↔ asks r) : Indicates (indicator || asked) (rs ++ [r]) asks := by
  unfold Indicates at h ⊢
  rw [Bool.or_eq_true, h, hasked]
  simp [or_and_right, exists_or, hr]

theorem addWarnings_warnings (s : RuleSet) (r : StyleRule) {ws : List Warning}
    (h : s.warnings = nonempty ws) :
    (s.addWarnings r).warnings = nonempty (ws ++ r.warnings.getD []) := by
  unfold addWarnings
  rcases r.warnings with _ | _ | ⟨w, rest⟩
  · simp [holds, h]
  · simp [holds, h]
  · simp [holds, h, nonempty_append_cons]

/-- Keeping warnings changes nothing else. -/
theorem addWarnings_eq (s : RuleSet) (r : StyleRule) :
    s.addWarnings r = { s with warnings := (s.addWarnings r).warnings } := by
  unfold addWarnings
  split <;> rfl

theorem Summarises.addRule {s : RuleSet} {rs : List StyleRule} (h : Summarises s rs)
    (r : StyleRule) : Summarises (s.addRule r) (rs ++ [r]) := by
  have hw : (s.addWarnings r).warnings = nonempty (allWarnings (rs ++ [r])) := by
    rw [addWarnings_warnings s r h.warnings, allWarnings_append]
    simp [allWarnings]
  unfold RuleSet.addRule
  rw [addWarnings_eq]
  cases hr : r.isEmpty with
  | true =>
    exact {
      normal := by rw [bucket_append, bucket_empty hr, List.append_nil]; exact h.normal
      important := by rw [bucket_append, bucket_empty hr, List.append_nil]; exact h.important
      warnings := hw
      customProperties := h.customProperties.empty hr
      container := h.container.empty hr
      animation := h.animation.empty hr
      hover := h.hover.empty hr
      active := h.active.empty hr
      focus := h.focus.empty hr }
  | false =>
    refine {
      normal := ?_
      important := ?_
      warnings := hw
      customProperties := h.customProperties.content hr holds_iff
      container := h.container.content hr Iff.rfl
      animation := ?_
      hover := h.hover.content hr hasPseudoClass_iff
      active := h.active.content hr hasPseudoClass_iff
      focus := h.focus.content hr hasPseudoClass_iff }
    · rw [bucket_append, bucket_content hr]
      by_cases hi : r.specificity.important = 0
      · simp [addContent, Specificity.isImportant, hi, h.normal, push,
          nonempty_append_cons, StyleRule.unwarned]
      · simp [addContent, Specificity.isImportant, hi, h.normal, Nat.pos_of_ne_zero hi]
    · rw [bucket_append, bucket_content hr]
      by_cases hi : r.specificity.important = 0
      · simp [addContent, Specificity.isImportant, hi, h.important]
      · simp [addContent, Specificity.isImportant, h.important, Nat.pos_of_ne_zero hi,
          push, nonempty_append_cons, StyleRule.unwarned]
    · have hasked : (holds r.animations || r.transition.isSome) = true ↔
          r.animations.getD [] ≠ [] ∨ r.transition.isSome = true := by
        rw [Bool.or_eq_true, holds_iff]
      have := h.animation.content hr hasked
      rwa [← Bool.or_assoc] at this

theorem summarises_nil : Summarises {} [] where
  normal := rfl
  important := rfl
  warnings := rfl
  customProperties := by simp [Indicates]
  container := by simp [Indicates]
  animation := by simp [Indicates]
  hover := by simp [Indicates]
  active := by simp [Indicates]
  focus := by simp [Indicates]

theorem summarises_foldl {s : RuleSet} {before : List StyleRule} (h : Summarises s before)
    (rs : List StyleRule) : Summarises (rs.foldl RuleSet.addRule s) (before ++ rs) := by
  induction rs generalizing s before with
  | nil => simpa using h
  | cons r rest ih => simpa using ih (h.addRule r)

theorem summarises_ofRules (rs : List StyleRule) : Summarises (ofRules rs) rs :=
  summarises_foldl summarises_nil rs

/-- The rules of a rule set are those it was made of, without their warnings. -/
theorem mem_ofRules {rs : List StyleRule} {r : StyleRule}
    (h : r ∈ (ofRules rs).normal.getD [] ++ (ofRules rs).important.getD []) :
    ∃ r' ∈ rs, r = r'.unwarned := by
  have hs := summarises_ofRules rs
  have hbucket {wanted : Nat → Bool} (hr : r ∈ bucket wanted rs) : ∃ r' ∈ rs, r = r'.unwarned := by
    obtain ⟨r', hr', rfl⟩ := List.mem_map.mp hr
    exact ⟨r', (List.mem_filter.mp hr').1, rfl⟩
  rw [hs.normal, hs.important, getD_nonempty, getD_nonempty] at h
  rcases List.mem_append.mp h with h | h
  · exact hbucket h
  · exact hbucket h

/-! ## All keys -/

/-- Whether rules have anything to say: one of them contributes something or has a warning. -/
def relevant (rs : List StyleRule) : Bool := rs.any fun r => !r.isEmpty || holds r.warnings

theorem relevant_iff {rs : List StyleRule} :
    relevant rs = true ↔ ∃ r ∈ rs, r.isEmpty = false ∨ r.warnings.getD [] ≠ [] := by
  simp only [relevant, List.any_eq_true, Bool.or_eq_true, Bool.not_eq_true', holds_iff]

theorem bucket_eq_nil_iff {wanted : Nat → Bool} {rs : List StyleRule} :
    bucket wanted rs = [] ↔
      ∀ r ∈ rs, r.isEmpty = false → wanted r.specificity.important = false := by
  simp [bucket, List.filter_eq_nil_iff]

theorem allWarnings_eq_nil_iff {rs : List StyleRule} :
    allWarnings rs = [] ↔ ∀ r ∈ rs, r.warnings.getD [] = [] := by
  simp [allWarnings, List.flatMap_eq_nil_iff]

/-- A rule set is of use exactly if its rules have anything to say. -/
theorem isUseful_ofRules (rs : List StyleRule) : (ofRules rs).isUseful = relevant rs := by
  have h := summarises_ofRules rs
  rw [Bool.eq_iff_iff, relevant_iff]
  simp only [isUseful, h.normal, h.important, h.warnings, isSome_nonempty, Bool.or_eq_true,
    Bool.not_eq_true', List.isEmpty_eq_false_iff]
  constructor
  · rintro ((hn | hi) | hw)
    · rw [ne_eq, bucket_eq_nil_iff] at hn
      grind
    · rw [ne_eq, bucket_eq_nil_iff] at hi
      grind
    · rw [ne_eq, allWarnings_eq_nil_iff] at hw
      grind
  · rintro ⟨r, hr, hempty | hwarn⟩
    · by_cases h0 : r.specificity.important = 0
      · refine .inl (.inl fun hnil => ?_)
        have := bucket_eq_nil_iff.mp hnil r hr hempty
        simp [h0] at this
      · refine .inl (.inr fun hnil => ?_)
        have := bucket_eq_nil_iff.mp hnil r hr hempty
        simp [Nat.pos_of_ne_zero h0] at this
    · exact .inr fun hnil => hwarn (allWarnings_eq_nil_iff.mp hnil r hr)

/-- The two lists hold every rule that contributes something exactly once. -/
theorem bucket_perm (rs : List StyleRule) :
    (bucket (· == 0) rs ++ bucket (0 < ·) rs).Perm
      ((rs.filter (!·.isEmpty)).map StyleRule.unwarned) := by
  induction rs with
  | nil => exact .refl _
  | cons r rest ih =>
    have hsplit (wanted : Nat → Bool) :
        bucket wanted (r :: rest) = bucket wanted [r] ++ bucket wanted rest :=
      bucket_append wanted [r] rest
    rw [hsplit, hsplit]
    cases hr : r.isEmpty with
    | true => simpa [bucket_empty hr, hr] using ih
    | false =>
      by_cases h0 : r.specificity.important = 0
      · simpa [bucket_content hr, hr, h0] using ih
      · simp only [bucket_content hr, beq_iff_eq, h0, Nat.pos_of_ne_zero h0, if_false, if_true,
          decide_true, List.nil_append, List.singleton_append, hr, Bool.not_false,
          List.filter_cons_of_pos, List.map_cons]
        exact List.perm_middle.trans (ih.cons _)

theorem exists_of_mem_ofTable {t : Table (List StyleRule)} {key : String} {s : RuleSet}
    (h : (key, s) ∈ ofTable t) : ∃ rs, (key, rs) ∈ t ∧ s = ofRules rs := by
  obtain ⟨hmem, -⟩ := List.mem_filter.mp h
  obtain ⟨⟨k, rs⟩, hrs, heq⟩ := List.mem_map.mp hmem
  cases heq
  exact ⟨rs, hrs, rfl⟩

theorem mem_ofTable {t : Table (List StyleRule)} (ht : t.Distinct) {key : String} {s : RuleSet}
    (h : (key, s) ∈ ofTable t) : s = ofRules (t.under key) := by
  obtain ⟨rs, hrs, rfl⟩ := exists_of_mem_ofTable h
  simp [Table.under, Table.get?_of_mem ht hrs]

theorem keys_ofTable {t : Table (List StyleRule)} (ht : t.Distinct) :
    Table.keys (ofTable t) = t.keys.filter fun key => relevant (t.under key) := by
  unfold ofTable Table.keys
  rw [List.filter_map, List.map_map, List.filter_map]
  congr 1
  apply List.filter_congr
  rintro ⟨key, rs⟩ hmem
  simp [isUseful_ofRules, Table.under, Table.get?_of_mem ht hmem]

/-- Rule sets sort the rules of a table and lose nothing. There is one, in the order of the keys,
for every key that has a rule that contributes something or has a warning; and it summarises the
rules of its key, each of which stands in one of its lists exactly once if it contributes
something. -/
theorem ofTable_sorts_rules (t : Table (List StyleRule)) (ht : t.Distinct) :
    Table.keys (ofTable t) = t.keys.filter (fun key => relevant (t.under key)) ∧
    (Table.keys (ofTable t)).Nodup ∧
    (∀ key, key ∈ Table.keys (ofTable t) ↔
      ∃ r ∈ t.under key, r.isEmpty = false ∨ r.warnings.getD [] ≠ []) ∧
    ∀ key s, (key, s) ∈ ofTable t →
      Summarises s (t.under key) ∧
      (s.normal.getD [] ++ s.important.getD []).Perm
        (((t.under key).filter (!·.isEmpty)).map StyleRule.unwarned) := by
  refine ⟨keys_ofTable ht, ?_, ?_, ?_⟩
  · rw [keys_ofTable ht]
    exact ht.filter _
  · intro key
    rw [keys_ofTable ht, List.mem_filter, relevant_iff]
    constructor
    · exact fun h => h.2
    · rintro ⟨r, hr, hsays⟩
      by_cases hkey : key ∈ t.keys
      · exact ⟨hkey, r, hr, hsays⟩
      · simp [Table.under, Table.get?_eq_none_iff.mpr hkey] at hr
  · intro key s hmem
    have hs : Summarises s (t.under key) := mem_ofTable ht hmem ▸ summarises_ofRules _
    refine ⟨hs, ?_⟩
    rw [hs.normal, hs.important, getD_nonempty, getD_nonempty]
    exact bucket_perm _

/-- A key with a normal rule, an important one and one that has nothing but a warning, a key with an
empty rule, and a key with nothing but a warning. -/
theorem ofTable_sorts_three_keys :
    let shown : StyleRule :=
      { specificity := { className := 2, order := 1 },
        customProperties := some [("--size", .int 1)],
        pseudoClasses := some { names := ["hover"] } }
    let urgent : StyleRule :=
      { specificity := { important := 1, className := 1, order := 2 }, container := some {} }
    let warning : Warning := { kind := "property", property := "float" }
    let mute : StyleRule :=
      { specificity := { className := 1, order := 3 }, warnings := some [warning] }
    let t : Table (List StyleRule) :=
      [("a", [shown, mute, urgent]), ("b", [{ specificity := {} }]), ("c", [mute])]
    let a : RuleSet :=
      { normal := some [shown], important := some [urgent], warnings := some [warning],
        customProperties := true, container := true, hover := true }
    let c : RuleSet := { warnings := some [warning] }
    t.Distinct ∧ ofTable t = [("a", a), ("c", c)] ∧ Summarises a [shown, mute, urgent] ∧
      Summarises c [mute] := by
  intro shown urgent warning mute t a c
  have ht : t.Distinct := by decide
  have hsets : ofTable t = [("a", a), ("c", c)] := rfl
  obtain ⟨-, -, -, hsummarises⟩ := ofTable_sorts_rules t ht
  rw [hsets] at hsummarises
  exact ⟨ht, hsets, (hsummarises "a" a (by simp)).1, (hsummarises "c" c (by simp)).1⟩

end RuleSet

end StyleBundle
