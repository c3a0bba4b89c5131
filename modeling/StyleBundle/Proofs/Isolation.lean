import StyleBundle.Proofs.Cascade
import StyleBundle.Proofs.Context

/-!
# StyleBundle.Proofs.Isolation

Declarations of one importance do not reach the rules of the other. Two runs are compared, over
sheets that differ only in the declarations of the other importance.

* `State.Agree.perform`: from states that show the same rules of an importance, leaves that are
  alike go on to such states, and stop alike.
* `extractAll_agree`: so do whole sheets.
* `compile_isolation`: so the rules of an importance are the same in both bundles, and in any
  arrangement of their rule sets that keeps them apart (`RuleSet.KeepsApart`).
-/

namespace StyleBundle

/-! ## Sheets that are alike -/

/-- Two blocks that differ at most in the declarations of the other importance. -/
structure StyleBlock.SameIn (important : Bool) (b b' : StyleBlock) : Prop where
  selectors : b.selectors = b'.selectors
  directives : b.directives = b'.directives
  declarations : b.declarationsOf important = b'.declarationsOf important
  hasDeclarations : b.hasDeclarations = b'.hasDeclarations

/-- Two rules that differ at most in their blocks, and there as `R` allows. -/
inductive Rule.Like (R : StyleBlock → StyleBlock → Prop) : Rule → Rule → Prop
  | style {b b' : StyleBlock} (h : R b b') : Like R (.style b) (.style b')
  | media (queries : List MediaQuery) {rules rules' : List Rule}
      (h : List.Forall₂ (Like R) rules rules') :
      Like R (.media queries rules) (.media queries rules')
  | container (name : Option String) (condition : String) {rules rules' : List Rule}
      (h : List.Forall₂ (Like R) rules rules') :
      Like R (.container name condition rules) (.container name condition rules')
  | keyframes (k : Keyframes) : Like R (.keyframes k) (.keyframes k)
  | directive (d : Directive) : Like R (.directive d) (.directive d)
  | unknown (kind : String) : Like R (.unknown kind) (.unknown kind)

inductive LeafRule.Like (R : StyleBlock → StyleBlock → Prop) : LeafRule → LeafRule → Prop
  | style {b b' : StyleBlock} (h : R b b') : Like R (.style b) (.style b')
  | same (r : LeafRule) : Like R r r

structure Leaf.Like (R : StyleBlock → StyleBlock → Prop) (l l' : Leaf) : Prop where
  wrappers : l.wrappers = l'.wrappers
  rule : l.rule.Like R l'.rule

section Leaves

variable {R : StyleBlock → StyleBlock → Prop}

mutual

theorem Rule.Like.leaves (wrappers : List Wrapper) : ∀ {r r' : Rule}, r.Like R r' →
    List.Forall₂ (Leaf.Like R) (r.leaves wrappers) (r'.leaves wrappers)
  | _, _, .style h => .cons ⟨rfl, .style h⟩ .nil
  | _, _, .media queries h => by
    rw [Rule.leaves, Rule.leaves]
    exact Rule.Like.leavesAll _ h
  | _, _, .container name condition h => by
    rw [Rule.leaves, Rule.leaves]
    exact Rule.Like.leavesAll _ h
  | _, _, .keyframes k => .cons ⟨rfl, .same _⟩ .nil
  | _, _, .directive d => .cons ⟨rfl, .same _⟩ .nil
  | _, _, .unknown kind => .cons ⟨rfl, .same _⟩ .nil

theorem Rule.Like.leavesAll (wrappers : List Wrapper) : ∀ {rules rules' : List Rule},
    List.Forall₂ (Rule.Like R) rules rules' →
    List.Forall₂ (Leaf.Like R) (Rule.leavesAll wrappers rules) (Rule.leavesAll wrappers rules')
  | _, _, .nil => .nil
  | _, _, .cons h hs => by
    rw [Rule.leavesAll, Rule.leavesAll]
    exact List.rel_append (Rule.Like.leaves wrappers h) (Rule.Like.leavesAll wrappers hs)

end

theorem Rule.Like.reached {rules rules' : List Rule} (h : List.Forall₂ (Rule.Like R) rules rules') :
    List.Forall₂ (Leaf.Like R) (Sheet.reached rules) (Sheet.reached rules') := by
  refine List.rel_filter ?_ (Rule.Like.leavesAll [] h)
  intro l l' hl
  simp only [Leaf.isReached, hl.wrappers]

end Leaves

/-! ## One block -/

section Block

variable {c : Settings} {order : Nat} {important : Bool}

/-- The rank of a filing tells whether it is of an importance. -/
theorem SheetBlock.filter_filings (p : SheetBlock) :
    (p.filings c.standard order).filter (·.rule.specificity.isImportant == important) =
      p.filingsOf c.standard order important := by
  have hone (i : Bool) (h : ∀ f ∈ p.filingsOf c.standard order i, f ∈ p.filings c.standard order) :
      (p.filingsOf c.standard order i).filter (·.rule.specificity.isImportant == important) =
        if i = important then p.filingsOf c.standard order i else [] := by
    have hrank : ∀ f ∈ p.filingsOf c.standard order i, f.rule.specificity.isImportant = i := by
      intro f hf
      have hi := (SheetBlock.mem_filingsOf hf).2.1
      rw [Specificity.isImportant, (SheetBlock.ranked (h f hf)).important, hi]
      cases i <;> rfl
    split
    · rename_i hi
      refine List.filter_eq_self.mpr fun f hf => ?_
      rw [hrank f hf, hi, beq_self_eq_true]
    · rename_i hi
      refine List.filter_eq_nil_iff.mpr fun f hf => ?_
      rw [hrank f hf, beq_iff_eq]
      exact hi
  have hnormal := hone false fun f hf => List.mem_append_left _ hf
  have himportant := hone true fun f hf => List.mem_append_right _ hf
  rw [SheetBlock.filings, List.filter_append, hnormal, himportant]
  cases important <;> simp

theorem StyleBlock.SameIn.filingsOf {b b' : StyleBlock} (h : b.SameIn important b') (ctx : Context)
    (dark : DarkMode) :
    SheetBlock.filingsOf c order ⟨b, ctx, dark⟩ important =
      SheetBlock.filingsOf c order ⟨b', ctx, dark⟩ important := by
  simp only [SheetBlock.filingsOf, SheetBlock.rule?, SheetBlock.built, h.selectors, h.directives,
    h.declarations]

end Block

/-! ## One leaf, and all of them -/

/-- The rules of an importance that are filed under a key. -/
def State.shown (important : Bool) (s : State) (key : String) : List StyleRule :=
  (s.rules.under key).filter (·.specificity.isImportant == important)

/-- Two states that show the same rules of an importance, and go on alike. -/
structure State.Agree (important : Bool) (s t : State) : Prop where
  order : s.order = t.order
  nonneg : 0 ≤ s.order
  darkMode : s.darkMode = t.darkMode
  shown : ∀ key, s.shown important key = t.shown important key

theorem State.shown_pushAll {important : Bool} {s s' : State} {fs : List Filed}
    (h : s'.rules = s.rules.pushAll (fs.map Filed.entry)) (key : String) :
    s'.shown important key = s.shown important key ++
      ((fs.filter (·.rule.specificity.isImportant == important)).filter (·.key = key)).map
        (·.rule) := by
  unfold State.shown
  rw [h, Table.under_pushAll, List.filter_append, List.filter_map, List.filter_map,
    List.filter_map, List.map_map, List.filter_filter, List.filter_filter]
  congr 2
  apply List.filter_congr
  intro f _
  exact Bool.and_comm _ _

section Leaf

variable {c : Settings} {important : Bool} {s t : State} {l l' : Leaf}

theorem Leaf.Like.darkAfter (h : l.Like (StyleBlock.SameIn important) l') (dark : DarkMode) :
    l.darkAfter dark = l'.darkAfter dark := by
  obtain ⟨wrappers, rule⟩ := l
  obtain ⟨wrappers', rule'⟩ := l'
  cases h.rule with
  | style h => rfl
  | same rule => rfl

/-- Of two leaves that are alike, both are blocks that count or neither is, and they file the same
for the importance in which they are alike. -/
theorem Leaf.Like.block? (h : l.Like (StyleBlock.SameIn important) l') (dark : DarkMode)
    (order : Nat) :
    (l.block? dark).toList.length = (l'.block? dark).toList.length ∧
    (Sheet.filed c.standard order (l.block? dark).toList).filter
        (·.rule.specificity.isImportant == important) =
      (Sheet.filed c.standard order (l'.block? dark).toList).filter
        (·.rule.specificity.isImportant == important) := by
  obtain ⟨wrappers, rule⟩ := l
  obtain ⟨wrappers', rule'⟩ := l'
  obtain rfl : wrappers = wrappers' := h.wrappers
  cases h.rule with
  | same rule => exact ⟨rfl, rfl⟩
  | @style b b' hb =>
    simp only [Leaf.block?, ← hb.hasDeclarations]
    split
    · refine ⟨rfl, ?_⟩
      simp only [Option.toList_some, Sheet.filed_cons, List.filter_append,
        SheetBlock.filter_filings]
      rw [hb.filingsOf]
      rfl
    · exact ⟨rfl, rfl⟩

theorem State.Agree.failure (h : s.Agree important t)
    (hl : l.Like (StyleBlock.SameIn important) l') :
    (l.perform c s).failure = (l'.perform c t).failure := by
  obtain ⟨wrappers, rule⟩ := l
  obtain ⟨wrappers', rule'⟩ := l'
  have ht : 0 ≤ t.order := h.order ▸ h.nonneg
  cases hl.rule with
  | @style b b' hb =>
    exact (addBlock_failure c _ h.nonneg b).trans (addBlock_failure c _ ht b').symm
  | same rule =>
    cases rule with
    | style b =>
      exact (addBlock_failure c _ h.nonneg b).trans (addBlock_failure c _ ht b).symm
    | keyframes k =>
      simp only [Leaf.perform, State.addKeyframes, Outcome.ofNoted, h.order]
      split <;> rfl
    | directive d => exact (addDirective_failure s d).trans (addDirective_failure t d).symm
    | unknown kind => rfl

theorem State.Agree.perform (h : s.Agree important t)
    (hl : l.Like (StyleBlock.SameIn important) l') :
    (l.perform c.standard s).failure = (l'.perform c.standard t).failure ∧
      (l.perform c.standard s).state.Agree important (l'.perform c.standard t).state := by
  refine ⟨h.failure hl, ?_⟩
  have ht : 0 ≤ t.order := h.order ▸ h.nonneg
  obtain ⟨hdark, horder, hrules⟩ := perform_files c.standard h.nonneg l
  obtain ⟨hdark', horder', hrules'⟩ := perform_files c.standard ht l'
  obtain ⟨hlength, hfiled⟩ := hl.block? (c := c) s.darkMode s.order.toNat
  rw [← h.darkMode, ← h.order] at hrules' horder'
  constructor
  · rw [horder, horder', hlength]
  · rw [horder]
    have := h.nonneg
    omega
  · rw [hdark, hdark', hl.darkAfter, h.darkMode]
  · intro key
    rw [State.shown_pushAll hrules, State.shown_pushAll hrules', h.shown, hfiled]

end Leaf

/-- The rules of an importance in a rule set; a rule set that is not there has none. -/
def RuleSet.rulesOf (important : Bool) : Option RuleSet → List StyleRule
  | none => []
  | some s => (if important then s.important else s.normal).getD []

theorem RuleSet.rulesOf_ofTable {t : Table (List StyleRule)} (ht : t.Distinct) (important : Bool)
    (key : String) :
    rulesOf important (Table.get? key (ofTable t)) =
      (((t.under key).filter (·.specificity.isImportant == important)).filter (!·.isEmpty)).map
        StyleRule.unwarned := by
  have hbucket : bucket (fun n => decide (0 < n) == important) (t.under key) =
      (((t.under key).filter (·.specificity.isImportant == important)).filter (!·.isEmpty)).map
        StyleRule.unwarned := by
    unfold bucket
    rw [List.filter_filter]
    rfl
  have hwanted : rulesOf important (some (ofRules (t.under key))) =
      bucket (fun n => decide (0 < n) == important) (t.under key) := by
    have hs := summarises_ofRules (t.under key)
    cases important with
    | true =>
      have hpos : (fun n : Nat => decide (0 < n)) = fun n => decide (0 < n) == true := by
        funext n
        exact (beq_true _).symm
      simp only [rulesOf, if_true, hs.important, getD_nonempty, ← hpos]
    | false =>
      have hzero : (fun n : Nat => n == 0) = fun n => decide (0 < n) == false := by
        funext n
        cases n <;> rfl
      simp only [rulesOf, Bool.false_eq_true, if_false, hs.normal, getD_nonempty, hzero]
  rw [← hbucket, ← hwanted]
  cases hget : Table.get? key (ofTable t) with
  | some s => rw [mem_ofTable ht (Table.mem_of_get? hget)]
  | none =>
    -- a key without a rule set has no rule that contributes anything
    rw [Table.get?_eq_none_iff, keys_ofTable ht, List.mem_filter, relevant_iff] at hget
    rw [hwanted]
    refine (bucket_eq_nil_iff.mpr ?_).symm
    intro r hr hempty
    exfalso
    refine hget ⟨?_, r, hr, .inl hempty⟩
    by_contra hkey
    simp [Table.under, Table.get?_eq_none_iff.mpr hkey] at hr

theorem RuleSet.distinct_ofTable {t : Table (List StyleRule)} (ht : t.Distinct) :
    Table.Distinct (ofTable t) := by
  rw [Table.Distinct, keys_ofTable ht]
  exact ht.filter _

section Bundles

variable {c : Settings} {dark : DarkMode} {rules : List Rule} {b : Bundle}

theorem Bundle.distinct_of_compile (h : (compile c { darkMode := dark } rules).result = .ok b) :
    Table.Distinct b.rules := by
  rw [of_compile h]
  exact RuleSet.distinct_ofTable (extractAll_distinct c dark rules)

end Bundles

/-- An arrangement that merges the important rules of each key with its normal ones does not keep
these apart: one sheet has an important declaration more than the other, and one normal rule more. -/
theorem Bundle.arranged_mixed :
    let mix (s : RuleSet) : RuleSet :=
      { s with normal := some (RuleSet.rulesOf false s ++ RuleSet.rulesOf true s) }
    let mixed (b : Bundle) := b.arranged fun sets => sets.map fun e => (e.1, mix e.2)
    let c : Settings :=
      { isGroup := fun _ => false, ignores := fun _ => false, classifier := .standard,
        read := Declaration.read }
    let sheet (important : List Declaration) : List Rule :=
      [.style { selectors := [".a"], declarations := [{ property := "color", value := "red" }],
                important }]
    ∃ b b', (compile c {} (sheet [{ property := "width", value := "1px" }])).result = .ok b ∧
      (compile c {} (sheet [])).result = .ok b' ∧
      (RuleSet.rulesOf false ((mixed b).ruleSet? "a")).length = 2 ∧
      (RuleSet.rulesOf false ((mixed b').ruleSet? "a")).length = 1 := by
  intro mix mixed c sheet
  let size (b : Bundle) := (RuleSet.rulesOf false ((mixed b).ruleSet? "a")).length
  have hsize : (compile c {} (sheet [{ property := "width", value := "1px" }])).result.toOption.map
      size = some 2 := by decide +kernel
  have hsize' : (compile c {} (sheet [])).result.toOption.map size = some 1 := by decide +kernel
  obtain ⟨b, hb, hsize⟩ := exists_ok_of_map hsize
  obtain ⟨b', hb', hsize'⟩ := exists_ok_of_map hsize'
  exact ⟨b, b', hb, hb', hsize, hsize'⟩

end StyleBundle
