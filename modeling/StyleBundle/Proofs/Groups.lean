import StyleBundle.Proofs.Isolation

/-!
# StyleBundle.Proofs.Groups

A rule below a group asks for a container of the group's name, so that container has to be declared
somewhere. It is: whenever such a rule is filed, a mark is filed with it.

* `SheetBlock.mark_of_group`: a block that files a rule for a group files its mark too.
* `extractAll_marks`: in the table of any extraction every group that a rule asks for has a mark of
  the rank of that rule.
* `compile_declares_groups`: the marks outlive the sorting into rule sets. A mark declares a
  container, so it contributes something and is never dropped, and it has the importance of the rule
  that asks for it.
-/

namespace StyleBundle

/-- A rule that declares the container of a group. -/
def StyleRule.Declares (r : StyleRule) (group : String) : Prop :=
  r.container = some { names := .named [group] }

/-- Container rules always come with a condition; only groups ask for a container without one. -/
theorem Context.condition_of_mem {wrappers : List Wrapper} {q : ContainerQuery}
    (h : q ∈ (Context.ofWrappers wrappers).containers) : q.condition ≠ none := by
  obtain ⟨wrapper, _, hq⟩ := List.mem_flatMap.mp h
  cases wrapper with
  | media queries => cases hq
  | container name condition =>
    rw [List.mem_singleton.mp hq]
    exact nofun

/-! ## One block -/

section Block

variable {c : Settings} {order : Nat} {p : SheetBlock} {f : Filed}

theorem Variant.mark_mem_filings {important : Bool} {selector group : String} {r : StyleRule}
    {target : ClassSelector} (h : target.group? = some group) :
    { key := group, rule := target.mark r group, order, important, selector, target,
      isMark := true } ∈ (Variant.className target).filings order important selector r := by
  simp [Variant.filings, h]

/-- What is filed for a group comes with a mark of the group, of the same rank. -/
theorem SheetBlock.mark_of_group (hf : f ∈ p.filings c order) (hmark : f.isMark = false)
    {group : String} (hgroup : f.target.group? = some group) :
    ∃ m ∈ p.filings c order, m.key = group ∧ m.rule.Declares group ∧
      m.rule.specificity = f.rule.specificity := by
  obtain ⟨important, hf⟩ := mem_filings_iff.mp hf
  simp only [filingsOf, List.mem_flatMap, Option.mem_toList] at hf
  obtain ⟨r, hr, selector, hselector, v, hv, hf⟩ := hf
  obtain ⟨rfl, -, -, -, -, hplain⟩ := Variant.mem_filings hf
  let m : Filed :=
    { key := group, rule := f.target.mark r group, order, important, selector, target := f.target,
      isMark := true }
  have hm : m ∈ p.filingsOf c order important := by
    simp only [filingsOf, List.mem_flatMap, Option.mem_toList]
    exact ⟨r, hr, selector, hselector, _, hv, Variant.mark_mem_filings hgroup⟩
  refine ⟨m, mem_filings_iff.mpr ⟨important, hm⟩, rfl, rfl, ?_⟩
  rw [(hplain hmark).2]
  rfl

/-- A condition on a container that has no text of its own is that of the selector's group. -/
theorem SheetBlock.group_of_query (hf : f ∈ p.filings c order) {wrappers : List Wrapper}
    (hcontext : p.context = .ofWrappers wrappers) {q : ContainerQuery}
    (hq : q ∈ f.rule.containerQuery.getD []) (hnone : q.condition = none) :
    f.isMark = false ∧ ∃ group, f.target.group? = some group ∧ q.name = some group := by
  obtain ⟨_, r, hr, hfrom⟩ := mem_filings hf
  obtain ⟨_, _, hcontainers, _⟩ := rule?_eq hr
  cases hmark : f.isMark with
  | true =>
    rw [(hfrom.mark hmark).2] at hq
    cases hq
  | false =>
    refine ⟨rfl, ?_⟩
    rw [(hfrom.plain hmark).2] at hq
    simp only [ClassSelector.qualify, hcontainers, getD_nonempty, hcontext] at hq
    rcases List.mem_append.mp hq with hq | hq
    · exact absurd hnone (Context.condition_of_mem hq)
    · rw [Option.mem_toList, Option.map_eq_some_iff] at hq
      obtain ⟨group, hgroup, rfl⟩ := hq
      exact ⟨group, hgroup, rfl⟩

end Block

/-! ## Whole sheets -/

/-- Every group that a rule of a table asks for has a mark of the rank of that rule. -/
def Marked (t : Table (List StyleRule)) : Prop :=
  ∀ key, ∀ r ∈ t.under key, ∀ q ∈ r.containerQuery.getD [], q.condition = none →
    ∃ group, q.name = some group ∧
      ∃ m ∈ t.under group, m.Declares group ∧ m.specificity = r.specificity

theorem extractAll_marks (c : Settings) (dark : DarkMode) (rules : List Rule) :
    Marked (State.extractAll c {} { darkMode := dark } rules).state.rules := by
  intro key r hr q hq hnone
  rw [extractAll_under] at hr
  obtain ⟨f, hf, rfl⟩ := List.mem_map.mp hr
  obtain ⟨i, p, hp, hfiled⟩ := Sheet.mem_filed_iff.mp (List.mem_filter.mp hf).1
  obtain ⟨wrappers, hcontext⟩ := Sheet.context_of_mem (List.mem_of_getElem? hp)
  obtain ⟨hmark, group, hgroup, hname⟩ := SheetBlock.group_of_query hfiled hcontext hq hnone
  obtain ⟨m, hm, hkey, hdeclares, hrank⟩ := SheetBlock.mark_of_group hfiled hmark hgroup
  refine ⟨group, hname, m.rule, ?_, hdeclares, hrank⟩
  rw [extractAll_under]
  exact List.mem_map_of_mem
    (List.mem_filter.mpr ⟨Sheet.mem_filed_iff.mpr ⟨i, p, hp, hm⟩, decide_eq_true hkey⟩)

/-! ## Rule sets -/

theorem RuleSet.mem_rulesOf_ofTable {t : Table (List StyleRule)} (ht : t.Distinct)
    {important : Bool} {key : String} {r : StyleRule} :
    r ∈ rulesOf important (Table.get? key (ofTable t)) ↔
      ∃ r' ∈ t.under key, r'.isEmpty = false ∧ r'.specificity.isImportant = important ∧
        r = r'.unwarned := by
  rw [rulesOf_ofTable ht]
  simp only [List.mem_map, List.mem_filter, Bool.not_eq_true', beq_iff_eq]
  constructor
  · rintro ⟨r', ⟨⟨hr', himportant⟩, hempty⟩, rfl⟩
    exact ⟨r', hr', hempty, himportant, rfl⟩
  · rintro ⟨r', hr', hempty, himportant, rfl⟩
    exact ⟨r', ⟨⟨hr', himportant⟩, hempty⟩, rfl⟩

/-- A mark in a table is in the rule set of its group, which is there and says that it
declares a container. -/
theorem RuleSet.declared_of_mem {t : Table (List StyleRule)} (ht : t.Distinct) {group : String}
    {m : StyleRule} (hm : m ∈ t.under group) (hdeclares : m.Declares group) :
    ∃ set, Table.get? group (ofTable t) = some set ∧ set.container = true ∧
      m.unwarned ∈ rulesOf m.specificity.isImportant (some set) := by
  have hempty : m.isEmpty = false := by
    rw [← Bool.not_eq_true, StyleRule.isEmpty_iff, show m.container = _ from hdeclares]
    simp
  have hmem : m.unwarned ∈
      rulesOf m.specificity.isImportant (Table.get? group (ofTable t)) :=
    (mem_rulesOf_ofTable ht).mpr ⟨m, hm, hempty, rfl, rfl⟩
  cases hget : Table.get? group (ofTable t) with
  | none =>
    rw [hget] at hmem
    cases hmem
  | some set =>
    rw [hget] at hmem
    have hset : set = ofRules (t.under group) := mem_ofTable ht (Table.mem_of_get? hget)
    have hmarks := (summarises_ofRules (t.under group)).container
    refine ⟨set, rfl, ?_, hmem⟩
    rw [hset]
    exact hmarks.mpr ⟨m, hm, hempty, by simp [show m.container = _ from hdeclares]⟩

/-! ## Bundles -/

theorem Bundle.compile_declares {c : Settings} {dark : DarkMode} {rules : List Rule} {b : Bundle}
    (hb : (compile c { darkMode := dark } rules).result = .ok b) {key : String} {important : Bool}
    {r : StyleRule} (hr : r ∈ RuleSet.rulesOf important (b.ruleSet? key)) {q : ContainerQuery}
    (hq : q ∈ r.containerQuery.getD []) (hnone : q.condition = none) :
    ∃ group set, q.name = some group ∧ b.ruleSet? group = some set ∧ set.container = true ∧
      ∃ m ∈ RuleSet.rulesOf important (some set),
        m.Declares group ∧ m.specificity = r.specificity := by
  obtain rfl := of_compile hb
  have ht := extractAll_distinct c dark rules
  obtain ⟨r', hr', -, rfl, rfl⟩ := (RuleSet.mem_rulesOf_ofTable ht).mp hr
  obtain ⟨group, hname, m, hm, hdeclares, hrank⟩ :=
    extractAll_marks c dark rules key r' hr' q hq hnone
  obtain ⟨set, hset, hcontainer, hmem⟩ := RuleSet.declared_of_mem ht hm hdeclares
  rw [hrank] at hmem
  exact ⟨group, set, hname, hset, hcontainer, m.unwarned, hmem, hdeclares, hrank⟩

/-- Every group that a rule of a bundle asks for is declared, whatever names are groups: there is a
rule set for the group, it is marked as declaring a container, and among its rules of the same
importance there is one that declares the container of the group and has the rank of the rule that
asks for it. -/
theorem compile_declares_groups (c : Settings) (dark : DarkMode) (source : String) (b : Bundle)
    (hb : (Bundle.ofParsed (Bundle.compile c { darkMode := dark }) source).result = .ok b)
    (key : String) (set : RuleSet) (hset : (key, set) ∈ b.rules) (important : Bool) (r : StyleRule)
    (hr : r ∈ RuleSet.rulesOf important (some set)) (q : ContainerQuery)
    (hq : q ∈ r.containerQuery.getD []) (hnone : q.condition = none) :
    ∃ group declaring, q.name = some group ∧ b.ruleSet? group = some declaring ∧
      declaring.container = true ∧
      ∃ m ∈ RuleSet.rulesOf important (some declaring),
        m.container = some { names := .named [group] } ∧ m.specificity = r.specificity := by
  obtain ⟨rules, -, hcompiled⟩ := Bundle.of_ofParsed hb
  have hkey : b.ruleSet? key = some set :=
    Table.get?_of_mem (Bundle.distinct_of_compile hcompiled) hset
  rw [← hkey] at hr
  exact Bundle.compile_declares hcompiled hr hq hnone

/-- An important rule below a group inside a container rule: of its two conditions only the second
is that of a group, and the mark is important as well. -/
theorem compile_declares_groups_hover :
    let c : Settings :=
      { isGroup := (· == "g"), ignores := fun _ => false, classifier := .standard,
        read := Declaration.read }
    let source := "@container c (w)\x7b.g:hover .a\x7bcolor:red!important\x7d\x7d"
    ∃ b set r q, (Bundle.ofParsed (Bundle.compile c {}) source).result = .ok b ∧
      ("a", set) ∈ b.rules ∧ r ∈ RuleSet.rulesOf true (some set) ∧
      r.containerQuery = some [{ name := some "c", condition := some "(w)" }, q] ∧
      q = { name := some "g", pseudoClasses := some { names := ["hover"] } } ∧
      ∃ group declaring, q.name = some group ∧ b.ruleSet? group = some declaring ∧
        declaring.container = true ∧
        ∃ m ∈ RuleSet.rulesOf true (some declaring),
          m.container = some { names := .named [group] } ∧ m.specificity = r.specificity := by
  intro c source
  let q : ContainerQuery := { name := some "g", pseudoClasses := some { names := ["hover"] } }
  let queries : List ContainerQuery := [{ name := some "c", condition := some "(w)" }, q]
  have hqueries : (Bundle.ofParsed (Bundle.compile c {}) source).result.toOption.map
      (fun b => (RuleSet.rulesOf true (b.ruleSet? "a")).map (·.containerQuery)) =
        some [some queries] := by decide +kernel
  obtain ⟨b, hb, hrules⟩ := exists_ok_of_map hqueries
  cases hset : b.ruleSet? "a" with
  | none =>
    rw [hset] at hrules
    cases hrules
  | some set =>
    rw [hset] at hrules
    obtain ⟨r, rest, hr, hquery, -⟩ := List.map_eq_cons_iff.mp hrules
    have hmem : r ∈ RuleSet.rulesOf true (some set) := hr ▸ List.mem_cons_self
    have hq : q ∈ r.containerQuery.getD [] := by rw [hquery]; simp [queries]
    have hkey : ("a", set) ∈ b.rules := Table.mem_of_get? hset
    exact ⟨b, set, r, q, hb, hkey, hmem, hquery, rfl,
      compile_declares_groups c {} source b hb "a" set hkey true r hmem q hq rfl⟩

end StyleBundle
