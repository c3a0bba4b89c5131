import StyleBundle.Proofs.Compilation
import StyleBundle.Proofs.Selector

/-!
# StyleBundle.Proofs.Context

The conditions that rules are filed with. A rule has the media queries that can apply and the
container conditions of the wrappers around its block, the outermost first, and after them those
that its own selector asks for.

* `SheetBlock.conditions`: the conditions of what a block files.
* `SheetBlock.routed`: a block files a rule for every class that it selects and every importance
  that it has declarations of, and nothing else.
* `Bundle.compile_applicable`: no rule of a bundle has a media query that cannot apply.
* `extractAll_context`: nested rules are extracted as the flat list of their leaves, each in the
  context of its wrappers, and all that is filed has the conditions of that context.
-/

namespace StyleBundle

theorem Leaf.isReached_iff {l : Leaf} :
    l.isReached = true ↔
      ∀ queries, .media queries ∈ l.wrappers → ∃ q ∈ queries, q.isApplicable = true := by
  unfold Leaf.isReached
  rw [List.all_eq_true]
  constructor
  · intro h queries hmem
    exact List.any_eq_true.mp (h (.media queries) hmem)
  · intro h wrapper hmem
    cases wrapper with
    | media queries => exact List.any_eq_true.mpr (h queries hmem)
    | container name condition => rfl

/-- The block with declarations that a leaf is, with the context that its wrappers make. -/
def Leaf.styled? (l : Leaf) : Option (StyleBlock × Context) :=
  match l.rule with
  | .style b =>
    if b.declarations = [] ∧ b.important = [] then none else some (b, .ofWrappers l.wrappers)
  | _ => none

theorem Leaf.styled?_context {l : Leaf} {b : StyleBlock} {ctx : Context}
    (h : l.styled? = some (b, ctx)) : ctx = .ofWrappers l.wrappers := by
  unfold styled? at h
  split at h
  · split at h
    · cases h
    · cases h
      rfl
  · cases h

theorem StyleBlock.hasDeclarations_iff {b : StyleBlock} :
    b.hasDeclarations = true ↔ ¬ (b.declarations = [] ∧ b.important = []) := by
  simp [hasDeclarations, imp_iff_not_or]

/-- The blocks of a sheet are those of the leaves, in their order and their context. -/
theorem Sheet.blocks_styled (dark : DarkMode) (ls : List Leaf) :
    (Sheet.blocks dark ls).map (fun p => (p.block, p.context)) = ls.filterMap Leaf.styled? := by
  have hone (dark : DarkMode) (l : Leaf) :
      (l.block? dark).map (fun p => (p.block, p.context)) = l.styled? := by
    obtain ⟨wrappers, rule⟩ := l
    cases rule with
    | style b =>
      simp only [Leaf.block?, Leaf.styled?, StyleBlock.hasDeclarations_iff, ite_not]
      split <;> rfl
    | keyframes k => rfl
    | directive d => rfl
    | unknown kind => rfl
  induction ls generalizing dark with
  | nil => rfl
  | cons l rest ih =>
    rw [Sheet.blocks, List.map_append, ih, List.filterMap_cons, ← hone dark l]
    cases l.block? dark <;> rfl

theorem Sheet.context_of_mem {dark : DarkMode} {ls : List Leaf} {p : SheetBlock}
    (h : p ∈ Sheet.blocks dark ls) : ∃ wrappers, p.context = .ofWrappers wrappers := by
  have hmem : (p.block, p.context) ∈ ls.filterMap Leaf.styled? := by
    rw [← Sheet.blocks_styled dark]
    exact List.mem_map_of_mem h
  obtain ⟨l, _, hl⟩ := List.mem_filterMap.mp hmem
  exact ⟨l.wrappers, Leaf.styled?_context hl⟩

section Conditions

variable {c : Settings} {p : SheetBlock} {order : Nat} {f : Filed}

/-- What is filed has the conditions of the context and then those of the selector; a mark has
none. -/
theorem SheetBlock.conditions (h : f ∈ p.filings c.standard order) :
    f.rule.media = (if f.isMark then none
      else nonempty (p.context.media ++ Selector.darkPart p.darkMode f.selector)) ∧
    f.rule.containerQuery = (if f.isMark then none
      else nonempty (p.context.containers ++
        Selector.groupPart c.isGroup p.darkMode f.selector)) := by
  obtain ⟨_, r, hr, hfrom⟩ := mem_filings h
  obtain ⟨_, hmedia, hcontainers, _⟩ := rule?_eq hr
  obtain ⟨hdark, hgroup, _⟩ := Selector.classify_parts hfrom.target
  cases hmark : f.isMark with
  | true =>
    rw [(hfrom.mark hmark).2]
    exact ⟨rfl, rfl⟩
  | false =>
    rw [(hfrom.plain hmark).2]
    simp only [ClassSelector.qualify, hmedia, hcontainers, hdark, hgroup, getD_nonempty]
    exact ⟨rfl, rfl⟩

/-- What a block files, under the standard classifier: for each importance that it has declarations
of, and each class that a selector of it selects in its context, the rule that these declarations
make; and nothing without such declarations. All but marks have the conditions of the context and
then those of the selector. -/
structure SheetBlock.Routed (c : Settings) (p : SheetBlock) (fs : List Filed) : Prop where
  complete : ∀ important, p.block.declarationsOf important ≠ [] → ∀ selector ∈ p.block.selectors,
    ∀ target, .className target ∈
      Classifier.standard c.isGroup p.darkMode p.context.media selector →
    ∃ f ∈ fs, f.isMark = false ∧ f.important = important ∧ f.selector = selector ∧
      f.key = target.className ∧
      f.rule.body = (buildRule (c.buildContext (.ofDirectives p.block.directives)) c.read {}
        (p.block.declarationsOf important)).rule.body
  declared : ∀ f ∈ fs, p.block.declarationsOf f.important ≠ []
  selector : ∀ f ∈ fs, f.selector ∈ p.block.selectors
  media : ∀ f ∈ fs, f.rule.media = if f.isMark then none
    else nonempty (p.context.media ++ Selector.darkPart p.darkMode f.selector)
  containerQuery : ∀ f ∈ fs, f.rule.containerQuery = if f.isMark then none
    else nonempty (p.context.containers ++ Selector.groupPart c.isGroup p.darkMode f.selector)

theorem SheetBlock.exists_filing (c : Settings) (order : Nat) {important : Bool}
    (h : p.block.declarationsOf important ≠ [])
    {selector : String} (hselector : selector ∈ p.block.selectors) {target : ClassSelector}
    (htarget : .className target ∈ c.classify p.darkMode p.context.media selector) :
    ∃ f ∈ p.filings c order, f.isMark = false ∧ f.important = important ∧ f.selector = selector ∧
      f.key = target.className ∧ f.rule = target.qualify (p.built c order important) := by
  have hr : p.rule? c order important = some (p.built c order important) := rule?_of_ne_nil h
  have hmedia : (p.built c order important).media.getD [] = p.context.media := by
    rw [(rule?_eq hr).2.1, getD_nonempty]
  rw [← hmedia] at htarget
  let f : Filed :=
    { key := target.className, rule := target.qualify (p.built c order important), order, important,
      selector, target, isMark := false }
  refine ⟨f, mem_filings_iff.mpr ⟨important, ?_⟩, rfl, rfl, rfl, rfl, rfl⟩
  simp only [filingsOf, hr, List.mem_flatMap, Option.mem_toList, Option.some.injEq]
  exact ⟨_, rfl, selector, hselector, _, htarget,
    List.mem_append_right _ (List.mem_singleton.mpr rfl)⟩

theorem SheetBlock.routed (c : Settings) (order : Nat) (p : SheetBlock) :
    p.Routed c (p.filings c.standard order) where
  complete important h selector hselector target htarget := by
    obtain ⟨f, hf, hmark, himportant, hfrom, hkey, hrule⟩ :=
      exists_filing c.standard order h hselector htarget
    have hr : p.rule? c.standard order important = some (p.built c.standard order important) :=
      rule?_of_ne_nil h
    refine ⟨f, hf, hmark, himportant, hfrom, hkey, ?_⟩
    rw [hrule]
    exact (rule?_eq hr).2.2.2
  declared f hf := by
    obtain ⟨_, r, hr, _⟩ := mem_filings hf
    exact (rule?_eq_some_iff.mp hr).1
  selector f hf := by
    obtain ⟨_, r, _, hfrom⟩ := mem_filings hf
    exact hfrom.selector
  media f hf := (conditions hf).1
  containerQuery f hf := (conditions hf).2

theorem Context.applicable_of_mem {wrappers : List Wrapper} {q : MediaQuery}
    (h : q ∈ (Context.ofWrappers wrappers).media) : q.isApplicable = true := by
  obtain ⟨wrapper, _, hq⟩ := List.mem_flatMap.mp h
  cases wrapper with
  | media queries => exact (List.mem_filter.mp hq).2
  | container name condition => cases hq

theorem Selector.applicable_of_mem_darkPart {dark : DarkMode} {selector : String} {q : MediaQuery}
    (h : q ∈ darkPart dark selector) : q.isApplicable = true := by
  unfold darkPart at h
  split at h
  · rw [List.mem_singleton.mp h]
    decide
  · cases h

theorem Sheet.filed_applicable {dark : DarkMode} {ls : List Leaf}
    (h : f ∈ Sheet.filed c.standard order (Sheet.blocks dark ls)) :
    ∀ q ∈ f.rule.media.getD [], q.isApplicable = true := by
  intro q hq
  obtain ⟨i, p, hp, hf⟩ := Sheet.mem_filed_iff.mp h
  obtain ⟨wrappers, hcontext⟩ := Sheet.context_of_mem (List.mem_of_getElem? hp)
  rw [(SheetBlock.conditions hf).1, hcontext] at hq
  cases hmark : f.isMark with
  | true =>
    rw [hmark] at hq
    cases hq
  | false =>
    rw [hmark, if_neg Bool.false_ne_true, getD_nonempty] at hq
    rcases List.mem_append.mp hq with hq | hq
    · exact Context.applicable_of_mem hq
    · exact Selector.applicable_of_mem_darkPart hq

end Conditions

/-! ## Bundles -/

/-- The media queries of the rules in some rule sets. -/
def RuleSet.queries (sets : List (String × RuleSet)) : List MediaQuery :=
  sets.flatMap fun e =>
    (e.2.normal.getD [] ++ e.2.important.getD []).flatMap fun r => r.media.getD []

theorem Bundle.compile_applicable {c : Settings} {dark : DarkMode} {rules : List Rule} {b : Bundle}
    (h : (compile c.standard { darkMode := dark } rules).result = .ok b) :
    ∀ q ∈ RuleSet.queries b.rules, q.isApplicable = true := by
  intro q hq
  obtain ⟨⟨key, set⟩, hset, hq⟩ := List.mem_flatMap.mp hq
  obtain ⟨r, hr, hq⟩ := List.mem_flatMap.mp hq
  rw [of_compile h] at hset
  rw [RuleSet.mem_ofTable (extractAll_distinct c.standard dark rules) hset] at hr
  obtain ⟨r', hr', rfl⟩ := RuleSet.mem_ofRules hr
  rw [extractAll_under] at hr'
  obtain ⟨f, hf, rfl⟩ := List.mem_map.mp hr'
  exact Sheet.filed_applicable (List.mem_filter.mp hf).1 q hq

/-- Nested rules are extracted as the flat list of their leaves. A leaf is reached if every media
rule around it has a query that can apply; the blocks with declarations among the leaves that are
reached are extracted in their order, each in the context that its wrappers make; and what they file
has the conditions of that context before those of its selector. So no rule of a bundle has a media
query that cannot apply, unless the arrangement of the rule sets brings it in. -/
theorem extractAll_context (c : Settings) (rules : List Rule) :
    (∀ s : State, (s.extractAll c.standard {} rules).silent =
      (Outcome.each (Leaf.perform c.standard) s
        ((Rule.leavesAll [] rules).filter Leaf.isReached)).silent) ∧
    (∀ l : Leaf, l.isReached = true ↔
      ∀ queries, .media queries ∈ l.wrappers → ∃ q ∈ queries, q.isApplicable = true) ∧
    (∀ dark : DarkMode,
      let s : State := { darkMode := dark }
      let o := s.extractAll c.standard {} rules
      let carried := Sheet.carried c.standard s rules
      let blocks := Sheet.blocks dark carried
      (o.failure = none → carried = (Rule.leavesAll [] rules).filter Leaf.isReached) ∧
      blocks.map (fun p => (p.block, p.context)) = carried.filterMap Leaf.styled? ∧
      (∀ key, o.state.rules.under key =
        ((Sheet.filed c.standard 1 blocks).filter (·.key = key)).map (·.rule)) ∧
      ∀ (i : Nat) (p : SheetBlock), blocks[i]? = some p →
        p.Routed c (p.filings c.standard (1 + i))) ∧
    (∀ (dark : DarkMode) (b : Bundle),
      (Bundle.compile c.standard { darkMode := dark } rules).result = .ok b →
      ∀ arrange, RuleSet.queries (arrange b.rules) ⊆ RuleSet.queries b.rules →
        ∀ q ∈ RuleSet.queries (b.arranged arrange).rules, q.isApplicable = true) := by
  refine ⟨fun s => extractAll_leaves c.standard s rules, fun l => Leaf.isReached_iff, ?_, ?_⟩
  · intro dark s o carried blocks
    exact ⟨carried_of_ok, Sheet.blocks_styled dark carried,
      extractAll_under c.standard dark rules, fun i p _ => p.routed c (1 + i)⟩
  · intro dark b hb arrange hqueries q hq
    exact Bundle.compile_applicable hb q (hqueries hq)

/-- A block in the second of two media rules inside a container rule inside a media rule, with
declarations of both importances, for the dark theme and for a group. Of the queries around it one
cannot apply, and the block in the first media rule is not reached. -/
theorem extractAll_context_nested :
    let c : Settings :=
      { isGroup := (· == "group"), ignores := fun _ => false, classifier := .standard,
        read := Declaration.read }
    let dark : DarkMode := { strategy := .className, value := some "dark" }
    let print : MediaQuery := { mediaType := some "print" }
    let screen : MediaQuery := { mediaType := some "screen" }
    let wide : MediaQuery := { condition := some "(min-width: 1px)" }
    let inside : ContainerQuery := { name := some "c", condition := some "(w)" }
    let group : ContainerQuery :=
      { name := some "group", pseudoClasses := some { names := ["hover"] } }
    let block : StyleBlock :=
      { selectors := [".dark .a", ".group:hover .a"], declarations := [⟨"color", "red"⟩],
        important := [⟨"width", "1px"⟩] }
    let rules : List Rule :=
      [.media [print, screen] [.container (some "c") "(w)"
        [.media [print] [.style block], .media [wide] [.style block]]]]
    let s : State := { darkMode := dark }
    ∃ p, Sheet.blocks dark (Sheet.carried c s rules) = [p] ∧
      (p.block, p.context) = (block, { media := [screen, wide], containers := [inside] }) ∧
      p.Routed c (p.filings c 1) ∧
      ((s.extractAll c {} rules).state.rules.under "a").map (fun r => (r.media, r.containerQuery)) =
        [(some [screen, wide, Selector.darkQuery], some [inside]),
         (some [screen, wide], some [inside, group]),
         (some [screen, wide, Selector.darkQuery], some [inside]),
         (some [screen, wide], some [inside, group])] := by
  intro c dark print screen wide inside group block rules s
  obtain ⟨hcarried, hblocks, -, hrouted⟩ := (extractAll_context c rules).2.2.1 dark
  have hok : (s.extractAll c {} rules).failure = none := by decide +kernel
  have hleaves : (Sheet.carried c s rules).filterMap Leaf.styled? =
      [(block, { media := [screen, wide], containers := [inside] })] := by
    rw [show Sheet.carried c s rules = _ from hcarried hok]
    decide +kernel
  obtain ⟨p, hp, hcontext⟩ := List.map_eq_singleton_iff.mp (hblocks.trans hleaves)
  refine ⟨p, hp, hcontext, hrouted 0 p ?_, by decide +kernel⟩
  exact congrArg (·[0]?) hp

end StyleBundle
