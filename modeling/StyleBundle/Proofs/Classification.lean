import StyleBundle.Proofs.Selector

/-!
# StyleBundle.Proofs.Classification

What the standard classifier makes of a selector, said of the runs that the selector is written
with. The last run is the subject, those before it are its ancestors.

* `Simple.IsDark`, `Simple.TellDark`: the class or attribute that tells the dark theme.
* `Selector.SelectsClass`: the fields of a class selector, each from the runs.
* `Selector.SelectsScope`: the same for a scope of custom properties.
* `exists_class_iff`, `exists_scope_iff`: which selectors have which variant.
* `classify_follows_grammar`: from the component values of a selector to its variant.
-/

namespace StyleBundle

namespace NameSet

theorem mem_insert {x name : String} {names : List String} :
    x ∈ insert name names ↔ x = name ∨ x ∈ names := by
  induction names with
  | nil => simp [insert]
  | cons n rest ih =>
    unfold insert
    split
    · rename_i heq
      simp [heq]
    · split
      · simp
      · simp [ih, or_left_comm]

theorem mem_ofList {x : String} {names : List String} :
    x ∈ (ofList names).names ↔ x ∈ names := by
  induction names with
  | nil => simp [ofList]
  | cons n rest ih =>
    change x ∈ insert n (ofList rest).names ↔ _
    rw [mem_insert, ih, List.mem_cons]

end NameSet

namespace Simple

@[simp] theorem className?_eq_some {x : Simple} {name : String} :
    x.className? = some name ↔ x = .className name := by
  cases x <;> simp [className?]

@[simp] theorem pseudoClass?_eq_some {x : Simple} {name : String} :
    x.pseudoClass? = some name ↔ x = .pseudoClass name := by
  cases x <;> simp [pseudoClass?]

@[simp] theorem attr?_eq_some {x : Simple} {a : Attribute} :
    x.attr? = some a ↔ x = .attr a := by
  cases x <;> simp [attr?]

/-- A class, a pseudo-class other than `:root`, or an attribute. -/
def isCondition : Simple → Bool
  | .className _ | .pseudoClass _ | .attr _ => true
  | .root | .universal => false

/-- A simple selector is the class or the attribute that tells the dark theme. -/
def IsDark (dark : DarkMode) : Simple → Prop
  | .className name => dark.strategy = .className ∧ dark.value = some name
  | .attr a => dark.strategy = .attribute ∧ ∃ v, dark.value = some v ∧ v ≠ "" ∧
      Selector.bareAttribute a.text = Selector.bareAttribute v
  | _ => False

def TellDark (dark : DarkMode) (run : List Simple) : Prop := ∃ x ∈ run, x.IsDark dark

end Simple

namespace Selector

theorem isDarkMarker_iff {dark : DarkMode} {c : Compound} :
    isDarkMarker dark c = true ↔
      (dark.strategy = .className ∧ ∃ v ∈ c.classes, dark.value = some v) ∨
        (dark.strategy = .attribute ∧ ∃ v, dark.value = some v ∧ v ≠ "" ∧
          ∃ a ∈ c.attributes, bareAttribute a.text = bareAttribute v) := by
  unfold isDarkMarker
  split
  · rename_i v hstrategy hvalue
    simp [hstrategy, hvalue]
  · rename_i v hstrategy hvalue
    simp [hstrategy, hvalue]
  · rename_i hclass hattribute
    refine ⟨nofun, ?_⟩
    rintro (⟨hstrategy, v, -, hvalue⟩ | ⟨hstrategy, v, hvalue, -⟩)
    · exact absurd hvalue (hclass v hstrategy)
    · exact absurd hvalue (hattribute v hstrategy)

theorem isDarkMarker_ofRun {dark : DarkMode} {run : List Simple} :
    isDarkMarker dark (.ofRun run) = true ↔ Simple.TellDark dark run := by
  rw [isDarkMarker_iff]
  constructor
  · rintro (⟨hstrategy, v, hv, hvalue⟩ | ⟨hstrategy, v, hvalue, hne, a, ha, heq⟩)
    · exact ⟨.className v, by simpa [Compound.ofRun] using hv, hstrategy, hvalue⟩
    · exact ⟨.attr a, by simpa [Compound.ofRun] using ha, hstrategy, v, hvalue, hne, heq⟩
  · rintro ⟨x, hx, hdark⟩
    cases x with
    | className name =>
      exact .inl ⟨hdark.1, name, by simpa [Compound.ofRun] using hx, hdark.2⟩
    | attr a =>
      obtain ⟨hstrategy, v, hvalue, hne, heq⟩ := hdark
      exact .inr ⟨hstrategy, v, hvalue, hne, a, by simpa [Compound.ofRun] using hx, heq⟩
    | _ => exact hdark.elim

/-- How many conditions some runs have; `:root` counts once in a run. -/
def conditions (runs : List (List Simple)) : Nat :=
  runs.flatten.countP Simple.isCondition + runs.countP (·.contains .root)

theorem weight_ofRun (run : List Simple) :
    (Compound.ofRun run).weight =
      run.countP Simple.isCondition + if run.contains .root then 1 else 0 := by
  have hparts : (Compound.ofRun run).classes.length + (Compound.ofRun run).pseudoClasses.length +
      (Compound.ofRun run).attributes.length = run.countP Simple.isCondition := by
    simp only [Compound.ofRun]
    induction run with
    | nil => rfl
    | cons x rest ih =>
      cases x <;> simp [List.filterMap_cons, List.countP_cons, Simple.className?,
        Simple.pseudoClass?, Simple.attr?, Simple.isCondition] <;> omega
  rw [Compound.weight, hparts]
  rfl

theorem totalWeight_ofRuns (runs : List (List Simple)) :
    Compound.totalWeight (runs.map Compound.ofRun) = conditions runs := by
  induction runs with
  | nil => rfl
  | cons run rest ih =>
    rw [List.map_cons, Compound.totalWeight, weight_ofRun, ih]
    simp only [conditions, List.flatten_cons, List.countP_append, List.countP_cons]
    omega

/-! ## The fields of a class selector -/

/-- A set of names that is left out if it is empty. -/
def HoldsNames (names : List String) (o : Option NameSet) : Prop :=
  (o = none ↔ names = []) ∧ ∀ n, (∃ set ∈ o, n ∈ set.names) ↔ n ∈ names

/-- A list that is left out if it is empty. -/
def HoldsList {α : Type} (xs : List α) (o : Option (List α)) : Prop :=
  (o = none ↔ xs = []) ∧ o.getD [] = xs

theorem holdsNames_names? (names : List String) : HoldsNames names (names? names) := by
  unfold HoldsNames names?
  cases names with
  | nil => simp
  | cons n rest => simp [NameSet.mem_ofList]

theorem holdsList_nonempty {α : Type} (xs : List α) : HoldsList xs (nonempty xs) := by
  refine ⟨?_, getD_nonempty xs⟩
  cases xs <;> simp [nonempty]

/-- What the ancestors of a class selector come to: nothing, the dark theme or a group. -/
inductive Surrounds (isGroup : String → Bool) (dark : DarkMode) (s : ClassSelector) :
    List (List Simple) → Prop where
  | none : s.media = none → s.groupClass = none → s.groupPseudoClasses = none →
      s.groupAttributes = none → Surrounds isGroup dark s []
  | dark {a : List Simple} : Simple.TellDark dark a → s.media = some [darkQuery] →
      s.groupClass = none → s.groupPseudoClasses = none → s.groupAttributes = none →
      Surrounds isGroup dark s [a]
  | group {a : List Simple} {group : String} : ¬ Simple.TellDark dark a →
      a.filterMap Simple.className? = [group] → isGroup group = true → s.media = none →
      s.groupClass = some group →
      HoldsNames (a.filterMap Simple.pseudoClass?) s.groupPseudoClasses →
      HoldsList (a.filterMap Simple.attr?) s.groupAttributes → Surrounds isGroup dark s [a]

structure SelectsClass (isGroup : String → Bool) (dark : DarkMode) (ancestors : List (List Simple))
    (subject : List Simple) (s : ClassSelector) : Prop where
  className : subject.filterMap Simple.className? = [s.className]
  pseudoClasses : HoldsNames (subject.filterMap Simple.pseudoClass?) s.pseudoClasses
  attributes : HoldsList (subject.filterMap Simple.attr?) s.attributes
  specificity : s.specificity = { className := conditions (ancestors ++ [subject]) }
  around : Surrounds isGroup dark s ancestors

variable {isGroup : String → Bool} {dark : DarkMode} {media : List MediaQuery}
  {ancestors : List (List Simple)} {subject : List Simple}

theorem class?_selects {s : ClassSelector}
    (h : class? isGroup dark (ancestors.map .ofRun) (.ofRun subject) = some s) :
    SelectsClass isGroup dark ancestors subject s := by
  have hspecificity : Compound.totalWeight (ancestors.map .ofRun ++ [.ofRun subject]) =
      conditions (ancestors ++ [subject]) := by
    rw [← totalWeight_ofRuns, List.map_append]
    rfl
  unfold class? at h
  split at h
  · rename_i name hname
    simp only [hspecificity] at h
    split at h
    · rename_i hnil
      cases h
      cases List.map_eq_nil_iff.mp hnil
      exact ⟨hname, holdsNames_names? _, holdsList_nonempty _, rfl, .none rfl rfl rfl rfl⟩
    · rename_i ancestor hone
      obtain ⟨a, rfl, rfl⟩ := List.map_eq_singleton_iff.mp hone
      split at h
      · rename_i hdark
        cases h
        exact ⟨hname, holdsNames_names? _, holdsList_nonempty _, rfl,
          .dark (isDarkMarker_ofRun.mp hdark) rfl rfl rfl rfl⟩
      · rename_i hdark
        split at h
        · rename_i group hgroup
          split at h
          · rename_i hisGroup
            cases h
            refine ⟨hname, holdsNames_names? _, holdsList_nonempty _, rfl, ?_⟩
            exact .group (fun htell => hdark (isDarkMarker_ofRun.mpr htell)) hgroup hisGroup rfl
              rfl (holdsNames_names? _) (holdsList_nonempty _)
          · cases h
        · cases h
    · cases h
  · cases h

def AreSupported (isGroup : String → Bool) (dark : DarkMode) (ancestors : List (List Simple)) :
    Prop :=
  ancestors = [] ∨ ∃ a, ancestors = [a] ∧
    (Simple.TellDark dark a ∨
      ∃ group, a.filterMap Simple.className? = [group] ∧ isGroup group = true)

theorem Surrounds.supported {s : ClassSelector} (h : Surrounds isGroup dark s ancestors) :
    AreSupported isGroup dark ancestors := by
  cases h with
  | none => exact .inl rfl
  | dark htell => exact .inr ⟨_, rfl, .inl htell⟩
  | group _ hgroup hisGroup => exact .inr ⟨_, rfl, .inr ⟨_, hgroup, hisGroup⟩⟩

theorem exists_class?_iff :
    (∃ s, class? isGroup dark (ancestors.map .ofRun) (.ofRun subject) = some s) ↔
      (∃ name, subject.filterMap Simple.className? = [name]) ∧
        AreSupported isGroup dark ancestors := by
  constructor
  · rintro ⟨s, hs⟩
    have h := class?_selects hs
    exact ⟨⟨s.className, h.className⟩, h.around.supported⟩
  · rintro ⟨⟨name, hname⟩, hancestors⟩
    have hclasses : (Compound.ofRun subject).classes = [name] := hname
    unfold class?
    rw [hclasses]
    rcases hancestors with rfl | ⟨a, rfl, hancestor⟩
    · exact ⟨_, rfl⟩
    -- What tells the dark theme goes first, also in a run that is a group as well.
    · by_cases hdark : isDarkMarker dark (.ofRun a) = true
      · simp [hdark]
      · rcases hancestor with htell | ⟨group, hgroup, hisGroup⟩
        · exact absurd (isDarkMarker_ofRun.mpr htell) hdark
        · have hclasses : (Compound.ofRun a).classes = [group] := hgroup
          simp [hdark, hclasses, hisGroup]

/-! ## Scopes of custom properties -/

/-- A subject that is a scope of custom properties: `:root`, or `*` without a class. -/
def IsScope (subject : List Simple) : Prop :=
  .root ∈ subject ∨ .universal ∈ subject ∧ subject.filterMap Simple.className? = []

/-- A selector is for the dark theme: by the media queries around it, or by a run that tells it. -/
def ForDark (dark : DarkMode) (media : List MediaQuery) (runs : List (List Simple)) : Prop :=
  (dark.strategy = .media ∧ ∃ q ∈ media, mentionsDark q = true) ∨
    ∃ run ∈ runs, Simple.TellDark dark run

structure SelectsScope (dark : DarkMode) (media : List MediaQuery)
    (ancestors : List (List Simple)) (subject : List Simple) (scope : Scope) (subtype : String) :
    Prop where
  isScope : IsScope subject
  around : ∀ a ∈ ancestors, Simple.TellDark dark a
  scope : scope = .root ↔ .root ∈ subject
  subtype : (subtype = "dark" ∧ ForDark dark media (ancestors ++ [subject])) ∨
    (subtype = "default" ∧ ¬ ForDark dark media (ancestors ++ [subject]))

theorem isDarkMarker_media {c : Compound} (h : dark.strategy = .media) :
    isDarkMarker dark c = false := by
  simp [isDarkMarker, h]

theorem isDark_iff {runs : List (List Simple)} :
    isDark dark media (runs.map .ofRun) = true ↔ ForDark dark media runs := by
  unfold isDark ForDark
  split
  · rename_i hmedia
    -- With media queries no class and no attribute tells the dark theme.
    have hnone : ¬ ∃ run ∈ runs, Simple.TellDark dark run := by
      rintro ⟨run, -, htell⟩
      rw [← isDarkMarker_ofRun, isDarkMarker_media hmedia] at htell
      cases htell
    simp [hmedia, hnone]
  · rename_i hmedia
    simp [hmedia, isDarkMarker_ofRun]

theorem all_isDarkMarker_iff :
    (ancestors.map Compound.ofRun).all (isDarkMarker dark) = true ↔
      ∀ a ∈ ancestors, Simple.TellDark dark a := by
  simp [isDarkMarker_ofRun]

theorem scope?_selects {scope : Scope} {subtype : String} (hsubject : IsScope subject)
    (h : scope? dark media (ancestors.map .ofRun) (.ofRun subject) =
      some (.customProperties scope subtype)) :
    SelectsScope dark media ancestors subject scope subtype := by
  have hroot : (Compound.ofRun subject).root = true ↔ .root ∈ subject := List.contains_iff_mem
  have hdark : isDark dark media (ancestors.map .ofRun ++ [.ofRun subject]) = true ↔
      ForDark dark media (ancestors ++ [subject]) := by
    rw [← isDark_iff, List.map_append]
    rfl
  unfold scope? at h
  split at h
  · rename_i haround
    cases h
    refine ⟨hsubject, all_isDarkMarker_iff.mp haround, ?_, ?_⟩
    · rw [← hroot]
      split <;> simp_all
    · rw [← hdark]
      split <;> simp_all
  · cases h

theorem exists_scope?_iff :
    (∃ scope subtype, scope? dark media (ancestors.map .ofRun) (.ofRun subject) =
      some (.customProperties scope subtype)) ↔ ∀ a ∈ ancestors, Simple.TellDark dark a := by
  rw [← all_isDarkMarker_iff]
  unfold scope?
  split <;> simp_all

/-! ## What a selector selects -/

theorem ofCompounds?_scope (hsubject : IsScope subject) :
    ofCompounds? isGroup dark media ((ancestors ++ [subject]).map .ofRun) =
      scope? dark media (ancestors.map .ofRun) (.ofRun subject) := by
  have hif : ((Compound.ofRun subject).root || ((Compound.ofRun subject).universal &&
      (Compound.ofRun subject).classes.isEmpty)) = true := by
    simpa [IsScope, Compound.ofRun] using hsubject
  simp [ofCompounds?, hif]

theorem ofCompounds?_class (hsubject : ¬ IsScope subject) :
    ofCompounds? isGroup dark media ((ancestors ++ [subject]).map .ofRun) =
      (class? isGroup dark (ancestors.map .ofRun) (.ofRun subject)).map .className := by
  have hif : ((Compound.ofRun subject).root || ((Compound.ofRun subject).universal &&
      (Compound.ofRun subject).classes.isEmpty)) = false := by
    simpa [IsScope, Compound.ofRun] using hsubject
  simp [ofCompounds?, hif]

variable {selector : String}

theorem standard_of_spells {runs : List (List Simple)} (h : Spells (Token.ofText selector) runs) :
    Classifier.standard isGroup dark media selector =
      (ofCompounds? isGroup dark media (runs.map .ofRun)).toList := by
  rw [Classifier.standard, classify, Compound.listOfTokens?_of_spells h]
  rfl

theorem spells_of_mem_standard {v : Variant}
    (h : v ∈ Classifier.standard isGroup dark media selector) :
    ∃ ancestors subject, Spells (Token.ofText selector) (ancestors ++ [subject]) := by
  simp only [Classifier.standard, Option.mem_toList, classify, Option.bind_eq_some_iff] at h
  obtain ⟨compounds, hread, -⟩ := h
  obtain ⟨runs, hruns, -⟩ := Compound.listOfTokens?_eq_some_iff.mp hread
  obtain hnil | ⟨ancestors, subject, rfl⟩ := List.eq_nil_or_concat runs
  · exact absurd hnil hruns.ne_nil
  · rw [List.concat_eq_append] at hruns
    exact ⟨ancestors, subject, hruns⟩

theorem exists_spells_of_ne_nil (h : Classifier.standard isGroup dark media selector ≠ []) :
    ∃ ancestors subject, Spells (Token.ofText selector) (ancestors ++ [subject]) := by
  obtain ⟨v, hv⟩ := List.exists_mem_of_ne_nil _ h
  exact spells_of_mem_standard hv

section Spelled

variable (hspells : Spells (Token.ofText selector) (ancestors ++ [subject]))

include hspells

theorem scope_mem_standard {scope : Scope} {subtype : String} :
    .customProperties scope subtype ∈ Classifier.standard isGroup dark media selector ↔
      IsScope subject ∧ scope? dark media (ancestors.map .ofRun) (.ofRun subject) =
        some (.customProperties scope subtype) := by
  rw [standard_of_spells hspells, Option.mem_toList]
  by_cases hsubject : IsScope subject
  · rw [ofCompounds?_scope hsubject]
    simp [hsubject]
  · rw [ofCompounds?_class hsubject]
    simp [hsubject]

theorem class_mem_standard {s : ClassSelector} :
    .className s ∈ Classifier.standard isGroup dark media selector ↔
      ¬ IsScope subject ∧ class? isGroup dark (ancestors.map .ofRun) (.ofRun subject) = some s := by
  rw [standard_of_spells hspells, Option.mem_toList]
  by_cases hsubject : IsScope subject
  · have hnot : scope? dark media (ancestors.map .ofRun) (.ofRun subject) ≠
        some (.className s) := by
      unfold scope?
      split <;> simp
    rw [ofCompounds?_scope hsubject]
    simp [hsubject, hnot]
  · rw [ofCompounds?_class hsubject]
    simp [hsubject]

theorem selectsScope_of_mem {scope : Scope} {subtype : String}
    (h : .customProperties scope subtype ∈ Classifier.standard isGroup dark media selector) :
    SelectsScope dark media ancestors subject scope subtype := by
  obtain ⟨hsubject, hsome⟩ := (scope_mem_standard hspells).mp h
  exact scope?_selects hsubject hsome

theorem selectsClass_of_mem {s : ClassSelector}
    (h : .className s ∈ Classifier.standard isGroup dark media selector) :
    SelectsClass isGroup dark ancestors subject s :=
  class?_selects ((class_mem_standard hspells).mp h).2

theorem exists_scope_iff :
    (∃ scope subtype,
      .customProperties scope subtype ∈ Classifier.standard isGroup dark media selector) ↔
      IsScope subject ∧ ∀ a ∈ ancestors, Simple.TellDark dark a := by
  simp only [scope_mem_standard hspells, exists_and_left, exists_scope?_iff]

theorem exists_class_iff :
    (∃ s, .className s ∈ Classifier.standard isGroup dark media selector) ↔
      .root ∉ subject ∧ (∃ name, subject.filterMap Simple.className? = [name]) ∧
        AreSupported isGroup dark ancestors := by
  simp only [class_mem_standard hspells, exists_and_left, exists_class?_iff]
  constructor
  · rintro ⟨hsubject, hclass⟩
    exact ⟨fun hroot => hsubject (.inl hroot), hclass⟩
  · rintro ⟨hroot, ⟨name, hname⟩, hancestors⟩
    refine ⟨?_, ⟨name, hname⟩, hancestors⟩
    rintro (hroot' | ⟨-, hnone⟩)
    · exact hroot hroot'
    · simp [hname] at hnone

end Spelled

end Selector

/-- Reading accepts exactly the selectors of the grammar and gives one compound for each run. A
selector has one variant at most: that of a class if the last run has one class and no `:root`, and
is alone, or under one other run that tells the dark theme or is a group; that of a scope of custom
properties if the last run has `:root`, or `*` and no class, and every other run tells the dark
theme. The fields of the variant are what the runs say. -/
theorem classify_follows_grammar :
    (∀ ts cs, Compound.listOfTokens? ts = some cs ↔
      ∃ runs, Selector.Spells ts runs ∧ cs = runs.map Compound.ofRun) ∧
    ∀ (isGroup : String → Bool) (dark : DarkMode) (media : List MediaQuery) (selector : String),
      let variants := Classifier.standard isGroup dark media selector
      variants.length ≤ 1 ∧
      ((∀ runs, ¬ Selector.Spells (Token.ofText selector) runs) → variants = []) ∧
      ∀ ancestors subject, Selector.Spells (Token.ofText selector) (ancestors ++ [subject]) →
        ((∃ s, .className s ∈ variants) ↔
          .root ∉ subject ∧ (∃ name, subject.filterMap Simple.className? = [name]) ∧
            Selector.AreSupported isGroup dark ancestors) ∧
        (∀ s, .className s ∈ variants → Selector.SelectsClass isGroup dark ancestors subject s) ∧
        ((∃ scope subtype, .customProperties scope subtype ∈ variants) ↔
          Selector.IsScope subject ∧ ∀ a ∈ ancestors, Simple.TellDark dark a) ∧
        ∀ scope subtype, .customProperties scope subtype ∈ variants →
          Selector.SelectsScope dark media ancestors subject scope subtype := by
  refine ⟨fun ts cs => Compound.listOfTokens?_eq_some_iff, ?_⟩
  intro isGroup dark media selector variants
  refine ⟨?_, ?_, ?_⟩
  · simp only [variants, Classifier.standard, Option.length_toList]
    split <;> decide
  · intro hnone
    refine Classical.byContradiction fun hne => ?_
    obtain ⟨ancestors, subject, hspells⟩ := Selector.exists_spells_of_ne_nil hne
    exact hnone _ hspells
  · intro ancestors subject hspells
    exact ⟨Selector.exists_class_iff hspells, fun s => Selector.selectsClass_of_mem hspells,
      Selector.exists_scope_iff hspells,
      fun scope subtype => Selector.selectsScope_of_mem hspells⟩

/-- A class inside a group, with white space around and the pseudo-class in capitals. -/
theorem classify_follows_grammar_group :
    let dark : DarkMode := { strategy := .className, value := some "dark" }
    let s : ClassSelector :=
      { className := "a", specificity := { className := 5 },
        attributes := some [{ name := "open" }], groupClass := some "group",
        groupPseudoClasses := some ⟨["focus", "hover"]⟩ }
    .className s ∈ Classifier.standard (· == "group") dark [] " .group:Hover:focus  *.a[open] " ∧
      ∃ ancestors subject,
        Selector.Spells (Token.ofText " .group:Hover:focus  *.a[open] ") (ancestors ++ [subject]) ∧
          Selector.SelectsClass (· == "group") dark ancestors subject s := by
  intro dark s
  have hmem : .className s ∈
      Classifier.standard (· == "group") dark [] " .group:Hover:focus  *.a[open] " := by
    decide +kernel
  obtain ⟨ancestors, subject, hspells⟩ := Selector.spells_of_mem_standard hmem
  have hfields := (classify_follows_grammar.2 (· == "group") dark [] _).2.2 _ _ hspells
  exact ⟨hmem, ancestors, subject, hspells, hfields.2.1 s hmem⟩

end StyleBundle
