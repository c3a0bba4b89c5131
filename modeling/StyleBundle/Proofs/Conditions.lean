import StyleBundle.Proofs.Classification

/-!
# StyleBundle.Proofs.Conditions

Which conditions of a selector its variant keeps.

A scope of custom properties keeps what tells the dark theme, by its subtype, and nothing else. A
class selector keeps all conditions on its own element; of an element around it, it keeps what tells
the dark theme, or else the class, the pseudo-classes and the attributes of the group.

A condition is lost in two ways. One that stands beside `:root` or `*` in a scope, or beside what
tells the dark theme, is not looked at. And `:root` on an element around a class is no condition of
a group. Without such runs nothing is lost (`scope_keeps_conditions`, `class_keeps_conditions`).
-/

namespace StyleBundle

namespace Selector

/-- Every condition in some runs is the class or the attribute that tells the dark theme. -/
def OnlyDark (dark : DarkMode) (runs : List (List Simple)) : Prop :=
  ∀ run ∈ runs, ∀ x ∈ run, x.isCondition = true → x.IsDark dark

/-- No other condition stands beside `:root`, `*` or what tells the dark theme. -/
def Unmixed (dark : DarkMode) (run : List Simple) : Prop :=
  (∃ x ∈ run, x = .root ∨ x = .universal ∨ x.IsDark dark) → OnlyDark dark [run]

section Scope

variable {isGroup : String → Bool} {dark : DarkMode} {media : List MediaQuery}
  {ancestors : List (List Simple)} {subject : List Simple} {scope : Scope} {subtype : String}

/-- Every run of a scope has something beside which a condition is not looked at. -/
theorem SelectsScope.noted (h : SelectsScope dark media ancestors subject scope subtype)
    {run : List Simple} (hrun : run ∈ ancestors ++ [subject]) :
    ∃ x ∈ run, x = .root ∨ x = .universal ∨ x.IsDark dark := by
  rcases List.mem_append.mp hrun with hrun | hrun
  · obtain ⟨x, hx, hdark⟩ := h.around run hrun
    exact ⟨x, hx, .inr (.inr hdark)⟩
  · rw [List.mem_singleton.mp hrun]
    rcases h.isScope with hroot | ⟨huniversal, -⟩
    · exact ⟨.root, hroot, .inl rfl⟩
    · exact ⟨.universal, huniversal, .inr (.inl rfl)⟩

theorem SelectsScope.onlyDark_iff (h : SelectsScope dark media ancestors subject scope subtype) :
    OnlyDark dark (ancestors ++ [subject]) ↔ ∀ run ∈ ancestors ++ [subject], Unmixed dark run := by
  constructor
  · intro honly run hrun _
    simpa [OnlyDark] using honly run hrun
  · intro hunmixed run hrun
    simpa [OnlyDark] using hunmixed run hrun (h.noted hrun)

theorem SelectsScope.told (h : SelectsScope dark media ancestors subject scope subtype)
    (hdark : ∃ run ∈ ancestors ++ [subject], Simple.TellDark dark run) : subtype = "dark" := by
  rcases h.subtype with ⟨hsubtype, -⟩ | ⟨-, hnot⟩
  · exact hsubtype
  · exact absurd (.inr hdark) hnot

theorem exists_scope_of_ne_nil {selector : String}
    (hspells : Spells (Token.ofText selector) (ancestors ++ [subject])) (hsubject : IsScope subject)
    (h : Classifier.standard isGroup dark media selector ≠ []) :
    ∃ scope subtype,
      .customProperties scope subtype ∈ Classifier.standard isGroup dark media selector := by
  obtain ⟨v, hv⟩ := List.exists_mem_of_ne_nil _ h
  cases v with
  | className s => exact absurd hsubject ((class_mem_standard hspells).mp hv).1
  | customProperties scope subtype => exact ⟨scope, subtype, hv⟩

end Scope

end Selector

/-- A scope of custom properties has all its conditions in its subtype exactly if no other
condition stands beside `:root`, `*` or what tells the dark theme; a run before the last that does
not tell the dark theme is refused in any case. -/
theorem scope_keeps_conditions (isGroup : String → Bool) (dark : DarkMode)
    (media : List MediaQuery) (selector : String) :
    let variants := Classifier.standard isGroup dark media selector
    (variants ≠ [] → ∃ ancestors subject,
      Selector.Spells (Token.ofText selector) (ancestors ++ [subject])) ∧
    ∀ ancestors subject, Selector.Spells (Token.ofText selector) (ancestors ++ [subject]) →
      (∀ scope subtype, .customProperties scope subtype ∈ variants →
        ((∃ run ∈ ancestors ++ [subject], Simple.TellDark dark run) → subtype = "dark") ∧
        (Selector.OnlyDark dark (ancestors ++ [subject]) ↔
          ∀ run ∈ ancestors ++ [subject], Selector.Unmixed dark run)) ∧
      (Selector.IsScope subject →
        (variants ≠ [] ↔ ∀ a ∈ ancestors, Simple.TellDark dark a) ∧
        ((∀ run ∈ ancestors ++ [subject], Selector.Unmixed dark run) →
          ¬ Selector.OnlyDark dark (ancestors ++ [subject]) → variants = [])) := by
  intro variants
  refine ⟨Selector.exists_spells_of_ne_nil, ?_⟩
  intro ancestors subject hspells
  refine ⟨fun scope subtype h => ?_, fun hsubject => ?_⟩
  · have hselects := Selector.selectsScope_of_mem hspells h
    exact ⟨hselects.told, hselects.onlyDark_iff⟩
  · constructor
    · constructor
      · intro hne
        have hsome := Selector.exists_scope_of_ne_nil hspells hsubject hne
        exact ((Selector.exists_scope_iff hspells).mp hsome).2
      · intro htell
        obtain ⟨scope, subtype, h⟩ := (Selector.exists_scope_iff hspells).mpr ⟨hsubject, htell⟩
        exact List.ne_nil_of_mem h
    · intro hunmixed honly
      refine Classical.byContradiction fun hne => honly ?_
      obtain ⟨scope, subtype, h⟩ := Selector.exists_scope_of_ne_nil hspells hsubject hne
      exact (Selector.selectsScope_of_mem hspells h).onlyDark_iff.mpr hunmixed

/-- The attribute that tells the dark theme is kept, also in quotes; another class before `:root` is
refused. -/
theorem scope_keeps_conditions_attribute :
    let dark : DarkMode := { strategy := .attribute, value := some "[data-theme=dark]" }
    let a : Attribute := { name := "data-theme", operator := some "=", value := some "dark" }
    .customProperties .universal "dark" ∈
        Classifier.standard (fun _ => false) dark [] "[data-theme='dark'] *" ∧
      Selector.Spells (Token.ofText "[data-theme='dark'] *") [[.attr a], [.universal]] ∧
      Selector.OnlyDark dark [[.attr a], [.universal]] ∧
      Selector.Spells (Token.ofText ".x :root") [[.className "x"], [.root]] ∧
      Classifier.standard (fun _ => false) dark [] ".x :root" = [] := by
  intro dark a
  have hmem : .customProperties .universal "dark" ∈
      Classifier.standard (fun _ => false) dark [] "[data-theme='dark'] *" := by decide +kernel
  have hdark : (Simple.attr a).IsDark dark := ⟨rfl, _, rfl, by decide, by decide +kernel⟩
  have htheme : Selector.Spells (Token.ofText "[data-theme='dark'] *")
      ([[.attr a]] ++ [[.universal]]) := by
    have htokens : Token.ofText "[data-theme='dark'] *" =
        [.block ⟨1, 1⟩ .square [.atom ⟨1, 2⟩ (.ident "data-theme"), .atom ⟨1, 12⟩ (.literal "="),
          .atom ⟨1, 13⟩ (.string "dark" true)], .atom ⟨1, 20⟩ (.whitespace " "),
          .atom ⟨1, 21⟩ (.literal "*")] := by cbv
    rw [htokens]
    exact (Selector.spells_last (.snoc .nil (.universal ⟨1, 21⟩)) (List.cons_ne_nil _ _)
      Token.areSpaces_nil).cons
        (.snoc .nil (.attr ⟨1, 1⟩ rfl)) (List.cons_ne_nil _ _) ⟨1, 20⟩ " "
  have hroot : Selector.Spells (Token.ofText ".x :root") ([[.className "x"]] ++ [[.root]]) := by
    have htokens : Token.ofText ".x :root" =
        [.atom ⟨1, 1⟩ (.literal "."), .atom ⟨1, 2⟩ (.ident "x"), .atom ⟨1, 3⟩ (.whitespace " "),
          .atom ⟨1, 4⟩ (.literal ":"), .atom ⟨1, 5⟩ (.ident "root")] := by cbv
    rw [htokens]
    exact (Selector.spells_last (.snoc .nil (.colon ⟨1, 4⟩ ⟨1, 5⟩ "root")) (List.cons_ne_nil _ _)
      Token.areSpaces_nil).cons
        (.snoc .nil (.className ⟨1, 1⟩ ⟨1, 2⟩ "x")) (List.cons_ne_nil _ _) ⟨1, 3⟩ " "
  refine ⟨hmem, htheme, ?_, hroot, ?_⟩
  · have hkeeps := (scope_keeps_conditions (fun _ => false) dark [] _).2 _ _ htheme
    apply (hkeeps.1 _ _ hmem).2.mpr
    simp [Selector.Unmixed, Selector.OnlyDark, hdark, Simple.isCondition]
  · have hkeeps := (scope_keeps_conditions (fun _ => false) dark [] _).2 _ _ hroot
    apply (hkeeps.2 (.inl (by simp))).2
    · simp [Selector.Unmixed, Selector.OnlyDark, Simple.isCondition, Simple.IsDark, dark]
    · simp [Selector.OnlyDark, Simple.isCondition, Simple.IsDark, dark]

/-- The class beside `:root` is lost: the custom properties are set for every element and theme. -/
theorem root_loses_class :
    Classifier.standard (fun _ => false) {} [] ":root.a" = [.customProperties .root "default"] ∧
      Selector.Spells (Token.ofText ":root.a") [[.root, .className "a"]] ∧
      ¬ Selector.OnlyDark {} [[.root, .className "a"]] := by
  have htokens : Token.ofText ":root.a" =
      [.atom ⟨1, 1⟩ (.literal ":"), .atom ⟨1, 2⟩ (.ident "root"), .atom ⟨1, 6⟩ (.literal "."),
        .atom ⟨1, 7⟩ (.ident "a")] := by cbv
  have hroot : Simple.Spells [.atom ⟨1, 1⟩ (.literal ":"), .atom ⟨1, 2⟩ (.ident "root")] .root :=
    .colon ⟨1, 1⟩ ⟨1, 2⟩ "root"
  refine ⟨by decide +kernel, ?_, ?_⟩
  · rw [htokens]
    exact Selector.spells_last (.snoc (.snoc .nil hroot) (.className ⟨1, 6⟩ ⟨1, 7⟩ "a"))
      (List.cons_ne_nil _ _) Token.areSpaces_nil
  · intro honly
    have hdark := honly _ (List.mem_singleton.mpr rfl) (.className "a") (by simp) rfl
    cases hdark.2

/-! ## Class selectors -/

/-- A simple selector is among what is asked of an element: a class, pseudo-classes and
attributes. -/
def Simple.AskedBy (className : Option String) (pseudoClasses : Option NameSet)
    (attributes : Option (List Attribute)) : Simple → Prop
  | .className name => className = some name
  | .pseudoClass name => ∃ set ∈ pseudoClasses, name ∈ set.names
  | .attr a => a ∈ attributes.getD []
  | .root => False
  | .universal => True

theorem Simple.askedBy_nothing {x : Simple} : x.AskedBy none none none ↔ x = .universal := by
  cases x <;> simp [AskedBy]

/-- What a run asks of its element is asked, except for `:root`. -/
theorem Simple.askedBy_of_mem {run : List Simple} {className : String}
    {pseudoClasses : Option NameSet} {attributes : Option (List Attribute)}
    (hclass : run.filterMap className? = [className])
    (hpseudoClasses : Selector.HoldsNames (run.filterMap pseudoClass?) pseudoClasses)
    (hattributes : Selector.HoldsList (run.filterMap attr?) attributes) {x : Simple}
    (hx : x ∈ run) (hroot : x ≠ .root) : x.AskedBy (some className) pseudoClasses attributes := by
  cases x with
  | className name =>
    have hname : name ∈ run.filterMap className? := by simpa using hx
    rw [hclass, List.mem_singleton] at hname
    rw [AskedBy, hname]
  | root => exact absurd rfl hroot
  | pseudoClass name => exact (hpseudoClasses.2 name).mpr (by simpa using hx)
  | attr a =>
    rw [AskedBy, hattributes.2]
    simpa using hx
  | universal => trivial

namespace ClassSelector

def Keeps (s : ClassSelector) (x : Simple) : Prop :=
  x.AskedBy (some s.className) s.pseudoClasses s.attributes

/-- A class selector keeps a condition on an element around it: as one on the group, or as the dark
theme. -/
def KeepsAround (dark : DarkMode) (s : ClassSelector) (x : Simple) : Prop :=
  x.AskedBy s.groupClass s.groupPseudoClasses s.groupAttributes ∨
    x.IsDark dark ∧ s.media = some [Selector.darkQuery]

def KeepsAll (dark : DarkMode) (ancestors : List (List Simple)) (subject : List Simple)
    (s : ClassSelector) : Prop :=
  (∀ x ∈ subject, s.Keeps x) ∧ ∀ a ∈ ancestors, ∀ x ∈ a, s.KeepsAround dark x

end ClassSelector

namespace Selector

/-- An ancestor without `:root` in which nothing stands beside what tells the dark theme. -/
def Separate (dark : DarkMode) (a : List Simple) : Prop :=
  .root ∉ a ∧ (Simple.TellDark dark a → ∀ x ∈ a, x = .universal ∨ x.IsDark dark)

variable {isGroup : String → Bool} {dark : DarkMode} {ancestors : List (List Simple)}
  {subject : List Simple} {s : ClassSelector}

theorem SelectsClass.keeps (h : SelectsClass isGroup dark ancestors subject s)
    (hroot : .root ∉ subject) : ∀ x ∈ subject, s.Keeps x :=
  fun _ hx => Simple.askedBy_of_mem h.className h.pseudoClasses h.attributes hx
    fun heq => hroot (heq ▸ hx)

theorem Surrounds.keeps_iff (h : Surrounds isGroup dark s ancestors) :
    (∀ a ∈ ancestors, ∀ x ∈ a, s.KeepsAround dark x) ↔ ∀ a ∈ ancestors, Separate dark a := by
  cases h with
  | none => simp
  | @dark a htell hmedia hclass hpseudoClasses hattributes =>
    have hkeeps (x : Simple) : s.KeepsAround dark x ↔ x = .universal ∨ x.IsDark dark := by
      rw [ClassSelector.KeepsAround, hclass, hpseudoClasses, hattributes, hmedia,
        Simple.askedBy_nothing]
      simp
    simp only [List.mem_singleton, forall_eq, hkeeps, Separate, htell, true_imp_iff]
    refine ⟨fun hall => ⟨fun hroot => ?_, hall⟩, And.right⟩
    simpa [Simple.IsDark] using hall .root hroot
  | @group a group htell hgroup _ hmedia hclass hpseudoClasses hattributes =>
    -- A group has room for every condition except `:root`.
    have hkeeps (x : Simple) (hx : x ∈ a) : s.KeepsAround dark x ↔ x ≠ .root := by
      constructor
      · rintro (hasked | ⟨hdark, -⟩) rfl
        · exact hasked
        · exact hdark
      · intro hroot
        left
        rw [hclass]
        exact Simple.askedBy_of_mem hgroup hpseudoClasses hattributes hx hroot
    simp only [List.mem_singleton, forall_eq, Separate, htell, false_imp_iff, and_true]
    constructor
    · intro hall hroot
      exact (hkeeps .root hroot).mp (hall .root hroot) rfl
    · intro hroot x hx
      exact (hkeeps x hx).mpr fun heq => hroot (heq ▸ hx)

theorem SelectsClass.keepsAll_iff (h : SelectsClass isGroup dark ancestors subject s)
    (hroot : .root ∉ subject) :
    s.KeepsAll dark ancestors subject ↔ ∀ a ∈ ancestors, Separate dark a := by
  rw [ClassSelector.KeepsAll, h.around.keeps_iff]
  exact and_iff_right (h.keeps hroot)

end Selector

/-- A class selector keeps every condition on its own element. It keeps those on the element around
it too exactly if that element has no `:root` and nothing beside what tells the dark theme. -/
theorem class_keeps_conditions (isGroup : String → Bool) (dark : DarkMode)
    (media : List MediaQuery) (selector : String) :
    let variants := Classifier.standard isGroup dark media selector
    (variants ≠ [] → ∃ ancestors subject,
      Selector.Spells (Token.ofText selector) (ancestors ++ [subject])) ∧
    ∀ ancestors subject, Selector.Spells (Token.ofText selector) (ancestors ++ [subject]) →
      (∀ s, .className s ∈ variants → (∀ x ∈ subject, s.Keeps x) ∧
        (s.KeepsAll dark ancestors subject ↔ ∀ a ∈ ancestors, Selector.Separate dark a)) ∧
      (¬ Selector.IsScope subject → (∀ a ∈ ancestors, Selector.Separate dark a) →
        (∀ s : ClassSelector, ¬ s.KeepsAll dark ancestors subject) → variants = []) := by
  intro variants
  refine ⟨Selector.exists_spells_of_ne_nil, ?_⟩
  intro ancestors subject hspells
  have hclass (s : ClassSelector)
      (h : .className s ∈ Classifier.standard isGroup dark media selector) :
      (∀ x ∈ subject, s.Keeps x) ∧
        (s.KeepsAll dark ancestors subject ↔ ∀ a ∈ ancestors, Selector.Separate dark a) := by
    have hroot : .root ∉ subject :=
      fun hroot => ((Selector.class_mem_standard hspells).mp h).1 (.inl hroot)
    have hselects := Selector.selectsClass_of_mem hspells h
    exact ⟨hselects.keeps hroot, hselects.keepsAll_iff hroot⟩
  refine ⟨hclass, fun hsubject hseparate hnone => ?_⟩
  rw [List.eq_nil_iff_forall_not_mem]
  intro v hv
  cases v with
  | className s => exact hnone s ((hclass s hv).2.mpr hseparate)
  | customProperties scope subtype =>
    exact hsubject ((Selector.scope_mem_standard hspells).mp hv).1

/-- The group around a class is kept with its pseudo-class and its attribute. -/
theorem class_keeps_conditions_group :
    let dark : DarkMode := { strategy := .className, value := some "dark" }
    let group : List Simple := [.className "group", .pseudoClass "hover", .attr { name := "open" }]
    let s : ClassSelector :=
      { className := "a", specificity := { className := 5 },
        pseudoClasses := some ⟨["focus"]⟩, groupClass := some "group",
        groupPseudoClasses := some ⟨["hover"]⟩, groupAttributes := some [{ name := "open" }] }
    .className s ∈
        Classifier.standard (· == "group") dark [] ".group:hover[open] .a:focus" ∧
      Selector.Spells (Token.ofText ".group:hover[open] .a:focus")
        [group, [.className "a", .pseudoClass "focus"]] ∧
      s.KeepsAll dark [group] [.className "a", .pseudoClass "focus"] := by
  intro dark group s
  have hmem : .className s ∈
      Classifier.standard (· == "group") dark [] ".group:hover[open] .a:focus" := by
    decide +kernel
  have hspells : Selector.Spells (Token.ofText ".group:hover[open] .a:focus")
      ([group] ++ [[.className "a", .pseudoClass "focus"]]) := by
    have htokens : Token.ofText ".group:hover[open] .a:focus" =
        [.atom ⟨1, 1⟩ (.literal "."), .atom ⟨1, 2⟩ (.ident "group"),
          .atom ⟨1, 7⟩ (.literal ":"), .atom ⟨1, 8⟩ (.ident "hover"),
          .block ⟨1, 13⟩ .square [.atom ⟨1, 14⟩ (.ident "open")],
          .atom ⟨1, 19⟩ (.whitespace " "),
          .atom ⟨1, 20⟩ (.literal "."), .atom ⟨1, 21⟩ (.ident "a"),
          .atom ⟨1, 22⟩ (.literal ":"), .atom ⟨1, 23⟩ (.ident "focus")] := by cbv
    rw [htokens]
    exact (Selector.spells_last (.snoc (.snoc .nil (.className ⟨1, 20⟩ ⟨1, 21⟩ "a"))
      (.colon ⟨1, 22⟩ ⟨1, 23⟩ "focus")) (List.cons_ne_nil _ _) Token.areSpaces_nil).cons
        (.snoc (.snoc (.snoc .nil (.className ⟨1, 1⟩ ⟨1, 2⟩ "group"))
          (.colon ⟨1, 7⟩ ⟨1, 8⟩ "hover")) (.attr ⟨1, 13⟩ rfl)) (List.cons_ne_nil _ _) ⟨1, 19⟩ " "
  refine ⟨hmem, hspells, ?_⟩
  have hkeeps := (class_keeps_conditions (· == "group") dark [] _).2 _ _ hspells
  apply (hkeeps.1 s hmem).2.mpr
  simp [Selector.Separate, Simple.TellDark, Simple.IsDark, group, dark]

/-- The class beside the one that tells the dark theme is lost. -/
theorem dark_loses_class :
    let dark : DarkMode := { strategy := .className, value := some "dark" }
    let s : ClassSelector :=
      { className := "a", specificity := { className := 3 }, media := some [Selector.darkQuery] }
    Classifier.standard (fun _ => false) dark [] ".dark.x .a" = [.className s] ∧
      Selector.Spells (Token.ofText ".dark.x .a")
        [[.className "dark", .className "x"], [.className "a"]] ∧
      ¬ s.KeepsAll dark [[.className "dark", .className "x"]] [.className "a"] := by
  intro dark s
  have htokens : Token.ofText ".dark.x .a" =
      [.atom ⟨1, 1⟩ (.literal "."), .atom ⟨1, 2⟩ (.ident "dark"), .atom ⟨1, 6⟩ (.literal "."),
        .atom ⟨1, 7⟩ (.ident "x"), .atom ⟨1, 8⟩ (.whitespace " "), .atom ⟨1, 9⟩ (.literal "."),
        .atom ⟨1, 10⟩ (.ident "a")] := by cbv
  refine ⟨by decide +kernel, ?_, ?_⟩
  · rw [htokens]
    exact (Selector.spells_last (.snoc .nil (.className ⟨1, 9⟩ ⟨1, 10⟩ "a")) (List.cons_ne_nil _ _)
      Token.areSpaces_nil).cons (.snoc (.snoc .nil (.className ⟨1, 1⟩ ⟨1, 2⟩ "dark"))
        (.className ⟨1, 6⟩ ⟨1, 7⟩ "x")) (List.cons_ne_nil _ _) ⟨1, 8⟩ " "
  · rintro ⟨-, haround⟩
    have hx := haround _ (List.mem_singleton.mpr rfl) (.className "x") (by simp)
    simp [ClassSelector.KeepsAround, Simple.AskedBy, Simple.IsDark, s, dark] at hx

end StyleBundle
