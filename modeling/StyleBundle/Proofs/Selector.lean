import StyleBundle.Proofs.Grammar
import StyleBundle.Proofs.Lexing
import StyleBundle.Proofs.RuleSet
import StyleBundle.State.Filing

/-!
# StyleBundle.Proofs.Selector

What the standard classifier makes of a selector that names a class. The compounds before the
subject are its ancestors; there is at most one, and it tells the dark theme or is a group. So the
class selector asks for the dark theme exactly if an ancestor tells it (`Selector.darkPart`), and
for a group exactly if an ancestor is one (`Selector.groupPart`). Its specificity counts conditions
only.

Identifiers of the source are never empty (`ofText_named`), so neither is the name of a group.
-/

namespace StyleBundle

/-! ## Identifiers are not empty -/

/-- No component value of a list is an identifier without a name. -/
def Token.Named (ts : List Token) : Prop := ∀ p, Token.atom p (.ident "") ∉ ts

theorem ofText_named (s : String) : Token.Named (Token.ofText s) := by
  intro p hmem
  have hleaf : Atom.ident "" ∈ Token.atomsAll (Token.ofText s) :=
    Token.mem_atomsAll.mpr ⟨_, hmem, List.mem_singleton.mpr rfl⟩
  exact Token.ofText_read s _ hleaf rfl

theorem readFrom_named {done : List Compound} {current : Compound} {ts : List Token}
    (hts : Token.Named ts) (hdone : ∀ c ∈ done, "" ∉ c.classes) (hcurrent : "" ∉ current.classes)
    {cs : List Compound} (h : Compound.readFrom done current ts = some cs) :
    ∀ c ∈ cs, "" ∉ c.classes := by
  have hrest {t : Token} {us : List Token} (h : Token.Named (t :: us)) : Token.Named us :=
    fun p hmem => h p (List.mem_cons_of_mem _ hmem)
  have hsnoc {current : Compound} (hcurrent : "" ∉ current.classes) {done : List Compound}
      (hdone : ∀ c ∈ done, "" ∉ c.classes) : ∀ c ∈ done ++ [current], "" ∉ c.classes := by
    intro c hc
    rcases List.mem_append.mp hc with hc | hc
    · exact hdone c hc
    · rw [List.mem_singleton.mp hc]
      exact hcurrent
  fun_induction Compound.readFrom done current ts with
  | case1 done current =>
    have hall : ∀ c ∈ (if current.isEmpty then done else done ++ [current]), "" ∉ c.classes := by
      split
      · exact hdone
      · exact hsnoc hcurrent hdone
    simp only [Compound.finish] at h
    generalize (if current.isEmpty then done else done ++ [current]) = all at h hall
    split at h
    · cases h
    · cases h
      exact hall
  | case2 done current p text rest hempty ih => exact ih (hrest hts) hdone hcurrent h
  | case3 done current p text rest hempty ih =>
    exact ih (hrest hts) (hsnoc hcurrent hdone) (by simp) h
  | case4 done current p rest ih => exact ih (hrest hts) hdone hcurrent h
  | case5 done current p q name rest ih =>
    have hname : name ≠ "" := by
      rintro rfl
      exact hts q (List.mem_cons_of_mem _ List.mem_cons_self)
    refine ih (hrest (hrest hts)) hdone ?_ h
    simpa [Compound.addClass, hcurrent] using Ne.symm hname
  | case6 done current p q name rest ih =>
    refine ih (hrest (hrest hts)) hdone ?_ h
    unfold Compound.addPseudoClass
    simp only
    split
    · exact hcurrent
    · exact hcurrent
  | case7 done current p content rest a ha ih => exact ih (hrest hts) hdone hcurrent h
  | case8 => cases h
  | case9 => cases h

/-! ## The parts of a class selector -/

namespace Selector

/-- The compounds of a selector before its subject. -/
def ancestors (selector : String) : List Compound :=
  ((Compound.listOfTokens? (Token.ofText selector)).getD []).dropLast

/-- The media query for the dark theme, if an ancestor tells it. -/
def darkPart (dark : DarkMode) (selector : String) : List MediaQuery :=
  if (ancestors selector).any (isDarkMarker dark) then [darkQuery] else []

/-- The condition that an ancestor makes on a group, if it is one and does not tell the dark
theme. -/
def groupCondition? (isGroup : String → Bool) (dark : DarkMode) (ancestor : Compound) :
    Option ContainerQuery :=
  match ancestor.classes with
  | [group] =>
    if isGroup group && !isDarkMarker dark ancestor then
      some { name := some group, pseudoClasses := names? ancestor.pseudoClasses,
             attributes := nonempty ancestor.attributes }
    else none
  | _ => none

/-- The conditions that the ancestors of a selector make on groups. -/
def groupPart (isGroup : String → Bool) (dark : DarkMode) (selector : String) :
    List ContainerQuery :=
  (ancestors selector).filterMap (groupCondition? isGroup dark)

theorem groupCondition?_of_dark {isGroup : String → Bool} {dark : DarkMode} {ancestor : Compound}
    (h : isDarkMarker dark ancestor = true) : groupCondition? isGroup dark ancestor = none := by
  unfold groupCondition?
  split
  · simp [h]
  · rfl

/-- A class selector asks for the dark theme and for a group as its ancestors say, and its
specificity counts conditions only. -/
theorem class?_parts {isGroup : String → Bool} {dark : DarkMode} {ancestors : List Compound}
    {subject : Compound} {s : ClassSelector}
    (hnames : ∀ c ∈ ancestors, "" ∉ c.classes)
    (h : class? isGroup dark ancestors subject = some s) :
    s.media.getD [] = (if ancestors.any (isDarkMarker dark) then [darkQuery] else []) ∧
    (s.group?.map s.groupQuery).toList = ancestors.filterMap (groupCondition? isGroup dark) ∧
    s.specificity = { className := Compound.totalWeight (ancestors ++ [subject]) } := by
  unfold class? at h
  split at h
  · simp only at h
    split at h
    · cases h
      exact ⟨rfl, rfl, rfl⟩
    · rename_i ancestor
      split at h
      · rename_i hdark
        cases h
        refine ⟨by simp [hdark], ?_, rfl⟩
        rw [List.filterMap_cons, groupCondition?_of_dark hdark]
        rfl
      · rename_i hdark
        split at h
        · rename_i group hclasses
          split at h
          · rename_i hgroup
            cases h
            have hne : group ≠ "" := by
              rintro rfl
              exact hnames ancestor List.mem_cons_self (by simp [hclasses])
            refine ⟨by simp [hdark], ?_, rfl⟩
            simp [ClassSelector.group?, ClassSelector.groupQuery, groupCondition?, hclasses, hgroup,
              hdark, hne]
          · cases h
        · cases h
    · cases h
  · cases h

/-- The standard classifier makes of a selector what its ancestors say. -/
theorem classify_parts {isGroup : String → Bool} {dark : DarkMode} {media : List MediaQuery}
    {selector : String} {s : ClassSelector}
    (h : Variant.className s ∈ Classifier.standard isGroup dark media selector) :
    s.media.getD [] = darkPart dark selector ∧
    (s.group?.map s.groupQuery).toList = groupPart isGroup dark selector ∧
    ∃ n, s.specificity = { className := n } := by
  simp only [Classifier.standard, Option.mem_toList, classify, Option.bind_eq_some_iff] at h
  obtain ⟨compounds, hread, h⟩ := h
  have hnames : ∀ c ∈ compounds, "" ∉ c.classes :=
    readFrom_named (ofText_named selector) (fun c hc => by cases hc) (by simp) hread
  unfold ofCompounds? at h
  split at h
  · cases h
  · simp only at h
    split at h
    · unfold scope? at h
      split at h <;> cases h
    · obtain ⟨s', hs', heq⟩ := Option.map_eq_some_iff.mp h
      cases heq
      have hancestors : ancestors selector = compounds.dropLast := by
        simp [ancestors, hread]
      obtain ⟨hmedia, hgroup, hspec⟩ :=
        class?_parts (fun c hc => hnames c (List.dropLast_subset _ hc)) hs'
      exact ⟨by rw [hmedia, darkPart, hancestors], by rw [hgroup, groupPart, hancestors],
        _, hspec⟩

end Selector

/-- Settings with the standard classifier. -/
def Settings.standard (c : Settings) : Settings := { c with classifier := .standard }

end StyleBundle
