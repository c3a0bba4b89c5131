import Mathlib
import StyleBundle.Declaration.Read

/-!
# StyleBundle.Proofs.Dispatch

A declaration is reported once. Whatever its property and its value are, it is read into exactly
one instruction that is about the property. Only sides to be measured can stand before that, and
only for `translate`: the width if the first of one or two values is a percentage, then the height
if the second is.

* `Declaration.Reports`: some sides to be measured, then the one instruction about a property. A
  shorthand is split into parts of known names only.
* `Declaration.Measures`: which sides are measured.
* `Declaration.read_reports`, `read_reports_once`: every declaration.
-/

namespace StyleBundle

/-- The property that a setting of transitions comes from. -/
def TransitionSetting.property : TransitionSetting → String
  | .properties _ => "transition-property"
  | .durations _ => "transition-duration"
  | .delays _ => "transition-delay"
  | .easings _ => "transition-timing-function"
  | .layers _ => "transition"
  | .unknown property => property

def AnimationSetting.property : AnimationSetting → String
  | .field property _ => property
  | .layers _ => "animation"

/-- The property that an instruction is about. To measure a side is about none. -/
def Instruction.subject? : Instruction → Option String
  | .style name _ _ => some name
  | .transform name _ => some name
  | .transformShorthand name _ => some name
  | .styleShorthand name _ => some name
  | .container property _ => some property
  | .transition setting => some setting.property
  | .animation setting => some setting.property
  | .measure _ => none
  | .warn w => some w.property

/-- The names of the parts of a shorthand. -/
def Instruction.parts : Instruction → List String
  | .transformShorthand _ parts => parts.map (·.1)
  | .styleShorthand _ parts => parts.map (·.1)
  | _ => []

namespace Declaration

/-- The names that shorthands are split into. -/
def partNames : List String :=
  ["margin-top", "margin-right", "margin-bottom", "margin-left",
   "padding-top", "padding-right", "padding-bottom", "padding-left",
   "top", "right", "bottom", "left",
   "border-top-width", "border-right-width", "border-bottom-width", "border-left-width",
   "row-gap", "column-gap", "scaleX", "scaleY", "translateX", "translateY"]

/-- Instructions that have some sides measured and then say one thing about a property. -/
def Reports (property : String) (axes : List Axis) (is : List Instruction) : Prop :=
  ∃ i, is = axes.map .measure ++ [i] ∧ i.subject? = some property ∧ i.parts ⊆ partNames

/-- The sides that a property has measured for its significant values: none but for one or two
values of `translate`, each at most once, the width first. -/
structure Measures (property : String) (ts : List Token) (axes : List Axis) : Prop where
  order : axes.Sublist [.width, .height]
  width : .width ∈ axes ↔
    property = "translate" ∧ ts.length ≤ 2 ∧ ∃ t, ts[0]? = some t ∧ t.isPercentage = true
  height : .height ∈ axes ↔
    property = "translate" ∧ ts.length = 2 ∧ ∃ t, ts[1]? = some t ∧ t.isPercentage = true

theorem measures_nil {property : String} (h : property ≠ "translate") (ts : List Token) :
    Measures property ts [] where
  order := List.nil_sublist _
  width := by simp [h]
  height := by simp [h]

/-! ## One property -/

section Known

variable (property : String) (ts : List Token)

theorem reports_plain {property : String} {i : Instruction} (h : i.subject? = some property)
    (hparts : i.parts = []) : Reports property [] [i] :=
  ⟨i, rfl, h, hparts ▸ List.nil_subset _⟩

theorem rejected_reports : Reports property [] (rejected property ts) := reports_plain rfl rfl

theorem sides?_partNames {property : String} {sides : String × String × String × String}
    (h : sides? property = some sides) :
    [sides.1, sides.2.1, sides.2.2.1, sides.2.2.2] ⊆ partNames := by
  unfold sides? at h
  split at h
  case h_5 => cases h
  all_goals
    cases h
    decide

theorem box_reports {property : String} {sides : String × String × String × String}
    (h : sides? property = some sides) : Reports property [] (box property sides ts) := by
  unfold box
  simp only
  split
  case h_5 => exact rejected_reports property ts
  all_goals exact ⟨_, rfl, rfl, sides?_partNames h⟩

theorem gap_reports : Reports property [] (gap property ts) := by
  have hparts : ["row-gap", "column-gap"] ⊆ partNames := by decide
  unfold gap
  split
  · exact ⟨_, rfl, rfl, hparts⟩
  · exact ⟨_, rfl, rfl, hparts⟩
  · exact rejected_reports property ts

theorem scale_reports : Reports property [] (scale property ts) := by
  have hparts : ["scaleX", "scaleY"] ⊆ partNames := by decide
  unfold scale
  split
  · exact ⟨_, rfl, rfl, hparts⟩
  · exact ⟨_, rfl, rfl, hparts⟩
  · exact rejected_reports property ts

theorem transform_reports : Reports property [] (transform property ts) := by
  unfold transform
  split
  · exact reports_plain rfl rfl
  · exact rejected_reports property ts

theorem container_reports : Reports property [] (container property ts) := by
  unfold container
  cases containerWords false (Token.significant ts) with
  | mk names kinds =>
    simp only
    split
    · exact reports_plain rfl rfl
    · exact reports_plain rfl rfl

theorem display_reports : Reports "display" [] (known "display" ts) := by
  unfold known
  simp only
  split
  · split
    · exact reports_plain rfl rfl
    · exact reports_plain rfl rfl
  · exact reports_plain rfl rfl

/-- The side that a value of a translation has measured. -/
def side (axis : Axis) (t : Token) : List Axis := if t.isPercentage then [axis] else []

theorem measurement_eq (axis : Axis) (t : Token) :
    measurement axis t = (side axis t).map .measure := by
  unfold measurement side
  split
  · rfl
  · rfl

theorem side_sublist (axis : Axis) (t : Token) : (side axis t).Sublist [axis] := by
  unfold side
  split
  · exact List.Sublist.refl _
  · exact List.nil_sublist _

theorem mem_side {axis axis' : Axis} {t : Token} :
    axis ∈ side axis' t ↔ axis = axis' ∧ t.isPercentage = true := by
  unfold side
  split
  · rename_i h
    simp [h]
  · rename_i h
    simp [h]

theorem translate_reports :
    ∃ axes, Reports property axes (translate property ts) ∧
      Measures "translate" (Token.significant ts) axes := by
  have hparts : ["translateX", "translateY"] ⊆ partNames := by decide
  unfold translate
  split
  · rename_i x hx
    refine ⟨side .width x,
      ⟨.transformShorthand property [("translateX", .ofToken x), ("translateY", .int 0)],
        by rw [measurement_eq], rfl, hparts⟩, ?_⟩
    rw [hx]
    refine ⟨(side_sublist .width x).trans (List.sublist_append_left [Axis.width] _), ?_, ?_⟩
    · simp [mem_side]
    · simp [mem_side]
  · rename_i x y hxy
    refine ⟨side .width x ++ side .height y,
      ⟨.transformShorthand property [("translateX", .ofToken x), ("translateY", .ofToken y)],
        by rw [measurement_eq, measurement_eq, List.map_append], rfl, hparts⟩, ?_⟩
    rw [hxy]
    refine ⟨(side_sublist .width x).append (side_sublist .height y), ?_, ?_⟩
    · simp [mem_side]
    · simp [mem_side]
  · -- neither one value nor two
    rename_i hone htwo
    refine ⟨[], rejected_reports property ts, List.nil_sublist _, ?_, ?_⟩
    all_goals
      match hts : Token.significant ts with
      | [] => simp
      | [x] => exact absurd hts (hone x)
      | [x, y] => exact absurd hts (htwo x y)
      | _ :: _ :: _ :: _ => simp

/-- The properties that have a form of their own, each by the lemma for its form, and all the
others. -/
theorem known_reports :
    ∃ axes, Reports property axes (known property ts) ∧
      Measures property (Token.significant ts) axes := by
  by_cases htranslate : property = "translate"
  · subst htranslate
    exact translate_reports "translate" ts
  · refine ⟨[], ?_, measures_nil htranslate _⟩
    unfold known
    simp only
    split
    case h_1 => exact display_reports ts
    case h_2 => exact gap_reports _ ts
    case h_3 => exact scale_reports _ ts
    case h_4 => exact absurd rfl htranslate
    case h_6 => exact transform_reports _ ts
    case h_8 => exact container_reports _ ts
    case h_9 => exact container_reports _ ts
    case h_24 =>
      split
      · rename_i hsides
        exact box_reports ts hsides
      · exact reports_plain rfl rfl
    all_goals exact reports_plain rfl rfl

end Known

theorem read_eq_known {property : String} (hcustom : Name.isCustom property = false)
    (hsupported : unsupported.contains property = false) (value : String) :
    read { property, value } = known property (Token.ofText value) := by
  simp only [read, hcustom, hsupported, Bool.false_eq_true, if_false]

theorem read_reports (d : Declaration) :
    ∃ axes, Reports d.property axes d.read ∧
      Measures d.property (Token.significant (Token.ofText d.value)) axes := by
  unfold read
  simp only
  split
  · rename_i hcustom
    refine ⟨[], reports_plain rfl rfl, measures_nil ?_ _⟩
    intro htranslate
    rw [htranslate] at hcustom
    cases hcustom
  · split
    · rename_i hunsupported
      refine ⟨[], reports_plain rfl rfl, measures_nil ?_ _⟩
      intro htranslate
      rw [htranslate] at hunsupported
      revert hunsupported
      decide
    · exact known_reports d.property _

end Declaration

/-- A declaration, whatever its property and its value are, is read into exactly one instruction
that is not to measure a side; it is the last one and about the property of the declaration. -/
theorem read_reports_once (d : Declaration) :
    ∃ axes i, d.read = axes.map Instruction.measure ++ [i] ∧ (∀ axis, i ≠ .measure axis) ∧
      i.subject? = some d.property ∧
      Declaration.Measures d.property (Token.significant (Token.ofText d.value)) axes := by
  obtain ⟨axes, ⟨i, hread, hsubject, -⟩, hmeasures⟩ := d.read_reports
  refine ⟨axes, i, hread, ?_, hsubject, hmeasures⟩
  rintro axis rfl
  cases hsubject

/-- Of two values of which only the second is a percentage only the height is measured. -/
theorem read_reports_once_translate :
    let d : Declaration := { property := "translate", value := "2px 50%" }
    ∃ i, d.read = [.measure .height, i] ∧ i.subject? = some "translate" := by
  intro d
  obtain ⟨axes, i, hread, -, hsubject, hmeasures⟩ := read_reports_once d
  have hvalues : (Token.significant (Token.ofText d.value)).map Token.isPercentage =
      [false, true] := by decide +kernel
  obtain ⟨x, rest, hts, hx, hrest⟩ := List.map_eq_cons_iff.mp hvalues
  obtain ⟨y, rest, rfl, hy, hnil⟩ := List.map_eq_cons_iff.mp hrest
  rw [List.map_eq_nil_iff.mp hnil] at hts
  rw [hts] at hmeasures
  have hwidth : .width ∉ axes := by simp [hmeasures.width, hx]
  have hheight : .height ∈ axes := by simp [hmeasures.height, hy, d]
  have haxes : axes = [.height] := by
    have hsublist := List.mem_sublists.mpr hmeasures.order
    have hall : ∀ as ∈ [Axis.width, .height].sublists, .width ∉ as → .height ∈ as →
        as = [.height] := by decide
    exact hall axes hsublist hwidth hheight
  rw [haxes] at hread
  exact ⟨i, hread, hsubject⟩

end StyleBundle
