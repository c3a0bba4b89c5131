import StyleBundle.Proofs.Parts

/-!
# StyleBundle.Proofs.Transitions

The transition of a rule. A transition has four fields, and each follows the same law: the last
property of its own decides, wherever the shorthand stands; without one the first shorthand does.

* `Transition.Field`: a field, and what a setting and a layer give it.
* `Transition.get_apply`, `Transition.get_foldl`: one setting and a run of settings.
* `ofInstructions_transition`: the transition of a rule.
-/

namespace StyleBundle

/-- The layers of a setting that is the shorthand. -/
def TransitionSetting.layers? : TransitionSetting → Option (List TransitionLayer)
  | .layers ls => some ls
  | _ => none

namespace Transition

inductive Field where
  | property
  | duration
  | delay
  | easing
  deriving DecidableEq, Repr

namespace Field

def Item : Field → Type
  | .property => String
  | .duration | .delay => Time
  | .easing => Easing

def get : (f : Field) → Transition → Option (List f.Item)
  | .property, t => t.property
  | .duration, t => t.duration
  | .delay, t => t.delay
  | .easing, t => t.easing

/-- What a setting gives a field if it is the property of that field. -/
def own? : (f : Field) → TransitionSetting → Option (List f.Item)
  | .property, .properties names => some (names.map Name.native)
  | .duration, .durations times => some times
  | .delay, .delays times => some times
  | .easing, .easings easings => some easings
  | _, _ => none

def ofLayer : (f : Field) → TransitionLayer → f.Item
  | .property, l => Name.native l.property
  | .duration, l => l.duration
  | .delay, l => l.delay
  | .easing, l => l.easing

/-- What some settings come to in a field: the last property of its own, or else the first
shorthand. -/
def value? (f : Field) (settings : List TransitionSetting) : Option (List f.Item) :=
  (settings.filterMap f.own?).getLast?.or
    ((settings.filterMap TransitionSetting.layers?).head?.map (List.map f.ofLayer))

theorem value?_append_layers {f : Field} {settings : List TransitionSetting}
    (h : settings.filterMap TransitionSetting.layers? ≠ [])
    (further : List (List TransitionLayer)) :
    f.value? (settings ++ further.map .layers) = f.value? settings := by
  have hown : (further.map TransitionSetting.layers).filterMap f.own? = [] := by
    rw [List.filterMap_eq_nil_iff]
    intro s hs
    obtain ⟨ls, -, rfl⟩ := List.mem_map.mp hs
    cases f <;> rfl
  obtain ⟨first, rest, hlayers⟩ := List.exists_cons_of_ne_nil h
  rw [value?, value?, List.filterMap_append, List.filterMap_append, hown, hlayers, List.append_nil]
  rfl

end Field

theorem eq_of_get {t t' : Transition} (h : ∀ f : Field, f.get t = f.get t') : t = t' := by
  cases t
  cases t'
  congr
  · exact h .property
  · exact h .duration
  · exact h .delay
  · exact h .easing

theorem orElse_eq {α : Type} (field : Option (List α)) (layers : List TransitionLayer)
    (f : TransitionLayer → α) : orElse field layers f = field.or (some (layers.map f)) := by
  cases field <;> rfl

/-- One setting: a property of its own replaces a field, the shorthand fills it. -/
theorem get_apply (f : Field) (t : Transition) (s : TransitionSetting) :
    f.get (t.apply s) = (f.own? s).or ((f.get t).or (s.layers?.map (List.map f.ofLayer))) := by
  cases s with
  | properties names =>
    cases f with
    | property => rfl
    | _ => exact Option.or_none.symm
  | durations times =>
    cases f with
    | duration => rfl
    | _ => exact Option.or_none.symm
  | delays times =>
    cases f with
    | delay => rfl
    | _ => exact Option.or_none.symm
  | easings easings =>
    cases f with
    | easing => rfl
    | _ => exact Option.or_none.symm
  | layers ls => cases f <;> exact orElse_eq _ ls _
  | unknown property => cases f <;> exact Option.or_none.symm

/-- A run of settings: what they come to in a field, or else what the field had, unless it is the
first shorthand that fills it. -/
theorem get_foldl (f : Field) (t : Transition) (settings : List TransitionSetting) :
    f.get (settings.foldl apply t) = (settings.filterMap f.own?).getLast?.or
      ((f.get t).or
        ((settings.filterMap TransitionSetting.layers?).head?.map (List.map f.ofLayer))) := by
  induction settings generalizing t with
  | nil => simp
  | cons s rest ih =>
    rw [List.foldl_cons, ih, get_apply]
    -- A shorthand gives nothing of a field's own, so the layers matter in the second case only.
    cases hown : f.own? s with
    | some v =>
      rw [List.filterMap_cons_some hown, List.getLast?_cons]
      cases (rest.filterMap f.own?).getLast? <;> simp
    | none =>
      rw [List.filterMap_cons_none hown]
      cases hlayers : s.layers? with
      | none =>
        rw [List.filterMap_cons_none hlayers]
        simp
      | some ls =>
        rw [List.filterMap_cons_some hlayers]
        simp

theorem get_settings (f : Field) (settings : List TransitionSetting) :
    f.get (settings.foldl apply {}) = f.value? settings := by
  rw [get_foldl]
  cases f <;> rfl

end Transition

/-- Settings in another order, in which the shorthands, and the properties of each field, follow
each other as before. -/
structure TransitionSetting.Reorders (settings settings' : List TransitionSetting) : Prop where
  perm : settings.Perm settings'
  layers : settings.filterMap layers? = settings'.filterMap layers?
  own : ∀ f : Transition.Field, settings.filterMap f.own? = settings'.filterMap f.own?

theorem TransitionSetting.Reorders.eq_nil_iff {settings settings' : List TransitionSetting}
    (h : Reorders settings settings') : settings = [] ↔ settings' = [] := by
  rw [← List.length_eq_zero_iff, h.perm.length_eq, List.length_eq_zero_iff]

theorem TransitionSetting.Reorders.value? {settings settings' : List TransitionSetting}
    (h : Reorders settings settings') (f : Transition.Field) :
    f.value? settings = f.value? settings' := by
  rw [Transition.Field.value?, Transition.Field.value?, h.layers, h.own f]

def Instruction.transition? : Instruction → Option TransitionSetting
  | .transition setting => some setting
  | _ => none

namespace StyleRule

variable (ctx : BuildContext) (specificity : Specificity)

theorem transition_ofInstructions (is : List Instruction) :
    (ofInstructions ctx specificity is).transition =
      if (is.filterMap Instruction.transition?).isEmpty then none
      else some ((is.filterMap Instruction.transition?).foldl Transition.apply {}) := by
  have hrun : (ofInstructions ctx specificity is).transition =
      (is.filterMap Instruction.transition?).foldl
        (fun (t : Option Transition) s => some ((t.getD {}).apply s)) none := by
    refine Draft.run_settings (k := .transition) ctx ?_ { rule := { specificity } } is
    intro t i
    cases i <;> rfl
  rw [hrun, foldl_begun]

theorem transition_eq_none_iff (is : List Instruction) :
    (ofInstructions ctx specificity is).transition = none ↔
      is.filterMap Instruction.transition? = [] := by
  rw [transition_ofInstructions]
  simp

theorem transition_get (is : List Instruction) (f : Transition.Field) :
    (ofInstructions ctx specificity is).transition.bind f.get =
      f.value? (is.filterMap Instruction.transition?) := by
  rw [transition_ofInstructions, ← Transition.get_settings]
  cases is.filterMap Instruction.transition? with
  | nil => cases f <;> rfl
  | cons s rest => rfl

theorem transition_eq {is js : List Instruction}
    (hnone : is.filterMap Instruction.transition? = [] ↔ js.filterMap Instruction.transition? = [])
    (hvalue : ∀ f : Transition.Field,
      f.value? (is.filterMap Instruction.transition?) =
        f.value? (js.filterMap Instruction.transition?)) :
    (ofInstructions ctx specificity is).transition =
      (ofInstructions ctx specificity js).transition := by
  rw [← transition_eq_none_iff ctx specificity, ← transition_eq_none_iff ctx specificity] at hnone
  have hget (f : Transition.Field) :
      (ofInstructions ctx specificity is).transition.bind f.get =
        (ofInstructions ctx specificity js).transition.bind f.get := by
    rw [transition_get, transition_get, hvalue]
  generalize (ofInstructions ctx specificity is).transition = t at hnone hget
  generalize (ofInstructions ctx specificity js).transition = t' at hnone hget
  cases t with
  | none => exact (hnone.mp rfl).symm
  | some t =>
    cases t' with
    | none => exact hnone.mpr rfl
    | some t' => exact congrArg some (Transition.eq_of_get hget)

/-- Each field of the transition of a rule has what the last property of its own gives it, or else
what the first shorthand does, or else nothing. So it does not matter where a shorthand stands among
the other properties, and further shorthands change nothing. -/
theorem ofInstructions_transition (is : List Instruction) :
    let settings := is.filterMap Instruction.transition?
    let t := (ofInstructions ctx specificity is).transition
    (t = none ↔ settings = []) ∧
    (∀ f : Transition.Field, t.bind f.get = f.value? settings) ∧
    (∀ js, TransitionSetting.Reorders (js.filterMap Instruction.transition?) settings →
      (ofInstructions ctx specificity js).transition = t) ∧
    (settings.filterMap TransitionSetting.layers? ≠ [] →
      ∀ further : List (List TransitionLayer),
        (ofInstructions ctx specificity
          (is ++ further.map fun ls => .transition (.layers ls))).transition = t) := by
  intro settings t
  refine ⟨transition_eq_none_iff ctx specificity is, transition_get ctx specificity is, ?_, ?_⟩
  · intro js h
    exact transition_eq ctx specificity h.eq_nil_iff h.value?
  · intro hshorthand further
    have hsettings : (further.map fun ls => Instruction.transition (.layers ls)).filterMap
        Instruction.transition? = further.map .layers := by
      rw [List.filterMap_map, ← List.filterMap_eq_map]
      rfl
    apply transition_eq ctx specificity
    · rw [List.filterMap_append, hsettings]
      have hne : is.filterMap Instruction.transition? ≠ [] := by
        intro hnil
        exact hshorthand (congrArg (List.filterMap TransitionSetting.layers?) hnil)
      simp [hne]
    · intro f
      rw [List.filterMap_append, hsettings]
      exact Transition.Field.value?_append_layers hshorthand further

/-- A shorthand moves behind a property of its own, and one without layers is added. -/
theorem ofInstructions_transition_moved :
    let first : List TransitionLayer :=
      [{ property := "margin-top", duration := ⟨.int 1, "s"⟩ }, {}]
    let second : List TransitionLayer := [{ property := "color" }]
    let durations : Instruction := .transition (.durations [⟨.int 2, "s"⟩])
    let others : List Instruction :=
      [.transition (.layers second), .transition (.unknown "transition-behavior")]
    let is : List Instruction :=
      .transition (.layers first) :: .measure .width :: durations :: others
    let js : List Instruction := durations :: .transition (.layers first) :: others
    let r := ofInstructions {} {} is
    r.transition.bind (·.property) = some ["marginTop", "all"] ∧
      r.transition.bind (·.duration) = some [⟨.int 2, "s"⟩] ∧
      (ofInstructions {} {} js).transition = r.transition ∧
      (ofInstructions {} {} (is ++ [.transition (.layers [])])).transition = r.transition := by
  intro first second durations others is js r
  obtain ⟨-, hget, hmoved, hadded⟩ := ofInstructions_transition {} {} is
  have hnames : first.map (Name.native ·.property) = ["marginTop", "all"] := by decide +kernel
  refine ⟨?_, hget .duration, hmoved js ⟨List.Perm.swap _ _ _, rfl, ?_⟩, hadded nofun [[]]⟩
  · exact (hget .property).trans (congrArg some hnames)
  · intro f
    cases f <;> rfl

end StyleRule

end StyleBundle
