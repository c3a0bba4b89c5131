import StyleBundle.Proofs.Dispatch
import StyleBundle.Proofs.Parts
import StyleBundle.Proofs.Table

/-!
# StyleBundle.Proofs.Animations

The animations of a rule. An animation has eight fields. A property of its own sets one of them; the
shorthand sets all that are not set yet, and gives each a value for every layer.

* `AnimationField.own?`, `Declaration.layers?`: what a declaration gives one field, and the layers
  that it gives all fields.
* `AnimationField.get?_animate`, `AnimationField.get?_foldl`: one declaration and a list of them.
* `buildRule_animations`: the last property of its own decides a field, wherever the shorthand
  stands; the other fields all come from the first shorthand that has layers.
-/

namespace StyleBundle

inductive AnimationField where
  | name
  | duration
  | easing
  | delay
  | count
  | direction
  | fillMode
  | playState
  deriving DecidableEq, Repr

namespace AnimationField

open Declaration (AnimationLayer layerTime layerEasing layerCount animationLayer)

def all : List AnimationField :=
  [.name, .duration, .easing, .delay, .count, .direction, .fillMode, .playState]

def property : AnimationField → String
  | .name => "animation-name"
  | .duration => "animation-duration"
  | .easing => "animation-timing-function"
  | .delay => "animation-delay"
  | .count => "animation-iteration-count"
  | .direction => "animation-direction"
  | .fillMode => "animation-fill-mode"
  | .playState => "animation-play-state"

def key : AnimationField → String
  | .name => "name"
  | .duration => "duration"
  | .easing => "timingFunction"
  | .delay => "delay"
  | .count => "iterationCount"
  | .direction => "direction"
  | .fillMode => "fillMode"
  | .playState => "playState"

/-- What a layer of the shorthand gives a field. -/
def ofLayer : AnimationField → AnimationLayer → Value
  | .name, l => .text l.name
  | .duration, l => .time l.duration
  | .easing, l => l.easing.toValue
  | .delay, l => .time l.delay
  | .count, l => l.count
  | .direction, l => .text l.direction
  | .fillMode, l => .text l.fillMode
  | .playState, l => .text l.playState

/-- What a layer of the property of a field gives it. -/
def ofTokens : AnimationField → List Token → Value
  | .duration, layer | .delay, layer => .time (layerTime layer)
  | .easing, layer => (layerEasing layer).toValue
  | .count, layer => layerCount layer
  | .name, layer | .direction, layer | .fillMode, layer | .playState, layer => .ofTokens layer

def ofText (f : AnimationField) (text : String) : Value :=
  .list ((Token.layers (Token.ofText text)).map f.ofTokens)

theorem mem_all (f : AnimationField) : f ∈ all := by cases f <;> decide

theorem property_inj {f g : AnimationField} (h : f.property = g.property) : f = g := by
  revert h
  cases f <;> cases g <;> decide

theorem property_ne_shorthand (f : AnimationField) : f.property ≠ "animation" := by
  cases f <;> decide

theorem key_inj {f g : AnimationField} (h : f.key = g.key) : f = g := by
  revert h
  cases f <;> cases g <;> decide

theorem animationField_property (f : AnimationField) : Name.animationField f.property = f.key := by
  cases f <;> decide +kernel

def ofProperty? (property : String) : Option AnimationField := all.find? (·.property = property)

theorem ofProperty?_eq_some_iff {property : String} {f : AnimationField} :
    ofProperty? property = some f ↔ f.property = property := by
  constructor
  · intro h
    simpa using List.find?_some h
  · intro h
    cases hfind : ofProperty? property with
    | none =>
      have hnone := List.find?_eq_none.mp hfind f (mem_all f)
      simp [h] at hnone
    | some g =>
      have hg : g.property = property := by simpa using List.find?_some hfind
      rw [property_inj (hg.trans h.symm)]

/-- The value that a declaration gives a field as the property of that field. -/
def own? (f : AnimationField) (d : Declaration) : Option Value :=
  if d.property = f.property then some (f.ofText d.value) else none

end AnimationField

namespace Declaration

/-- The layers of a declaration that is the shorthand. -/
def layers? (d : Declaration) : Option (List AnimationLayer) :=
  if d.property = "animation" then
    some ((Token.layers (Token.ofText d.value)).map animationLayer)
  else none

/-- The layers of the first shorthand that has any. -/
def shorthand? (ds : List Declaration) : Option (List AnimationLayer) :=
  (ds.filterMap layers?).find? (!·.isEmpty)

def animation? (d : Declaration) : Option AnimationSetting :=
  match d.layers? with
  | some ls => some (.layers (ls.map AnimationLayer.entries))
  | none =>
    (AnimationField.ofProperty? d.property).map fun f => .field f.property (f.ofText d.value)

def Animates (d : Declaration) : Prop :=
  d.property = "animation" ∨ ∃ f : AnimationField, d.property = f.property

theorem animation?_eq_none_iff {d : Declaration} : d.animation? = none ↔ ¬ d.Animates := by
  unfold animation? Animates layers?
  by_cases hshorthand : d.property = "animation"
  · simp [hshorthand]
  · simp only [hshorthand, if_false, Option.map_eq_none_iff, false_or, not_exists]
    constructor
    · intro hnone f hf
      rw [AnimationField.ofProperty?_eq_some_iff.mpr hf.symm] at hnone
      cases hnone
    · intro h
      rw [Option.eq_none_iff_forall_ne_some]
      intro f hf
      exact h f (AnimationField.ofProperty?_eq_some_iff.mp hf).symm

end Declaration

/-- What some declarations come to in a field: the last property of its own, or else the first
shorthand that has layers. -/
def AnimationField.value? (f : AnimationField) (ds : List Declaration) : Option Value :=
  (ds.filterMap f.own?).getLast?.or
    ((Declaration.shorthand? ds).map fun ls => .list (ls.map f.ofLayer))

def Instruction.animation? : Instruction → Option AnimationSetting
  | .animation setting => some setting
  | _ => none

/-! ## Reading -/

namespace Declaration

theorem known_animation? {property : String} (hshorthand : property ≠ "animation")
    (hfield : ∀ f : AnimationField, property ≠ f.property) (ts : List Token) :
    (known property ts).filterMap Instruction.animation? = [] := by
  unfold known
  simp only
  split
  case h_1 =>
    split
    · split <;> rfl
    · rfl
  case h_2 =>
    unfold gap
    split <;> rfl
  case h_3 =>
    unfold scale
    split <;> rfl
  case h_4 =>
    unfold translate measurement
    split
    · split <;> rfl
    · split <;> split <;> rfl
    · rfl
  case h_6 =>
    unfold transform
    split <;> rfl
  case h_8 =>
    unfold container
    simp only
    split <;> rfl
  case h_9 =>
    unfold container
    simp only
    split <;> rfl
  case h_15 => exact absurd rfl hshorthand
  case h_16 => exact absurd rfl (hfield .duration)
  case h_17 => exact absurd rfl (hfield .delay)
  case h_18 => exact absurd rfl (hfield .easing)
  case h_19 => exact absurd rfl (hfield .count)
  case h_20 => exact absurd rfl (hfield .name)
  case h_21 => exact absurd rfl (hfield .direction)
  case h_22 => exact absurd rfl (hfield .fillMode)
  case h_23 => exact absurd rfl (hfield .playState)
  case h_24 =>
    split
    · unfold box
      simp only
      split <;> rfl
    · rfl
  all_goals rfl

/-- A declaration is read into what it says of animations, and nothing else that is about them. -/
theorem read_animation? (d : Declaration) :
    d.read.filterMap Instruction.animation? = d.animation?.toList := by
  obtain ⟨property, value⟩ := d
  by_cases hshorthand : property = "animation"
  · subst hshorthand
    rw [read_eq_known rfl rfl]
    simp [known, animation?, layers?, Instruction.animation?]
  · cases hfield : AnimationField.ofProperty? property with
    | some f =>
      cases AnimationField.ofProperty?_eq_some_iff.mp hfield
      simp only [animation?, layers?, hshorthand, if_false, hfield]
      cases f <;> (rw [read_eq_known rfl rfl]; rfl)
    | none =>
      simp only [animation?, layers?, hshorthand, if_false, hfield]
      unfold read
      simp only
      split
      · rfl
      · split
        · rfl
        · apply known_animation? hshorthand
          intro f hf
          rw [AnimationField.ofProperty?_eq_some_iff.mpr hf.symm] at hfield
          cases hfield

theorem flatMap_read_animation? (ds : List Declaration) :
    (ds.flatMap read).filterMap Instruction.animation? = ds.filterMap animation? := by
  induction ds with
  | nil => rfl
  | cons d rest ih =>
    rw [List.flatMap_cons, List.filterMap_append, read_animation?, ih]
    cases hd : d.animation? <;> simp [hd]

end Declaration

/-! ## Layers

A list of layers is turned round: from one table of all fields for every layer to one list of all
layers for every field. -/

namespace AnimationField

open Declaration (AnimationLayer)

/-- One more layer adds its value to the list of each field. -/
theorem push_entries (l : AnimationLayer) (values : AnimationField → List Value) :
    l.entries.foldl (fun t e => Table.push e.1 e.2 t) (all.map fun f => (f.property, values f)) =
      all.map fun f => (f.property, values f ++ [f.ofLayer l]) := by
  simp [AnimationLayer.entries, all, property, ofLayer, Table.push, Table.alter]

theorem grouped_entries (l : AnimationLayer) (rest : List AnimationLayer) :
    AnimationSetting.grouped ((l :: rest).map AnimationLayer.entries) =
      all.map fun f => (f.property, (l :: rest).map f.ofLayer) := by
  have hrest (values : AnimationField → List Value) :
      (rest.map AnimationLayer.entries).foldl
          (fun t layer => layer.foldl (fun t e => Table.push e.1 e.2 t) t)
          (all.map fun f => (f.property, values f)) =
        all.map fun f => (f.property, values f ++ rest.map f.ofLayer) := by
    induction rest generalizing values with
    | nil => simp
    | cons l rest ih =>
      rw [List.map_cons, List.foldl_cons, push_entries, ih]
      simp
  exact hrest fun f => [f.ofLayer l]

theorem get?_foldl_putNew (values : AnimationField → Value) (f : AnimationField)
    (fs : List AnimationField) (t : Table Value) :
    (fs.foldl (fun t g => t.putNew g.key (values g)) t).get? f.key =
      (t.get? f.key).or (if f ∈ fs then some (values f) else none) := by
  induction fs generalizing t with
  | nil => simp
  | cons g rest ih =>
    rw [List.foldl_cons, ih]
    by_cases h : f = g
    · subst h
      rw [Table.putNew, Table.get?_alter_self]
      cases t.get? f.key <;> simp
    · have hkey : f.key ≠ g.key := fun heq => h (key_inj heq)
      rw [Table.putNew, Table.get?_alter_of_ne hkey]
      simp [h]

/-- Layers set the fields that are not set, each to its values over all layers. -/
theorem apply_layers (l : AnimationLayer) (rest : List AnimationLayer) (t : Table Value) :
    (AnimationSetting.layers ((l :: rest).map AnimationLayer.entries)).apply t =
      all.foldl (fun t f => t.putNew f.key (.list ((l :: rest).map f.ofLayer))) t := by
  rw [AnimationSetting.apply, grouped_entries, List.foldl_map]
  simp only [animationField_property]

theorem get?_layers (f : AnimationField) (ls : List AnimationLayer) (t : Table Value) :
    ((AnimationSetting.layers (ls.map AnimationLayer.entries)).apply t).get? f.key =
      (t.get? f.key).or (if ls.isEmpty then none else some (.list (ls.map f.ofLayer))) := by
  cases ls with
  | nil => simp [AnimationSetting.apply, AnimationSetting.grouped]
  | cons l rest =>
    rw [apply_layers, get?_foldl_putNew]
    simp [mem_all]

end AnimationField

/-! ## Declarations -/

namespace Declaration

def animate (t : Table Value) (d : Declaration) : Table Value := d.animation?.elim t (·.apply t)

end Declaration

namespace AnimationField

open Declaration (AnimationLayer layers? shorthand? animate animation?)

/-- One declaration: the property of a field replaces its value, the shorthand fills it. -/
theorem get?_animate (f : AnimationField) (t : Table Value) (d : Declaration) :
    (animate t d).get? f.key = (f.own? d).or ((t.get? f.key).or
      ((d.layers?.filter (!·.isEmpty)).map fun ls => .list (ls.map f.ofLayer))) := by
  by_cases hshorthand : d.property = "animation"
  · have hown : f.own? d = none := by
      simp [own?, hshorthand, f.property_ne_shorthand.symm]
    simp only [animate, animation?, layers?, hshorthand, if_true, Option.elim_some, get?_layers,
      hown, Option.none_or]
    split
    · rename_i hempty
      simp [Option.filter, hempty]
    · rename_i hlayers
      simp [Option.filter, hlayers]
  · have hlayers : d.layers? = none := by simp [layers?, hshorthand]
    simp only [animate, animation?, hlayers, Option.filter_none, Option.map_none, Option.or_none]
    cases hfield : ofProperty? d.property with
    | none =>
      have hown : f.own? d = none := by
        unfold own?
        rw [if_neg]
        intro hf
        rw [ofProperty?_eq_some_iff.mpr hf.symm] at hfield
        cases hfield
      simp [hown]
    | some g =>
      have hg := ofProperty?_eq_some_iff.mp hfield
      simp only [Option.map_some, Option.elim_some, AnimationSetting.apply,
        animationField_property, Table.put]
      by_cases h : f = g
      · subst h
        rw [Table.get?_alter_self, own?, if_pos hg.symm, Option.some_or]
      · have hown : f.own? d = none := by
          simp only [own?, ← hg]
          rw [if_neg fun heq => h (property_inj heq.symm)]
        rw [Table.get?_alter_of_ne fun heq => h (key_inj heq), hown, Option.none_or]

/-- A list of declarations: the last property of a field, or else what the field had, or else the
first shorthand that has layers. -/
theorem get?_foldl (f : AnimationField) (t : Table Value) (ds : List Declaration) :
    (ds.foldl animate t).get? f.key = (ds.filterMap f.own?).getLast?.or
      ((t.get? f.key).or ((shorthand? ds).map fun ls => .list (ls.map f.ofLayer))) := by
  induction ds generalizing t with
  | nil => simp [shorthand?]
  | cons d rest ih =>
    rw [List.foldl_cons, ih, get?_animate]
    have hshorthand : shorthand? (d :: rest) =
        (d.layers?.filter (!·.isEmpty)).or (shorthand? rest) := by
      unfold shorthand?
      cases hlayers : d.layers? with
      | none => simp [hlayers]
      | some ls => cases ls <;> simp [hlayers, Option.filter]
    rw [hshorthand]
    cases hown : f.own? d with
    | some v =>
      rw [List.filterMap_cons_some hown, List.getLast?_cons]
      cases (rest.filterMap f.own?).getLast? <;> simp
    | none =>
      rw [List.filterMap_cons_none hown]
      cases d.layers?.filter (!·.isEmpty) <;> simp

/-- A table with no keys but those of fields, each once. -/
def Keyed (t : Table Value) : Prop := t.Distinct ∧ ∀ k ∈ t.keys, ∃ f : AnimationField, k = f.key

theorem Keyed.alter {t : Table Value} (h : Keyed t) (f : AnimationField)
    (g : Option Value → Value) : Keyed (t.alter f.key g) := by
  refine ⟨h.1.alter _ _, ?_⟩
  intro k hk
  rcases Table.mem_keys_alter.mp hk with hk | rfl
  · exact h.2 k hk
  · exact ⟨f, rfl⟩

theorem Keyed.animate {t : Table Value} (h : Keyed t) (d : Declaration) : Keyed (animate t d) := by
  have hlayers (fs : List AnimationField) (values : AnimationField → Value) :
      ∀ t, Keyed t → Keyed (fs.foldl (fun t f => t.putNew f.key (values f)) t) := by
    induction fs with
    | nil => exact fun t ht => ht
    | cons f rest ih => exact fun t ht => ih _ (ht.alter f _)
  unfold Declaration.animate animation?
  cases d.layers? with
  | some ls =>
    cases ls with
    | nil => exact h
    | cons l rest =>
      simp only [Option.elim_some, apply_layers]
      exact hlayers _ _ t h
  | none =>
    cases hfield : ofProperty? d.property with
    | none => exact h
    | some f =>
      simp only [Option.map_some, Option.elim_some, AnimationSetting.apply,
        animationField_property]
      exact h.alter f _

theorem keyed_foldl (ds : List Declaration) : Keyed (ds.foldl Declaration.animate []) := by
  have hrun : ∀ t, Keyed t → Keyed (ds.foldl Declaration.animate t) := by
    induction ds with
    | nil => exact fun t ht => ht
    | cons d rest ih => exact fun t ht => ih _ (ht.animate d)
  exact hrun [] ⟨Table.distinct_nil, by simp⟩

end AnimationField

theorem foldl_animation? (ds : List Declaration) (t : Table Value) :
    (ds.filterMap Declaration.animation?).foldl AnimationSetting.apply t =
      ds.foldl Declaration.animate t := by
  induction ds generalizing t with
  | nil => rfl
  | cons d rest ih =>
    rw [List.foldl_cons, ← ih]
    unfold Declaration.animate
    cases hd : d.animation? <;> simp [hd]

theorem buildRule_animations_eq (ctx : BuildContext) (specificity : Specificity)
    (ds : List Declaration) :
    (buildRule ctx Declaration.read specificity ds).rule.animations =
      if (ds.filterMap Declaration.animation?).isEmpty then none
      else some (ds.foldl Declaration.animate []) := by
  have hrun : (buildRule ctx Declaration.read specificity ds).rule.animations =
      ((ds.flatMap Declaration.read).filterMap Instruction.animation?).foldl
        (fun (t : Option (Table Value)) s => some (s.apply (t.getD []))) none := by
    refine Draft.run_settings (k := .animations) ctx ?_ { rule := { specificity } } _
    intro t i
    cases i <;> rfl
  rw [hrun, Declaration.flatMap_read_animation?, foldl_begun AnimationSetting.apply [],
    foldl_animation?]

theorem getD_animations (ctx : BuildContext) (specificity : Specificity) (ds : List Declaration) :
    (buildRule ctx Declaration.read specificity ds).rule.animations.getD [] =
      ds.foldl Declaration.animate [] := by
  rw [buildRule_animations_eq, ← foldl_animation?]
  cases ds.filterMap Declaration.animation? <;> rfl

/-- Each field of the animations of a rule has what the last property of its own gives it, or else
what the first shorthand with layers does, or else nothing. So the fields that no property of their
own sets come from one declaration and go layer by layer. -/
theorem buildRule_animations (ctx : BuildContext) (specificity : Specificity)
    (ds : List Declaration) :
    let fields := (buildRule ctx Declaration.read specificity ds).rule.animations
    (fields = none ↔ ∀ d ∈ ds, ¬ d.Animates) ∧
      AnimationField.Keyed (fields.getD []) ∧
      (∀ f : AnimationField, (fields.getD []).get? f.key = f.value? ds) ∧
      ∀ layers, Declaration.shorthand? ds = some layers →
        ∀ f : AnimationField, (∀ d ∈ ds, d.property ≠ f.property) →
          ∃ values, (fields.getD []).get? f.key = some (.list values) ∧
            values.length = layers.length ∧
            ∀ i : Nat, values[i]? = layers[i]?.map f.ofLayer := by
  intro fields
  have hfields : fields.getD [] = ds.foldl Declaration.animate [] :=
    getD_animations ctx specificity ds
  have hvalue (f : AnimationField) : (fields.getD []).get? f.key = f.value? ds := by
    rw [hfields, AnimationField.get?_foldl]
    rfl
  refine ⟨?_, hfields ▸ AnimationField.keyed_foldl ds, hvalue, ?_⟩
  · unfold fields
    rw [buildRule_animations_eq]
    simp [Declaration.animation?_eq_none_iff]
  · intro layers hlayers f hf
    have hown : ds.filterMap f.own? = [] := by
      rw [List.filterMap_eq_nil_iff]
      intro d hd
      exact if_neg (hf d hd)
    refine ⟨layers.map f.ofLayer, ?_, List.length_map _, fun i => List.getElem?_map⟩
    rw [hvalue, AnimationField.value?, hown, hlayers]
    rfl

/-- A shorthand without layers, one with two and one with one, and a property of its own. -/
theorem buildRule_animations_two_layers :
    let two := "spin 1s, fade reverse"
    let ds : List Declaration := [⟨"animation", ","⟩, ⟨"animation-delay", "5s"⟩,
      ⟨"animation", two⟩, ⟨"color", "red"⟩, ⟨"animation", "late 9s"⟩]
    let fields := (buildRule {} Declaration.read {} ds).rule.animations.getD []
    (∀ f : AnimationField, f ≠ .delay →
      ∃ first second, fields.get? f.key = some (.list [first, second])) ∧
      fields.get? "name" = some (.list [.text "spin", .text "fade"]) ∧
      fields.get? "duration" = some (.list [.time ⟨.int 1, "s"⟩, .time .zero]) ∧
      fields.get? "direction" = some (.list [.text "normal", .text "reverse"]) ∧
      fields.get? "delay" = some (.list [.time ⟨.int 5, "s"⟩]) := by
  intro two ds fields
  obtain ⟨-, -, hvalue, haligned⟩ := buildRule_animations {} {} ds
  obtain ⟨first, second, hlayers⟩ : ∃ first second,
      (Token.layers (Token.ofText two)).map Declaration.animationLayer = [first, second] := by
    have hlength :
        ((Token.layers (Token.ofText two)).map Declaration.animationLayer).length = 2 := by
      decide +kernel
    exact List.length_eq_two.mp hlength
  have hempty : Token.layers (Token.ofText ",") = [] := by
    rw [← List.isEmpty_iff]
    decide +kernel
  have hshorthand : Declaration.shorthand? ds = some [first, second] := by
    simp [ds, Declaration.shorthand?, Declaration.layers?, hempty, hlayers]
  have hown (f : AnimationField) (hf : f ≠ .delay) : ∀ d ∈ ds, d.property ≠ f.property := by
    cases f with
    | delay => exact absurd rfl hf
    | _ => decide +kernel
  have hget (f : AnimationField) (hf : f ≠ .delay) :
      fields.get? f.key = some (.list [f.ofLayer first, f.ofLayer second]) := by
    obtain ⟨values, hvalues, -, hitems⟩ := haligned _ hshorthand f (hown f hf)
    have heq : values = [first, second].map f.ofLayer := by
      apply List.ext_getElem?
      intro i
      rw [hitems, List.getElem?_map]
    rw [heq] at hvalues
    exact hvalues
  have hparts : [first, second].map (fun l => (l.name, l.duration, l.direction)) =
      [("spin", ⟨.int 1, "s"⟩, "normal"), ("fade", .zero, "reverse")] := by
    rw [← hlayers]
    decide +kernel
  simp only [List.map_cons, List.map_nil, List.cons.injEq, Prod.mk.injEq, and_true] at hparts
  obtain ⟨⟨hname, hduration, hdirection⟩, hname', hduration', hdirection'⟩ := hparts
  have hdelay : (Token.layers (Token.ofText "5s")).map Declaration.layerTime =
      [⟨.int 5, "s"⟩] := by decide +kernel
  refine ⟨fun f hf => ⟨_, _, hget f hf⟩, ?_, ?_, ?_, ?_⟩
  · rw [← hname, ← hname']
    exact hget .name (by decide)
  · rw [← hduration, ← hduration']
    exact hget .duration (by decide)
  · rw [← hdirection, ← hdirection']
    exact hget .direction (by decide)
  · have hvalues := congrArg (List.map Value.time) hdelay
    rw [List.map_map] at hvalues
    exact (hvalue .delay).trans (congrArg (fun values => some (Value.list values)) hvalues)

end StyleBundle
