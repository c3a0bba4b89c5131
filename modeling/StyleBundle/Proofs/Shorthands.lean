import StyleBundle.Proofs.Dispatch
import StyleBundle.Proofs.Equality
import StyleBundle.Proofs.Parts

/-!
# StyleBundle.Proofs.Shorthands

Shorthands that stand for parts. Reading gives every part its value, and the rule puts equal ones
together again; what comes out has to mean what the shorthand says.

* `Shorthand.assigned`: the value of each part, by the rules of the shorthand.
* `Shorthand.valueOf`: the value that a part has under some declarations, of which one for the
  shorthand counts for all parts.
* `Shorthand.Expands`: what the declarations of a shorthand have to be.
* `run_shorthand`: what every text comes to.
-/

namespace StyleBundle

inductive Shorthand where
  | margin
  | padding
  | inset
  | borderWidth
  | gap
  | scale
  | translate
  deriving DecidableEq, Repr

namespace Shorthand

def property : Shorthand → String
  | .margin => "margin"
  | .padding => "padding"
  | .inset => "inset"
  | .borderWidth => "border-width"
  | .gap => "gap"
  | .scale => "scale"
  | .translate => "translate"

def parts : Shorthand → List String
  | .margin => ["margin-top", "margin-right", "margin-bottom", "margin-left"]
  | .padding => ["padding-top", "padding-right", "padding-bottom", "padding-left"]
  | .inset => ["top", "right", "bottom", "left"]
  | .borderWidth =>
    ["border-top-width", "border-right-width", "border-bottom-width", "border-left-width"]
  | .gap => ["row-gap", "column-gap"]
  | .scale => ["scaleX", "scaleY"]
  | .translate => ["translateX", "translateY"]

def isTransform : Shorthand → Bool
  | .scale | .translate => true
  | _ => false

/-- Where a property of a shorthand goes if nothing is relocated. -/
def target (s : Shorthand) (name : String) : Target :=
  if s.isTransform then .path ["transform", name] else .bare (Name.native name)

/-- The values of four sides: the right is like the top, the bottom like the top and the left like
the right where they are not given. -/
def boxValues : List Value → List Value
  | [] => []
  | top :: rest =>
    let right := rest[0]?.getD top
    [top, right, rest[1]?.getD top, rest[2]?.getD right]

/-- The values of two parts, given what the second is where it is not given. -/
def pairValues (second : Value → Value) : List Value → List Value
  | [] => []
  | first :: rest => [first, rest[0]?.getD (second first)]

/-- The value of each part. -/
def assigned : Shorthand → List Value → List Value
  | .margin | .padding | .inset | .borderWidth => boxValues
  | .gap | .scale => pairValues id
  | .translate => pairValues fun _ => .int 0

def declaration (s : Shorthand) (name : String) (value : Value) : StyleDeclaration :=
  { value, target := s.target name, deferred := value.isDeferred }

/-- The value of a part under some declarations: that of the last one for the part or for the whole
shorthand. -/
def valueOf (s : Shorthand) (ds : List StyleDeclaration) (part : String) : Option Value :=
  (ds.filter fun d => d.target = s.target part ∨ d.target = s.target s.property).getLast?.map
    (·.value)

/-- What the declarations of a shorthand have to be, `values` being those of its parts. -/
structure Expands (s : Shorthand) (values : List Value) (added : List StyleDeclaration) : Prop where
  complete : values.length = s.parts.length
  assigns : ∀ e ∈ s.parts.zip values,
    ∃ v, s.valueOf added e.1 = some v ∧ v.same e.2 = true
  single : added.length = 1 ↔ ∀ v ∈ values, ∀ w ∈ values, v.same w = true
  whole : added.length = 1 → ∃ v ∈ values.head?, added = [s.declaration s.property v]
  split : added.length ≠ 1 →
    added = (s.parts.zip values).map (fun e => s.declaration e.1 e.2) ∧
      ∀ d ∈ added, d.target ≠ s.target s.property

theorem nodup_targets (s : Shorthand) : (s.parts.map s.target).Nodup := by
  cases s <;> decide +kernel

theorem target_ne_property (s : Shorthand) :
    ∀ part ∈ s.parts, s.target part ≠ s.target s.property := by
  cases s <;> decide +kernel

theorem isCustom_property (s : Shorthand) : Name.isCustom s.property = false := by
  cases s <;> decide

theorem isCustom_part (s : Shorthand) : ∀ part ∈ s.parts, Name.isCustom part = false := by
  cases s <;> decide

theorem two_le_parts (s : Shorthand) : 2 ≤ s.parts.length := by
  cases s <;> decide

/-! ## The values of the parts -/

theorem length_assigned (s : Shorthand) {vs : List Value} (h : vs ≠ []) :
    (s.assigned vs).length = s.parts.length := by
  obtain ⟨v, rest, rfl⟩ := List.exists_cons_of_ne_nil h
  cases s <;> rfl

/-- What holds of the given values, and of zero, holds of the value of each part. -/
theorem forall_assigned (s : Shorthand) {P : Value → Prop} {vs : List Value}
    (hvs : ∀ v ∈ vs, P v) (hzero : P (.int 0)) : ∀ v ∈ s.assigned vs, P v := by
  cases vs with
  | nil =>
    intro v hv
    cases s <;> cases hv
  | cons first rest =>
    have hfirst : P first := hvs first List.mem_cons_self
    have hget (i : Nat) {w : Value} (hw : P w) : P (rest[i]?.getD w) := by
      cases hi : rest[i]? with
      | none => exact hw
      | some u => exact hvs u (List.mem_cons_of_mem _ (List.mem_of_getElem? hi))
    have hbox : ∀ v ∈ boxValues (first :: rest), P v := by
      simp only [boxValues, List.forall_mem_cons]
      exact ⟨hfirst, hget 0 hfirst, hget 1 hfirst, hget 2 (hget 0 hfirst), List.forall_mem_nil P⟩
    have hpair (second : Value → Value) (hsecond : P (second first)) :
        ∀ v ∈ pairValues second (first :: rest), P v := by
      simp only [pairValues, List.forall_mem_cons]
      exact ⟨hfirst, hget 0 hsecond, List.forall_mem_nil P⟩
    cases s with
    | margin => exact hbox
    | padding => exact hbox
    | inset => exact hbox
    | borderWidth => exact hbox
    | gap => exact hpair id hfirst
    | scale => exact hpair id hfirst
    | translate => exact hpair (fun _ => .int 0) hzero

/-! ## Declarations for the parts -/

/-- If each part has a declaration of its own, that one counts. -/
theorem valueOf_parts (s : Shorthand) {es : List (String × Value)}
    (hnodup : (es.map fun e => s.target e.1).Nodup)
    (hparts : ∀ e ∈ es, s.target e.1 ≠ s.target s.property) :
    ∀ e ∈ es, s.valueOf (es.map fun e => s.declaration e.1 e.2) e.1 = some e.2 := by
  induction es with
  | nil => exact List.forall_mem_nil _
  | cons first rest ih =>
    rw [List.map_cons, List.nodup_cons] at hnodup
    rw [List.forall_mem_cons] at hparts
    have hne : ∀ e ∈ rest, s.target e.1 ≠ s.target first.1 := by
      intro e he heq
      exact hnodup.1 (List.mem_map.mpr ⟨e, he, heq⟩)
    rw [List.forall_mem_cons]
    constructor
    · have hnone : (rest.map fun e => s.declaration e.1 e.2).filter
          (fun d => d.target = s.target first.1 ∨ d.target = s.target s.property) = [] := by
        rw [List.filter_eq_nil_iff, List.forall_mem_map]
        intro e he
        simp [declaration, hne e he, hparts.2 e he]
      rw [List.map_cons, valueOf, List.filter_cons_of_pos, hnone]
      · rfl
      · simp [declaration]
    · intro e he
      rw [← ih hnodup.2 hparts.2 e he, List.map_cons, valueOf, List.filter_cons_of_neg]
      · rfl
      · simp [declaration, (hne e he).symm, hparts.1]

theorem valueOf_whole (s : Shorthand) (part : String) (v : Value) :
    s.valueOf [s.declaration s.property v] part = some v := by
  simp [valueOf, declaration]

/-! ## Instructions of shorthands -/

/-- The path that the instruction of a shorthand asks for. -/
def pathOf (s : Shorthand) : String → Option (List String) :=
  if s.isTransform then StyleRule.transformPath else fun _ => none

def instruction (s : Shorthand) (parts : List (String × Value)) : Instruction :=
  if s.isTransform then .transformShorthand s.property parts
  else .styleShorthand s.property parts

theorem additions_instruction (s : Shorthand) (parts : List (String × Value)) :
    (s.instruction parts).additions = Addition.ofShorthand s.pathOf s.property parts := by
  cases s <;> rfl

theorem warnings_instruction (s : Shorthand) (parts : List (String × Value))
    (ignores : String → Bool) : (s.instruction parts).warnings ignores = [] := by
  cases s <;> rfl

/-- Without relocations a property with a value goes to its own target. -/
theorem declaration?_eq (s : Shorthand) {name : String} {v : Value}
    (hname : Name.isCustom name = false) (hv : v ≠ .null) :
    Addition.declaration? [] ⟨name, v, s.pathOf name⟩ = some (s.declaration name v) := by
  have hdeclaration : StyleRule.declaration [] name v (s.pathOf name) = s.declaration name v := by
    cases s <;> rfl
  unfold Addition.declaration?
  split
  · rename_i hnull
    exact absurd hnull hv
  · rw [hname, ← hdeclaration]
    rfl

theorem declarations_whole (s : Shorthand) {es : List (String × Value)} {v : Value}
    (hsame : Value.allSame (es.map (·.2)) = true) (hhead : (es.map (·.2)).head? = some v)
    (hvalue : v ≠ .null) :
    (s.instruction es).declarations [] = [s.declaration s.property v] := by
  cases es with
  | nil => cases hhead
  | cons e rest =>
    cases hhead
    rw [Instruction.declarations, additions_instruction, Addition.ofShorthand, if_pos hsame,
      List.filterMap_cons_some (s.declaration?_eq s.isCustom_property hvalue), List.filterMap_nil]

theorem declarations_split (s : Shorthand) {es : List (String × Value)}
    (hsame : ¬ Value.allSame (es.map (·.2)) = true)
    (hnames : ∀ e ∈ es, Name.isCustom e.1 = false) (hvalues : ∀ e ∈ es, e.2 ≠ .null) :
    (s.instruction es).declarations [] = es.map fun e => s.declaration e.1 e.2 := by
  cases es with
  | nil => exact absurd rfl hsame
  | cons e rest =>
    rw [Instruction.declarations, additions_instruction, Addition.ofShorthand, if_neg hsame,
      List.filterMap_map, ← List.filterMap_eq_map]
    apply List.filterMap_congr
    intro p hp
    exact s.declaration?_eq (hnames p hp) (hvalues p hp)

/-- The instruction of a shorthand expands it. -/
theorem expands_instruction (s : Shorthand) {values : List Value}
    (hlength : values.length = s.parts.length) (hvalues : ∀ v ∈ values, v ≠ .null)
    (hover : ∀ v ∈ values, v.Over .comparable) :
    s.Expands values ((s.instruction (s.parts.zip values)).declarations []) := by
  have htwo := s.two_le_parts
  have hkeys : (s.parts.zip values).map (·.1) = s.parts := List.map_fst_zip hlength.ge
  have hitems : (s.parts.zip values).map (·.2) = values := List.map_snd_zip hlength.le
  have hpart : ∀ e ∈ s.parts.zip values, e.1 ∈ s.parts := fun e he => (List.of_mem_zip he).1
  have hitem : ∀ e ∈ s.parts.zip values, e.2 ∈ values := fun e he => (List.of_mem_zip he).2
  by_cases hsame : Value.allSame values = true
  · -- one declaration counts for every part
    have hpairs := (Value.allSame_iff hover).mp hsame
    obtain ⟨v, hv⟩ : ∃ v, values.head? = some v := by
      cases values with
      | nil =>
        rw [List.length_nil] at hlength
        omega
      | cons v rest => exact ⟨v, rfl⟩
    have hmem : v ∈ values := List.mem_of_mem_head? hv
    rw [s.declarations_whole (hitems.symm ▸ hsame) (hitems.symm ▸ hv) (hvalues v hmem)]
    exact {
      complete := hlength
      assigns := fun e he => ⟨v, s.valueOf_whole e.1 v, hpairs v hmem e.2 (hitem e he)⟩
      single := ⟨fun _ => hpairs, fun _ => rfl⟩
      whole := fun _ => ⟨v, hv, rfl⟩
      split := fun h => absurd rfl h }
  · -- each part has its own
    have hlong : ((s.parts.zip values).map fun e => s.declaration e.1 e.2).length ≠ 1 := by
      rw [List.length_map, List.length_zip]
      omega
    have hnodup : ((s.parts.zip values).map fun e => s.target e.1).Nodup := by
      have htargets := s.nodup_targets
      rw [← hkeys, List.map_map] at htargets
      exact htargets
    have hne : ∀ e ∈ s.parts.zip values, s.target e.1 ≠ s.target s.property :=
      fun e he => s.target_ne_property e.1 (hpart e he)
    rw [s.declarations_split (hitems.symm ▸ hsame) (fun e he => s.isCustom_part e.1 (hpart e he))
      (fun e he => hvalues e.2 (hitem e he))]
    exact {
      complete := hlength
      assigns := fun e he =>
        ⟨e.2, s.valueOf_parts hnodup hne e he, Value.same_refl (hover e.2 (hitem e he))⟩
      single := ⟨fun h => absurd h hlong, fun h => absurd ((Value.allSame_iff hover).mpr h) hsame⟩
      whole := fun h => absurd h hlong
      split := fun _ => ⟨rfl, List.forall_mem_map.mpr hne⟩ }

end Shorthand

/-! ## Reading -/

theorem Number.toValue_ne_null (n : Number) : n.toValue ≠ .null := by
  intro h
  cases n <;> cases h

theorem Value.ofToken_ne_null (t : Token) : ofToken t ≠ .null := by
  fun_induction ofToken t with
  | case1 p n => exact n.number.toValue_ne_null
  | case2 p n unit =>
    unfold ofDimension
    simp only
    split
    · exact n.number.toValue_ne_null
    · split
      · intro h
        cases h
      · split
        · intro h
          cases h
        · intro h
          cases h
  | _ =>
    intro h
    cases h

namespace Declaration

theorem box_eq (property top right bottom left : String) (ts : List Token) :
    box property (top, right, bottom, left) ts =
      if 0 < (values ts).length ∧ (values ts).length ≤ 4 then
        [.styleShorthand property
          ([top, right, bottom, left].zip (Shorthand.boxValues (values ts)))]
      else rejected property ts := by
  unfold box
  rcases values ts with _ | ⟨a, _ | ⟨b, _ | ⟨c, _ | ⟨d, _ | ⟨e, rest⟩⟩⟩⟩⟩
  all_goals simp [Shorthand.boxValues]

theorem gap_eq (property : String) (ts : List Token) :
    gap property ts =
      if 0 < (values ts).length ∧ (values ts).length ≤ 2 then
        [.styleShorthand property
          (["row-gap", "column-gap"].zip (Shorthand.pairValues id (values ts)))]
      else rejected property ts := by
  unfold gap
  rcases values ts with _ | ⟨a, _ | ⟨b, _ | ⟨c, rest⟩⟩⟩
  all_goals simp [Shorthand.pairValues]

theorem scale_eq (property : String) (ts : List Token) :
    scale property ts =
      if 0 < (values ts).length ∧ (values ts).length ≤ 2 then
        [.transformShorthand property
          (["scaleX", "scaleY"].zip (Shorthand.pairValues id (values ts)))]
      else rejected property ts := by
  unfold scale
  rcases values ts with _ | ⟨a, _ | ⟨b, _ | ⟨c, rest⟩⟩⟩
  all_goals simp [Shorthand.pairValues]

/-- The sides that a translation has measured. -/
def sides : List Token → List Axis
  | [x] => side .width x
  | [x, y] => side .width x ++ side .height y
  | _ => []

theorem translate_eq (property : String) (ts : List Token) :
    translate property ts =
      if 0 < (values ts).length ∧ (values ts).length ≤ 2 then
        (sides (Token.significant ts)).map .measure ++
          [.transformShorthand property
            (["translateX", "translateY"].zip
              (Shorthand.pairValues (fun _ => .int 0) (values ts)))]
      else rejected property ts := by
  unfold translate values
  rcases Token.significant ts with _ | ⟨x, _ | ⟨y, _ | ⟨z, rest⟩⟩⟩
  all_goals simp [sides, measurement_eq, Shorthand.pairValues]

/-- A shorthand is read if it has a value, and not more than parts. -/
theorem known_shorthand (s : Shorthand) (ts : List Token) :
    ∃ axes : List Axis, known s.property ts =
      if 0 < (values ts).length ∧ (values ts).length ≤ s.parts.length then
        axes.map .measure ++ [s.instruction (s.parts.zip (s.assigned (values ts)))]
      else rejected s.property ts := by
  cases s with
  | margin => exact ⟨[], box_eq _ _ _ _ _ ts⟩
  | padding => exact ⟨[], box_eq _ _ _ _ _ ts⟩
  | inset => exact ⟨[], box_eq _ _ _ _ _ ts⟩
  | borderWidth => exact ⟨[], box_eq _ _ _ _ _ ts⟩
  | gap => exact ⟨[], gap_eq _ ts⟩
  | scale => exact ⟨[], scale_eq _ ts⟩
  | translate => exact ⟨_, translate_eq _ ts⟩

theorem read_shorthand (s : Shorthand) (text : String) :
    read { property := s.property, value := text } = known s.property (Token.ofText text) := by
  apply read_eq_known s.isCustom_property
  cases s <;> decide

end Declaration

/-- Measurements matter to neither declarations nor warnings. -/
theorem flatMap_measured {α : Type} (f : Instruction → List α)
    (h : ∀ axis, f (.measure axis) = []) (axes : List Axis) (i : Instruction) :
    (axes.map Instruction.measure ++ [i]).flatMap f = f i := by
  simp [h]

/-- A shorthand with no value or with more values than parts gives a warning, unless that is
ignored, and no declaration. Any other gives no warning, and declarations that expand it. -/
theorem run_shorthand (s : Shorthand) (text : String) (ctx : BuildContext)
    (hctx : ctx.relocations = []) (d : Draft) :
    let ts := Token.ofText text
    let r := (Draft.run ctx d (Declaration.read { property := s.property, value := text })).rule
    ((Token.significant ts).length = 0 ∨ s.parts.length < (Token.significant ts).length →
      r.declarations = d.rule.declarations ∧
      r.warnings =
        if ctx.ignores s.property then d.rule.warnings
        else some (d.rule.warnings.getD [] ++
          [{ kind := "IncompatibleNativeValue", property := s.property,
             value := some (Token.trimmed ts) }])) ∧
    (0 < (Token.significant ts).length → (Token.significant ts).length ≤ s.parts.length →
      r.warnings = d.rule.warnings ∧
      ∃ added, r.declarations = d.rule.declarations ++ added ∧
        s.Expands (s.assigned ((Token.significant ts).map Value.ofToken)) added) := by
  intro ts r
  simp only [ts, r]
  obtain ⟨axes, hread⟩ := Declaration.known_shorthand s (Token.ofText text)
  have hcount : (Declaration.values (Token.ofText text)).length =
      (Token.significant (Token.ofText text)).length := List.length_map _
  rw [Draft.run_declarations, Draft.run_warnings, hctx, Declaration.read_shorthand, hread, hcount]
  constructor
  · intro hn
    rw [if_neg (by omega)]
    constructor
    · exact List.append_nil _
    · simp only [Declaration.rejected, List.flatMap_cons, List.flatMap_nil, Instruction.warnings,
        List.append_nil]
      split
      · rfl
      · rfl
  · intro hpos hmax
    have hne : Declaration.values (Token.ofText text) ≠ [] := by
      rw [← List.length_pos_iff, hcount]
      exact hpos
    rw [if_pos ⟨hpos, hmax⟩, flatMap_measured _ fun _ => rfl, flatMap_measured _ fun _ => rfl,
      s.warnings_instruction]
    refine ⟨rfl, _, rfl, s.expands_instruction (s.length_assigned hne) ?_ ?_⟩
    · refine s.forall_assigned ?_ ?_
      · intro v hv
        obtain ⟨t, -, rfl⟩ := List.mem_map.mp hv
        exact Value.ofToken_ne_null t
      · intro h
        cases h
    · refine s.forall_assigned ?_ ?_
      · intro v hv
        exact (Declaration.plain_of_mem_values (Token.ofText_comparable text) hv).numbers
      · exact Number.int_ne_nan 0

/-- A whole number and one with a fraction of zero are the same; the declaration keeps the first. -/
theorem run_shorthand_same_numbers :
    let r := (Draft.run {} { rule := { specificity := {} } }
      (Declaration.read { property := "margin", value := "1px 1.0px" })).rule
    r.warnings = none ∧ r.declarations.map (·.target) = [.bare "margin"] := by
  intro r
  have htokens : (Token.significant (Token.ofText "1px 1.0px")).length = 2 := by decide +kernel
  obtain ⟨hwarnings, added, hadded, hexpands⟩ := (run_shorthand .margin "1px 1.0px" {} rfl
    { rule := { specificity := {} } }).2
    (by rw [htokens]; decide) (by rw [htokens]; decide)
  have hone : added.length = 1 := hexpands.single.mpr (by decide +kernel)
  obtain ⟨v, -, rfl⟩ := hexpands.whole hone
  have htarget : Shorthand.margin.target "margin" = .bare "margin" := by decide +kernel
  refine ⟨hwarnings, ?_⟩
  rw [show r.declarations = _ from hadded]
  exact congrArg (fun t => [t]) htarget

end StyleBundle
