import Mathlib
import StyleBundle.Style.Animation
import StyleBundle.Style.Block

/-!
# StyleBundle.Proofs.Build

The head and the body of a rule. The head is the rank of a rule and the conditions under which it
holds; the body is what it says. Instructions work on the body and never look at the head
(`run_withHead`), so a rule that is built has the head that it was begun with, and the same body
whatever that head is (`buildRule_eq`). The frames of an animation are made of bodies alone
(`ofKeyframes_order`).
-/

namespace StyleBundle

namespace StyleRule

/-- A rule with the head of another. -/
def withHead (r head : StyleRule) : StyleRule :=
  { r with
    specificity := head.specificity,
    media := head.media,
    containerQuery := head.containerQuery,
    pseudoClasses := head.pseudoClasses,
    attributes := head.attributes }

/-- What a rule says, without its rank and its conditions. -/
def body (r : StyleRule) : StyleRule := r.withHead { specificity := {} }

variable (table : Relocations) (r head : StyleRule)

theorem addStyle_withHead (name : String) (value : Value) (path : Option (List String)) :
    (r.withHead head).addStyle table name value path =
      (r.addStyle table name value path).withHead head := by
  unfold addStyle
  split
  · rfl
  · split <;> rfl

theorem addParts_withHead (pathOf : String → Option (List String)) (parts : List (String × Value)) :
    let add (r : StyleRule) (part : String × Value) : StyleRule :=
      r.addStyle table part.1 part.2 (pathOf part.1)
    parts.foldl add (r.withHead head) = (parts.foldl add r).withHead head := by
  intro add
  induction parts generalizing r with
  | nil => rfl
  | cons part rest ih =>
    have hpart : add (r.withHead head) part = (add r part).withHead head :=
      addStyle_withHead table r head _ _ _
    rw [List.foldl_cons, List.foldl_cons, hpart, ih]

theorem addShorthand_withHead (pathOf : String → Option (List String)) (name : String)
    (parts : List (String × Value)) :
    (r.withHead head).addShorthand table pathOf name parts =
      (r.addShorthand table pathOf name parts).withHead head := by
  unfold addShorthand
  split
  · rfl
  · split
    · exact addStyle_withHead table r head _ _ _
    · exact addParts_withHead table r head pathOf _

end StyleRule

namespace Draft

/-- A draft whose rule has the head of another. -/
def withHead (d : Draft) (head : StyleRule) : Draft := { d with rule := d.rule.withHead head }

theorem apply_withHead (ctx : BuildContext) (d : Draft) (head : StyleRule) (i : Instruction) :
    apply ctx (d.withHead head) i = (apply ctx d i).withHead head := by
  cases i with
  | style name value path =>
    simp only [apply, withHead, StyleRule.addStyle_withHead]
  | transform name value =>
    simp only [apply, withHead, StyleRule.addStyle_withHead]
  | transformShorthand name parts =>
    simp only [apply, withHead, StyleRule.addShorthand_withHead]
  | styleShorthand name parts =>
    simp only [apply, withHead, StyleRule.addShorthand_withHead]
  | container property setting => rfl
  | transition setting => rfl
  | animation setting => rfl
  | measure axis => cases axis <;> rfl
  | warn w =>
    unfold apply
    simp only
    split <;> rfl

theorem run_withHead (ctx : BuildContext) (d : Draft) (head : StyleRule)
    (is : List Instruction) : run ctx (d.withHead head) is = (run ctx d is).withHead head := by
  unfold run
  induction is generalizing d with
  | nil => rfl
  | cons i rest ih => rw [List.foldl_cons, List.foldl_cons, apply_withHead, ih]

end Draft

/-- A rule that is built has the head that it was begun with, and a body that does not depend on
it. -/
theorem buildRule_eq (ctx : BuildContext) (read : Declaration → List Instruction)
    (specificity : Specificity) (ds : List Declaration) :
    buildRule ctx read specificity ds =
      (buildRule ctx read {} ds).withHead { specificity } :=
  Draft.run_withHead ctx { rule := { specificity := {} } } { specificity } (ds.flatMap read)

theorem Specificity.ofTiers_of_nonneg (important className : Nat) {order : Int} (h : 0 ≤ order) :
    ofTiers important 0 0 className order = .ok { important, className, order := order.toNat } := by
  have hneg : ¬ order < 0 := Int.not_lt.mpr h
  have himportant : ¬ (important : Int) < 0 := Int.not_lt.mpr (Int.natCast_nonneg _)
  have hclassName : ¬ (className : Int) < 0 := Int.not_lt.mpr (Int.natCast_nonneg _)
  simp [ofTiers, tier, hneg, himportant, hclassName, bind, Except.bind, pure, Except.pure]

/-! ## Keyframes -/

/-- A frame takes nothing from the head of its rule, so it is the same for every block. -/
theorem RawFrame.addKeyframe_order (ctx : BuildContext) (read : Declaration → List Instruction)
    {order order' : Int} (h : 0 ≤ order) (h' : 0 ≤ order') :
    addKeyframe ctx read order = addKeyframe ctx read order' := by
  have hframe {order : Int} (h : 0 ≤ order) :
      Specificity.ofTiers Specificity.frameImportance 0 0 1 order = .ok
        { important := Specificity.frameImportance, className := 1, order := order.toNat } :=
    Specificity.ofTiers_of_nonneg Specificity.frameImportance 1 h
  funext s k
  unfold addKeyframe rule
  rw [hframe h, hframe h']
  simp only [bind, Noted.bind, Noted.ofExcept]
  rw [buildRule_eq, buildRule_eq ctx read { important := _, className := _, order := order'.toNat }]
  rfl

theorem Animation.ofKeyframes_order (ctx : BuildContext) (read : Declaration → List Instruction)
    {order order' : Int} (h : 0 ≤ order) (h' : 0 ≤ order') (k : Keyframes) :
    ofKeyframes ctx read order k = ofKeyframes ctx read order' k := by
  unfold ofKeyframes RawFrame.ofKeyframes
  rw [RawFrame.addKeyframe_order ctx read h h']

end StyleBundle
