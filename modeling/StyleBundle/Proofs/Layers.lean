import Mathlib
import StyleBundle.Declaration.Layer

/-!
# StyleBundle.Proofs.Layers

Layers of the shorthands for transitions and animations, class by class. Every component value
belongs to one class, told by itself, or to none. A layer is a function of the members of the
classes, each in their order; how members of different classes are interleaved does not matter.

* `transitionClass?`, `animationClass?`: the class of a component value.
* `transitionOf`, `animationOf`: the layer that the members of each class make. A field looks at one
  class only.
* `addTransitionPart_of`, `addAnimationPart_of`: one more component value joins its class.
* `transitionLayer_eq`, `animationLayer_eq`: a whole layer.
-/

namespace StyleBundle

/-- The text of an identifier or of a string. -/
def Token.word? : Token → Option String
  | .atom _ (.ident v) => some v
  | .atom _ (.string v _) => some v
  | _ => none

namespace Declaration

/-! ## Members of a class -/

section Members

variable {κ : Type} [DecidableEq κ] (class? : Token → Option κ)

/-- The members of each class among component values, in their order. -/
def members (ts : List Token) (k : κ) : List Token := ts.filter (class? · = some k)

/-- The members of each class after one more component value. -/
def joined (m : κ → List Token) (t : Token) (k : κ) : List Token :=
  if class? t = some k then m k ++ [t] else m k

theorem members_concat (ts : List Token) (t : Token) :
    members class? (ts ++ [t]) = joined class? (members class? ts) t := by
  funext k
  by_cases h : class? t = some k
  · simp [members, joined, h]
  · simp [members, joined, h]

end Members

/-! ## Transitions -/

inductive TransitionClass where
  | time
  | easing
  | property
  deriving DecidableEq, Repr

def transitionClass? (t : Token) : Option TransitionClass :=
  if (time? t).isSome then some .time
  else if (easing? t).isSome then some .easing
  else if t.isIdent then some .property
  else none

/-- The layer of transitions that the members of each class make. The first time is the duration and
the second one the delay; of the other classes the last member counts. -/
def transitionOf (m : TransitionClass → List Token) : TransitionLayer where
  property := ((m .property).getLast?.bind Token.word?).getD "all"
  duration := ((m .time)[0]?.bind time?).getD .zero
  delay := ((m .time)[1]?.bind time?).getD .zero
  easing := ((m .easing).getLast?.bind easing?).getD .ease

/-- What a component value sets is what its class reads it as. -/
inductive TransitionClass.Reads (t : Token) : Option TransitionClass → TransitionPart → Prop where
  | time {x : Time} (h : time? t = some x) : Reads t (some .time) (.time x)
  | easing {e : Easing} (h : easing? t = some e) : Reads t (some .easing) (.easing e)
  | property {v : String} (h : t.word? = some v) : Reads t (some .property) (.property v)
  | nothing : Reads t none .nothing

theorem transitionPart_reads (t : Token) :
    TransitionClass.Reads t (transitionClass? t) (transitionPart t) := by
  unfold transitionClass? transitionPart
  cases htime : time? t with
  | some x => exact .time htime
  | none =>
    cases heasing : easing? t with
    | some e => exact .easing heasing
    | none =>
      cases t with
      | function p f arguments => exact .nothing
      | block p b content => exact .nothing
      | atom p a =>
        cases a with
        | ident v => exact .property rfl
        | _ => exact .nothing

/-- One more component value joins its class. -/
theorem addTransitionPart_of (m : TransitionClass → List Token) (t : Token) :
    addTransitionPart (transitionOf m, (m .time).length) t =
      (transitionOf (joined transitionClass? m t),
        (joined transitionClass? m t .time).length) := by
  have hreads := transitionPart_reads t
  unfold addTransitionPart joined
  generalize transitionClass? t = k at hreads ⊢
  generalize transitionPart t = part at hreads ⊢
  cases hreads with
  | time h =>
    -- the first two times are told apart by how many there have been
    rcases hm : m .time with _ | ⟨first, _ | ⟨second, rest⟩⟩ <;> simp [transitionOf, hm, h]
  | easing h => simp [transitionOf, h]
  | property h => simp [transitionOf, h]
  | nothing => simp

theorem transitionLayer_eq (ts : List Token) :
    transitionLayer ts = transitionOf (members transitionClass? ts) := by
  have hrun : ts.foldl addTransitionPart ({}, 0) =
      (transitionOf (members transitionClass? ts), (members transitionClass? ts .time).length) := by
    induction ts using List.reverseRecOn with
    | nil => rfl
    | append_singleton ts t ih =>
      rw [List.foldl_append, ih, members_concat]
      exact addTransitionPart_of _ t
  rw [transitionLayer, hrun]

/-! ## Animations -/

inductive AnimationClass where
  | time
  | easing
  | count
  | direction
  | fillMode
  | playState
  | name
  deriving DecidableEq, Repr

/-- The class of a keyword that is no easing. Every word that means nothing else is a name, `none`
too. -/
def AnimationClass.ofKeyword (k : String) : AnimationClass :=
  if k = "infinite" then .count
  else if k ∈ directions then .direction
  else if k ∈ fillModes then .fillMode
  else if k ∈ playStates then .playState
  else .name

def animationClass? (t : Token) : Option AnimationClass :=
  if (time? t).isSome then some .time
  else if (easing? t).isSome then some .easing
  else
    match t with
    | .atom _ (.number _) => some .count
    | .atom _ (.ident v) => some (.ofKeyword (Text.lower v))
    | .atom _ (.string _ _) => some .name
    | _ => none

/-- How often an animation runs by a component value: a number, or a keyword. -/
def count? : Token → Option Value
  | .atom _ (.number n) => some n.number.toValue
  | t => t.keyword?.map .text

/-- The layer of animations that the members of each class make. The first time is the duration and
the last one after it the delay; of the other classes the last member counts. -/
def animationOf (m : AnimationClass → List Token) : AnimationLayer where
  name := ((m .name).getLast?.bind Token.word?).getD "none"
  duration := ((m .time).head?.bind time?).getD .zero
  easing := ((m .easing).getLast?.bind easing?).getD .ease
  delay := ((m .time).tail.getLast?.bind time?).getD .zero
  count := ((m .count).getLast?.bind count?).getD (.int 1)
  direction := ((m .direction).getLast?.bind Token.keyword?).getD "normal"
  fillMode := ((m .fillMode).getLast?.bind Token.keyword?).getD "none"
  playState := ((m .playState).getLast?.bind Token.keyword?).getD "running"

inductive AnimationClass.Reads (t : Token) : Option AnimationClass → AnimationPart → Prop where
  | time {x : Time} (h : time? t = some x) : Reads t (some .time) (.time x)
  | easing {e : Easing} (h : easing? t = some e) : Reads t (some .easing) (.easing e)
  | count {v : Value} (h : count? t = some v) : Reads t (some .count) (.count v)
  | direction {k : String} (h : t.keyword? = some k) : Reads t (some .direction) (.direction k)
  | fillMode {k : String} (h : t.keyword? = some k) : Reads t (some .fillMode) (.fillMode k)
  | playState {k : String} (h : t.keyword? = some k) : Reads t (some .playState) (.playState k)
  | name {v : String} (h : t.word? = some v) : Reads t (some .name) (.name v)
  | nothing : Reads t none .nothing

theorem animationKeyword_reads (p : Position) (v : String) :
    AnimationClass.Reads (.atom p (.ident v)) (some (.ofKeyword (Text.lower v)))
      (animationKeyword v) := by
  unfold AnimationClass.ofKeyword animationKeyword
  simp only [beq_iff_eq, List.contains_iff_mem]
  split
  · exact .count rfl
  · split
    · exact .direction rfl
    · split
      · exact .fillMode rfl
      · split
        · exact .playState rfl
        · exact .name rfl

theorem animationPart_reads (t : Token) :
    AnimationClass.Reads t (animationClass? t) (animationPart t) := by
  unfold animationClass? animationPart
  cases htime : time? t with
  | some x => exact .time htime
  | none =>
    cases heasing : easing? t with
    | some e => exact .easing heasing
    | none =>
      cases t with
      | function p f arguments => exact .nothing
      | block p b content => exact .nothing
      | atom p a =>
        cases a with
        | ident v => exact animationKeyword_reads p v
        | number n => exact .count rfl
        | string v closed => exact .name rfl
        | _ => exact .nothing

/-- One more component value joins its class. -/
theorem addAnimationPart_of (m : AnimationClass → List Token) (t : Token) :
    addAnimationPart (animationOf m, (m .time).length) t =
      (animationOf (joined animationClass? m t),
        (joined animationClass? m t .time).length) := by
  have hreads := animationPart_reads t
  unfold addAnimationPart joined
  generalize animationClass? t = k at hreads ⊢
  generalize animationPart t = part at hreads ⊢
  cases hreads with
  | time h =>
    -- the first time is told by there having been none
    cases hm : m .time with
    | nil => simp [animationOf, hm, h]
    | cons first rest => simp [animationOf, hm, h]
  | easing h => simp [animationOf, h]
  | count h => simp [animationOf, h]
  | direction h => simp [animationOf, h]
  | fillMode h => simp [animationOf, h]
  | playState h => simp [animationOf, h]
  | name h => simp [animationOf, h]
  | nothing => simp

theorem animationLayer_eq (ts : List Token) :
    animationLayer ts = animationOf (members animationClass? ts) := by
  have hrun : ts.foldl addAnimationPart ({}, 0) =
      (animationOf (members animationClass? ts), (members animationClass? ts .time).length) := by
    induction ts using List.reverseRecOn with
    | nil => rfl
    | append_singleton ts t ih =>
      rw [List.foldl_append, ih, members_concat]
      exact addAnimationPart_of _ t
  rw [animationLayer, hrun]

/-! ## Other orders -/

/-- A layer is what the members of its classes make, each field by its own class. So component
values in another order make the same layer, if those of each class follow each other as before. -/
theorem layers_by_class :
    (∀ ts : List Token, transitionLayer ts = transitionOf (members transitionClass? ts)) ∧
    (∀ ts : List Token, animationLayer ts = animationOf (members animationClass? ts)) ∧
    ∀ ts us : List Token,
      ((∀ k, members transitionClass? ts k = members transitionClass? us k) →
        transitionLayer ts = transitionLayer us) ∧
      ((∀ k, members animationClass? ts k = members animationClass? us k) →
        animationLayer ts = animationLayer us) := by
  refine ⟨transitionLayer_eq, animationLayer_eq, ?_⟩
  intro ts us
  constructor
  · intro h
    rw [transitionLayer_eq, transitionLayer_eq, funext h]
  · intro h
    rw [animationLayer_eq, animationLayer_eq, funext h]

/-- Eight component values in two orders; both keep the order of the three times. -/
theorem layers_by_class_two_orders :
    let word (v : String) : Token := .atom .start (.ident v)
    let seconds (n : Nat) : Token :=
      .atom .start (.dimension ⟨toString n, .finite false (n * Double.one), some n⟩ "S")
    let ts := [word "slide", seconds 1, word "Ease-In", word "INFINITE", seconds 2,
      word "alternate", word "paused", seconds 3]
    let us := [seconds 1, word "INFINITE", seconds 2, word "Ease-In", word "paused", seconds 3,
      word "slide", word "alternate"]
    let vs := [seconds 1, word "Ease-In", word "slide"]
    ((∀ k, members animationClass? ts k = members animationClass? us k) ∧
      ∀ k, members transitionClass? (ts.take 3) k = members transitionClass? vs k) ∧
    animationLayer ts = animationLayer us ∧
    (animationLayer us).duration = ⟨.int 1, "s"⟩ ∧ (animationLayer us).delay = ⟨.int 3, "s"⟩ ∧
    (animationLayer us).name = "slide" ∧ (animationLayer us).fillMode = "none" ∧
    transitionLayer (ts.take 3) = transitionLayer vs ∧
    (transitionLayer ts).delay = ⟨.int 2, "s"⟩ ∧ (transitionLayer ts).property = "paused" := by
  intro word seconds ts us vs
  have hanimation : ∀ k, members animationClass? ts k = members animationClass? us k := by
    intro k
    cases k <;> rfl
  have htransition :
      ∀ k, members transitionClass? (ts.take 3) k = members transitionClass? vs k := by
    intro k
    cases k <;> rfl
  exact ⟨⟨hanimation, htransition⟩, (layers_by_class.2.2 ts us).2 hanimation, rfl, rfl, rfl, rfl,
    (layers_by_class.2.2 _ _).1 htransition, rfl, rfl⟩

end Declaration

end StyleBundle
