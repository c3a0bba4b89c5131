import StyleBundle.Value.Basic

/-!
# StyleBundle.Declaration.Instruction

What a declaration asks of the rule it stands in. A declaration is read into instructions without
knowledge of the rule; the rule is what carrying them out gives.
-/

namespace StyleBundle

/-- A property and its value as text. -/
structure Declaration where
  property : String
  value : String
  deriving DecidableEq, Inhabited, Repr

/-- A side of the element's box that has to be measured. -/
inductive Axis where
  | width
  | height
  deriving DecidableEq, Inhabited, Repr

/-- The axis with a name; any other name than that of the width means the height. -/
def Axis.ofName (s : String) : Axis := if s = "width" then .width else .height

/-- Something in a declaration that the host cannot show. -/
structure Warning where
  kind : String
  property : String
  value : Option String := none
  deriving DecidableEq, Inhabited, Repr

def Warning.text (w : Warning) : String :=
  match w.value with
  | none => w.kind ++ ": " ++ w.property
  | some v => w.kind ++ ": " ++ w.property ++ ": " ++ v

/-- What a declaration says of the container that its rule declares: names, the clearing of all
names, and a type. -/
structure ContainerSetting where
  names : Option (List String) := none
  cleared : Bool := false
  kind : Value := .null
  deriving Inhabited

/-- One layer of the shorthand for transitions. -/
structure TransitionLayer where
  property : String := "all"
  duration : Time := .zero
  delay : Time := .zero
  easing : Easing := .ease
  deriving Inhabited

def TransitionLayer.toValue (l : TransitionLayer) : Value :=
  .layer l.property l.duration l.delay l.easing.kind l.easing.args

inductive TransitionSetting where
  | properties (names : List String)
  | durations (times : List Time)
  | delays (times : List Time)
  | easings (easings : List Easing)
  /-- The shorthand. -/
  | layers (layers : List TransitionLayer)
  /-- A property that is none of transitions. -/
  | unknown (property : String)
  deriving Inhabited

inductive AnimationSetting where
  /-- One property. -/
  | field (property : String) (value : Value)
  /-- The shorthand, each layer as the properties that it sets. -/
  | layers (layers : List (Table Value))
  deriving Inhabited

inductive Instruction where
  /-- A plain property, at a path of its own if one is given. -/
  | style (name : String) (value : Value) (path : Option (List String))
  | transform (name : String) (value : Value)
  /-- A shorthand for transforms, with the value of each part. -/
  | transformShorthand (name : String) (parts : List (String × Value))
  /-- A shorthand for plain properties, with the value of each part. -/
  | styleShorthand (name : String) (parts : List (String × Value))
  | container (property : String) (setting : ContainerSetting)
  | transition (setting : TransitionSetting)
  | animation (setting : AnimationSetting)
  /-- A value depends on the measured size of the element. -/
  | measure (axis : Axis)
  | warn (w : Warning)
  deriving Inhabited

end StyleBundle
