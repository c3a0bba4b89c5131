import StyleBundle.Value.Literal

/-!
# StyleBundle.Error

Why a compilation stops. Each error is its cause; `Error.message` is where causes
are put into words.
-/

namespace StyleBundle

/-- A rule of the source that cannot be read, and where it stands if that is known. -/
structure SourceError where
  problem : String
  line : Option Int := none
  column : Option Int := none
  deriving DecidableEq, Inhabited, Repr

/-- The tiers of specificity, the most important first. -/
inductive Tier where
  | important
  | inline
  | pseudoElements
  | className
  | order
  deriving DecidableEq, Inhabited, Repr

def Tier.name : Tier → String
  | .important => "important"
  | .inline => "inline"
  | .pseudoElements => "pseudo_elements"
  | .className => "class_name"
  | .order => "order"

inductive Error where
  /-- The source is malformed. -/
  | source (e : SourceError)
  /-- An animation frame has a value that cannot be animated. -/
  | structuredFrame (animation property : String) (value : Value)
  /-- A tier of specificity is below zero. -/
  | negativeTier (tier : Tier)
  /-- An integer has to become a double and is too large. -/
  | integerTooLarge
  /-- A value has no form in JSON. -/
  | notSerialisable (kind : String)
  /-- A pattern of the options is malformed. -/
  | badPattern
  deriving Inhabited

def SourceError.message (e : SourceError) : String :=
  match e.line with
  | none => e.problem
  | some line =>
    let column := match e.column with
      | some n => toString n
      | none => "None"
    e.problem ++ " (line " ++ toString line ++ ", column " ++ column ++ ")"

def Error.message : Error → String
  | .source e => e.message
  | .structuredFrame animation property value =>
    "@keyframes " ++ animation ++ ": animated property " ++ Text.quoted property ++
      " resolved to a structured value " ++ value.literal ++
      "; only primitive values can be animated"
  | .negativeTier tier => "Specificity tier " ++ Text.quoted tier.name ++ " must be non-negative"
  | .integerTooLarge => "int too large to convert to float"
  | .notSerialisable kind => "Object of type " ++ kind ++ " is not JSON serializable"
  | .badPattern => "malformed pattern"

end StyleBundle
