import StyleBundle.Style.Rule

/-!
# StyleBundle.Style.RuleSet

The rules of one class, important ones apart, with a summary of what they need. Rules that
contribute nothing are dropped, but their warnings are kept.
-/

namespace StyleBundle

structure RuleSet where
  normal : Option (List StyleRule) := none
  important : Option (List StyleRule) := none
  warnings : Option (List Warning) := none
  customProperties : Bool := false
  container : Bool := false
  animation : Bool := false
  hover : Bool := false
  active : Bool := false
  focus : Bool := false
  deriving Inhabited

namespace RuleSet

/-- Adds to the end of a list that may not be there yet. -/
def push {α : Type} (xs : Option (List α)) (x : α) : Option (List α) := some (xs.getD [] ++ [x])

/-- Keeps the warnings of a rule. -/
def addWarnings (s : RuleSet) (r : StyleRule) : RuleSet :=
  if holds r.warnings then
    { s with warnings := some (s.warnings.getD [] ++ r.warnings.getD []) }
  else s

def hasPseudoClass (r : StyleRule) (name : String) : Bool :=
  match r.pseudoClasses with
  | some names => names.contains name
  | none => false

/-- Adds what a rule contributes. -/
def addContent (s : RuleSet) (r : StyleRule) : RuleSet :=
  let r := { r with warnings := none }
  { s with
    normal := if r.specificity.isImportant then s.normal else push s.normal r,
    important := if r.specificity.isImportant then push s.important r else s.important,
    customProperties := s.customProperties || holds r.customProperties,
    container := s.container || r.container.isSome,
    animation := s.animation || holds r.animations || r.transition.isSome,
    hover := s.hover || hasPseudoClass r "hover",
    active := s.active || hasPseudoClass r "active",
    focus := s.focus || hasPseudoClass r "focus" }

def addRule (s : RuleSet) (r : StyleRule) : RuleSet :=
  let s := s.addWarnings r
  if r.isEmpty then s else s.addContent r

def ofRules (rs : List StyleRule) : RuleSet := rs.foldl addRule {}

/-- Whether a rule set has anything to say. -/
def isUseful (s : RuleSet) : Bool := s.normal.isSome || s.important.isSome || s.warnings.isSome

/-- The rule sets of the rules under each key, in the order of the keys. -/
def ofTable (rules : Table (List StyleRule)) : List (String × RuleSet) :=
  (rules.map fun e => (e.1, ofRules e.2)).filter (·.2.isUseful)

end RuleSet

end StyleBundle
