import StyleBundle.Bundle.Basic
import StyleBundle.Value.Encode

/-!
# StyleBundle.Bundle.Encode

Bundles as JSON. Members that say nothing are left out, in rules, rule sets, animations and
container queries.
-/

namespace StyleBundle

namespace Json

/-- The list of what the items become. -/
def arrayOf {α : Type} (f : α → Except Error Json) (items : List α) : Except Error Json := do
  return .array (← items.mapM f)

/-- Entries as pairs of a key and what the value becomes. -/
def pairsOf {α : Type} (f : α → Except Error Json) (entries : List (String × α)) :
    Except Error Json :=
  arrayOf (fun e => do return .array [.text e.1, ← f e.2]) entries

/-- Entries as members of an object. -/
def objectOf {α : Type} (f : α → Except Error Json) (entries : List (String × α)) :
    Except Error Json := do
  return .object (← entries.mapM fun e => do return (e.1, ← f e.2))

def ofNames? (names : Option NameSet) : Json := ofTexts ((names.map (·.names)).getD [])

def ofAttributes? (attributes : Option (List Attribute)) : Json :=
  ofTexts ((attributes.getD []).map Attribute.text)

end Json

def Target.toJson : Target → Json
  | .bare name => .text name
  | .path steps => .ofTexts steps

/-- A declaration: its value, where it goes, and `true` if it is deferred. -/
def StyleDeclaration.toJson (d : StyleDeclaration) : Except Error Json := do
  let value ← d.value.toJson
  return .array ([value, d.target.toJson] ++ if d.deferred then [.bool true] else [])

def Easing.toJson (e : Easing) : Except Error Json := e.toValue.toJson

def Time.toJson (t : Time) : Except Error Json := do return .text (← t.text)

def Transition.toJson (t : Transition) : Except Error Json := do
  let property := Json.ofTexts (t.property.getD [])
  let duration ← Json.arrayOf Time.toJson (t.duration.getD [])
  let delay ← Json.arrayOf Time.toJson (t.delay.getD [])
  let easing ← Json.arrayOf Easing.toJson (t.easing.getD [])
  return .compact [("property", property), ("duration", duration), ("delay", delay),
    ("timingFunction", easing)]

def ContainerNames.toJson : ContainerNames → Json
  | .unset => .null
  | .cleared => .bool false
  | .named names => .ofTexts names

def Container.toJson (c : Container) : Json :=
  .object [("names", c.names.toJson), ("type", c.kind.rawJson)]

def ContainerQuery.toJson (q : ContainerQuery) : Json :=
  .compact [("name", .ofText? q.name), ("condition", .ofText? q.condition),
    ("pseudoClasses", .ofNames? q.pseudoClasses), ("attrs", .ofAttributes? q.attributes)]

def Specificity.toJson (s : Specificity) : Json := .array (s.toList.map fun (n : Nat) => .int n)

def StyleRule.toJson (r : StyleRule) : Except Error Json := do
  let declarations ← Json.arrayOf StyleDeclaration.toJson r.declarations
  let customProperties ← Json.pairsOf Value.toJson (r.customProperties.getD [])
  let animations ← Json.objectOf Value.toJson (r.animations.getD [])
  let transition ← match r.transition with
    | some t => t.toJson
    | none => .ok .null
  return .compact [
    ("s", r.specificity.toJson),
    ("d", declarations),
    ("variables", customProperties),
    ("media", .ofTexts ((r.media.getD []).map MediaQuery.text)),
    ("containerQuery", .array ((r.containerQuery.getD []).map ContainerQuery.toJson)),
    ("pseudoClasses", .ofNames? r.pseudoClasses),
    ("attrs", .ofAttributes? r.attributes),
    ("animations", animations),
    ("transition", transition),
    ("container", (r.container.map Container.toJson).getD .null),
    ("requiresLayoutWidth", .bool r.needsWidth),
    ("requiresLayoutHeight", .bool r.needsHeight)]

def RuleSet.toJson (s : RuleSet) : Except Error Json := do
  let normal ← Json.arrayOf StyleRule.toJson (s.normal.getD [])
  let important ← Json.arrayOf StyleRule.toJson (s.important.getD [])
  return .compact [
    ("normal", normal),
    ("important", important),
    ("warnings", .ofTexts ((s.warnings.getD []).map Warning.text)),
    ("variables", .bool s.customProperties),
    ("container", .bool s.container),
    ("animation", .bool s.animation),
    ("hover", .bool s.hover),
    ("active", .bool s.active),
    ("focus", .bool s.focus)]

def AnimationStep.toJson (f : AnimationStep) : Except Error Json := do
  return .object [("value", ← f.value.toJson), ("progress", .ofNumber f.progress)]

def Animation.toJson (a : Animation) : Except Error Json := do
  let frames ← Json.pairsOf (Json.arrayOf AnimationStep.toJson) a.frames
  let easings ← Json.arrayOf Value.toJson (a.easings.getD [])
  return .compact [("frames", frames), ("easingFunctions", easings),
    ("requiresLayoutWidth", .bool a.needsWidth), ("requiresLayoutHeight", .bool a.needsHeight)]

def Variables.toJson (v : Variables) : Except Error Json :=
  Json.objectOf (Json.objectOf Value.toJson) v

/-- The document of a bundle. -/
def Bundle.toJson (b : Bundle) : Except Error Json := do
  let rules ← Json.pairsOf RuleSet.toJson b.rules
  let keyframes ← Json.pairsOf Animation.toJson b.keyframes
  let rootVariables ← b.rootVariables.toJson
  let universalVariables ← b.universalVariables.toJson
  let rem := match b.rem with
    | some n => [("rem", Json.ofNumber n)]
    | none => []
  return .object ([
    ("$compiled", .bool true),
    ("rules", rules),
    ("keyframes", keyframes),
    ("rootVariables", rootVariables),
    ("universalVariables", universalVariables),
    ("flags", .object (b.flags.map fun e => (e.1, e.2.toValue.rawJson)))] ++ rem)

end StyleBundle
