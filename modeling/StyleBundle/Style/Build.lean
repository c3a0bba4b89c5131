import StyleBundle.Style.Relocation
import StyleBundle.Style.Rule

/-!
# StyleBundle.Style.Build

Carrying out instructions on a rule. Each kind of instruction changes its own part of the rule and
no other.

* Transitions: a property of its own wins over the shorthand, wherever it stands; of shorthands the
  first counts.
* Animations: likewise, but a shorthand without layers counts for nothing.
* Containers: names add up, unless one declaration clears them.
-/

namespace StyleBundle

/-- What instructions are carried out with: the relocations of the block, and the properties whose
warnings are ignored. -/
structure BuildContext where
  relocations : Relocations := []
  ignores : String → Bool := fun _ => false

/-- A rule that is being built, and the notes taken on the way. -/
structure Draft where
  rule : StyleRule
  notes : List Note := []
  deriving Inhabited

namespace StyleRule

/-- Adds a custom property. -/
def addVariable (r : StyleRule) (name : String) (value : Value) : StyleRule :=
  { r with customProperties := some (r.customProperties.getD [] ++ [(name, value)]) }

/-- The declaration of a property. -/
def declaration (table : Relocations) (name : String) (value : Value)
    (path : Option (List String)) : StyleDeclaration :=
  let native := Name.native name
  let target := match table.resolve native path with
    | some steps => .path steps
    | none => .bare native
  { value, target, deferred := value.isDeferred }

/-- Adds a property, custom or plain. A property without a value is not added. -/
def addStyle (table : Relocations) (r : StyleRule) (name : String) (value : Value)
    (path : Option (List String)) : StyleRule :=
  match value with
  | .null => r
  | _ =>
    if Name.isCustom name then r.addVariable name value
    else { r with declarations := r.declarations ++ [declaration table name value path] }

/-- Adds a shorthand: as one property if all its parts have the same value, or else part by
part. `pathOf` gives the path of a property. -/
def addShorthand (table : Relocations) (pathOf : String → Option (List String)) (r : StyleRule)
    (name : String) (parts : List (String × Value)) : StyleRule :=
  match parts with
  | [] => r
  | (_, value) :: _ =>
    if Value.allSame (parts.map (·.2)) then r.addStyle table name value (pathOf name)
    else parts.foldl (fun r part => r.addStyle table part.1 part.2 (pathOf part.1)) r

/-- The path of a transform. -/
def transformPath (name : String) : Option (List String) := some ["transform", name]

end StyleRule

namespace Container

/-- The name of a container that is given none. -/
def defaultName : String := "___default___"

/-- Names in the order in which they first come, each once. -/
def distinct (names : List String) : List String :=
  names.foldl (fun seen n => if seen.contains n then seen else seen ++ [n]) []

/-- The names that a declaration contributes. -/
def contributed (property : String) (s : ContainerSetting) : ContainerNames :=
  if property = "container-type" || (s.names.isNone && !s.cleared) then .named [defaultName]
  else if s.cleared then .cleared
  else .named (s.names.getD [])

/-- Names put together; once cleared they stay so. -/
def merge : ContainerNames → ContainerNames → ContainerNames
  | _, .cleared => .cleared
  | .cleared, _ => .cleared
  | .named old, .named new => .named (distinct (old ++ new))
  | .unset, new => new
  | old, .unset => old

def apply (c : Container) (property : String) (s : ContainerSetting) : Container where
  names := merge c.names (contributed property s)
  kind := if s.kind.isVacant then c.kind else s.kind

end Container

namespace Transition

/-- What a field has, or else what the shorthand gives it. -/
def orElse {α : Type} (field : Option (List α)) (layers : List TransitionLayer)
    (f : TransitionLayer → α) : Option (List α) :=
  some (field.getD (layers.map f))

def apply (t : Transition) : TransitionSetting → Transition
  | .properties names => { t with property := some (names.map Name.native) }
  | .durations times => { t with duration := some times }
  | .delays times => { t with delay := some times }
  | .easings easings => { t with easing := some easings }
  | .layers layers =>
    { property := orElse t.property layers fun l => Name.native l.property,
      duration := orElse t.duration layers (·.duration),
      delay := orElse t.delay layers (·.delay),
      easing := orElse t.easing layers (·.easing) }
  | .unknown _ => t

/-- The note on a setting that changes nothing. -/
def notes : TransitionSetting → List Note
  | .unknown property => [.unknownTransition property]
  | _ => []

end Transition

namespace AnimationSetting

/-- The values of each property over some layers, in the order of the layers. -/
def grouped (ls : List (Table Value)) : Table (List Value) :=
  ls.foldl (fun t layer => layer.foldl (fun t e => t.push e.1 e.2) t) []

/-- The table of animation fields after a setting. -/
def apply (fields : Table Value) : AnimationSetting → Table Value
  | .field property value => fields.put (Name.animationField property) value
  | .layers ls =>
    (grouped ls).foldl (fun t e => t.putNew (Name.animationField e.1) (.list e.2)) fields

end AnimationSetting

namespace Draft

/-- Carries out one instruction. -/
def apply (ctx : BuildContext) (d : Draft) (i : Instruction) : Draft :=
  let r := d.rule
  match i with
  | .style name value path => { d with rule := r.addStyle ctx.relocations name value path }
  | .transform name value => { d with rule := r.addStyle ctx.relocations name value none }
  | .transformShorthand name parts =>
    { d with rule := r.addShorthand ctx.relocations StyleRule.transformPath name parts }
  | .styleShorthand name parts =>
    { d with rule := r.addShorthand ctx.relocations (fun _ => none) name parts }
  | .container property setting =>
    { d with rule := { r with container := some ((r.container.getD {}).apply property setting) } }
  | .transition setting =>
    { rule := { r with transition := some ((r.transition.getD {}).apply setting) },
      notes := d.notes ++ Transition.notes setting }
  | .animation setting =>
    { d with rule := { r with animations := some (setting.apply (r.animations.getD [])) } }
  | .measure .width => { d with rule := { r with needsWidth := true } }
  | .measure .height => { d with rule := { r with needsHeight := true } }
  | .warn w =>
    if ctx.ignores w.property then { d with notes := d.notes ++ [.suppressedWarning w] }
    else { d with rule := { r with warnings := some (r.warnings.getD [] ++ [w]) } }

/-- Carries out instructions one after the other. -/
def run (ctx : BuildContext) (d : Draft) (is : List Instruction) : Draft :=
  is.foldl (apply ctx) d

end Draft

/-- The rule that declarations make, given how a declaration is read. -/
def buildRule (ctx : BuildContext) (read : Declaration → List Instruction)
    (specificity : Specificity) (ds : List Declaration) : Draft :=
  Draft.run ctx { rule := { specificity } } (ds.flatMap read)

end StyleBundle
