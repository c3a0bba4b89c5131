import StyleBundle.Declaration.Instruction
import StyleBundle.Selector.Basic

/-!
# StyleBundle.Style.Rule

Compiled rules: the declarations, custom properties, container, transitions and animations of one
block, with the conditions under which they hold.
-/

namespace StyleBundle

/-- Where a declaration goes: to the property of a name, or to a path. -/
inductive Target where
  | bare (name : String)
  | path (steps : List String)
  deriving DecidableEq, Inhabited, Repr

structure StyleDeclaration where
  value : Value
  target : Target
  deferred : Bool := false
  deriving Inhabited

/-- The names of a container: not set, cleared for good, or some names. -/
inductive ContainerNames where
  | unset
  | cleared
  | named (names : List String)
  deriving DecidableEq, Inhabited, Repr

/-- The container that a rule declares. -/
structure Container where
  names : ContainerNames := .unset
  kind : Value := .null
  deriving Inhabited

/-- A condition on a container around the element: its name, the condition of a container rule, or
the conditions on a group. -/
structure ContainerQuery where
  name : Option String := none
  condition : Option String := none
  pseudoClasses : Option NameSet := none
  attributes : Option (List Attribute) := none
  deriving DecidableEq, Inhabited, Repr

structure Transition where
  property : Option (List String) := none
  duration : Option (List Time) := none
  delay : Option (List Time) := none
  easing : Option (List Easing) := none
  deriving Inhabited

structure StyleRule where
  specificity : Specificity
  declarations : List StyleDeclaration := []
  customProperties : Option (List (String × Value)) := none
  media : Option (List MediaQuery) := none
  containerQuery : Option (List ContainerQuery) := none
  pseudoClasses : Option NameSet := none
  attributes : Option (List Attribute) := none
  animations : Option (Table Value) := none
  transition : Option Transition := none
  container : Option Container := none
  warnings : Option (List Warning) := none
  needsWidth : Bool := false
  needsHeight : Bool := false
  deriving Inhabited

/-- Whether a list is there and holds something. -/
def holds {α : Type} : Option (List α) → Bool
  | some (_ :: _) => true
  | _ => false

/-- Whether a rule contributes nothing; warnings do not count. -/
def StyleRule.isEmpty (r : StyleRule) : Bool :=
  r.declarations.isEmpty && !holds r.customProperties && r.container.isNone &&
    !holds r.animations && r.transition.isNone

end StyleBundle
