import StyleBundle.Sheet.Media
import StyleBundle.Style.Specificity

/-!
# StyleBundle.Selector.Basic

What selectors select. A selector is of use if it names a class, perhaps with conditions on the
element, on a group around it or on the medium, or if it is a scope of custom properties.
-/

namespace StyleBundle

/-- A list, or nothing instead if it is empty. -/
def nonempty {α : Type} (xs : List α) : Option (List α) := if xs.isEmpty then none else some xs

/-- A set of names, kept in order and without repetition. -/
structure NameSet where
  names : List String := []
  deriving DecidableEq, Inhabited, Repr

namespace NameSet

def insert (name : String) : List String → List String
  | [] => [name]
  | n :: rest =>
    if name = n then n :: rest
    else if name < n then name :: n :: rest
    else n :: insert name rest

def ofList (names : List String) : NameSet := ⟨names.foldr insert []⟩

def contains (s : NameSet) (name : String) : Bool := s.names.contains name

end NameSet

/-- A condition on an attribute. -/
structure Attribute where
  name : String
  operator : Option String := none
  value : Option String := none
  deriving DecidableEq, Inhabited, Repr

def Attribute.text (a : Attribute) : String :=
  match a.operator with
  | none => "[" ++ a.name ++ "]"
  | some operator => "[" ++ a.name ++ operator ++ a.value.getD "None" ++ "]"

/-- Where custom properties are set for all elements. -/
inductive Scope where
  | root
  | universal
  deriving DecidableEq, Inhabited, Repr

/-- A selector for the elements of a class. The group is an element around them whose conditions
have to hold too. -/
structure ClassSelector where
  className : String
  specificity : Specificity := {}
  pseudoClasses : Option NameSet := none
  attributes : Option (List Attribute) := none
  groupClass : Option String := none
  groupPseudoClasses : Option NameSet := none
  groupAttributes : Option (List Attribute) := none
  media : Option (List MediaQuery) := none
  deriving DecidableEq, Inhabited, Repr

inductive Variant where
  | className (s : ClassSelector)
  /-- Custom properties, and the theme that they are set for. -/
  | customProperties (scope : Scope) (subtype : String)
  deriving DecidableEq, Inhabited, Repr

/-- How the dark theme is told. -/
inductive DarkStrategy where
  | media
  | className
  | attribute
  /-- A strategy that tells nothing. -/
  | other (name : String)
  deriving DecidableEq, Inhabited, Repr

namespace DarkStrategy

def name : DarkStrategy → String
  | .media => "media"
  | .className => "class"
  | .attribute => "attribute"
  | .other name => name

def ofName : String → DarkStrategy
  | "media" => .media
  | "class" => .className
  | "attribute" => .attribute
  | name => .other name

end DarkStrategy

/-- How the dark theme is told, and the class or attribute that tells it. -/
structure DarkMode where
  strategy : DarkStrategy := .media
  value : Option String := none
  deriving DecidableEq, Inhabited, Repr

end StyleBundle
