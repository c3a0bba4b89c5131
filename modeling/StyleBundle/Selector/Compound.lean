import StyleBundle.Selector.Basic
import StyleBundle.Token.Scan

/-!
# StyleBundle.Selector.Compound

Selectors as compounds: runs of conditions on one element, each run inside the one before it. Only
classes, pseudo-classes, attributes, `:root` and `*` are read; a selector with anything else in it
has no compounds.
-/

namespace StyleBundle

structure Compound where
  classes : List String := []
  pseudoClasses : List String := []
  attributes : List Attribute := []
  root : Bool := false
  universal : Bool := false
  deriving DecidableEq, Inhabited, Repr

namespace Compound

def isEmpty (c : Compound) : Bool :=
  c.classes.isEmpty && c.pseudoClasses.isEmpty && c.attributes.isEmpty && !c.root && !c.universal

/-- How many conditions a compound has; `*` is none. -/
def weight (c : Compound) : Nat :=
  c.classes.length + c.pseudoClasses.length + c.attributes.length + (if c.root then 1 else 0)

/-- How many conditions some compounds have together. -/
def totalWeight : List Compound → Nat
  | [] => 0
  | c :: rest => c.weight + totalWeight rest

def addClass (c : Compound) (name : String) : Compound :=
  { c with classes := c.classes ++ [name] }

/-- A pseudo-class; `:root` is told apart from the others. -/
def addPseudoClass (c : Compound) (name : String) : Compound :=
  let k := Text.lower name
  if k = "root" then { c with root := true } else { c with pseudoClasses := c.pseudoClasses ++ [k] }

def addAttribute (c : Compound) (a : Attribute) : Compound :=
  { c with attributes := c.attributes ++ [a] }

end Compound

namespace Attribute

/-- The literals at the start of a list put together, and what follows them. -/
def operatorMarks : List Token → String × List Token
  | .atom _ (.literal text) :: rest =>
    let r := operatorMarks rest
    (text ++ r.1, r.2)
  | ts => ("", ts)

/-- The condition in square brackets: a name, and perhaps an operator and a value. -/
def ofTokens? (content : List Token) : Option Attribute :=
  match Token.significant content with
  | .atom _ (.ident name) :: rest =>
    let (operator, after) := operatorMarks rest
    if operator.isEmpty then some { name }
    else
      match after with
      | .atom _ (.ident v) :: _ => some { name, operator := some operator, value := some v }
      | .atom _ (.string v _) :: _ => some { name, operator := some operator, value := some v }
      | _ => none
  | _ => none

end Attribute

namespace Compound

/-- Compounds in their order; an empty one at the end does not count. -/
def finish (done : List Compound) (current : Compound) : Option (List Compound) :=
  let all := if current.isEmpty then done else done ++ [current]
  if all.isEmpty then none else some all

/-- Reads compounds; `done` holds those before the one that is read. -/
def readFrom (done : List Compound) (current : Compound) : List Token → Option (List Compound)
  | [] => finish done current
  | .atom _ (.whitespace _) :: rest =>
    if current.isEmpty then readFrom done current rest else readFrom (done ++ [current]) {} rest
  | .atom _ (.literal "*") :: rest => readFrom done { current with universal := true } rest
  | .atom _ (.literal ".") :: .atom _ (.ident name) :: rest =>
    readFrom done (current.addClass name) rest
  | .atom _ (.literal ":") :: .atom _ (.ident name) :: rest =>
    readFrom done (current.addPseudoClass name) rest
  | .block _ .square content :: rest =>
    match Attribute.ofTokens? content with
    | some a => readFrom done (current.addAttribute a) rest
    | none => none
  | _ => none

/-- The compounds of a selector, the subject last. -/
def listOfTokens? (ts : List Token) : Option (List Compound) := readFrom [] {} ts

end Compound

end StyleBundle
