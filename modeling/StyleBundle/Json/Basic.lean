import StyleBundle.Value.Basic

/-!
# StyleBundle.Json.Basic

JSON documents whose objects keep the order of their members. A document may still hold a value
that has no form in JSON; it shows only when the document is written.
-/

namespace StyleBundle

inductive Json where
  | null
  | bool (b : Bool)
  | int (n : Int)
  | double (d : Double)
  | text (s : String)
  | array (items : List Json)
  | object (members : List (String × Json))
  /-- A value that has no form in JSON. -/
  | foreign (v : Value)
  deriving Inhabited

namespace Json

def ofNumber : Number → Json
  | .int n => .int n
  | .double d => .double d

def ofTexts (items : List String) : Json := .array (items.map .text)

def ofText? : Option String → Json
  | some s => .text s
  | none => .null

/-- Whether a member is left out of a compact object: nothing, falsehood, and empty containers. -/
def isIdle : Json → Bool
  | .null => true
  | .bool b => !b
  | .array items => items.isEmpty
  | .object members => members.isEmpty
  | _ => false

/-- The object of those members that say something. -/
def compact (members : List (String × Json)) : Json :=
  .object (members.filter (!·.2.isIdle))

end Json

end StyleBundle
