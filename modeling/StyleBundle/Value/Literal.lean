import StyleBundle.Value.Basic
import StyleBundle.Text.Quoted

/-!
# StyleBundle.Value.Literal

Values as diagnostics spell them. Text is quoted, lists stand in square brackets, the arguments of
a call or an easing in round ones, where a single argument has a comma after it.
-/

namespace StyleBundle

namespace Literal

def bool (b : Bool) : String := if b then "True" else "False"

/-- Items in square brackets. -/
def list (items : List String) : String :=
  "[" ++ ", ".intercalate items ++ "]"

/-- Items in round brackets. -/
def tuple : List String → String
  | [item] => "(" ++ item ++ ",)"
  | items => "(" ++ ", ".intercalate items ++ ")"

/-- Keys and items in braces. -/
def table (entries : List (String × String)) : String :=
  "\x7b" ++ ", ".intercalate (entries.map fun e => Text.quoted e.1 ++ ": " ++ e.2) ++ "\x7d"

def time (t : Time) : String :=
  "Time(value=" ++ t.value.text ++ ", unit=" ++ Text.quoted t.unit ++ ")"

def easing (kind args : String) : String :=
  "EasingFunction(type=" ++ Text.quoted kind ++ ", args=" ++ args ++ ")"

end Literal

namespace Value

mutual

/-- The spelling of a value. -/
def literal : Value → String
  | .null => "None"
  | .bool b => Literal.bool b
  | .int n => toString n
  | .double d => d.text
  | .text s => Text.quoted s
  | .list items => Literal.list (literals items)
  | .call name args deferred =>
    "RuntimeFunction(name=" ++ Text.quoted name ++ ", args=" ++ Literal.tuple (literals args) ++
      ", delay=" ++ Literal.bool deferred ++ ")"
  | .time t => Literal.time t
  | .easing kind args => Literal.easing kind (Literal.tuple (literals args))
  | .map entries => Literal.table (entryLiterals entries)
  | .layer property duration delay kind args =>
    "TransitionLayer(property=" ++ Text.quoted property ++ ", duration=" ++ Literal.time duration ++
      ", delay=" ++ Literal.time delay ++ ", timing_function=" ++
      Literal.easing kind (Literal.tuple (literals args)) ++ ")"

def literals : List Value → List String
  | [] => []
  | v :: rest => v.literal :: literals rest

def entryLiterals : List (String × Value) → List (String × String)
  | [] => []
  | (k, v) :: rest => (k, v.literal) :: entryLiterals rest

end

/-- A value as plain text: text stands for itself, all else as it is spelled. -/
def plainText : Value → String
  | .text s => s
  | v => v.literal

end Value

end StyleBundle
