import StyleBundle.Json.Basic
import StyleBundle.Error

/-!
# StyleBundle.Value.Encode

Values as JSON. A call becomes an object with its name and arguments, a time its text, an easing
its name or, with arguments, an object. A time whose value is an integer has a text only if that
integer lies in the range of doubles.
-/

namespace StyleBundle

/-- The text of a time: a whole number without a fraction, then the unit. -/
def Time.text (t : Time) : Except Error String :=
  match t.value with
  | .int n =>
    match Double.ofInt? n with
    | some _ => .ok (toString n ++ t.unit)
    | none => .error .integerTooLarge
  | .double d =>
    match d.toInt? with
    | some n => .ok (toString n ++ t.unit)
    | none => .ok (d.text ++ t.unit)

namespace Value

/-- The object for a call. -/
def callObject (name : String) (args : List Json) (deferred : Bool) : Json :=
  .object ([("fn", .text name), ("args", .array args)] ++
    if deferred then [("delay", .bool true)] else [])

/-- The JSON for an easing: its name alone if it has no arguments. -/
def easingJson (kind : String) (args : List Json) : Json :=
  if args.isEmpty then .text kind else .object [("type", .text kind), ("args", .array args)]

mutual

/-- The JSON for a value. -/
def toJson : Value → Except Error Json
  | .null => .ok .null
  | .bool b => .ok (.bool b)
  | .int n => .ok (.int n)
  | .double d => .ok (.double d)
  | .text s => .ok (.text s)
  | .list items =>
    match toJsons items with
    | .ok js => .ok (.array js)
    | .error e => .error e
  | .call name args deferred =>
    match toJsons args with
    | .ok js => .ok (callObject name js deferred)
    | .error e => .error e
  | .time t =>
    match t.text with
    | .ok s => .ok (.text s)
    | .error e => .error e
  | .easing kind args =>
    match toJsons args with
    | .ok js => .ok (easingJson kind js)
    | .error e => .error e
  | .map entries =>
    match toMembers entries with
    | .ok ms => .ok (.object ms)
    | .error e => .error e
  | v@(.layer _ _ _ _ _) => .ok (.foreign v)

def toJsons : List Value → Except Error (List Json)
  | [] => .ok []
  | v :: rest =>
    match v.toJson with
    | .error e => .error e
    | .ok j =>
      match toJsons rest with
      | .error e => .error e
      | .ok js => .ok (j :: js)

def toMembers : List (String × Value) → Except Error (List (String × Json))
  | [] => .ok []
  | (k, v) :: rest =>
    match v.toJson with
    | .error e => .error e
    | .ok j =>
      match toMembers rest with
      | .error e => .error e
      | .ok ms => .ok ((k, j) :: ms)

end

mutual

/-- A value put into a document as it is: only what is JSON already changes its form. -/
def rawJson : Value → Json
  | .null => .null
  | .bool b => .bool b
  | .int n => .int n
  | .double d => .double d
  | .text s => .text s
  | .list items => .array (rawJsons items)
  | .map entries => .object (rawMembers entries)
  | v => .foreign v

def rawJsons : List Value → List Json
  | [] => []
  | v :: rest => v.rawJson :: rawJsons rest

def rawMembers : List (String × Value) → List (String × Json)
  | [] => []
  | (k, v) :: rest => (k, v.rawJson) :: rawMembers rest

end

end Value

end StyleBundle
