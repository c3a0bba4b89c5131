import StyleBundle.Json.Basic
import StyleBundle.Error

/-!
# StyleBundle.Json.Text

The text of a JSON document, in ASCII: every other character is escaped by its UTF-16 units. On one
line, items are set apart by a blank; with an indent, each stands on a line of its own.
-/

namespace StyleBundle

namespace Json

/-- A UTF-16 unit as an escape. -/
def unitEscape (n : Nat) : List Char :=
  '\\' :: 'u' :: Text.hexPadded 4 n

def escapeChar (c : Char) : List Char :=
  let n := c.toNat
  if c == '"' || c == '\\' then ['\\', c]
  else if c == '\n' then ['\\', 'n']
  else if c == '\r' then ['\\', 'r']
  else if c == '\t' then ['\\', 't']
  else if n == 8 then ['\\', 'b']
  else if n == 12 then ['\\', 'f']
  else if 0x20 ≤ n && n < 0x7f then [c]
  else if n < 0x10000 then unitEscape n
  else unitEscape (0xd800 + (n - 0x10000) / 0x400) ++ unitEscape (0xdc00 + (n - 0x10000) % 0x400)

def textLiteral (s : String) : String :=
  String.ofList ('"' :: s.toList.flatMap escapeChar ++ ['"'])

def doubleLiteral : Double → String
  | .nan => "NaN"
  | .infinite negative => if negative then "-Infinity" else "Infinity"
  | d => d.text

/-- How items of a container are set apart, given how deep they stand. -/
structure Layout where
  indent : Option Nat

namespace Layout

/-- What stands before an item at a depth, and before the bracket that closes its container. -/
def newline (l : Layout) (depth : Nat) : String :=
  match l.indent with
  | none => ""
  | some n => String.ofList ('\n' :: List.replicate (n * depth) ' ')

def comma (l : Layout) (depth : Nat) : String :=
  match l.indent with
  | none => ", "
  | some _ => "," ++ l.newline depth

/-- The items of a container at a depth between its brackets. -/
def enclose (l : Layout) (depth : Nat) (opening closing : String) : List String → String
  | [] => opening ++ closing
  | items =>
    opening ++ l.newline (depth + 1) ++ (l.comma (depth + 1)).intercalate items ++
      l.newline depth ++ closing

end Layout

/-- The name of the kind of a value that has no form in JSON. -/
def kindName : Value → String
  | .call _ _ _ => "RuntimeFunction"
  | .time _ => "Time"
  | .easing _ _ => "EasingFunction"
  | .layer _ _ _ _ _ => "TransitionLayer"
  | _ => "object"

mutual

/-- The text of a document at a depth. -/
def writeAt (l : Layout) (depth : Nat) : Json → Except Error String
  | .null => .ok "null"
  | .bool b => .ok (if b then "true" else "false")
  | .int n => .ok (toString n)
  | .double d => .ok (doubleLiteral d)
  | .text s => .ok (textLiteral s)
  | .array items =>
    match writeItems l (depth + 1) items with
    | .ok texts => .ok (l.enclose depth "[" "]" texts)
    | .error e => .error e
  | .object members =>
    match writeMembers l (depth + 1) members with
    | .ok texts => .ok (l.enclose depth "\x7b" "\x7d" texts)
    | .error e => .error e
  | .foreign v => .error (.notSerialisable (kindName v))

def writeItems (l : Layout) (depth : Nat) : List Json → Except Error (List String)
  | [] => .ok []
  | j :: rest =>
    match writeAt l depth j with
    | .error e => .error e
    | .ok first =>
      match writeItems l depth rest with
      | .error e => .error e
      | .ok others => .ok (first :: others)

def writeMembers (l : Layout) (depth : Nat) : List (String × Json) → Except Error (List String)
  | [] => .ok []
  | (k, j) :: rest =>
    match writeAt l depth j with
    | .error e => .error e
    | .ok first =>
      match writeMembers l depth rest with
      | .error e => .error e
      | .ok others => .ok ((textLiteral k ++ ": " ++ first) :: others)

end

/-- The text of a document, on one line or indented. -/
def write (indent : Option Nat) (j : Json) : Except Error String :=
  writeAt { indent } 0 j

end Json

end StyleBundle
