import StyleBundle.Text.Blank
import StyleBundle.Token.Scan

/-!
# StyleBundle.Token.Write

The text of component values, such that reading it gives the same values again. Names are escaped
where they have to be, and an empty comment goes between neighbours that would run together.
-/

namespace StyleBundle

namespace Write

/-- An escape by code, with the blank that ends it. -/
def codeEscape (c : Char) : List Char :=
  '\\' :: (Nat.toDigits 16 c.toNat).map Char.toUpper ++ [' ']

/-- Characters that can only be written by their code: those that end a line. -/
def endsLine (c : Char) : Bool := c == '\n' || c == '\r' || c == '\x0c'

def nameChar (c : Char) : List Char :=
  if Read.isNameChar c then [c] else if endsLine c then codeEscape c else ['\\', c]

/-- A name whose beginning is free, as after a hash sign. -/
def name (cs : List Char) : List Char := cs.flatMap nameChar

/-- The first character of an identifier, behind a hyphen if there is one. -/
def firstChar (c : Char) : List Char :=
  if Read.isNameStart c then [c]
  else if endsLine c || c.isDigit then codeEscape c
  else ['\\', c]

def identifier : List Char → List Char
  | [] => []
  | ['-'] => ['\\', '-']
  | '-' :: '-' :: rest => '-' :: '-' :: name rest
  | '-' :: c :: rest => '-' :: firstChar c ++ name rest
  | c :: rest => firstChar c ++ name rest

def stringChar (c : Char) : List Char :=
  if c == '"' || c == '\\' then ['\\', c] else if endsLine c then codeEscape c else [c]

def urlChar (c : Char) : List Char :=
  if c == '\'' || c == '"' || c == '\\' || c == ' ' || c == '(' || c == ')' then ['\\', c]
  else if endsLine c || c == '\t' then codeEscape c
  else [c]

/-- A unit of measure; one that looks like an exponent begins with an escape. -/
def unit (cs : List Char) : List Char :=
  match cs with
  | 'e' :: [] | 'E' :: [] => ['\\', '6', '5', ' ']
  | 'e' :: '-' :: rest | 'E' :: '-' :: rest => ['\\', '6', '5', ' '] ++ name ('-' :: rest)
  | _ => identifier cs

def hexNumber (n : Nat) : List Char := (Nat.toDigits 16 n).map Char.toUpper

def fault : Fault → List Char
  | .badString => "\"[bad string]\n".toList
  | .badUrl => "url([bad url])".toList
  | .stray b => [b.closing]
  | .endInString | .endInUrl => []

def atom : Atom → List Char
  | .whitespace text => text.toList
  | .comment text => ['/', '*'] ++ text.toList ++ ['*', '/']
  | .ident value => identifier value.toList
  | .atKeyword value => '@' :: identifier value.toList
  | .hash value isIdentifier =>
    '#' :: if isIdentifier then identifier value.toList else name value.toList
  | .string value closed =>
    '"' :: value.toList.flatMap stringChar ++ if closed then ['"'] else []
  | .url value closed =>
    ['u', 'r', 'l', '('] ++ value.toList.flatMap urlChar ++ if closed then [')'] else []
  | .unicodeRange first last =>
    ['U', '+'] ++ hexNumber first ++ if first = last then [] else '-' :: hexNumber last
  | .number n => n.source.toList
  | .percentage n => n.source.toList ++ ['%']
  | .dimension n u => n.source.toList ++ unit u.toList
  | .literal text => text.toList
  | .error f => fault f

/-- What a component value counts as beside its neighbours: its kind, and a literal as itself. -/
def role : Token → String
  | .atom _ (.literal text) => text
  | t => t.kind

/-- Whether two neighbours would run together. -/
def collide (a b : String) : Bool :=
  (["ident", "at-keyword", "hash", "dimension", "#", "-", "number"].contains a &&
    ["ident", "function", "url", "number", "percentage", "dimension",
      "unicode-range"].contains b) ||
  (["ident", "at-keyword", "hash", "dimension"].contains a && ["-", "-->"].contains b) ||
  (["#", "-", "number", "@"].contains a && ["ident", "function", "url"].contains b) ||
  (["unicode-range", ".", "+"].contains a && ["number", "percentage", "dimension"].contains b) ||
  (a == "@" && ["ident", "function", "url", "unicode-range", "-"].contains b) ||
  (a == "unicode-range" && ["ident", "function", "?"].contains b) ||
  (["$", "*", "^", "~", "|"].contains a && b == "=") ||
  (a == "ident" && b == "() block") ||
  (a == "|" && b == "|") ||
  (a == "/" && b == "*")

/-- Whether a component value is white space that begins a line. -/
def beginsLine : Token → Bool
  | .atom _ (.whitespace text) => Read.startsLine text.toList
  | _ => false

/-- What goes before a component value, given the role of the one before it. -/
def gap (previous : Option String) (t : Token) : List Char :=
  match previous with
  | none => []
  | some a =>
    if collide a (role t) then ['/', '*', '*', '/']
    else if a == "\\" && !beginsLine t then ['\n']
    else []

mutual

/-- Whether quoted text runs to the end of the source at the end of a component value. -/
def endsOpen : Token → Bool
  | .atom _ (.error .endInString) => true
  | .function _ _ arguments => lastEndsOpen arguments
  | _ => false

def lastEndsOpen : List Token → Bool
  | [] => false
  | [t] => endsOpen t
  | _ :: t :: rest => lastEndsOpen (t :: rest)

end

mutual

def token : Token → List Char
  | .atom _ a => atom a
  | .function _ f arguments =>
    identifier f.toList ++ ['('] ++ tokensAfter none arguments ++
      if lastEndsOpen arguments then [] else [')']
  | .block _ b content => b.opening :: tokensAfter none content ++ [b.closing]

/-- The text of component values after one with the given role. -/
def tokensAfter (previous : Option String) : List Token → List Char
  | [] => []
  | t :: rest => gap previous t ++ token t ++ tokensAfter (some (role t)) rest

end

end Write

namespace Token

/-- The characters of component values. -/
def chars (ts : List Token) : List Char := Write.tokensAfter none ts

/-- The text of component values. -/
def text (ts : List Token) : String := String.ofList (chars ts)

/-- The text of component values without blanks at either end. -/
def trimmed (ts : List Token) : String := String.ofList (Text.trimChars (chars ts))

end Token

end StyleBundle
