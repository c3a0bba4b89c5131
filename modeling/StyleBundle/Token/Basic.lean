import StyleBundle.Number.Basic
import StyleBundle.Text.Case

/-!
# StyleBundle.Token.Basic

Component values of a style sheet: the leaves of the source text, and functions and bracketed
blocks with the component values inside them. Every one knows where it begins. Malformed parts of
the source are component values too, so that reading never fails.
-/

namespace StyleBundle

/-- A position in the source; lines and columns count from one. -/
structure Position where
  line : Nat
  column : Nat
  deriving DecidableEq, Inhabited, Repr

namespace Position

def start : Position := { line := 1, column := 1 }

def step (p : Position) (c : Char) : Position :=
  if c = '\n' then { line := p.line + 1, column := 1 } else { p with column := p.column + 1 }

/-- The position after some text. -/
def past (p : Position) (cs : List Char) : Position := cs.foldl step p

end Position

inductive Bracket where
  | round
  | square
  | curly
  deriving DecidableEq, Inhabited, Repr

namespace Bracket

def opening : Bracket → Char
  | .round => '('
  | .square => '['
  | .curly => '\x7b'

def closing : Bracket → Char
  | .round => ')'
  | .square => ']'
  | .curly => '\x7d'

end Bracket

/-- What is wrong with a malformed part. -/
inductive Fault where
  | badString
  | badUrl
  | endInString
  | endInUrl
  /-- A closing bracket that closes nothing. -/
  | stray (b : Bracket)
  deriving DecidableEq, Inhabited, Repr

/-- A number as it is written, its double, and its integer if it is written as one. -/
structure Numeral where
  source : String
  value : Double
  integer : Option Int
  deriving DecidableEq, Inhabited, Repr

/-- The number that a numeral stands for: an integer if it is written as one. -/
def Numeral.number (n : Numeral) : Number :=
  match n.integer with
  | some i => .int i
  | none => .double n.value

/-- The leaves among component values. -/
inductive Atom where
  | whitespace (text : String)
  | comment (text : String)
  | ident (value : String)
  | atKeyword (value : String)
  | hash (value : String) (isIdentifier : Bool)
  | string (value : String) (closed : Bool)
  | url (value : String) (closed : Bool)
  | unicodeRange (first last : Nat)
  | number (n : Numeral)
  | percentage (n : Numeral)
  | dimension (n : Numeral) (unit : String)
  /-- A literal, which has no meaning of its own. -/
  | literal (text : String)
  | error (fault : Fault)
  deriving DecidableEq, Inhabited, Repr

def Atom.kind : Atom → String
  | .whitespace _ => "whitespace"
  | .comment _ => "comment"
  | .ident _ => "ident"
  | .atKeyword _ => "at-keyword"
  | .hash _ _ => "hash"
  | .string _ _ => "string"
  | .url _ _ => "url"
  | .unicodeRange _ _ => "unicode-range"
  | .number _ => "number"
  | .percentage _ => "percentage"
  | .dimension _ _ => "dimension"
  | .literal _ => "literal"
  | .error _ => "error"

inductive Token where
  | atom (position : Position) (a : Atom)
  | function (position : Position) (name : String) (arguments : List Token)
  | block (position : Position) (bracket : Bracket) (content : List Token)
  deriving Inhabited, Repr

namespace Token

def position : Token → Position
  | .atom p _ => p
  | .function p _ _ => p
  | .block p _ _ => p

/-- The name of the kind of a component value. -/
def kind : Token → String
  | .atom _ a => a.kind
  | .function _ _ _ => "function"
  | .block _ .round _ => "() block"
  | .block _ .square _ => "[] block"
  | .block _ .curly _ => "\x7b\x7d block"

/-- White space and comments stand between values; all else is significant. -/
def isSignificant : Token → Bool
  | .atom _ (.whitespace _) => false
  | .atom _ (.comment _) => false
  | _ => true

/-- The significant ones among component values. -/
def significant (ts : List Token) : List Token := ts.filter isSignificant

/-- The component values from the first significant one on. -/
def skipIdle (ts : List Token) : List Token := ts.dropWhile (!·.isSignificant)

/-- Whether a component value is the given literal. -/
def isLiteral (text : String) : Token → Bool
  | .atom _ (.literal t) => t == text
  | _ => false

def isComma (t : Token) : Bool := t.isLiteral ","

def isIdent : Token → Bool
  | .atom _ (.ident _) => true
  | _ => false

/-- The keyword that a component value is: an identifier with its ASCII letters made small. -/
def keyword? : Token → Option String
  | .atom _ (.ident v) => some (Text.lower v)
  | _ => none

/-- Whether a component value is one of the given keywords. -/
def isKeyword (words : List String) (t : Token) : Bool :=
  match t.keyword? with
  | some w => words.contains w
  | none => false

def isPercentage : Token → Bool
  | .atom _ (.percentage _) => true
  | _ => false

end Token

end StyleBundle
