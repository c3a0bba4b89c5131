import StyleBundle.Text.Blank
import StyleBundle.Text.Letter
import StyleBundle.Text.WordChar

/-!
# StyleBundle.Pattern.CharSet

The sets of characters that a class in a pattern is made of, and what they hold if case matters and
if it does not.
-/

namespace StyleBundle

/-- Which characters of a text count as a character of a pattern. -/
inductive CaseRule where
  /-- The character itself. -/
  | exact
  /-- Both forms of a letter, but of ASCII letters only. -/
  | ascii
  /-- All spellings of a letter. -/
  | full
  deriving DecidableEq, Inhabited, Repr

namespace CaseRule

/-- Whether two characters count as the same. -/
def same : CaseRule → Char → Char → Bool
  | .exact, c, d => c == d
  | .ascii, c, d => c.toLower == d.toLower
  | .full, c, d => Text.sameLetter c d

/-- The form of a character in which two pieces of a text are compared. -/
def form : CaseRule → Char → Char
  | .exact, c => c
  | .ascii, c => c.toLower
  | .full, c => Text.small c

end CaseRule

/-- A set of characters that can be named in a class. The named sets hold characters of every
script, or of ASCII only. -/
inductive CharSet where
  | one (c : Char)
  /-- The characters whose codes lie in a range. -/
  | between (first last : Nat)
  | digits (ascii : Bool)
  | wordChars (ascii : Bool)
  | blanks (ascii : Bool)
  | outside (s : CharSet)
  deriving DecidableEq, Inhabited, Repr

namespace CharSet

def isWordChar (ascii : Bool) (c : Char) : Bool :=
  if ascii then c.isAlphanum || c == '_' else Text.isWordChar c

/-- Whether a character is a blank of ASCII. The separators of data are none here. -/
def isAsciiBlank (c : Char) : Bool := c == ' ' || (9 ≤ c.toNat && c.toNat ≤ 13)

/-- Whether a character is in a set. -/
def has (c : Char) : CharSet → Bool
  | .one d => c == d
  | .between first last => first ≤ c.toNat && c.toNat ≤ last
  | .digits ascii => if ascii then c.isDigit else Text.isDecimalDigit c
  | .wordChars ascii => isWordChar ascii c
  | .blanks ascii => if ascii then isAsciiBlank c else Text.isBlank c
  | .outside s => !has c s

/-- Whether a character belongs to the basic plane, whose letters are looked up in a class in every
spelling. -/
def isBasic (c : Char) : Bool := c.toNat < 0x10000

/-- Whether a character is in a set if case does not matter. A single letter beyond the basic plane
has to be given in its small form; a range holds a letter if it holds some spelling of it. -/
def hasLetter (c : Char) : CharSet → Bool
  | .one d => if isBasic d then Text.sameLetter c d else Text.small c == d
  | .between first last => (Text.spellings c).any fun d => first ≤ d.toNat && d.toNat ≤ last
  | s => s.has (Text.small c)

/-- Whether a character is in a set if the case of ASCII letters does not matter. -/
def hasAsciiLetter (c : Char) (s : CharSet) : Bool :=
  match s with
  | .outside s => !s.has c
  | s => s.has c.toLower || s.has c.toUpper

/-- Whether a character is in a set by a rule on case. -/
def holds : CaseRule → Char → CharSet → Bool
  | .exact, c, s => s.has c
  | .ascii, c, s => s.hasAsciiLetter c
  | .full, c, s => s.hasLetter c

end CharSet

end StyleBundle
