import StyleBundle.Pattern.Basic
import StyleBundle.Text.Identifier
import StyleBundle.Token.Read

/-!
# StyleBundle.Pattern.Symbol

The text of a pattern as symbols, and what runs of symbols mean: codes of characters, classes of
characters, counts, names and numbers of groups, flags. Everything read here stands within one
group; `StyleBundle.Pattern.Read` puts it together. Characters cannot be given by their names.
-/

namespace StyleBundle

namespace Pattern

/-- A character of the text of a pattern, alone or behind a backslash. -/
inductive Symbol where
  | plain (c : Char)
  | escaped (c : Char)
  deriving DecidableEq, Inhabited, Repr

/-- The symbols of a text. A backslash at its end is malformed. -/
def symbols? : List Char → Option (List Symbol)
  | [] => some []
  | ['\\'] => none
  | '\\' :: c :: rest => (symbols? rest).map (.escaped c :: ·)
  | c :: rest => (symbols? rest).map (.plain c :: ·)

/-- The plain characters at the start that pass a test. -/
def leading (test : Char → Bool) : List Symbol → List Char
  | .plain c :: rest => if test c then c :: leading test rest else []
  | _ => []

/-! ## Codes -/

/-- A code in a certain number of hexadecimal digits, and what is after it. -/
def hexCode? (n : Nat) (ss : List Symbol) : Option (Nat × List Symbol) :=
  let digits := leading Read.isHex (ss.take n)
  if digits.length = n then some (Read.hexValue digits, ss.drop n) else none

def isOctal (c : Char) : Bool := '0' ≤ c && c ≤ '7'

def octalValue (cs : List Char) : Nat := cs.foldl (fun n c => 8 * n + (c.toNat - 48)) 0

/-- The largest code that can be given in octal digits. -/
def octalLimit : Nat := 255

/-- The code that a character behind a backslash stands for, and what is after it. Other letters and
digits have no meaning there. -/
def code? (c : Char) (rest : List Symbol) : Option (Nat × List Symbol) :=
  match c with
  | 'a' => some (7, rest)
  | 't' => some (9, rest)
  | 'n' => some (10, rest)
  | 'v' => some (11, rest)
  | 'f' => some (12, rest)
  | 'r' => some (13, rest)
  | 'x' => hexCode? 2 rest
  | 'u' => hexCode? 4 rest
  | 'U' => (hexCode? 8 rest).filter (·.1 < 0x110000)
  | c => if c.isAlphanum then none else some (c.toNat, rest)

/-- The pattern for the character with a code; some codes have no character. -/
def ofCode (rule : CaseRule) (n : Nat) : Pattern :=
  if n.isValidChar then .char false (Char.ofNat n) rule else .oneOf false [.between n n] rule

/-! ## Classes -/

/-- The set of characters that a letter behind a backslash names. -/
def namedSet? (ascii : Bool) : Char → Option CharSet
  | 'd' => some (.digits ascii)
  | 'D' => some (.outside (.digits ascii))
  | 'w' => some (.wordChars ascii)
  | 'W' => some (.outside (.wordChars ascii))
  | 's' => some (.blanks ascii)
  | 'S' => some (.outside (.blanks ascii))
  | _ => none

inductive Member where
  | code (n : Nat)
  | set (s : CharSet)
  deriving Inhabited

def Member.charSet : Member → CharSet
  | .code n => if n.isValidChar then .one (Char.ofNat n) else .between n n
  | .set s => s

/-- A member of a class, and what is after it. -/
def member? (ascii : Bool) : List Symbol → Option (Member × List Symbol)
  | [] => none
  | .plain c :: rest => some (.code c.toNat, rest)
  | .escaped c :: rest =>
    match namedSet? ascii c with
    | some s => some (.set s, rest)
    | none =>
      if c = 'b' then some (.code 8, rest)
      else if isOctal c then
        let more := leading isOctal (rest.take 2)
        let n := octalValue (c :: more)
        if n ≤ octalLimit then some (.code n, rest.drop more.length) else none
      else (code? c rest).map fun e => (.code e.1, e.2)

/-- The sets of a class up to its bracket, which does not count at the very start. -/
def classSets? (ascii : Bool) : Nat → Bool → List Symbol → Option (List CharSet × List Symbol)
  | 0, _, _ => none
  | fuel + 1, first, ss =>
    match first, ss with
    | false, .plain ']' :: rest => some ([], rest)
    | _, _ => do
      let (member, rest) ← member? ascii ss
      let (set, more) ← match rest with
        | .plain '-' :: .plain ']' :: _ => some (member.charSet, rest)
        | .plain '-' :: after => do
          match member, ← member? ascii after with
          | .code a, (.code b, more) => if a ≤ b then some (.between a b, more) else none
          | _, _ => none
        | _ => some (member.charSet, rest)
      let (sets, tail) ← classSets? ascii fuel false more
      some (set :: sets, tail)

/-- The pattern of a class. One member that is a character makes no class of its own. -/
def ofClass (rule : CaseRule) (negated : Bool) (sets : List CharSet) : Pattern :=
  match sets.eraseDups with
  | [.one c] => .char negated c rule
  | sets => .oneOf negated sets rule

/-- The class behind a bracket, and what is after it. -/
def class? (ascii : Bool) (rule : CaseRule) (ss : List Symbol) : Option (Pattern × List Symbol) :=
  let (negated, body) := match ss with
    | .plain '^' :: rest => (true, rest)
    | _ => (false, ss)
  (classSets? ascii (ss.length + 1) true body).map fun e => (ofClass rule negated e.1, e.2)

/-! ## Counts -/

/-- The bounds that a count has to stay below. -/
def countLimit : Nat := 4294967295

/-- The most digits that a number may have. -/
def digitLimit : Nat := 4300

/-- A count in braces. Anything else in braces is plain text. A count whose bounds are in the wrong
order or too large is malformed. -/
inductive Count where
  | none
  | malformed
  | some (least : Nat) (most : Option Nat) (rest : List Symbol)

def count (ss : List Symbol) : Count :=
  let low := leading Char.isDigit ss
  let after := ss.drop low.length
  let (high, rest) := match after with
    | .plain ',' :: more =>
      let high := leading Char.isDigit more
      (high, more.drop high.length)
    | _ => (low, after)
  let bound? (digits : List Char) : Option Nat :=
    if digits.isEmpty then .none else .some (Read.decimalValue digits)
  match ss, rest with
  | .plain '\x7d' :: _, _ => .none
  | _, .plain '\x7d' :: tail =>
    let least := (bound? low).getD 0
    let most := bound? high
    if digitLimit < low.length || digitLimit < high.length then .malformed
    else if countLimit ≤ max least (most.getD 0) || most.any (· < least) then .malformed
    else .some least most tail
  | _, _ => .none

/-- How a count is meant, by the symbol behind it, and what is after that. -/
def greed : List Symbol → Greed × List Symbol
  | .plain '?' :: rest => (.lazy, rest)
  | .plain '+' :: rest => (.possessive, rest)
  | ss => (.greedy, ss)

/-! ## Names and numbers of groups -/

/-- The characters up to a certain one, and what is after it. -/
def until? (stop : Char) : List Symbol → Option (List Char × List Symbol)
  | .plain c :: rest =>
    if c = stop then some ([], rest) else (until? stop rest).map fun e => (c :: e.1, e.2)
  | _ => none

/-- The symbols after a certain one, which ends a comment. -/
def past? (stop : Symbol) : List Symbol → Option (List Symbol)
  | [] => none
  | s :: rest => if s = stop then some rest else past? stop rest

/-- The value of further digits, which a low line may stand between. -/
def decimalFrom? (n : Nat) : List Char → Option Nat
  | [] => some n
  | '_' :: c :: rest => (Text.digitValue? c).bind fun d => decimalFrom? (10 * n + d) rest
  | c :: rest => (Text.digitValue? c).bind fun d => decimalFrom? (10 * n + d) rest

/-- A text without the blanks around it. In a text of ASCII the separators of data are none. -/
def withoutMargins (cs : List Char) : List Char :=
  let isMargin := if cs.all (·.toNat < 0x80) then CharSet.isAsciiBlank else Text.isBlank
  ((cs.dropWhile isMargin).reverse.dropWhile isMargin).reverse

/-- The positive number that a text spells, in the digits of any script and with blanks around. -/
def number? (cs : List Char) : Option Nat :=
  let digits := match withoutMargins cs with
    | '+' :: rest => rest
    | rest => rest
  match digits with
  | [] => none
  | c :: rest =>
    if digitLimit < (digits.filter (· != '_')).length then none
    else ((Text.digitValue? c).bind (decimalFrom? · rest)).filter (0 < ·)

/-! ## Flags -/

inductive Flag where
  /-- Case does not matter. -/
  | caseless
  /-- Lines begin and end within the text. -/
  | lines
  /-- The end of a line is any character too. -/
  | lineEnds
  /-- Blanks and comments are left out. -/
  | verbose
  /-- The named sets of characters and the letters are those of ASCII. -/
  | ascii
  /-- They are those of every script, as they are without a flag. -/
  | unicode
  /-- Nothing may be repeated. -/
  | template
  deriving DecidableEq, Inhabited, Repr

namespace Flag

def ofLetter? : Char → Option Flag
  | 'i' => some .caseless
  | 'm' => some .lines
  | 's' => some .lineEnds
  | 'x' => some .verbose
  | 'a' => some .ascii
  | 'u' => some .unicode
  | 't' => some .template
  | _ => none

/-- Whether a flag says which characters there are. -/
def isScript (f : Flag) : Bool := f == .ascii || f == .unicode

/-- Whether flags say of the characters both that they are those of ASCII and of every script. -/
def contradict (fs : List Flag) : Bool := fs.contains .ascii && fs.contains .unicode

/-- The flags in a group that adds some and removes some. -/
def change (fs added removed : List Flag) : List Flag :=
  let kept := if added.any isScript then fs.filter (!isScript ·) else fs
  (kept ++ added).filter (!removed.contains ·)

/-- Whether a group may add some flags and remove some. -/
def mayChange (added removed : List Flag) : Bool :=
  !contradict added && !added.contains .template &&
    removed.all fun f => !isScript f && f != .template && !added.contains f

def rule (fs : List Flag) : CaseRule :=
  if fs.contains .caseless then if fs.contains .ascii then .ascii else .full else .exact

end Flag

/-- The flags that letters at the start stand for, and what is after them. -/
def flags : List Symbol → List Flag × List Symbol
  | .plain c :: rest =>
    match Flag.ofLetter? c with
    | some f => (f :: (flags rest).1, (flags rest).2)
    | none => ([], .plain c :: rest)
  | ss => ([], ss)

/-- What flags behind a bracket are for: the whole pattern, or the group that the bracket begins. -/
inductive FlagUse where
  | pattern (added : List Flag)
  | group (added removed : List Flag)

def flagUse? (ss : List Symbol) : Option (FlagUse × List Symbol) :=
  let (added, rest) := flags ss
  match rest with
  | .plain ')' :: tail => if added.isEmpty then none else some (.pattern added, tail)
  | .plain ':' :: tail =>
    if Flag.mayChange added [] then some (.group added [], tail) else none
  | .plain '-' :: more =>
    let (removed, rest) := flags more
    match rest with
    | .plain ':' :: tail =>
      if !removed.isEmpty && Flag.mayChange added removed then some (.group added removed, tail)
      else none
    | _ => none
  | _ => none

end Pattern

end StyleBundle
