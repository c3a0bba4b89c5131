import StyleBundle.Token.Basic

/-!
# StyleBundle.Token.Read

Readers for the parts of a leaf: escapes, names, numerals, quoted text, addresses. Each takes the
text that is left and gives back what it read and the text after it, which is never longer; the
lemmas say so.
-/

namespace StyleBundle

namespace Read

/-- White space of the source. -/
def isSpace (c : Char) : Bool := c == ' ' || c == '\n' || c == '\t'

def isHex (c : Char) : Bool :=
  c.isDigit || ('a' ≤ c && c ≤ 'f') || ('A' ≤ c && c ≤ 'F')

/-- A character that can begin a name. -/
def isNameStart (c : Char) : Bool := c.isAlpha || c == '_' || 0x7f < c.toNat

/-- A character that can stand in a name. -/
def isNameChar (c : Char) : Bool := isNameStart c || c.isDigit || c == '-'

/-- What stands for a character that cannot be had. -/
def replacement : Char := Char.ofNat 0xfffd

/-- Source text in its normal form: lines end in one character, and no character is null. -/
def normalise : List Char → List Char
  | [] => []
  | '\r' :: '\n' :: rest => '\n' :: normalise rest
  | c :: rest =>
    (if c.toNat = 0 then replacement else if c = '\r' ∨ c = '\x0c' then '\n' else c) ::
      normalise rest

def startsLine : List Char → Bool
  | '\n' :: _ => true
  | _ => false

/-- Whether a backslash before this text begins an escape. -/
def escapes (rest : List Char) : Bool := !startsLine rest

/-- Whether a text begins with an identifier. -/
def startsIdent : List Char → Bool
  | [] => false
  | '-' :: rest =>
    match rest with
    | [] => false
    | d :: more => isNameStart d || d == '-' || (d == '\\' && escapes more)
  | '\\' :: rest => escapes rest
  | c :: _ => isNameStart c

def hexDigit (c : Char) : Nat :=
  if c.isDigit then c.toNat - 48 else c.toLower.toNat - 87

def hexValue (cs : List Char) : Nat :=
  cs.foldl (fun n c => 16 * n + hexDigit c) 0

/-- The value of decimal digits. -/
def decimalValue (cs : List Char) : Nat :=
  cs.foldl (fun n c => 10 * n + (c.toNat - 48)) 0

/-- The character with a code; codes that name none are replaced. -/
def charOfCode (n : Nat) : Char :=
  if n ≠ 0 ∧ n.isValidChar then Char.ofNat n else replacement

/-- The leading hexadecimal digits of a text, six at most. -/
def hexRun (cs : List Char) : List Char := (cs.take 6).takeWhile isHex

/-- Text without one white space at its start. -/
def dropSpace : List Char → List Char
  | [] => []
  | c :: rest => if isSpace c then rest else c :: rest

/-- Reads what follows a backslash: a code in hexadecimal digits, or the next character. -/
def escape (cs : List Char) : Char × List Char :=
  let digits := hexRun cs
  if digits.isEmpty then
    match cs with
    | [] => (replacement, [])
    | c :: rest => (c, rest)
  else (charOfCode (hexValue digits), dropSpace (cs.drop digits.length))

theorem dropSpace_length (cs : List Char) : (dropSpace cs).length ≤ cs.length := by
  cases cs with
  | nil => simp [dropSpace]
  | cons c rest =>
    by_cases h : isSpace c = true
    · simp [dropSpace, h]
    · simp [dropSpace, h]

theorem escape_length (cs : List Char) : (escape cs).2.length ≤ cs.length := by
  unfold escape
  simp only
  split
  · cases cs with
    | nil => simp
    | cons c rest => simp
  · have h := dropSpace_length (cs.drop (hexRun cs).length)
    simp only [List.length_drop] at h ⊢
    omega

/-- Reads a name: name characters and escapes. -/
def name : List Char → List Char × List Char
  | [] => ([], [])
  | c :: rest =>
    if isNameChar c then
      let r := name rest
      (c :: r.1, r.2)
    else if c == '\\' && escapes rest then
      let e := escape rest
      let r := name e.2
      (e.1 :: r.1, r.2)
    else ([], c :: rest)
termination_by cs => cs.length
decreasing_by
  · simp
  · have h := escape_length rest
    simp only [List.length_cons]
    omega

theorem name_length (cs : List Char) : (name cs).2.length ≤ cs.length := by
  fun_induction name cs with
  | case1 => simp
  | case2 c rest h r ih => simp only [List.length_cons, r]; omega
  | case3 c rest h h' e r ih =>
    have he := escape_length rest
    simp only [List.length_cons, r, e] at ih ⊢
    omega
  | case4 c rest h h' => simp

/-- Reading a name where an identifier begins takes at least one character. -/
theorem name_length_lt {cs : List Char} (h : startsIdent cs = true) :
    (name cs).2.length < cs.length := by
  cases cs with
  | nil => simp [startsIdent] at h
  | cons c rest =>
    unfold name
    by_cases hc : isNameChar c = true
    · have hn := name_length rest
      simp only [hc, if_true, List.length_cons]
      omega
    · have hb : (c == '\\' && escapes rest) = true := by
        unfold startsIdent at h
        split at h
        · simp at h
        · rename_i heq
          cases heq
          simp [isNameChar] at hc
        · rename_i heq
          cases heq
          simp [h]
        · rename_i heq
          cases heq
          simp [isNameChar, h] at hc
      have hn := name_length (escape rest).2
      have he := escape_length rest
      simp only [hc, hb, if_true, List.length_cons]
      simp only [Bool.false_eq_true, if_false]
      omega

/-- The parts of a numeral as it is written. -/
structure NumeralParts where
  sign : List Char
  whole : List Char
  /-- The digits after the point. -/
  fraction : Option (List Char)
  /-- The letter of the exponent, its sign and its digits. -/
  exponent : Option (Char × List Char × List Char)

namespace NumeralParts

def source (p : NumeralParts) : List Char :=
  let fraction := match p.fraction with
    | some digits => '.' :: digits
    | none => []
  let exponent := match p.exponent with
    | some (letter, sign, digits) => letter :: sign ++ digits
    | none => []
  p.sign ++ p.whole ++ fraction ++ exponent

def isNegative (p : NumeralParts) : Bool := p.sign == ['-']

/-- The power of ten that the digits are multiplied by. -/
def scale (p : NumeralParts) : Int :=
  let given : Int := match p.exponent with
    | some (_, sign, digits) =>
      if sign == ['-'] then -(decimalValue digits : Int) else decimalValue digits
    | none => 0
  given - ((p.fraction.getD []).length : Int)

def numeral (p : NumeralParts) : Numeral where
  source := String.ofList p.source
  value := Double.ofDecimal p.isNegative (decimalValue (p.whole ++ p.fraction.getD [])) p.scale
  integer :=
    if p.fraction.isNone && p.exponent.isNone then
      let n := decimalValue p.whole
      some (if p.isNegative then -(n : Int) else n)
    else none

end NumeralParts

/-- A sign at the start of a text, if there is one. -/
def sign : List Char → List Char
  | '+' :: _ => ['+']
  | '-' :: _ => ['-']
  | _ => []

/-- The leading decimal digits of a text. -/
def digits (cs : List Char) : List Char := cs.takeWhile Char.isDigit

/-- The digits of a fraction, if a point and a digit come next. -/
def fraction : List Char → Option (List Char)
  | '.' :: rest => if (digits rest).isEmpty then none else some (digits rest)
  | _ => none

/-- An exponent, if one comes next. -/
def exponent : List Char → Option (Char × List Char × List Char)
  | c :: rest =>
    if c == 'e' || c == 'E' then
      let s := sign rest
      let ds := digits (rest.drop s.length)
      if ds.isEmpty then none else some (c, s, ds)
    else none
  | [] => none

/-- The numeral at the start of a text, if there is one. -/
def numeralParts? (cs : List Char) : Option NumeralParts :=
  let s := sign cs
  let body := cs.drop s.length
  let whole := digits body
  let after := body.drop whole.length
  match fraction after with
  | some ds => some ⟨s, whole, some ds, exponent (after.drop (ds.length + 1))⟩
  | none => if whole.isEmpty then none else some ⟨s, whole, none, exponent after⟩

/-- Quoted text up to its quote, what is wrong with it, and the text after it. A line may be
broken by a backslash at its end. -/
def quotedText (quote : Char) : List Char → List Char × Option Fault × List Char
  | [] => ([], some .endInString, [])
  | ['\\'] => ([], some .endInString, [])
  | '\\' :: '\n' :: rest => quotedText quote rest
  | '\\' :: d :: rest =>
    let e := escape (d :: rest)
    let r := quotedText quote e.2
    (e.1 :: r.1, r.2)
  | c :: rest =>
    if c == quote then ([], none, rest)
    else if c == '\n' then ([], some .badString, c :: rest)
    else
      let r := quotedText quote rest
      (c :: r.1, r.2)
termination_by cs => cs.length
decreasing_by
  · simp only [List.length_cons]; omega
  · have h := escape_length (d :: rest)
    simp only [List.length_cons] at h ⊢
    omega
  · simp

theorem quotedText_length (quote : Char) (cs : List Char) :
    (quotedText quote cs).2.2.length ≤ cs.length := by
  fun_induction quotedText quote cs with
  | case1 => simp
  | case2 => simp
  | case3 rest ih => simp only [List.length_cons]; omega
  | case4 d rest h e r ih =>
    have he := escape_length (d :: rest)
    simp only [List.length_cons, r, e] at he ih ⊢
    omega
  | case5 c rest => simp
  | case6 c rest => simp
  | case7 c rest _ _ _ _ _ r ih => simp only [List.length_cons, r]; omega

/-- Characters that may not stand in an address without quotes. -/
def breaksUrl (c : Char) : Bool :=
  let n := c.toNat
  c == '"' || c == '\'' || c == '(' || n ≤ 8 || n == 0xb || (0xe ≤ n && n ≤ 0x1f) || n == 0x7f

/-- How an address ends. -/
inductive UrlEnd where
  | closed
  | unclosed
  | broken
  deriving DecidableEq, Inhabited, Repr

/-- What comes after the white space behind an address: only its bracket or the end of the source
is in order. -/
def urlTail (cs : List Char) : UrlEnd × List Char :=
  match cs.dropWhile isSpace with
  | [] => (.unclosed, [])
  | ')' :: rest => (.closed, rest)
  | rest => (.broken, rest)

/-- An address without quotes, how it ends, and the text after it. -/
def urlText : List Char → List Char × UrlEnd × List Char
  | [] => ([], .unclosed, [])
  | c :: rest =>
    if c == ')' then ([], .closed, rest)
    else if isSpace c then ([], urlTail rest)
    else if c == '\\' && escapes rest then
      let e := escape rest
      let r := urlText e.2
      (e.1 :: r.1, r.2)
    else if breaksUrl c then ([], .broken, rest)
    else
      let r := urlText rest
      (c :: r.1, r.2)
termination_by cs => cs.length
decreasing_by
  · have h := escape_length rest
    simp only [List.length_cons]
    omega
  · simp

theorem dropWhile_length (p : Char → Bool) (cs : List Char) :
    (cs.dropWhile p).length ≤ cs.length :=
  (List.dropWhile_sublist p).length_le

theorem urlTail_length (cs : List Char) : (urlTail cs).2.length ≤ cs.length := by
  have h := dropWhile_length isSpace cs
  unfold urlTail
  split
  · simp
  · rename_i heq
    rw [heq] at h
    simp only [List.length_cons] at h ⊢
    omega
  · exact h

theorem urlText_length (cs : List Char) : (urlText cs).2.2.length ≤ cs.length := by
  fun_induction urlText cs with
  | case1 => simp
  | case2 c rest => simp
  | case3 c rest =>
    have h := urlTail_length rest
    simp only [List.length_cons]
    omega
  | case4 c rest h h' h'' e r ih =>
    have he := escape_length rest
    simp only [List.length_cons, r, e] at ih ⊢
    omega
  | case5 c rest => simp
  | case6 c rest h h' h'' h3 r ih => simp only [List.length_cons, r]; omega

/-- The text after the remains of a broken address. -/
def pastBadUrl : List Char → List Char
  | [] => []
  | '\\' :: ')' :: rest => pastBadUrl rest
  | ')' :: rest => rest
  | _ :: rest => pastBadUrl rest

theorem pastBadUrl_length (cs : List Char) : (pastBadUrl cs).length ≤ cs.length := by
  fun_induction pastBadUrl cs with
  | case1 => simp
  | case2 rest ih => simp only [List.length_cons]; omega
  | case3 rest => simp
  | case4 c rest h h' ih => simp only [List.length_cons]; omega

/-- The text of a comment and the text after it. -/
def commentText : List Char → List Char × List Char
  | [] => ([], [])
  | '*' :: '/' :: rest => ([], rest)
  | c :: rest =>
    let r := commentText rest
    (c :: r.1, r.2)

theorem commentText_length (cs : List Char) : (commentText cs).2.length ≤ cs.length := by
  fun_induction commentText cs with
  | case1 => simp
  | case2 rest => simp only [List.length_cons]; omega
  | case3 c rest h r ih => simp only [List.length_cons, r]; omega

/-- Whether a text begins with a range of characters, such as `U+4??`. -/
def startsRange : List Char → Bool
  | u :: '+' :: c :: _ => (u == 'U' || u == 'u') && (isHex c || c == '?')
  | _ => false

/-- The range of characters after `U+`: its ends and the text after it. Question marks stand for
any digit, six characters in all. -/
def range (cs : List Char) : Nat × Nat × List Char :=
  let ds := hexRun cs
  let body := cs.drop ds.length
  let wildcards := (body.take (6 - ds.length)).takeWhile (· == '?')
  let rest := body.drop wildcards.length
  if wildcards.isEmpty then
    let first := hexValue ds
    match rest with
    | '-' :: more =>
      let es := hexRun more
      if es.isEmpty then (first, first, rest) else (first, hexValue es, more.drop es.length)
    | _ => (first, first, rest)
  else
    (hexValue (ds ++ wildcards.map fun _ => '0'), hexValue (ds ++ wildcards.map fun _ => 'f'), rest)

theorem range_length (cs : List Char) : (range cs).2.2.length ≤ cs.length := by
  unfold range
  simp only
  split
  · split
    · rename_i more heq
      have hl := congrArg List.length heq
      simp only [List.length_drop, List.length_cons] at hl
      split
      · simp only [List.length_drop]; omega
      · simp only [List.length_drop]; omega
    · simp only [List.length_drop]; omega
  · simp only [List.length_drop]; omega

end Read

end StyleBundle
