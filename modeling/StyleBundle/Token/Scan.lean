import StyleBundle.Token.Read

/-!
# StyleBundle.Token.Scan

From source text to component values, in two steps. `lexeme` reads one leaf, or one bracket, from
the start of a text, and always takes something; `scan` repeats it, keeping track of positions.
`nest` then folds the brackets: a closing bracket ends the innermost open block if it belongs to it
and is a fault otherwise, and blocks still open at the end of the source end there.
-/

namespace StyleBundle

/-- What opens a nested list of component values. -/
inductive Opening where
  | function (name : String)
  | block (b : Bracket)
  deriving DecidableEq, Inhabited, Repr

def Opening.bracket : Opening → Bracket
  | .function _ => .round
  | .block b => b

/-- A piece of the source: leaves that begin at one position, or a bracket. -/
inductive Lexeme where
  | atoms (as : List Atom)
  | opening (o : Opening)
  | closing (b : Bracket)
  deriving DecidableEq, Inhabited, Repr

namespace Lexeme

open Read

/-- A literal of one or more characters. -/
def literal (text : String) : Lexeme := .atoms [.literal text]

/-- Quoted text. The end of the source closes it, with a fault after it; the end of a line leaves
only a fault. -/
def quotedAt (quote : Char) (rest : List Char) : Lexeme × List Char :=
  let r := quotedText quote rest
  let value := String.ofList r.1
  match r.2.1 with
  | none => (.atoms [.string value true], r.2.2)
  | some .endInString => (.atoms [.string value false, .error .endInString], r.2.2)
  | some fault => (.atoms [.error fault], r.2.2)

/-- An address without quotes. -/
def urlAt (rest : List Char) : Lexeme × List Char :=
  let r := urlText (rest.dropWhile isSpace)
  let value := String.ofList r.1
  match r.2.1 with
  | .closed => (.atoms [.url value true], r.2.2)
  | .unclosed => (.atoms [.url value false, .error .endInUrl], r.2.2)
  | .broken => (.atoms [.error .badUrl], pastBadUrl r.2.2)

/-- Whether the next significant character is a quote. -/
def quoteFollows (rest : List Char) : Bool :=
  match rest.dropWhile isSpace with
  | c :: _ => c == '"' || c == '\''
  | [] => false

/-- What begins with an identifier: a function if a bracket follows, an address if its name is
`url` and no quote follows. -/
def identAt (cs : List Char) : Lexeme × List Char :=
  let r := name cs
  let value := String.ofList r.1
  match r.2 with
  | '(' :: rest =>
    if Text.lower value == "url" && !quoteFollows rest then urlAt rest
    else (.opening (.function value), rest)
  | rest => (.atoms [.ident value], rest)

/-- What follows a numeral decides what it measures. -/
def numeralAt (n : Numeral) (rest : List Char) : Lexeme × List Char :=
  if startsIdent rest then
    let r := name rest
    (.atoms [.dimension n (String.ofList r.1)], r.2)
  else
    match rest with
    | '%' :: more => (.atoms [.percentage n], more)
    | _ => (.atoms [.number n], rest)

/-- What a single character begins when it begins neither a name nor a numeral. -/
def symbolAt (c : Char) (rest : List Char) : Lexeme × List Char :=
  match c with
  | '@' =>
    if startsIdent rest then
      let r := name rest
      (.atoms [.atKeyword (String.ofList r.1)], r.2)
    else (literal "@", rest)
  | '#' =>
    match rest with
    | [] => (literal "#", rest)
    | d :: more =>
      if isNameChar d || (d == '\\' && escapes more) then
        let r := name rest
        (.atoms [.hash (String.ofList r.1) (startsIdent rest)], r.2)
      else (literal "#", rest)
  | '\x7b' => (.opening (.block .curly), rest)
  | '[' => (.opening (.block .square), rest)
  | '(' => (.opening (.block .round), rest)
  | '\x7d' => (.closing .curly, rest)
  | ']' => (.closing .square, rest)
  | ')' => (.closing .round, rest)
  | '"' => quotedAt '"' rest
  | '\'' => quotedAt '\'' rest
  | '/' =>
    match rest with
    | '*' :: more =>
      let r := commentText more
      (.atoms [.comment (String.ofList r.1)], r.2)
    | _ => (literal "/", rest)
  | '<' =>
    match rest with
    | '!' :: '-' :: '-' :: more => (literal "<!--", more)
    | _ => (literal "<", rest)
  | '|' =>
    match rest with
    | '|' :: more => (literal "||", more)
    | '=' :: more => (literal "|=", more)
    | _ => (literal "|", rest)
  | c =>
    match rest with
    | '=' :: more =>
      if c == '~' || c == '^' || c == '$' || c == '*' then (literal (String.ofList [c, '=']), more)
      else (literal (String.ofList [c]), rest)
    | _ => (literal (String.ofList [c]), rest)

end Lexeme

open Read Lexeme in
/-- Reads the first lexeme of a text. -/
def lexeme : List Char → Lexeme × List Char
  | [] => (.atoms [], [])
  | c :: rest =>
    if isSpace c then
      (.atoms [.whitespace (String.ofList (c :: rest.takeWhile isSpace))], rest.dropWhile isSpace)
    else if startsRange (c :: rest) then
      let r := range (rest.drop 1)
      (.atoms [.unicodeRange r.1 r.2.1], r.2.2)
    else if ['-', '-', '>'].isPrefixOf (c :: rest) then (literal "-->", rest.drop 2)
    else if startsIdent (c :: rest) then identAt (c :: rest)
    else
      match numeralParts? (c :: rest) with
      | some p => numeralAt p.numeral (rest.drop (p.source.length - 1))
      | none => symbolAt c rest

namespace Lexeme

open Read

theorem quotedAt_length (quote : Char) (rest : List Char) :
    (quotedAt quote rest).2.length ≤ rest.length := by
  have h := quotedText_length quote rest
  unfold quotedAt
  simp only
  split <;> exact h

theorem urlAt_length (rest : List Char) : (urlAt rest).2.length ≤ rest.length := by
  have h := urlText_length (rest.dropWhile isSpace)
  have hd := dropWhile_length isSpace rest
  unfold urlAt
  simp only
  split
  · simp only; omega
  · simp only; omega
  · have hp := pastBadUrl_length (urlText (rest.dropWhile isSpace)).2.2
    simp only
    omega

theorem identAt_length_lt {cs : List Char} (h : startsIdent cs = true) :
    (identAt cs).2.length < cs.length := by
  have hn := name_length_lt h
  unfold identAt
  simp only
  split
  · rename_i rest heq
    rw [heq] at hn
    simp only [List.length_cons] at hn
    split
    · have hu := urlAt_length rest
      omega
    · simp only; omega
  · exact hn

theorem numeralAt_length (n : Numeral) (rest : List Char) :
    (numeralAt n rest).2.length ≤ rest.length := by
  unfold numeralAt
  split
  · exact name_length rest
  · split
    · simp only [List.length_cons]; omega
    · simp

theorem symbolAt_length (c : Char) (rest : List Char) :
    (symbolAt c rest).2.length ≤ rest.length := by
  unfold symbolAt
  split
  · split
    · exact name_length rest
    · simp
  · split
    · simp
    · split
      · exact name_length _
      · simp
  · simp
  · simp
  · simp
  · simp
  · simp
  · simp
  · exact quotedAt_length _ rest
  · exact quotedAt_length _ rest
  · split
    · have h := commentText_length
      rename_i more
      have h := h more
      simp only [List.length_cons]
      omega
    · simp
  · split
    · simp only [List.length_cons]; omega
    · simp
  · split
    · simp only [List.length_cons]; omega
    · simp only [List.length_cons]; omega
    · simp
  · split
    · split
      · simp only [List.length_cons]; omega
      · simp
    · simp

end Lexeme

/-- Reading a lexeme takes at least one character. -/
theorem lexeme_length_lt (c : Char) (rest : List Char) :
    (lexeme (c :: rest)).2.length < (c :: rest).length := by
  unfold lexeme
  simp only [List.length_cons]
  split
  · have h := Read.dropWhile_length Read.isSpace rest
    simp only
    omega
  · split
    · have h := Read.range_length (rest.drop 1)
      simp only [List.length_drop] at h ⊢
      omega
    · split
      · simp only [List.length_drop]; omega
      · split
        · rename_i h
          exact Lexeme.identAt_length_lt h
        · split
          · rename_i p _
            have h := Lexeme.numeralAt_length p.numeral (rest.drop (p.source.length - 1))
            simp only [List.length_drop] at h
            omega
          · have h := Lexeme.symbolAt_length c rest
            omega

/-- The lexemes of a text that begins at a position, each with its own position. -/
def scan (p : Position) : List Char → List (Position × Lexeme)
  | [] => []
  | c :: rest =>
    let r := lexeme (c :: rest)
    let taken := (c :: rest).take ((c :: rest).length - r.2.length)
    (p, r.1) :: scan (p.past taken) r.2
termination_by cs => cs.length
decreasing_by exact lexeme_length_lt c rest

/-- A list of component values that is still open: where and how it was opened, and what stood
before it, last first. -/
structure OpenList where
  position : Position
  opening : Opening
  before : List Token

/-- The component value that an open list becomes. -/
def OpenList.token (o : OpenList) (content : List Token) : Token :=
  match o.opening with
  | .function name => .function o.position name content
  | .block b => .block o.position b content

/-- Ends an open list: what it holds, last first, becomes one value after those before it. -/
def OpenList.close (o : OpenList) (content : List Token) : List Token :=
  o.token content.reverse :: o.before

/-- Folds lexemes into component values; `done` holds those of the innermost open list, last
first. -/
def nest : List OpenList → List Token → List (Position × Lexeme) → List Token
  | outer, done, [] => (outer.foldl (fun content o => o.close content) done).reverse
  | outer, done, (p, .atoms as) :: rest => nest outer ((as.map (.atom p)).reverse ++ done) rest
  | outer, done, (p, .opening o) :: rest => nest (⟨p, o, done⟩ :: outer) [] rest
  | [], done, (p, .closing b) :: rest => nest [] (.atom p (.error (.stray b)) :: done) rest
  | o :: outer, done, (p, .closing b) :: rest =>
    if o.opening.bracket = b then nest outer (o.close done) rest
    else nest (o :: outer) (.atom p (.error (.stray b)) :: done) rest

def Lexeme.isComment : Lexeme → Bool
  | .atoms [.comment _] => true
  | _ => false

namespace Token

/-- The component values of a text, comments included. -/
def ofCharsWithComments (cs : List Char) : List Token :=
  nest [] [] (scan .start (Read.normalise cs))

/-- The component values of a text, comments left out. -/
def ofChars (cs : List Char) : List Token :=
  nest [] [] ((scan .start (Read.normalise cs)).filter (!·.2.isComment))

def ofText (s : String) : List Token := ofChars s.toList

end Token

end StyleBundle
