import StyleBundle.Token.Split

/-!
# StyleBundle.Sheet.Media

Media queries: a qualifier, a type and a condition, each of which may be missing. The condition is
kept as text.
-/

namespace StyleBundle

structure MediaQuery where
  mediaType : Option String := none
  qualifier : Option String := none
  condition : Option String := none
  deriving DecidableEq, Inhabited, Repr

namespace MediaQuery

/-- A part of a query, unless it is missing or empty. -/
def part (s : Option String) : List String :=
  match s with
  | some t => if t.isEmpty then [] else [t]
  | none => []

def text (q : MediaQuery) : String :=
  let subject := part q.qualifier ++ part q.mediaType
  let condition := part q.condition
  let link := if subject.isEmpty || condition.isEmpty then [] else ["and"]
  " ".intercalate (subject ++ link ++ condition)

/-- Whether a query can hold on a screen: one for print only cannot, nor can one that rules out a
type and says nothing else. -/
def isApplicable (q : MediaQuery) : Bool :=
  let negated := Text.lower (q.qualifier.getD "") == "not"
  let print := Text.lower (q.mediaType.getD "") == "print"
  !(print && !negated) && !(negated && (part q.condition).isEmpty)

/-- The qualifier of a query, which stands before an identifier, and what follows it. -/
def readQualifier (ts : List Token) : Option String × List Token :=
  match ts with
  | t :: rest =>
    match Token.skipIdle rest with
    | u :: more =>
      if t.isKeyword ["not", "only"] && u.isIdent then (t.keyword?, u :: more) else (none, ts)
    | [] => (none, ts)
  | [] => (none, ts)

/-- The type of a query, any identifier but `not`, and what follows it and the word `and`. -/
def readType (ts : List Token) : Option String × List Token :=
  match ts with
  | t :: rest =>
    if t.isIdent && !t.isKeyword ["not"] then
      match Token.skipIdle rest with
      | u :: more => (t.keyword?, if u.isKeyword ["and"] then Token.skipIdle more else u :: more)
      | [] => (t.keyword?, [])
    else (none, ts)
  | [] => (none, ts)

def ofTokens (ts : List Token) : MediaQuery :=
  let (qualifier, afterQualifier) := readQualifier (Token.skipIdle ts)
  let (mediaType, rest) := readType afterQualifier
  let condition := Token.trimmed rest
  { mediaType, qualifier, condition := if condition.isEmpty then none else some condition }

/-- The queries of a list; parts that hold nothing do not count. -/
def listOfTokens (ts : List Token) : List MediaQuery :=
  ((Token.splitCommas ts).filter (·.any Token.isSignificant)).map ofTokens

end MediaQuery

end StyleBundle
