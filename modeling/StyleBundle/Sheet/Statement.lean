import StyleBundle.Token.Write
import StyleBundle.Text.Name

/-!
# StyleBundle.Sheet.Statement

The coarse structure of a style sheet. A list of component values falls into statements, each with
a prelude and mostly a block; the block of a style rule falls into declarations and other items.
What a statement means is not looked at here.

* `Statement.listOfTokens`: the statements of a sheet or of a block of rules.
* `Item.listOfTokens`: the items of a block of declarations.
-/

namespace StyleBundle

/-- Why a statement has no block. -/
inductive Problem where
  | endReached
  | semicolonReached
  deriving DecidableEq, Inhabited, Repr

def Problem.text : Problem → String
  | .endReached => "EOF reached before \x7b\x7d block for a qualified rule."
  | .semicolonReached => "Stop token reached before \x7b\x7d block for a qualified rule."

/-- What ends a prelude. -/
inductive Stop where
  | block (position : Position) (content : List Token)
  | semicolon
  | finish
  deriving Inhabited

/-- The content of the block that ends a prelude. -/
def Stop.content? : Stop → Option (List Token)
  | .block _ content => some content
  | _ => none

/-- The component values before a block, or, if semicolons count, before a semicolon; what ended
them; and what comes after that. -/
def prelude (semicolons : Bool) : List Token → List Token × Stop × List Token
  | [] => ([], .finish, [])
  | t :: rest =>
    match t with
    | .block p .curly content => ([], .block p content, rest)
    | _ =>
      if semicolons && t.isLiteral ";" then ([], .semicolon, rest)
      else
        let r := prelude semicolons rest
        (t :: r.1, r.2)

theorem prelude_length (semicolons : Bool) (ts : List Token) :
    (prelude semicolons ts).2.2.length ≤ ts.length := by
  induction ts with
  | nil => simp [prelude]
  | cons t rest ih =>
    unfold prelude
    split
    · simp
    · split
      · simp
      · simp only [List.length_cons]; omega

theorem prelude_cons_length (semicolons : Bool) (t : Token) (rest : List Token) :
    (prelude semicolons (t :: rest)).2.2.length ≤ rest.length := by
  have h := prelude_length semicolons rest
  unfold prelude
  split
  · simp
  · split
    · simp
    · exact h

inductive Statement where
  | atRule (keyword : String) (prelude : List Token) (content : Option (List Token))
  | qualified (prelude content : List Token)
  /-- A statement that has no block, and where its prelude ends. -/
  | fault (position : Position) (problem : Problem)
  deriving Inhabited

namespace Statement

/-- The bounds of markup, which may stand between the statements of a whole sheet. -/
def isMarkupBound (t : Token) : Bool := t.isLiteral "<!--" || t.isLiteral "-->"

/-- The position of the last of some component values. -/
def lastPosition (ts : List Token) : Position :=
  match ts.getLast? with
  | some t => t.position
  | none => .start

/-- The statements of a list of component values; `whole` tells a whole sheet from a block. -/
def listOfTokens (whole : Bool) : List Token → List Statement
  | [] => []
  | t :: rest =>
    if !t.isSignificant || (whole && isMarkupBound t) then listOfTokens whole rest
    else
      match t with
      | .atom _ (.atKeyword keyword) =>
        let r := prelude true rest
        .atRule keyword r.1 r.2.1.content? :: listOfTokens whole r.2.2
      | _ =>
        let r := prelude false (t :: rest)
        match r.2.1 with
        | .block _ content => .qualified r.1 content :: listOfTokens whole r.2.2
        | _ => [.fault (lastPosition r.1) .endReached]
termination_by ts => ts.length
decreasing_by
  · simp
  · have h := prelude_length true rest
    simp only [List.length_cons]
    omega
  · have h := prelude_cons_length false t rest
    simp only [List.length_cons]
    omega

end Statement

inductive Item where
  | declaration (name : String) (value : List Token) (important : Bool)
  | atRule (keyword : String) (prelude : List Token)
  | nestedRule
  | fault (problem : Problem)
  deriving Inhabited

/-- How far `!important` at the end of a value has been read: not at all, up to its
exclamation mark, or whole; `start` values stand before it. -/
inductive Importance where
  | no
  | bang (start : Nat)
  | yes (start : Nat)
  deriving DecidableEq, Inhabited, Repr

/-- What has been seen of the value of a declaration. -/
structure ValueScan where
  seen : Nat := 0
  importance : Importance := .no
  hasContent : Bool := false
  hasBlock : Bool := false
  deriving Inhabited

namespace ValueScan

def isBlock : Token → Bool
  | .block _ .curly _ => true
  | _ => false

/-- Takes note of a value that is no part of `!important`. -/
def ordinary (s : ValueScan) (t : Token) : ValueScan :=
  if !t.isSignificant then s
  else if isBlock t then { s with importance := .no, hasBlock := s.hasBlock || s.hasContent }
  else { s with importance := .no, hasContent := true }

def step (s : ValueScan) (t : Token) : ValueScan :=
  let s' := match s.importance with
    | .no => if t.isLiteral "!" then { s with importance := .bang s.seen } else s.ordinary t
    | .bang n => if t.isKeyword ["important"] then { s with importance := .yes n } else s.ordinary t
    | .yes _ => s.ordinary t
  { s' with seen := s.seen + 1 }

end ValueScan

namespace Item

/-- The value of a declaration and whether it is important. A block after other content is not
part of a value. -/
def value? (ts : List Token) : Option (List Token × Bool) :=
  let s := ts.foldl ValueScan.step {}
  if s.hasBlock then none
  else
    match s.importance with
    | .yes n => some (ts.take n, true)
    | _ => some (ts, false)

/-- Some component values as a declaration: a name, a colon and a value. -/
def declaration? (first : Token) (rest : List Token) : Option Item :=
  match first with
  | .atom _ (.ident name) =>
    match Token.skipIdle rest with
    | colon :: ts =>
      if colon.isLiteral ":" then
        match value? ts with
        | some (value, important) => some (.declaration name value important)
        | none => none
      else none
    | [] => none
  | _ => none

/-- The values up to a stop, together with the block if that is what stops them. -/
def declarationTokens (r : List Token × Stop × List Token) : List Token :=
  match r.2.1 with
  | .block p content => r.1 ++ [.block p .curly content]
  | _ => r.1

/-- What values that are no declaration are. -/
def other : Stop → Item
  | .block _ _ => .nestedRule
  | .semicolon => .fault .semicolonReached
  | .finish => .fault .endReached

/-- The items of a block. -/
def listOfTokens : List Token → List Item
  | [] => []
  | t :: rest =>
    if !t.isSignificant || t.isLiteral ";" then listOfTokens rest
    else
      match t with
      | .atom _ (.atKeyword keyword) =>
        let r := prelude true rest
        .atRule keyword r.1 :: listOfTokens r.2.2
      | .block _ .curly _ => .nestedRule :: listOfTokens rest
      | _ =>
        let r := prelude true rest
        (declaration? t (declarationTokens r)).getD (other r.2.1) :: listOfTokens r.2.2
termination_by ts => ts.length
decreasing_by
  · simp
  · have h := prelude_length true rest
    simp only [List.length_cons]
    omega
  · simp
  · have h := prelude_length true rest
    simp only [List.length_cons]
    omega

end Item

end StyleBundle
