import StyleBundle.Error
import StyleBundle.Noted
import StyleBundle.Sheet.Statement

/-!
# StyleBundle.Sheet.Parse

Reading a style sheet into rules. A malformed rule of the sheet, or of a media or container rule,
stops the reading with an error; malformed content of style blocks and animations is left out with
a note.

* `Sheet.ofStatements`: the rules that statements stand for.
* `Sheet.parse`: the rules of a source text.
-/

namespace StyleBundle

namespace Token

mutual

/-- How many component values there are in one, itself included. -/
def weight : Token → Nat
  | .atom _ _ => 1
  | .function _ _ arguments => 1 + totalWeight arguments
  | .block _ _ content => 1 + totalWeight content

def totalWeight : List Token → Nat
  | [] => 0
  | t :: rest => t.weight + totalWeight rest

end

end Token

/-- The weight of the block that ends a prelude. -/
def Stop.weight (s : Stop) : Nat :=
  match s.content? with
  | some content => 1 + Token.totalWeight content
  | none => 0

theorem prelude_weight (semicolons : Bool) (ts : List Token) :
    (prelude semicolons ts).2.1.weight + Token.totalWeight (prelude semicolons ts).2.2 ≤
      Token.totalWeight ts := by
  induction ts with
  | nil => simp [prelude, Stop.weight, Stop.content?]
  | cons t rest ih =>
    unfold prelude
    split
    · simp [Stop.weight, Stop.content?, Token.totalWeight, Token.weight]
    · split
      · simp [Stop.weight, Stop.content?, Token.totalWeight]
      · simp only [Token.totalWeight]; omega

namespace Statement

/-- The weight of what a statement holds, and one for itself. -/
def weight : Statement → Nat
  | .atRule _ _ (some content) => 1 + Token.totalWeight content
  | _ => 1

def totalWeight : List Statement → Nat
  | [] => 0
  | s :: rest => s.weight + totalWeight rest

theorem weight_pos (s : Statement) : 0 < s.weight := by
  unfold weight
  split
  · omega
  · omega

theorem weight_atRule (keyword : String) (before : List Token) (stop : Stop) :
    (Statement.atRule keyword before stop.content?).weight ≤ 1 + stop.weight := by
  unfold Stop.weight
  cases stop.content? with
  | none => simp [weight]
  | some content => simp only [weight]; omega

theorem token_weight_pos (t : Token) : 0 < t.weight := by
  cases t with
  | atom p a => simp only [Token.weight]; omega
  | function p f arguments => simp only [Token.weight]; omega
  | block p b content => simp only [Token.weight]; omega

/-- Statements are no heavier than the component values they are made of. -/
theorem totalWeight_listOfTokens (whole : Bool) (ts : List Token) :
    totalWeight (listOfTokens whole ts) ≤ Token.totalWeight ts := by
  fun_induction listOfTokens whole ts with
  | case1 => simp [totalWeight]
  | case2 t rest h ih => simp only [Token.totalWeight]; omega
  | case3 rest p keyword r h ih =>
    have hp := prelude_weight true rest
    have hw := weight_atRule keyword r.1 r.2.1
    simp only [totalWeight, Token.totalWeight, Token.weight]
    simp only [r] at *
    omega
  | case4 t rest h r p content heq h' ih =>
    have hp := prelude_weight false (t :: rest)
    simp only [r] at heq ih
    rw [heq] at hp
    simp only [heq, totalWeight, weight]
    simp only [Stop.weight, Stop.content?] at hp
    omega
  | case5 t rest h r h' hs =>
    have hp := token_weight_pos t
    simp only [r] at hs
    simp only
    simp only [totalWeight, weight, Token.totalWeight]
    omega

theorem totalWeight_lt_cons (s : Statement) (rest : List Statement) :
    totalWeight rest < totalWeight (s :: rest) := by
  have h := weight_pos s
  simp only [totalWeight]
  omega

/-- The statements in the block of an at-rule are lighter than the at-rule. -/
theorem totalWeight_content_lt (keyword : String) (before : List Token)
    (content : Option (List Token)) (rest : List Statement) :
    totalWeight (listOfTokens false (content.getD [])) <
      totalWeight (.atRule keyword before content :: rest) := by
  have h := totalWeight_listOfTokens false (content.getD [])
  cases content with
  | none =>
    simp only [Option.getD_none, Token.totalWeight] at h
    simp only [totalWeight, weight, Option.getD_none]
    omega
  | some c =>
    simp only [Option.getD_some] at h
    simp only [totalWeight, weight, Option.getD_some]
    omega

end Statement

namespace Sheet

/-- A declaration as it stands in a block. The name of a custom property keeps its case. -/
def declaration (name : String) (value : List Token) : Declaration :=
  { property := if Name.isCustom name then name else Text.lower name,
    value := Token.trimmed value }

/-- The declarations of a block that are important, or that are not. -/
def declarations (important : Bool) (items : List Item) : List Declaration :=
  items.filterMap fun item =>
    match item with
    | .declaration name value i => if i = important then some (declaration name value) else none
    | _ => none

/-- The words of a prelude. -/
def words (ts : List Token) : List String := Text.words (Token.chars ts)

/-- The name of the directive that moves declarations. -/
def moveName : String := "rn-move"

/-- The name of the directive that sets options. -/
def optionName : String := "cssInterop"

/-- The directives of a block that move declarations. -/
def moves (items : List Item) : List Directive :=
  items.filterMap fun item =>
    match item with
    | .atRule keyword before =>
      if Text.lower keyword = moveName then some { name := moveName, words := words before }
      else none
    | _ => none

/-- The notes on the items of a block that are left out. -/
def itemNotes (items : List Item) : List Note :=
  items.filterMap fun item =>
    match item with
    | .fault problem => some (.droppedDeclaration problem.text)
    | .nestedRule => some .skippedNestedRule
    | _ => none

/-- The selectors of a prelude. -/
def selectors (ts : List Token) : List String :=
  ((Token.splitCommas ts).map Token.trimmed).filter (!·.isEmpty)

def styleBlock (before content : List Token) : Noted SourceError StyleBlock :=
  let items := Item.listOfTokens content
  .withNotes (itemNotes items)
    { selectors := selectors before,
      declarations := declarations false items,
      important := declarations true items,
      directives := moves items }

/-- The percentage that a component value is, as a fraction. -/
def fraction? : Token → Option Number
  | .atom _ (.percentage n) => some (.double n.value.percent)
  | _ => none

/-- The offset that some component values name. -/
def offset (ts : List Token) : Offset :=
  let significant := Token.significant ts
  let range := Offset.other Offset.rangeKind (significant.findSome? fraction?)
  match significant with
  | [t] =>
    if t.isKeyword ["from"] then .start
    else if t.isKeyword ["to"] then .finish
    else
      match fraction? t with
      | some v => .percentage (some v)
      | none => range
  | _ => range

def offsets (ts : List Token) : List Offset :=
  ((Token.splitCommas ts).filter (·.any Token.isSignificant)).map offset

/-- The name of an animation: a single identifier or string, or else the text of the prelude. -/
def animationName (ts : List Token) : String :=
  match Token.significant ts with
  | [.atom _ (.ident v)] => v
  | [.atom _ (.string v _)] => v
  | _ => Token.trimmed ts

/-- The frames among the statements of an animation. Nothing is important there. -/
def frames : List Statement → Noted SourceError (List Keyframe)
  | [] => pure []
  | .qualified before content :: rest => do
    let items := Item.listOfTokens content
    let declarations := declarations false items
    let frame ← Noted.withNotes (itemNotes items) { offsets := offsets before, declarations }
    let others ← frames rest
    return frame :: others
  | _ :: rest => frames rest

/-- The name of a container rule, any identifier but `not`, and its condition. -/
def containerPrelude (ts : List Token) : Option String × String :=
  match Token.skipIdle ts with
  | t :: rest =>
    match t with
    | .atom _ (.ident v) =>
      if t.isKeyword ["not"] then (none, Token.trimmed (t :: rest))
      else (some v, Token.trimmed (Token.skipIdle rest))
    | _ => (none, Token.trimmed (t :: rest))
  | [] => (none, "")

/-- The rules that statements stand for, in their order. At-rules that have no meaning here are
left out with a note. -/
def ofStatements : List Statement → Noted SourceError (List Rule)
  | [] => pure []
  | .fault p problem :: _ =>
    .stop { problem := problem.text, line := some p.line, column := some p.column }
  | .qualified before content :: rest => do
    let block ← styleBlock before content
    let rules ← ofStatements rest
    return .style block :: rules
  | .atRule keyword before content :: rest =>
    match Text.lower keyword with
    | "media" => do
      let children ← ofStatements (Statement.listOfTokens false (content.getD []))
      let rules ← ofStatements rest
      return .media (MediaQuery.listOfTokens before) children :: rules
    | "container" => do
      let children ← ofStatements (Statement.listOfTokens false (content.getD []))
      let rules ← ofStatements rest
      let (name, condition) := containerPrelude before
      return .container name condition children :: rules
    | "keyframes" | "-webkit-keyframes" => do
      let frames ← frames (Statement.listOfTokens false (content.getD []))
      let rules ← ofStatements rest
      return .keyframes { name := animationName before, frames } :: rules
    | "cssinterop" => do
      let rules ← ofStatements rest
      return .directive { name := optionName, words := words before } :: rules
    | _ => do
      Noted.withNotes [.skippedAtRule keyword] ()
      ofStatements rest
termination_by statements => Statement.totalWeight statements
decreasing_by
  · exact Statement.totalWeight_lt_cons _ rest
  · exact Statement.totalWeight_content_lt keyword before content rest
  · exact Statement.totalWeight_lt_cons _ rest
  · exact Statement.totalWeight_content_lt keyword before content rest
  · exact Statement.totalWeight_lt_cons _ rest
  · exact Statement.totalWeight_lt_cons _ rest
  · exact Statement.totalWeight_lt_cons _ rest
  · exact Statement.totalWeight_lt_cons _ rest

/-- Reads a style sheet. -/
def parse (source : String) : Noted SourceError (List Rule) :=
  ofStatements (Statement.listOfTokens true (Token.ofText source))

end Sheet

end StyleBundle
