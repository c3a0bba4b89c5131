import StyleBundle.Pattern.Symbol

/-!
# StyleBundle.Pattern.Read

Reading patterns, symbol by symbol, with a stack of the groups that are open. A pattern is malformed
if its brackets do not match, if it repeats nothing, or if it refers to a group that there is not,
that is still open, or that has no fixed width where it looks behind.

* `Search.ofText?`: the search for a pattern, if it is not malformed.
-/

namespace StyleBundle

namespace Pattern

/-! ## Pieces -/

/-- How many characters a match can have; there may be no bound. -/
structure Width where
  least : Nat := 0
  most : Option Nat := some 0
  deriving DecidableEq, Inhabited, Repr

namespace Width

/-- The largest distance to look behind. -/
def limit : Nat := 4294967295

def add (v w : Width) : Width where
  least := v.least + w.least
  most := v.most.bind fun m => w.most.map (m + ·)

def either (v w : Width) : Width where
  least := min v.least w.least
  most := v.most.bind fun m => w.most.map (max m ·)

/-- The width of a repetition. Nothing, repeated, is nothing, and so is anything that is repeated no
times. -/
def times (w : Width) (least : Nat) (most : Option Nat) : Width where
  least := w.least * least
  most :=
    if w.most = some 0 || most = some 0 then some 0
    else w.most.bind fun m => most.map (m * ·)

/-- The width of all matches, if they have the same one. -/
def fixed? (w : Width) : Option Nat :=
  if w.most = some w.least && w.least ≤ limit then some w.least else none

end Width

/-- A part of a sequence. -/
structure Piece where
  pattern : Pattern
  width : Width := {}
  deriving Inhabited

namespace Piece

/-- A piece for one character. -/
def unit (pattern : Pattern) : Piece := ⟨pattern, ⟨1, some 1⟩⟩

/-- The pieces of a sequence as one. -/
def sequence : List Piece → Piece
  | [] => ⟨.empty, {}⟩
  | [p] => p
  | p :: rest => ⟨.sequence p.pattern (sequence rest).pattern, p.width.add (sequence rest).width⟩

def either (p q : Piece) : Piece := ⟨.either p.pattern q.pattern, p.width.either q.width⟩

/-- Whether two pieces that have no parts are the same. -/
def same (p q : Piece) : Bool :=
  match p.pattern, q.pattern with
  | .anyChar a, .anyChar b => a == b
  | .char n c r, .char n' c' r' => n == n' && c == c' && r == r'
  | .oneOf n sets r, .oneOf n' sets' r' => n == n' && sets == sets' && r == r'
  | .edge e, .edge e' => e == e'
  | .again m r, .again m' r' => m == m' && r == r'
  | _, _ => false

/-- Takes what all of some sequences begin with, as far as it has no parts, out of them. -/
def share : List Piece → List (List Piece) → List Piece × List (List Piece)
  | p :: rest, others =>
    if others.all fun ps => ps.head?.any (same p) then
      let (shared, left) := share rest (others.map List.tail)
      (p :: shared, left)
    else ([], (p :: rest) :: others)
  | [], others => ([], [] :: others)

/-- The sets that a sequence of one character chooses from. -/
def sets? : List Piece → Option (List CharSet)
  | [p] =>
    match p.pattern with
    | .char false c _ => some [.one c]
    | .oneOf false sets _ => some sets
    | _ => none
  | _ => none

/-- The choice between sequences, as a sequence. What all of them begin with is read once, and
sequences of one character each make a class. -/
def choice (rule : CaseRule) (first : List Piece) (others : List (List Piece)) : List Piece :=
  if others.isEmpty then first
  else
    let (shared, left) := share first others
    let last := match left.mapM sets? with
      | some sets => unit (.oneOf false sets.flatten.eraseDups rule)
      | none =>
        match (left.map sequence).reverse with
        | [] => sequence []
        | p :: ps => ps.foldl (fun q p => either p q) p
    shared ++ [last]

end Piece

/-! ## Groups that are open -/

/-- What a bracket begins. -/
inductive Opening where
  | plain
  /-- A group with flags of its own. -/
  | flagged
  | numbered (number : Nat)
  | atomic
  | look (behind negated : Bool)
  /-- Two patterns to choose from by whether a group has matched. -/
  | given (number : Nat)
  deriving DecidableEq, Inhabited, Repr

/-- What a count may make of an item. -/
inductive Role where
  | single
  | edge
  | repeated
  deriving DecidableEq, Inhabited, Repr

/-- What a count is for: a piece, or the pieces of a plain group, which are pieces of the sequence
around it otherwise. -/
structure Item where
  pieces : List Piece
  role : Role := .single
  deriving Inhabited

/-- A group that is being read: the branches before the last bar, and the items after it, last
first. -/
structure Level where
  opening : Opening := .plain
  flags : List Flag := []
  /-- The number of groups before the outermost look behind that the group is in. -/
  behind : Option Nat := none
  branches : List (List Piece) := []
  items : List Item := []
  deriving Inhabited

namespace Level

def has (l : Level) (f : Flag) : Bool := l.flags.contains f

def rule (l : Level) : CaseRule := Flag.rule l.flags

/-- The pieces of the branch that is being read. -/
def branch (l : Level) : List Piece := l.items.reverse.flatMap (·.pieces)

def add (l : Level) (i : Item) : Level := { l with items := i :: l.items }

def bar? (l : Level) : Option Level :=
  match l.opening, l.branches with
  | .given _, _ :: _ => none
  | _, _ => some { l with branches := l.branches ++ [l.branch], items := [] }

/-- The pieces that the group comes to. -/
def pieces (l : Level) : List Piece :=
  match l.branches with
  | [] => l.branch
  | first :: rest => Piece.choice l.rule first (rest ++ [l.branch])

/-- Repeats the last item. -/
def count? (l : Level) (least : Nat) (most : Option Nat) (greed : Greed) : Option Level :=
  match l.items with
  | ⟨pieces, .single⟩ :: before =>
    if l.has .template then none
    else
      let p := Piece.sequence pieces
      let piece : Piece := ⟨.repeated p.pattern least most greed, p.width.times least most⟩
      some { l with items := ⟨[piece], .repeated⟩ :: before }
  | _ => none

end Level

/-! ## Reading -/

/-- What has been read of a pattern: the innermost group and the ones around it, the widths of all
groups that have a number, unless they are open, the numbers that have names, and the numbers that
there has to be a group for. -/
structure Reader where
  level : Level := {}
  outer : List Level := []
  widths : List (Option Width) := []
  names : List (String × Nat) := []
  awaited : List Nat := []
  deriving Inhabited

namespace Reader

def add (r : Reader) (i : Item) : Reader := { r with level := r.level.add i }

def addUnit (r : Reader) (p : Pattern) : Reader := r.add ⟨[.unit p], .single⟩

def addEdge (r : Reader) (e : Edge) : Reader := r.add ⟨[⟨.edge e, {}⟩], .edge⟩

/-- Opens a group that is read under some flags. -/
def enter (r : Reader) (opening : Opening) (flags : List Flag) : Reader :=
  let behind := match opening with
    | .look true _ => some (r.level.behind.getD r.widths.length)
    | _ => r.level.behind
  { r with level := { opening, flags, behind }, outer := r.level :: r.outer }

/-- Opens a group with a number. -/
def enterNumbered (r : Reader) : Reader :=
  let opened := { r with widths := r.widths ++ [none] }
  opened.enter (.numbered opened.widths.length) r.level.flags

/-- The width of a group, if it is closed. -/
def width? (r : Reader) (number : Nat) : Option Width :=
  match number with
  | 0 => none
  | n + 1 => (r.widths[n]?).join

/-- Whether a group may be referred to behind a look behind: it is closed and began before. -/
def reaches (r : Reader) (number : Nat) : Bool :=
  r.level.behind.all fun n => number ≤ n && (r.width? number).isSome

/-- Refers to what a group has matched. -/
def refer? (r : Reader) (number : Nat) : Option Reader := do
  let width ← r.width? number
  guard (r.reaches number)
  return r.add ⟨[⟨.again number r.level.rule, width⟩], .single⟩

/-- The item that the innermost group makes. -/
def item? (l : Level) : Option Item :=
  let whole := Piece.sequence l.pieces
  match l.opening with
  | .plain => some ⟨l.pieces, .single⟩
  | .flagged => some ⟨[⟨.group none whole.pattern, whole.width⟩], .single⟩
  | .numbered number => some ⟨[⟨.group (some number) whole.pattern, whole.width⟩], .single⟩
  | .atomic => some ⟨[⟨.atomic whole.pattern, whole.width⟩], .single⟩
  | .look behind negated =>
    (if behind then whole.width.fixed? else some 0).map fun back =>
      ⟨[⟨.look back negated whole.pattern, {}⟩], .single⟩
  | .given number =>
    let (yes, no) := match l.branches with
      | first :: _ => (Piece.sequence first, Piece.sequence l.branch)
      | [] => (Piece.sequence l.branch, Piece.sequence [])
    some ⟨[⟨.given number yes.pattern no.pattern, yes.width.either no.width⟩], .single⟩

/-- Closes the innermost group. -/
def leave? (r : Reader) : Option Reader :=
  match r.outer with
  | [] => none
  | l :: ls => do
    let item ← item? r.level
    let widths := match r.level.opening with
      | .numbered number =>
        r.widths.set (number - 1) (some (Piece.sequence r.level.pieces).width)
      | _ => r.widths
    return { r with level := l.add item, outer := ls, widths }

/-- The group that a condition names, by its name or its number. A group that is given by its number
may come later. -/
def condition? (r : Reader) (name : List Char) : Option (Nat × Reader) :=
  if Text.isIdentifier name then (r.names.lookup (String.ofList name)).map (·, r)
  else (number? name).map fun n => (n, { r with awaited := n :: r.awaited })

/-- Reads what a bracket begins. -/
def open? (r : Reader) (ss : List Symbol) : Option (Reader × List Symbol) :=
  let enter (opening : Opening) (rest : List Symbol) : Option (Reader × List Symbol) :=
    some (r.enter opening r.level.flags, rest)
  match ss with
  | .plain '?' :: .plain ':' :: rest => enter .plain rest
  | .plain '?' :: .plain '>' :: rest => enter .atomic rest
  | .plain '?' :: .plain '=' :: rest => enter (.look false false) rest
  | .plain '?' :: .plain '!' :: rest => enter (.look false true) rest
  | .plain '?' :: .plain '<' :: .plain '=' :: rest => enter (.look true false) rest
  | .plain '?' :: .plain '<' :: .plain '!' :: rest => enter (.look true true) rest
  | .plain '?' :: .plain '#' :: rest => (past? (.plain ')') rest).map (r, ·)
  | .plain '?' :: .plain 'P' :: .plain '<' :: rest => do
    let (cs, rest) ← until? '>' rest
    let name := String.ofList cs
    guard (Text.isIdentifier cs && (r.names.lookup name).isNone)
    let opened := r.enterNumbered
    return ({ opened with names := (name, opened.widths.length) :: r.names }, rest)
  | .plain '?' :: .plain 'P' :: .plain '=' :: rest => do
    let (cs, rest) ← until? ')' rest
    let number ← r.names.lookup (String.ofList cs)
    return (← r.refer? number, rest)
  | .plain '?' :: .plain '(' :: rest => do
    let (cs, rest) ← until? ')' rest
    let (number, known) ← r.condition? cs
    guard (known.reaches number)
    return (known.enter (.given number) r.level.flags, rest)
  | .plain '?' :: rest => do
    match ← flagUse? rest with
    | (.group added removed, rest) =>
      return (r.enter .flagged (Flag.change r.level.flags added removed), rest)
    | (.pattern added, rest) =>
      let flags := r.level.flags ++ added
      -- flags for the whole pattern stand before everything else in it
      guard (r.outer.isEmpty && r.level.branches.isEmpty && r.level.items.isEmpty)
      guard (!Flag.contradict flags)
      return ({ r with level := { r.level with flags } }, rest)
  | rest => some (r.enterNumbered, rest)

/-- Reads what a backslash and a digit begin: a code in octal digits, or the number of a group. -/
def digit? (r : Reader) (c : Char) (rest : List Symbol) : Option (Reader × List Symbol) :=
  let octal := leading isOctal (rest.take 2)
  let coded (more : List Char) : Reader × List Symbol :=
    (r.addUnit (ofCode r.level.rule (octalValue (c :: more))), rest.drop more.length)
  if c = '0' then some (coded octal)
  else if isOctal c && octal.length = 2 then
    if octalValue (c :: octal) ≤ octalLimit then some (coded octal) else none
  else
    let more := leading Char.isDigit (rest.take 1)
    (r.refer? (Read.decimalValue (c :: more))).map (·, rest.drop more.length)

/-- Reads what a backslash and a character begin. -/
def escape? (r : Reader) (c : Char) (rest : List Symbol) : Option (Reader × List Symbol) :=
  let ascii := r.level.has .ascii
  match c with
  | 'A' => some (r.addEdge .textStart, rest)
  | 'Z' => some (r.addEdge .textEnd, rest)
  | 'b' => some (r.addEdge (.word ascii true), rest)
  | 'B' => some (r.addEdge (.word ascii false), rest)
  | c =>
    match namedSet? ascii c with
    | some s => some (r.addUnit (.oneOf false [s] r.level.rule), rest)
    | none =>
      if c.isDigit then r.digit? c rest
      else (code? c rest).map fun e => (r.addUnit (ofCode r.level.rule e.1), e.2)

/-- Reads a count, and how it is meant. -/
def counted? (r : Reader) (least : Nat) (most : Option Nat) (rest : List Symbol) :
    Option (Reader × List Symbol) :=
  let (g, rest) := greed rest
  (r.level.count? least most g).map fun level => ({ r with level }, rest)

/-- Reads a plain character and what it begins. -/
def plain? (r : Reader) (c : Char) (rest : List Symbol) : Option (Reader × List Symbol) :=
  let literal := r.addUnit (.char false c r.level.rule)
  match c with
  | '.' => some (r.addUnit (.anyChar (r.level.has .lineEnds)), rest)
  | '^' => some (r.addEdge (if r.level.has .lines then .lineStart else .textStart), rest)
  | '$' => some (r.addEdge (if r.level.has .lines then .lineEnd else .lastLineEnd), rest)
  | '*' => r.counted? 0 none rest
  | '+' => r.counted? 1 none rest
  | '?' => r.counted? 0 (some 1) rest
  | '\x7b' =>
    match count rest with
    | .none => some (literal, rest)
    | .malformed => none
    | .some least most rest => r.counted? least most rest
  | '|' => r.level.bar?.map fun level => ({ r with level }, rest)
  | '(' => r.open? rest
  | ')' => r.leave?.map (·, rest)
  | '[' => (class? (r.level.has .ascii) r.level.rule rest).map fun e => (r.addUnit e.1, e.2)
  | _ => some (literal, rest)

/-- Reads a symbol and what it begins. -/
def step? (r : Reader) (s : Symbol) (rest : List Symbol) : Option (Reader × List Symbol) :=
  match s with
  | .escaped c => r.escape? c rest
  | .plain c =>
    if r.level.has .verbose && CharSet.isAsciiBlank c then some (r, rest)
    else if r.level.has .verbose && c == '#' then some (r, (past? (.plain '\n') rest).getD [])
    else r.plain? c rest

def read? : Nat → Reader → List Symbol → Option Reader
  | _, r, [] => some r
  | 0, _, _ => none
  | fuel + 1, r, s :: rest => do
    let (r, rest) ← r.step? s rest
    read? fuel r rest

/-- The pattern that was read, if all groups are closed and there are those that are referred to. -/
def pattern? (r : Reader) : Option Pattern :=
  if r.outer.isEmpty && r.awaited.all (· ≤ r.widths.length) then
    some (Piece.sequence r.level.pieces).pattern
  else none

end Reader

end Pattern

/-- The search for a pattern, if the pattern is not malformed. -/
def Search.ofText? (s : String) : Option Search := do
  let symbols ← Pattern.symbols? s.toList
  let reader ← Pattern.Reader.read? symbols.length {} symbols
  return { pattern := ← reader.pattern? }

end StyleBundle
