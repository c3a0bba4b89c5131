import StyleBundle.Pattern.CharSet

/-!
# StyleBundle.Pattern.Basic

Regular expressions that are searched for in names. A pattern relates a state of a match to the
states that a match from there can end in, the preferred one first; it occurs in a text if some
index of the text has such an end. A state is an index of the text together with what the groups
have matched so far, of which only the groups that the pattern refers to are kept.

The order of the ends matters to what takes the preferred end only and never reconsiders: possessive
repetition, atomic groups, and a look ahead or behind. Of the other repetitions the greedy ones
prefer to go on and the lazy ones to stop. A turn that consumes nothing ends every repetition.

* `Pattern.ends`: the states that a match can end in.
* `Search.occursIn`: whether a pattern occurs in a text.
-/

namespace StyleBundle

/-- How a repetition treats the choice between another turn and none. -/
inductive Greed where
  /-- Another turn is preferred. -/
  | greedy
  /-- No further turn is preferred. -/
  | lazy
  /-- Another turn is taken wherever there is one. -/
  | possessive
  deriving DecidableEq, Inhabited, Repr

/-- A condition on an index of a text. -/
inductive Edge where
  | textStart
  | textEnd
  /-- The end of the text, or the end of its last line. -/
  | lastLineEnd
  | lineStart
  | lineEnd
  /-- Between a word character and another, or within a run of either. -/
  | word (ascii expected : Bool)
  deriving DecidableEq, Inhabited, Repr

inductive Pattern where
  | empty
  /-- Any character, or any but the end of a line. -/
  | anyChar (lineEnds : Bool)
  /-- A certain character, or any other one. -/
  | char (negated : Bool) (c : Char) (rule : CaseRule)
  /-- A character in one of some sets, or in none of them. -/
  | oneOf (negated : Bool) (sets : List CharSet) (rule : CaseRule)
  | edge (e : Edge)
  | sequence (first second : Pattern)
  | either (first second : Pattern)
  /-- A group, which can be referred to if it has a number. -/
  | group (number : Option Nat) (p : Pattern)
  /-- A pattern of which the preferred end only is taken. -/
  | atomic (p : Pattern)
  /-- A match, or none, that begins a number of characters back and leaves the index alone. -/
  | look (back : Nat) (negated : Bool) (p : Pattern)
  /-- What a group has matched, once more. -/
  | again (number : Nat) (rule : CaseRule)
  /-- One pattern if a group has matched, another one if not. -/
  | given (number : Nat) (yes no : Pattern)
  | repeated (p : Pattern) (least : Nat) (most : Option Nat) (greed : Greed)
  deriving Inhabited, Repr

/-- Where a group was entered and left last. -/
structure Span where
  start : Option Nat := none
  stop : Option Nat := none
  deriving DecidableEq, Inhabited, Repr

/-- A state of a match: an index of the text, and the spans of groups by their numbers. -/
structure Cursor where
  index : Nat
  spans : List (Nat × Span) := []
  deriving DecidableEq, Inhabited, Repr

namespace Cursor

/-- Changes the span of a group, if the group is kept. -/
def note (number : Option Nat) (change : Span → Span) (c : Cursor) : Cursor :=
  { c with spans := c.spans.map fun e => if some e.1 = number then (e.1, change e.2) else e }

def enter (number : Option Nat) (c : Cursor) : Cursor :=
  c.note number fun s => { s with start := some c.index }

def leave (number : Option Nat) (c : Cursor) : Cursor :=
  c.note number fun s => { s with stop := some c.index }

/-- What a group has matched last. A group that was entered again behind it has no match. -/
def span? (c : Cursor) (number : Nat) : Option (Nat × Nat) :=
  match c.spans.lookup number with
  | some ⟨some start, some stop⟩ => if start ≤ stop then some (start, stop) else none
  | _ => none

end Cursor

/-- Whether the character before an index, or the one after it, is a word character. -/
def Edge.besideWord (ascii : Bool) (text : Array Char) (i : Nat) : Bool × Bool :=
  let isWord (c? : Option Char) : Bool := c?.any (CharSet.isWordChar ascii)
  (0 < i && isWord text[i - 1]?, isWord text[i]?)

/-- Whether an index of a text meets a condition. In a text without characters no index lies between
a word character and another, or within a run. -/
def Edge.holds (text : Array Char) (i : Nat) : Edge → Bool
  | .textStart => i = 0
  | .textEnd => i = text.size
  | .lastLineEnd => i = text.size || (i + 1 = text.size && text[i]? == some '\n')
  | .lineStart => i = 0 || text[i - 1]? == some '\n'
  | .lineEnd => i = text.size || text[i]? == some '\n'
  | .word ascii expected =>
    let (before, after) := besideWord ascii text i
    !text.isEmpty && (before != after) == expected

namespace Pattern

/-- Each state once, where it comes first. -/
def once (cs : List Cursor) : List Cursor := cs.eraseDups

/-- The states reached from some in exactly `n` steps. -/
def after (step : Cursor → List Cursor) : Nat → List Cursor → List Cursor
  | 0, cs => cs
  | _ + 1, [] => []
  | n + 1, cs => after step n (once (cs.flatMap step))

/-- Turns of a repetition: the states that further turns were tried from, each with the number of
turns that were left, and the states that the repetition can end in, both newest first. -/
structure Turns where
  tried : List (Option Nat × Cursor) := []
  ends : List Cursor := []
  deriving Inhabited

/-- Adds an end to those found before. -/
def Turns.add (t : Turns) (c : Cursor) : Turns :=
  if t.ends.contains c then t else { t with ends := c :: t.ends }

/-- The ends reached from a state in any number of steps, but at most `left` of them, added to those
found before. A state that was tried before leads nowhere new. -/
def spread (step : Cursor → List Cursor) (lazy : Bool) :
    Nat → Option Nat → Turns → Cursor → Turns
  | 0, _, t, c => t.add c
  | fuel + 1, left, t, c =>
    if left = some 0 then t.add c
    else if t.tried.contains (left, c) then t
    else
      let start : Turns := { t with tried := (left, c) :: t.tried }
      let more := (step c).foldl
        (fun t d =>
          if d.index = c.index then t.add d else spread step lazy fuel (left.map (· - 1)) t d)
        (if lazy then start.add c else start)
      more.add c

/-- The state after exactly `n` preferred steps. -/
def straight? (step : Cursor → List Cursor) : Nat → Cursor → Option Cursor
  | 0, c => some c
  | n + 1, c =>
    match step c with
    | [] => none
    | d :: _ => straight? step n d

/-- The state after as many preferred steps as there are, but at most `n`. -/
def straightOn (step : Cursor → List Cursor) : Nat → Cursor → Cursor
  | 0, c => c
  | n + 1, c =>
    match step c with
    | [] => c
    | d :: _ => if d.index = c.index then d else straightOn step n d

/-- The states reached in at least `least` and at most `most` steps in a text of a given size. -/
def turns (step : Cursor → List Cursor) (size least : Nat) (most : Option Nat) (greed : Greed)
    (c : Cursor) : List Cursor :=
  let left := most.map (· - least)
  match greed with
  | .possessive =>
    (straight? step least c).toList.map (straightOn step (left.getD (size + 1)))
  | _ =>
    let found := (after step least [c]).foldl (spread step (greed == .lazy) (size + 1) left) {}
    found.ends.reverse

/-- The state after a character that passes a test. -/
def nextIf (test : Char → Bool) (text : Array Char) (c : Cursor) : List Cursor :=
  match text[c.index]? with
  | some d => if test d then [{ c with index := c.index + 1 }] else []
  | none => []

/-- The state after what a group has matched, if the text goes on with it. -/
def repeatSpan (rule : CaseRule) (text : Array Char) (number : Nat) (c : Cursor) : List Cursor :=
  match c.span? number with
  | none => []
  | some (start, stop) =>
    let next := c.index + (stop - start)
    let forms (i j : Nat) := (text.extract i j).toList.map rule.form
    if forms start stop = forms c.index next then [{ c with index := next }] else []

/-- The states that a match from a state can end in, the preferred one first. -/
def ends (text : Array Char) : Pattern → Cursor → List Cursor
  | .empty, c => [c]
  | .anyChar lineEnds, c => nextIf (fun d => lineEnds || d != '\n') text c
  | .char negated e rule, c => nextIf (fun d => rule.same d e != negated) text c
  | .oneOf negated sets rule, c =>
    nextIf (fun d => sets.any (CharSet.holds rule d) != negated) text c
  | .edge e, c => if e.holds text c.index then [c] else []
  | .sequence p q, c => once ((ends text p c).flatMap (ends text q))
  | .either p q, c => once (ends text p c ++ ends text q c)
  | .group number p, c => (ends text p (c.enter number)).map (·.leave number)
  | .atomic p, c => (ends text p c).take 1
  | .look back negated p, c =>
    let found :=
      if back ≤ c.index then (ends text p { c with index := c.index - back }).head? else none
    if negated then if found.isNone then [c] else []
    else found.toList.map ({ · with index := c.index })
  | .again number rule, c => repeatSpan rule text number c
  | .given number yes no, c => if (c.span? number).isSome then ends text yes c else ends text no c
  | .repeated p least most greed, c => turns (ends text p) text.size least most greed c

/-- The groups that a pattern refers to. -/
def references : Pattern → List Nat
  | .again number _ => [number]
  | .given number yes no => number :: (references yes ++ references no)
  | .sequence p q => references p ++ references q
  | .either p q => references p ++ references q
  | .group _ p => references p
  | .atomic p => references p
  | .look _ _ p => references p
  | .repeated p _ _ _ => references p
  | _ => []

end Pattern

/-- A pattern that is searched for. -/
structure Search where
  pattern : Pattern
  deriving Inhabited, Repr

/-- Whether a pattern occurs in a text. -/
def Search.occursIn (s : Search) (text : String) : Bool :=
  let chars := text.toList.toArray
  let spans := s.pattern.references.eraseDups.map (·, ({} : Span))
  (List.range (chars.size + 1)).any fun index => !(s.pattern.ends chars { index, spans }).isEmpty

end StyleBundle
