import StyleBundle.Style.Animation
import StyleBundle.Style.RuleSet

/-!
# StyleBundle.State.Basic

How far a compilation has come: the rules under each key, the animations, the custom properties of
the root and of all elements, and the flags. A step of a compilation takes a state to the next one;
if it stops, the state it has reached is still there.
-/

namespace StyleBundle

/-- The value of a flag. -/
inductive Flag where
  | on
  | text (s : String)
  | words (ws : List String)
  deriving DecidableEq, Inhabited, Repr

def Flag.toValue : Flag → Value
  | .on => .bool true
  | .text s => .text s
  | .words ws => .list (ws.map .text)

/-- Custom properties: the value of each name for each theme. -/
abbrev Variables := Table (Table Value)

namespace Variables

def put (v : Variables) (subtype name : String) (value : Value) : Variables :=
  Table.alter name (fun themes => Table.put subtype value (themes.getD [])) v

end Variables

structure State where
  darkMode : DarkMode := {}
  rules : Table (List StyleRule) := []
  keyframes : Table Animation := []
  rootVariables : Variables := []
  universalVariables : Variables := []
  flags : Table Flag := []
  /-- The order number of the next block. -/
  order : Int := 1
  /-- The font size of the root, in pixels. -/
  rem : Option Number := none
  deriving Inhabited

/-- What a step comes to: the state it has reached, the notes it has taken, and why it has stopped
if it has. -/
structure Outcome where
  state : State
  notes : List Note := []
  failure : Option Error := none
  deriving Inhabited

namespace Outcome

/-- Goes on from an outcome, unless it has stopped. -/
def andThen (o : Outcome) (step : State → Outcome) : Outcome :=
  match o.failure with
  | some _ => o
  | none =>
    let next := step o.state
    { next with notes := o.notes ++ next.notes }

/-- A step for each of some items, one after the other. -/
def each {α : Type} (step : State → α → Outcome) (s : State) : List α → Outcome
  | [] => { state := s }
  | a :: rest => (step s a).andThen fun s => each step s rest

/-- The outcome of a computation that leaves the state alone, and of what is done with its
result. -/
def ofNoted {α : Type} (s : State) (m : Noted Error α) (step : α → Outcome) : Outcome :=
  match m.result with
  | .error e => { state := s, notes := m.notes, failure := some e }
  | .ok a =>
    let next := step a
    { next with notes := m.notes ++ next.notes }

end Outcome

end StyleBundle
