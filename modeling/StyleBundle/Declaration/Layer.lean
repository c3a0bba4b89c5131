import StyleBundle.Declaration.Instruction
import StyleBundle.Value.OfToken

/-!
# StyleBundle.Declaration.Layer

Layers of the shorthands for transitions and animations. Each component value of a layer says by
itself what it sets, whatever stands before or after it; of two that set the same thing the later
one counts. Only times are told apart by their order: the first is the duration, a later one the
delay.
-/

namespace StyleBundle

namespace Declaration

def easingKeywords : List String :=
  ["linear", "ease", "ease-in", "ease-out", "ease-in-out", "step-start", "step-end"]

def easingFunctions : List String := ["cubic-bezier", "steps", "linear"]

def directions : List String := ["normal", "reverse", "alternate", "alternate-reverse"]

def fillModes : List String := ["forwards", "backwards", "both"]

def playStates : List String := ["running", "paused"]

/-- The time that a component value is; a plain zero is one too. -/
def time? : Token → Option Time
  | .atom _ (.dimension n unit) =>
    let u := Text.lower unit
    if u == "s" || u == "ms" then some { value := n.number, unit := u } else none
  | .atom _ (.number n) => if (Number.double n.value).same (.int 0) then some .zero else none
  | _ => none

def isMark : Token → Bool
  | .atom _ (.literal _) => true
  | _ => false

/-- The easing that a component value is. -/
def easing? : Token → Option Easing
  | .atom _ (.ident v) =>
    let k := Text.lower v
    if easingKeywords.contains k then some { kind := k } else none
  | .function _ f arguments =>
    let k := Text.lower f
    if easingFunctions.contains k then
      some {
        kind := k
        args := ((Token.significant arguments).filter (!isMark ·)).map Value.ofToken }
    else none
  | _ => none

/-- What a component value sets in a layer of transitions. -/
inductive TransitionPart where
  | time (t : Time)
  | easing (e : Easing)
  | property (name : String)
  | nothing

def transitionPart (t : Token) : TransitionPart :=
  match time? t, easing? t, t with
  | some time, _, _ => .time time
  | none, some e, _ => .easing e
  | none, none, .atom _ (.ident v) => .property v
  | none, none, _ => .nothing

/-- A layer of transitions that is being read, and how many times it has had. -/
def addTransitionPart (s : TransitionLayer × Nat) (t : Token) : TransitionLayer × Nat :=
  match transitionPart t with
  | .time time =>
    match s.2 with
    | 0 => ({ s.1 with duration := time }, 1)
    | 1 => ({ s.1 with delay := time }, 2)
    | n => (s.1, n + 1)
  | .easing e => ({ s.1 with easing := e }, s.2)
  | .property name => ({ s.1 with property := name }, s.2)
  | .nothing => s

def transitionLayer (ts : List Token) : TransitionLayer :=
  (ts.foldl addTransitionPart ({}, 0)).1

/-- One layer of the shorthand for animations. -/
structure AnimationLayer where
  name : String := "none"
  duration : Time := .zero
  easing : Easing := .ease
  delay : Time := .zero
  count : Value := .int 1
  direction : String := "normal"
  fillMode : String := "none"
  playState : String := "running"

/-- The properties that a layer of animations sets: all of them. -/
def AnimationLayer.entries (l : AnimationLayer) : Table Value :=
  [("animation-name", .text l.name),
   ("animation-duration", .time l.duration),
   ("animation-timing-function", l.easing.toValue),
   ("animation-delay", .time l.delay),
   ("animation-iteration-count", l.count),
   ("animation-direction", .text l.direction),
   ("animation-fill-mode", .text l.fillMode),
   ("animation-play-state", .text l.playState)]

/-- What a component value sets in a layer of animations. -/
inductive AnimationPart where
  | time (t : Time)
  | easing (e : Easing)
  | count (v : Value)
  | direction (keyword : String)
  | fillMode (keyword : String)
  | playState (keyword : String)
  | name (value : String)
  | nothing

def animationKeyword (value : String) : AnimationPart :=
  let k := Text.lower value
  if k == "infinite" then .count (.text k)
  else if directions.contains k then .direction k
  else if fillModes.contains k then .fillMode k
  else if playStates.contains k then .playState k
  else .name value

def animationPart (t : Token) : AnimationPart :=
  match time? t, easing? t, t with
  | some time, _, _ => .time time
  | none, some e, _ => .easing e
  | none, none, .atom _ (.number n) => .count n.number.toValue
  | none, none, .atom _ (.ident v) => animationKeyword v
  | none, none, .atom _ (.string v _) => .name v
  | none, none, _ => .nothing

/-- A layer of animations that is being read, and how many times it has had. -/
def addAnimationPart (s : AnimationLayer × Nat) (t : Token) : AnimationLayer × Nat :=
  match animationPart t with
  | .time time =>
    if s.2 = 0 then ({ s.1 with duration := time }, 1) else ({ s.1 with delay := time }, s.2 + 1)
  | .easing e => ({ s.1 with easing := e }, s.2)
  | .count v => ({ s.1 with count := v }, s.2)
  | .direction k => ({ s.1 with direction := k }, s.2)
  | .fillMode k => ({ s.1 with fillMode := k }, s.2)
  | .playState k => ({ s.1 with playState := k }, s.2)
  | .name v => ({ s.1 with name := v }, s.2)
  | .nothing => s

def animationLayer (ts : List Token) : AnimationLayer :=
  (ts.foldl addAnimationPart ({}, 0)).1

end Declaration

end StyleBundle
