import StyleBundle.Declaration.Layer
import StyleBundle.Text.Name
import StyleBundle.Value.Literal

/-!
# StyleBundle.Declaration.Read

Reading declarations into instructions. Every declaration gives one instruction; `translate`, and
only it, may ask for a measurement before that. Shorthands give the value of every part they stand
for, and leave it to the rule to put equal ones together again.
-/

namespace StyleBundle

namespace Declaration

/-- Properties that the host cannot show at all. -/
def unsupported : List String :=
  ["cursor", "user-select", "float", "clear", "list-style", "list-style-type", "white-space",
   "word-break", "vertical-align", "resize", "outline", "outline-style", "outline-width",
   "outline-color", "outline-offset"]

/-- Values of `display` that the host knows. -/
def displays : List String := ["flex", "none", "contents"]

/-- The sides that a shorthand for boxes stands for: top, right, bottom, left. -/
def sides? : String → Option (String × String × String × String)
  | "margin" => some ("margin-top", "margin-right", "margin-bottom", "margin-left")
  | "padding" => some ("padding-top", "padding-right", "padding-bottom", "padding-left")
  | "inset" => some ("top", "right", "bottom", "left")
  | "border-width" =>
    some ("border-top-width", "border-right-width", "border-bottom-width", "border-left-width")
  | _ => none

/-- The values of the significant ones among component values. -/
def values (ts : List Token) : List Value := (Token.significant ts).map Value.ofToken

/-- A value that the property does not take. -/
def rejected (property : String) (ts : List Token) : List Instruction :=
  [.warn { kind := "IncompatibleNativeValue", property, value := some (Token.trimmed ts) }]

/-- A value for each side; missing ones repeat the opposite side or the first. -/
def box (property : String) (sides : String × String × String × String) (ts : List Token) :
    List Instruction :=
  let (top, right, bottom, left) := sides
  let assign (a b c d : Value) : List Instruction :=
    [.styleShorthand property [(top, a), (right, b), (bottom, c), (left, d)]]
  match values ts with
  | [a] => assign a a a a
  | [a, b] => assign a b a b
  | [a, b, c] => assign a b c b
  | [a, b, c, d] => assign a b c d
  | _ => rejected property ts

def gap (property : String) (ts : List Token) : List Instruction :=
  match values ts with
  | [a] => [.styleShorthand property [("row-gap", a), ("column-gap", a)]]
  | [a, b] => [.styleShorthand property [("row-gap", a), ("column-gap", b)]]
  | _ => rejected property ts

def scale (property : String) (ts : List Token) : List Instruction :=
  match values ts with
  | [a] => [.transformShorthand property [("scaleX", a), ("scaleY", a)]]
  | [a, b] => [.transformShorthand property [("scaleX", a), ("scaleY", b)]]
  | _ => rejected property ts

/-- A percentage is one of the element's own size, which has to be measured. -/
def measurement (axis : Axis) (t : Token) : List Instruction :=
  if t.isPercentage then [.measure axis] else []

def translate (property : String) (ts : List Token) : List Instruction :=
  match Token.significant ts with
  | [x] =>
    measurement .width x ++
      [.transformShorthand property [("translateX", .ofToken x), ("translateY", .int 0)]]
  | [x, y] =>
    measurement .width x ++ measurement .height y ++
      [.transformShorthand property [("translateX", .ofToken x), ("translateY", .ofToken y)]]
  | _ => rejected property ts

def isNone (t : Token) : Bool := t.isKeyword ["none"]

/-- The calls of a list of transforms; `none` stands for no call, and anything else than a
function does not belong there. -/
def transformCalls : List Token → Option (List Value)
  | [] => some []
  | .function _ f arguments :: rest =>
    match transformCalls rest with
    | some calls => some (.call f ((Token.layers arguments).map Value.ofTokens) false :: calls)
    | none => none
  | t :: rest => if isNone t then transformCalls rest else none

def transform (property : String) (ts : List Token) : List Instruction :=
  match transformCalls (Token.significant ts) with
  | some calls => [.style property (.list calls) none]
  | none => rejected property ts

/-- The identifiers before and after the slashes of a value: names, and keywords of the type. -/
def containerWords (afterSlash : Bool) : List Token → List String × List String
  | [] => ([], [])
  | t :: rest =>
    match t with
    | .atom _ (.literal "/") => containerWords true rest
    | .atom _ (.ident v) =>
      let r := containerWords afterSlash rest
      if afterSlash then (r.1, Text.lower v :: r.2) else (v :: r.1, r.2)
    | _ => containerWords afterSlash rest

def container (property : String) (ts : List Token) : List Instruction :=
  let (names, kinds) := containerWords false (Token.significant ts)
  let kind := match kinds.getLast? with
    | some k => .text k
    | none => .null
  if names = ["none"] then [.container property { cleared := true, kind }]
  else
    [.container property { names := if names.isEmpty then none else some names, kind }]

/-- The first component value of a layer as a time, or no time. -/
def layerTime (layer : List Token) : Time := (layer.head?.bind time?).getD .zero

/-- The first component value of a layer as an easing, or the usual one. -/
def layerEasing (layer : List Token) : Easing := (layer.head?.bind easing?).getD .ease

/-- How often an animation runs: a number, or the text of the layer. -/
def layerCount : List Token → Value
  | .atom _ (.number n) :: _ => n.number.toValue
  | layer => .text (Token.trimmed layer)

def animationField (property : String) (items : List Value) : List Instruction :=
  [.animation (.field property (.list items))]

/-- Reads a value for a property that is neither custom nor unsupported. -/
def known (property : String) (ts : List Token) : List Instruction :=
  let layers := Token.layers ts
  match property with
  | "display" =>
    let value := Value.ofTokens ts
    match value with
    | .text s =>
      if displays.contains s then [.style property value none]
      else [.warn { kind := "IncompatibleNativeValue", property, value := some s }]
    | _ =>
      [.warn { kind := "IncompatibleNativeValue", property, value := some value.plainText }]
  | "gap" => gap property ts
  | "scale" => scale property ts
  | "translate" => translate property ts
  | "rotate" => [.transform property (.ofTokens ts)]
  | "transform" => transform property ts
  | "container-type" => [.container property { kind := .ofTokens ts }]
  | "container" => container property ts
  | "container-name" => container property ts
  | "transition" => [.transition (.layers (layers.map transitionLayer))]
  | "transition-property" => [.transition (.properties (layers.map Token.trimmed))]
  | "transition-duration" => [.transition (.durations (layers.map layerTime))]
  | "transition-delay" => [.transition (.delays (layers.map layerTime))]
  | "transition-timing-function" => [.transition (.easings (layers.map layerEasing))]
  | "animation" => [.animation (.layers (layers.map fun l => (animationLayer l).entries))]
  | "animation-duration" => animationField property (layers.map fun l => .time (layerTime l))
  | "animation-delay" => animationField property (layers.map fun l => .time (layerTime l))
  | "animation-timing-function" =>
    animationField property (layers.map fun l => (layerEasing l).toValue)
  | "animation-iteration-count" => animationField property (layers.map layerCount)
  | "animation-name" => animationField property (layers.map Value.ofTokens)
  | "animation-direction" => animationField property (layers.map Value.ofTokens)
  | "animation-fill-mode" => animationField property (layers.map Value.ofTokens)
  | "animation-play-state" => animationField property (layers.map Value.ofTokens)
  | _ =>
    match sides? property with
    | some sides => box property sides ts
    | none => [.style property (.ofTokens ts) none]

/-- The value of a custom property: its source text if there is nothing else to it. -/
def customValue (source : String) (ts : List Token) : Value :=
  match Value.ofTokens ts with
  | .null => .text source
  | v => v

/-- Reads a declaration. -/
def read (d : Declaration) : List Instruction :=
  let ts := Token.ofText d.value
  if Name.isCustom d.property then [.style d.property (customValue d.value ts) none]
  else if unsupported.contains d.property then
    [.warn { kind := "IncompatibleNativeProperty", property := d.property }]
  else known d.property ts

end Declaration

end StyleBundle
