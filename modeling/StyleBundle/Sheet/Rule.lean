import StyleBundle.Declaration.Instruction
import StyleBundle.Sheet.Media

/-!
# StyleBundle.Sheet.Rule

The rules of a style sheet. Selectors and values are still text; media and container rules hold
rules of their own.
-/

namespace StyleBundle

/-- A directive to the compiler: its name and the words after it. -/
structure Directive where
  name : String
  words : List String := []
  deriving DecidableEq, Inhabited, Repr

/-- A block of declarations for some selectors. Important declarations stand apart, and the
directives say where declarations are moved to. -/
structure StyleBlock where
  selectors : List String
  declarations : List Declaration := []
  important : List Declaration := []
  directives : List Directive := []
  deriving DecidableEq, Inhabited, Repr

def StyleBlock.hasDeclarations (b : StyleBlock) : Bool :=
  !(b.declarations.isEmpty && b.important.isEmpty)

/-- Where a frame stands in an animation. -/
inductive Offset where
  | start
  | finish
  | percentage (value : Option Number)
  /-- An offset of another kind, which no animation can have. -/
  | other (kind : String) (value : Option Number)
  deriving DecidableEq, Inhabited, Repr

namespace Offset

/-- The kind of an offset within a named range. -/
def rangeKind : String := "timeline-range-percentage"

def kind : Offset → String
  | .start => "from"
  | .finish => "to"
  | .percentage _ => "percentage"
  | .other kind _ => kind

def value : Offset → Option Number
  | .start => none
  | .finish => none
  | .percentage v => v
  | .other _ v => v

/-- The offset with the name of a kind and a value. -/
def ofKind (kind : String) (value : Option Number) : Offset :=
  match kind with
  | "from" => .start
  | "to" => .finish
  | "percentage" => .percentage value
  | _ => .other kind value

end Offset

structure Keyframe where
  offsets : List Offset
  declarations : List Declaration := []
  deriving DecidableEq, Inhabited, Repr

structure Keyframes where
  name : String
  frames : List Keyframe := []
  deriving DecidableEq, Inhabited, Repr

inductive Rule where
  | style (block : StyleBlock)
  | media (queries : List MediaQuery) (rules : List Rule)
  | container (name : Option String) (condition : String) (rules : List Rule)
  | keyframes (k : Keyframes)
  | directive (d : Directive)
  /-- A rule of a kind that has no meaning here. -/
  | unknown (kind : String)
  deriving Inhabited

end StyleBundle
