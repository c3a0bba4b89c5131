import StyleBundle.Sorting
import StyleBundle.Style.Build

/-!
# StyleBundle.Style.Animation

Animations out of keyframes. Every frame that sets plain properties counts once for each of its
offsets. The frames are put in the order of their progress, and those at the same one stay in the
order of the source. A property then has one step per frame that sets it, each step counted from the
last earlier progress of the whole animation; if its first step is not at the start, a step that
takes over the value of the element goes before it.

* `RawFrame.ofKeyframes`: the frames that count, in the order of the source.
* `RawFrame.sort`: the order of their progress.
* `Animation.ofFrames`: the steps of every property.
-/

namespace StyleBundle

/-- A step of an animation: a value and how far on it is reached. -/
structure AnimationStep where
  value : Value
  progress : Number
  deriving Inhabited

structure Animation where
  frames : Table (List AnimationStep) := []
  /-- The easing of each frame; those without one have a placeholder. -/
  easings : Option (List Value) := none
  needsWidth : Bool := false
  needsHeight : Bool := false
  deriving Inhabited

/-- The progress that an offset stands for, from zero to one, if it stands for one. -/
def Offset.progress? : Offset → Option Number
  | .start => some (.double (.finite false 0))
  | .finish => some (.double (.finite false Double.one))
  | .percentage value => value
  | .other _ _ => none

/-- The note on an offset that stands for no progress. -/
def Offset.notes (o : Offset) : List Note :=
  if o.progress?.isNone then [.unsupportedOffset o.kind] else []

/-- A property that a frame sets, and its value. -/
structure FrameValue where
  property : String
  value : Value
  deriving Inhabited

/-- A frame at one progress: the properties it sets and its easing. -/
structure RawFrame where
  progress : Number
  values : List FrameValue
  easing : Option Value := none
  deriving Inhabited

/-- What the frames of an animation amount to before they are put in order. -/
structure FrameSet where
  frames : List RawFrame := []
  needsWidth : Bool := false
  needsHeight : Bool := false
  deriving Inhabited

namespace RawFrame

/-- The plain properties that a rule sets. -/
def valuesOf (r : StyleRule) : List FrameValue :=
  r.declarations.filterMap fun d =>
    match d.target with
    | .bare property => some { property, value := d.value }
    | .path _ => none

/-- The easing of a rule: the first of its timing functions. -/
def easing? (r : StyleRule) : Option Value :=
  match Table.get? "timingFunction" (r.animations.getD []) with
  | some (.list (.null :: _)) => none
  | some (.list (v :: _)) => some v
  | _ => none

/-- The frames at the offsets of a keyframe. -/
def atOffsets (offsets : List Offset) (values : List FrameValue) (easing : Option Value) :
    List RawFrame :=
  offsets.filterMap fun o => o.progress?.map fun progress => { progress, values, easing }

/-- The rule that the declarations of a keyframe make. -/
def rule (ctx : BuildContext) (read : Declaration → List Instruction) (order : Int)
    (k : Keyframe) : Noted Error StyleRule := do
  let specificity ← .ofExcept (Specificity.ofTiers Specificity.frameImportance 0 0 1 order)
  let draft := buildRule ctx read specificity k.declarations
  .withNotes draft.notes draft.rule

/-- Adds the frames of a keyframe. One that sets no plain property has none, but what it needs to
have measured counts. -/
def addKeyframe (ctx : BuildContext) (read : Declaration → List Instruction) (order : Int)
    (s : FrameSet) (k : Keyframe) : Noted Error FrameSet := do
  if k.declarations.isEmpty then return s
  let r ← rule ctx read order k
  let values := valuesOf r
  let s := { s with
    needsWidth := s.needsWidth || r.needsWidth,
    needsHeight := s.needsHeight || r.needsHeight }
  if values.isEmpty then return s
  .withNotes (k.offsets.flatMap Offset.notes)
    { s with frames := s.frames ++ atOffsets k.offsets values (easing? r) }

/-- The frames of an animation in the order of the source. -/
def ofKeyframes (ctx : BuildContext) (read : Declaration → List Instruction) (order : Int)
    (k : Keyframes) : Noted Error FrameSet :=
  k.frames.foldlM (addKeyframe ctx read order) {}

/-- Frames in the order of their progress; those at the same one keep their order. -/
def sort (frames : List RawFrame) : List RawFrame :=
  Sorting.sort (fun f g => f.progress.less g.progress) frames

end RawFrame

namespace Animation

def zero : Number := .double (.finite false 0)

/-- Adds a step to a property; before the first step of a property that does not begin at the
start, the value of the element is taken over. -/
def addStep (progress distance : Number) (value : Value) (steps : Option (List AnimationStep)) :
    List AnimationStep :=
  let steps := steps.getD []
  let opening : List AnimationStep :=
    if steps.isEmpty && !progress.same (.int 0) then
      [{ value := Value.inherited, progress := .int 0 }]
    else []
  steps ++ opening ++ [{ value, progress := distance }]

/-- Adds the values of a frame. Only primitive values can be animated. -/
def addValues (name : String) (progress distance : Number) :
    Table (List AnimationStep) → List FrameValue → Except Error (Table (List AnimationStep))
  | table, [] => .ok table
  | table, v :: rest =>
    if v.value.isPrimitive then
      addValues name progress distance
        (table.alter v.property (addStep progress distance v.value)) rest
    else .error (.structuredFrame name v.property v.value)

/-- Adds sorted frames, given the last progress before the present one and the present one. -/
def addFrames (name : String) :
    Number → Number → Table (List AnimationStep) → List RawFrame →
      Except Error (Table (List AnimationStep))
  | _, _, table, [] => .ok table
  | previous, current, table, f :: rest =>
    let (previous, current) :=
      if f.progress.same current then (previous, current) else (current, f.progress)
    match f.progress.sub? previous with
    | none => .error .integerTooLarge
    | some distance =>
      match addValues name f.progress distance table f.values with
      | .error e => .error e
      | .ok table => addFrames name previous current table rest

/-- The easings up to the last frame that has one. -/
def easings? (frames : List RawFrame) : Option (List Value) :=
  let known := (frames.reverse.dropWhile (·.easing.isNone)).reverse
  nonempty (known.map (·.easing.getD Value.placeholderEasing))

/-- The animation of frames in their order. -/
def ofFrames (name : String) (frames : List RawFrame) : Except Error Animation :=
  match addFrames name zero zero [] frames with
  | .error e => .error e
  | .ok table => .ok { frames := table, easings := easings? frames }

/-- The animation of keyframes. -/
def ofKeyframes (ctx : BuildContext) (read : Declaration → List Instruction) (order : Int)
    (k : Keyframes) : Noted Error Animation := do
  let set ← RawFrame.ofKeyframes ctx read order k
  let frames := RawFrame.sort set.frames
  let a ← .ofExcept (ofFrames k.name frames)
  .withNotes [.animation k.name frames.length a.frames.length]
    { a with needsWidth := set.needsWidth, needsHeight := set.needsHeight }

end Animation

end StyleBundle
