import StyleBundle.Number.Basic
import StyleBundle.Table

/-!
# StyleBundle.Value.Basic

Values of compiled declarations. Most are scalars. A *call* is worked out by the host when it
draws; a *deferred* call has to wait until layout is known. Times, easings, maps and transition
layers are structured and cannot be animated.

* `Value.isPrimitive`: scalars, calls, and lists of primitive values.
* `Value.same`: equality by meaning. Numbers are compared by what they stand for, truth values as
  one and zero, maps without regard to order.
* `Value.isVacant`: the values that count as not given.
-/

namespace StyleBundle

/-- A length of time, with its unit as written. -/
structure Time where
  value : Number
  unit : String := "s"
  deriving DecidableEq, Inhabited, Repr

inductive Value where
  | null
  | bool (b : Bool)
  | int (n : Int)
  | double (d : Double)
  | text (s : String)
  | list (items : List Value)
  | call (name : String) (args : List Value) (deferred : Bool)
  | time (t : Time)
  | easing (kind : String) (args : List Value)
  | map (entries : List (String × Value))
  | layer (property : String) (duration delay : Time) (easing : String) (args : List Value)
  deriving Inhabited, Repr

/-- A timing function such as `ease-in` or `steps(4)`. -/
structure Easing where
  kind : String
  args : List Value := []
  deriving Inhabited, Repr

def Easing.toValue (e : Easing) : Value := .easing e.kind e.args

/-- No time at all. -/
def Time.zero : Time := { value := .int 0 }

/-- The timing function that holds where none is given. -/
def Easing.ease : Easing := { kind := "ease" }

/-- Equality of two times by meaning. -/
def Time.same (s t : Time) : Bool :=
  s.value.same t.value && s.unit == t.unit

def Number.toValue : Number → Value
  | .int n => .int n
  | .double d => .double d

namespace Value

/-- The value of an animation frame that takes over whatever the element has. -/
def inherited : Value := .text "!INHERIT!"

/-- The easing of an animation step that sets none. -/
def placeholderEasing : Value := .easing "!PLACEHOLDER!" []

/-- The number that a value stands for in a comparison. -/
def number? : Value → Option Number
  | .bool b => some (.int (if b then 1 else 0))
  | .int n => some (.int n)
  | .double d => some (.double d)
  | _ => none

mutual

/-- Whether a value can be animated: a scalar, a call, or a list of such values. -/
def isPrimitive : Value → Bool
  | .null | .bool _ | .int _ | .double _ | .text _ | .call _ _ _ => true
  | .list items => arePrimitive items
  | .time _ | .easing _ _ | .map _ | .layer _ _ _ _ _ => false

def arePrimitive : List Value → Bool
  | [] => true
  | v :: rest => v.isPrimitive && arePrimitive rest

end

/-- Whether a value waits for layout: only a call that says so does. -/
def isDeferred : Value → Bool
  | .call _ _ deferred => deferred
  | _ => false

/-- Whether a value counts as not given. -/
def isVacant : Value → Bool
  | .null => true
  | .bool b => !b
  | .int n => n == 0
  | .double d => (Number.double d).same (.int 0)
  | .text s => s.isEmpty
  | .list items => items.isEmpty
  | .map entries => entries.isEmpty
  | .call _ _ _ | .time _ | .easing _ _ | .layer _ _ _ _ _ => false

mutual

/-- Equality by meaning. -/
def same : Value → Value → Bool
  | .null, .null => true
  | .text a, .text b => a == b
  | .list xs, .list ys => sameItems xs ys
  | .call f xs d, .call g ys e => f == g && sameItems xs ys && d == e
  | .time s, .time t => s.same t
  | .easing f xs, .easing g ys => f == g && sameItems xs ys
  | .map es, .map fs => es.length == fs.length && sameEntries es fs
  | .layer p s t f xs, .layer q u v g ys =>
    p == q && s.same u && t.same v && f == g && sameItems xs ys
  | a, b =>
    match a.number?, b.number? with
    | some m, some n => m.same n
    | _, _ => false

def sameItems : List Value → List Value → Bool
  | [], [] => true
  | x :: xs, y :: ys => x.same y && sameItems xs ys
  | _, _ => false

/-- Whether every entry has its like under the same key of another map. -/
def sameEntries : List (String × Value) → List (String × Value) → Bool
  | [], _ => true
  | (k, v) :: rest, other =>
    (match Table.get? k other with
    | some w => v.same w
    | none => false) && sameEntries rest other

end

/-- Whether all values of a list are the same as the first by meaning. -/
def allSame : List Value → Bool
  | [] => true
  | v :: rest => rest.all (·.same v)

end Value

end StyleBundle
