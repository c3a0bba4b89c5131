import StyleBundle.Number.Shortest

/-!
# StyleBundle.Number.Basic

A number is an integer of any size or a double. The two kinds are told apart in every output, yet
they are compared by what they stand for: exactly, never by rounding one to the other.
-/

namespace StyleBundle

inductive Number where
  | int (n : Int)
  | double (d : Double)
  deriving DecidableEq, Inhabited, Repr

namespace Number

/-- Where a number lies: below, among or above the finite numbers, and how many units from zero.
Only the number that is none has no coordinate. -/
def coordinate : Number → Option (Int × Int)
  | .int n => some (0, n * Double.one)
  | .double .nan => none
  | .double (.infinite negative) => some (if negative then -1 else 1, 0)
  | .double (.finite negative units) => some (0, Double.signed negative units)

/-- Equality of what two numbers stand for. -/
def same (a b : Number) : Bool :=
  match a.coordinate, b.coordinate with
  | some p, some q => p == q
  | _, _ => false

/-- The strict order of what two numbers stand for. -/
def less (a b : Number) : Bool :=
  match a.coordinate, b.coordinate with
  | some p, some q => p.1 < q.1 || (p.1 == q.1 && p.2 < q.2)
  | _, _ => false

/-- The double for a number; an integer too large for one has none. -/
def toDouble? : Number → Option Double
  | .int n => Double.ofInt? n
  | .double d => some d

/-- Difference: of integers an integer, otherwise a double. -/
def sub? : Number → Number → Option Number
  | .int m, .int n => some (.int (m - n))
  | a, b =>
    match a.toDouble?, b.toDouble? with
    | some x, some y => some (.double (x.sub y))
    | _, _ => none

def text : Number → String
  | .int n => toString n
  | .double d => d.text

end Number

end StyleBundle
