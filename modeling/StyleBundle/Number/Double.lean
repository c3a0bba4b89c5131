/-!
# StyleBundle.Number.Double

Binary64 numbers, exactly. A finite double is a whole number of units of `2 ^ -1074`, the least
positive double, with a sign of its own so that there are two zeros. Order is then the order of
integers, and each operation is integer arithmetic followed by one rounding to 53 significant
bits, half to even.

* `Double.ofUnitRatio`: the one rounding; every operation ends in it.
* `Double.ofDecimal`: reading a decimal, correctly rounded.
* `Double.sub`, `Double.percent`: difference and division by one hundred.
* `Double.ofInt?`, `Double.toInt?`: from and to the integers.
-/

namespace StyleBundle

/-- The quotient `num / den` rounded to the nearest integer, a half to the even one. -/
def roundDiv (num den : Nat) : Nat :=
  let q := num / den
  let r := num % den
  if 2 * r < den then q
  else if den < 2 * r then q + 1
  else if q % 2 = 0 then q else q + 1

/-- How many binary digits a number has; zero has none. -/
def bitLength (n : Nat) : Nat :=
  if n = 0 then 0 else n.log2 + 1

/-- How many decimal digits a number has; zero has one. -/
def digitCount (n : Nat) : Nat :=
  (Nat.toDigits 10 n).length

/-- A binary64 number. -/
inductive Double where
  | nan
  | infinite (negative : Bool)
  | finite (negative : Bool) (units : Nat)
  deriving DecidableEq, Inhabited, Repr

namespace Double

/-- The number one, counted in units. -/
def one : Nat := Nat.pow 2 1074

/-- The first number of units too large to be finite. -/
def limit : Nat := Nat.pow 2 2098

/-- Significant bits of a double. -/
def precision : Nat := 53

/-- The units of a finite double with their sign. -/
def signed (negative : Bool) (units : Nat) : Int :=
  if negative then -(units : Int) else units

/-- The double nearest to `num / den` units, and infinity from `limit` on. -/
def ofUnitRatio (negative : Bool) (num den : Nat) : Double :=
  let spare := bitLength (num / den) - precision
  let step := Nat.pow 2 spare
  let units := roundDiv num (den * step) * step
  if units < limit then .finite negative units else .infinite negative

/-- The double nearest to `num / den`. -/
def ofRatio (negative : Bool) (num den : Nat) : Double :=
  ofUnitRatio negative (num * one) den

/-- The double nearest to `digits * 10 ^ exponent`. A decimal beyond four hundred places in either
direction is settled by its size alone. -/
def ofDecimal (negative : Bool) (digits : Nat) (exponent : Int) : Double :=
  let place : Int := digitCount digits + exponent
  if digits = 0 then .finite negative 0
  else if 400 < place then .infinite negative
  else if place < -400 then .finite negative 0
  else if 0 ≤ exponent then ofRatio negative (digits * Nat.pow 10 exponent.toNat) 1
  else ofRatio negative digits (Nat.pow 10 (-exponent).toNat)

/-- Difference. Equal numbers differ by positive zero, and only `-0 - 0` is negative zero. -/
def sub : Double → Double → Double
  | .nan, _ => .nan
  | _, .nan => .nan
  | .infinite a, .infinite b => if a = b then .nan else .infinite a
  | .infinite a, .finite _ _ => .infinite a
  | .finite _ _, .infinite b => .infinite (!b)
  | .finite a x, .finite b y =>
    let d := signed a x - signed b y
    if d = 0 then .finite (a && !b) 0 else ofUnitRatio (d < 0) d.natAbs 1

/-- A number of percent as a fraction: division by one hundred. -/
def percent : Double → Double
  | .finite negative units => ofUnitRatio negative units 100
  | d => d

/-- The double nearest to an integer, unless that is infinite. -/
def ofInt? (n : Int) : Option Double :=
  match ofRatio (n < 0) n.natAbs 1 with
  | .finite negative units => some (.finite negative units)
  | _ => none

/-- The integer that a double stands for exactly, if it does. -/
def toInt? : Double → Option Int
  | .finite negative units =>
    if units % one = 0 then some (signed negative (units / one)) else none
  | _ => none

end Double

end StyleBundle
