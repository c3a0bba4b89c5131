import StyleBundle.Number.Double

/-!
# StyleBundle.Number.Shortest

The decimal text of a double: the fewest digits that read back as the same double, and of those
the nearest. Magnitudes from `10 ^ -4` up to `10 ^ 16` are written positionally, always with a
fraction; others with an exponent of at least two digits.
-/

namespace StyleBundle

namespace Double

/-- The exponent of the leading decimal digit of a positive number of units. -/
def leadingPlace (units : Nat) : Int :=
  (digitCount (units * Nat.pow 10 400 / one) : Int) - 401

/-- A positive number of units over the grid of multiples of `10 ^ place`: how many whole steps,
what is left, and the size of a step. -/
def onGrid (units : Nat) (place : Int) : Nat × Nat × Nat :=
  if 0 ≤ place then
    let step := one * Nat.pow 10 place.toNat
    (units / step, units % step, step)
  else
    let scaled := units * Nat.pow 10 (-place).toNat
    (scaled / one, scaled % one, one)

/-- Whether a decimal reads back as the given positive number of units. -/
def readsBack (units digits : Nat) (place : Int) : Bool :=
  ofDecimal false digits place = .finite false units

/-- The nearer of a number's two neighbours on a decimal grid, among those that read back. -/
def gridHit (units : Nat) (place : Int) : Option (Nat × Int) :=
  let (q, r, step) := onGrid units place
  match readsBack units q place, readsBack units (q + 1) place with
  | true, true => some (roundDiv (q * step + r) step, place)
  | true, false => some (q, place)
  | false, true => some (q + 1, place)
  | false, false => none

/-- The shortest decimal of a positive number of units, as digits and the place of the last one.
Seventeen digits always read back. -/
def shortest (units : Nat) : Nat × Int :=
  let lead := leadingPlace units
  let hit := (List.range 17).findSome? fun (n : Nat) => gridHit units (lead - n)
  hit.getD ((onGrid units (lead - 16)).1, lead - 16)

/-- Digits without the zeros at their end. -/
def trimZeros (digits : List Char) : List Char :=
  (digits.reverse.dropWhile (· == '0')).reverse

/-- An exponent with its sign and at least two digits. -/
def exponentText (e : Int) : List Char :=
  let digits := Nat.toDigits 10 e.natAbs
  let padded := if digits.length < 2 then '0' :: digits else digits
  (if e < 0 then '-' else '+') :: padded

/-- Digits laid out with the leading one at the place `lead`. -/
def layOut (digits : List Char) (lead : Int) : List Char :=
  if -4 ≤ lead ∧ lead < 16 then
    if lead < 0 then
      ['0', '.'] ++ List.replicate (-lead - 1).toNat '0' ++ digits
    else
      let whole := lead.toNat + 1
      if digits.length ≤ whole then
        digits ++ List.replicate (whole - digits.length) '0' ++ ['.', '0']
      else digits.take whole ++ ['.'] ++ digits.drop whole
  else
    let fraction := digits.drop 1
    digits.take 1 ++ (if fraction.isEmpty then [] else '.' :: fraction) ++ ['e'] ++
      exponentText lead

/-- The text of a finite double without its sign. -/
def magnitudeText (units : Nat) : List Char :=
  if units = 0 then ['0', '.', '0']
  else
    let (digits, place) := shortest units
    let written := Nat.toDigits 10 digits
    layOut (trimZeros written) (place + written.length - 1)

/-- The text of a double; `inf` and `nan` name the numbers that have no digits. -/
def text : Double → String
  | .nan => "nan"
  | .infinite negative => if negative then "-inf" else "inf"
  | .finite negative units =>
    let digits := String.ofList (magnitudeText units)
    if negative then "-" ++ digits else digits

end Double

end StyleBundle
