/-!
# StyleBundle.Sorting

Stable sorting. The run at the front of a list that is in order is kept as it is, a run that
descends throughout is turned around, and each of the other elements is inserted by bisection,
behind those that it does not come before.

Where the comparison orders all elements this is the one stable order. It also says where elements
go that come neither before nor after any other, as numbers that are none do.
-/

namespace StyleBundle

namespace Sorting

variable {α : Type}

/-- The elements that carry on a run whose last element is given, and those behind the run. -/
def run (carriesOn : α → α → Bool) : α → List α → List α × List α
  | _, [] => ([], [])
  | last, x :: xs =>
    if carriesOn last x then
      let (more, rest) := run carriesOn x xs
      (x :: more, rest)
    else ([], x :: xs)

/-- The run at the front of a list in ascending order, and the elements behind it. -/
def front (less : α → α → Bool) : List α → List α × List α
  | x :: y :: rest =>
    if less y x then
      let (more, rest) := run (fun last next => less next last) y rest
      ((x :: y :: more).reverse, rest)
    else
      let (more, rest) := run (fun last next => !less next last) y rest
      (x :: y :: more, rest)
  | xs => (xs, [])

/-- Inserts an element by comparing it with the one in the middle, then with the one in the middle
of the half that is left, and so on. -/
def bisect (less : α → α → Bool) (x : α) : Nat → List α → List α
  | 0, xs => x :: xs
  | fuel + 1, xs =>
    let half := xs.length / 2
    match xs.drop half with
    | [] => x :: xs
    | y :: right =>
      if less x y then bisect less x fuel (xs.take half) ++ y :: right
      else xs.take half ++ y :: bisect less x fuel right

/-- Inserts an element into a sorted list. -/
def insert (less : α → α → Bool) (sorted : List α) (x : α) : List α :=
  bisect less x sorted.length sorted

/-- A list in ascending order; elements of which neither comes first keep their order. -/
def sort (less : α → α → Bool) (xs : List α) : List α :=
  let (sorted, rest) := front less xs
  rest.foldl (insert less) sorted

end Sorting

end StyleBundle
