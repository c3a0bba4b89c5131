/-!
# StyleBundle.Text.Range

Character classes as alternating bounds: a run begins at every first bound and ends before every
second one.
-/

namespace StyleBundle

namespace Text

/-- Whether a code point lies in one of the runs. -/
def within : List Nat → Nat → Bool
  | first :: stop :: rest, n => (first ≤ n && n < stop) || within rest n
  | [first], n => first ≤ n
  | [], _ => false

end Text

end StyleBundle
