import StyleBundle.Error

/-!
# StyleBundle.Style.Specificity

The rank of a rule among those for the same element: five tiers, compared one after the other.
Tiers are counts, so a tier below zero is refused when a specificity is made.
-/

namespace StyleBundle

structure Specificity where
  /-- One for important declarations, two for frames of animations. -/
  important : Nat := 0
  /-- Styles that the host applies itself. -/
  inline : Nat := 0
  pseudoElements : Nat := 0
  /-- Classes, pseudo-classes and attributes of the selector. -/
  className : Nat := 0
  /-- The number of the block in the order of the source. -/
  order : Nat := 0
  deriving DecidableEq, Inhabited, Repr

namespace Specificity

/-- The importance of a frame of an animation, above that of important declarations. -/
def frameImportance : Nat := 2

/-- A tier, unless it is below zero. -/
def tier (t : Tier) (n : Int) : Except Error Nat :=
  if n < 0 then .error (.negativeTier t) else .ok n.toNat

/-- The specificity with the given tiers. The first tier below zero is the one complained of. -/
def ofTiers (important inline pseudoElements className order : Int) :
    Except Error Specificity := do
  let a ← tier .important important
  let b ← tier .inline inline
  let c ← tier .pseudoElements pseudoElements
  let d ← tier .className className
  let e ← tier .order order
  return { important := a, inline := b, pseudoElements := c, className := d, order := e }

def add (a b : Specificity) : Specificity where
  important := a.important + b.important
  inline := a.inline + b.inline
  pseudoElements := a.pseudoElements + b.pseudoElements
  className := a.className + b.className
  order := a.order + b.order

instance : Add Specificity := ⟨add⟩

def isImportant (s : Specificity) : Bool := 0 < s.important

def toList (s : Specificity) : List Nat :=
  [s.important, s.inline, s.pseudoElements, s.className, s.order]

/-- Comparison tier by tier, the most important first. -/
def cmp (a b : Specificity) : Ordering :=
  ((((compare a.important b.important).then (compare a.inline b.inline)).then
    (compare a.pseudoElements b.pseudoElements)).then
    (compare a.className b.className)).then (compare a.order b.order)

/-- Specificities from the least to the greatest. -/
def sort (ss : List Specificity) : List Specificity :=
  ss.mergeSort fun a b => (cmp a b).isLE

end Specificity

end StyleBundle
