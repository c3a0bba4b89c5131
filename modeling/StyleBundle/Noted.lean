import StyleBundle.Note

/-!
# StyleBundle.Noted

Computations that take notes and may stop. The notes taken before a stop are kept.
-/

namespace StyleBundle

/-- The result of a computation, or why it has stopped, and the notes it has taken until then. -/
structure Noted (ε α : Type) where
  notes : List Note
  result : Except ε α

namespace Noted

variable {ε α β : Type}

/-- A result with some notes. -/
def withNotes (notes : List Note) (a : α) : Noted ε α := { notes, result := .ok a }

/-- Stops. -/
def stop (e : ε) : Noted ε α := { notes := [], result := .error e }

/-- A computation that takes no notes. -/
def ofExcept (result : Except ε α) : Noted ε α := { notes := [], result }

def bind (m : Noted ε α) (f : α → Noted ε β) : Noted ε β :=
  match m.result with
  | .ok a => { notes := m.notes ++ (f a).notes, result := (f a).result }
  | .error e => { notes := m.notes, result := .error e }

instance : Monad (Noted ε) where
  pure a := withNotes [] a
  bind := bind

/-- Takes some notes. -/
def take (notes : List Note) : Noted ε Unit := withNotes notes ()

/-- The same computation with another account of why it stops. -/
def mapError {ε' : Type} (f : ε → ε') (m : Noted ε α) : Noted ε' α :=
  { notes := m.notes, result := m.result.mapError f }

end Noted

end StyleBundle
