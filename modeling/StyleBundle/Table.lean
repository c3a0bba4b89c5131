/-!
# StyleBundle.Table

Tables keyed by text that remember the order in which their keys first came. A table is its list
of entries. `Table.alter` is the one way to change it: an entry that is there changes in place, a
new one goes to the end.
-/

namespace StyleBundle

/-- The entries of a table, keys in the order of their first arrival. -/
abbrev Table (α : Type) := List (String × α)

namespace Table

variable {α : Type}

/-- The entry under a key. -/
def get? (key : String) : Table α → Option α
  | [] => none
  | (k, v) :: rest => if k = key then some v else get? key rest

/-- Changes the entry under a key, or adds one. -/
def alter (key : String) (f : Option α → α) : Table α → Table α
  | [] => [(key, f none)]
  | (k, v) :: rest => if k = key then (k, f (some v)) :: rest else (k, v) :: alter key f rest

/-- Sets the entry under a key. -/
def put (key : String) (value : α) (t : Table α) : Table α :=
  t.alter key fun _ => value

/-- Sets the entry under a key unless there is one. -/
def putNew (key : String) (value : α) (t : Table α) : Table α :=
  t.alter key fun old => old.getD value

/-- Adds to the end of the list under a key. -/
def push {β : Type} (key : String) (item : β) (t : Table (List β)) : Table (List β) :=
  t.alter key fun old => old.getD [] ++ [item]

/-- The table of a list of entries; the last entry of a key counts, where its first stands. -/
def ofList (entries : List (String × α)) : Table α :=
  entries.foldl (fun t e => t.put e.1 e.2) []

def keys (t : Table α) : List String :=
  t.map (·.1)

@[simp] theorem get?_nil (key : String) : get? key ([] : Table α) = none := rfl

theorem get?_alter_self (key : String) (f : Option α → α) (t : Table α) :
    get? key (t.alter key f) = some (f (get? key t)) := by
  induction t with
  | nil => simp [alter, get?]
  | cons e rest ih =>
    obtain ⟨k, v⟩ := e
    by_cases h : k = key
    · simp [alter, get?, h]
    · simp [alter, get?, h, ih]

theorem get?_alter_of_ne {key other : String} (h : other ≠ key) (f : Option α → α) (t : Table α) :
    get? other (t.alter key f) = get? other t := by
  induction t with
  | nil => simp [alter, get?, Ne.symm h]
  | cons e rest ih =>
    obtain ⟨k, v⟩ := e
    by_cases hk : k = key
    · subst hk; simp [alter, get?, Ne.symm h]
    · simp [alter, get?, hk, ih]

end Table

end StyleBundle
