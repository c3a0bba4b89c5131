import StyleBundle.Note
import StyleBundle.Sheet.Parse
import StyleBundle.Text.Name

/-!
# StyleBundle.Style.Relocation

Relocation of declarations. A directive `@rn-move color text.color` in a block moves the
declaration of `color` to the path `text.color`, one with a single word moves every property that
has no directive of its own. A path that begins with `&` stays under the style of the element.
-/

namespace StyleBundle

/-- The path for each property, and for the wildcard. -/
abbrev Relocations := Table (List String)

namespace Relocations

/-- The key for every property without an entry of its own. -/
def wildcard : String := "*"

/-- Text cut at every dot. -/
def splitDots : List Char → List (List Char)
  | [] => [[]]
  | c :: rest =>
    if c = '.' then [] :: splitDots rest
    else
      match splitDots rest with
      | step :: steps => (c :: step) :: steps
      | [] => [[c]]

def steps (cs : List Char) : List String :=
  (splitDots cs).map fun step => Name.native (String.ofList step)

/-- The path that a word names. -/
def path (word : String) : List String :=
  match word.toList with
  | '&' :: rest => "style" :: steps rest
  | cs => steps cs

/-- What a directive puts into the table: a key and a path. -/
def entry? (d : Directive) : Option (String × List String) :=
  if d.name = Sheet.moveName then
    match d.words with
    | [] => none
    | [word] => some (wildcard, path word)
    | name :: word :: _ => some (Name.native name, path word)
  else none

/-- The table of some directives; a later directive replaces an earlier one for the same key. -/
def ofDirectives (ds : List Directive) : Relocations :=
  Table.ofList (ds.filterMap entry?)

/-- Where a property goes: to the path given for it, if any; else to that of its own entry; else
to that of the wildcard. -/
def resolve (table : Relocations) (name : String) (given : Option (List String)) :
    Option (List String) :=
  match given with
  | some (step :: rest) => some (step :: rest)
  | _ =>
    match table.get? name with
    | some p => some p
    | none => table.get? wildcard

/-- The note on a table, if it holds anything. -/
def notes (table : Relocations) : List Note :=
  if table.isEmpty then [] else [.relocations table]

end Relocations

end StyleBundle
