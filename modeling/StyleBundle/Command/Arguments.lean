/-!
# StyleBundle.Command.Arguments

Splitting the arguments of a command into options and operands. A long option takes its value from
behind an equals sign or from the next argument; letters may be run together, and what follows a
letter that takes a value is the value. Two dashes end the options.
-/

namespace StyleBundle

/-- An option: its name, the letter for it if it has one, and whether it takes a value. -/
structure OptionForm where
  name : String
  letter : Option Char := none
  takesValue : Bool := true
  deriving DecidableEq, Inhabited, Repr

/-- The options given, in order, each with its value (empty if it takes none), and the operands. -/
structure Arguments where
  options : List (String × String) := []
  operands : List String := []
  deriving DecidableEq, Inhabited, Repr

namespace Arguments

def addOptions (options : List (String × String)) (a : Arguments) : Arguments :=
  { a with options := options ++ a.options }

def addOperand (operand : String) (a : Arguments) : Arguments :=
  { a with operands := operand :: a.operands }

/-- Options that are complete, and one that still needs a value if there is one. -/
structure Taken where
  complete : List (String × String) := []
  pending : Option String := none
  deriving DecidableEq, Inhabited, Repr

/-- Options written as letters. -/
def letters? (forms : List OptionForm) : List Char → Option Taken
  | [] => some {}
  | c :: rest =>
    match forms.find? (·.letter == some c) with
    | none => none
    | some form =>
      if form.takesValue then
        if rest.isEmpty then some { pending := some form.name }
        else some { complete := [(form.name, String.ofList rest)] }
      else
        (letters? forms rest).map fun t =>
          { t with complete := (form.name, "") :: t.complete }

/-- An option written by its name, perhaps with a value behind an equals sign. -/
def long? (forms : List OptionForm) (cs : List Char) : Option Taken :=
  let name := String.ofList (cs.takeWhile (· != '='))
  let value := (cs.dropWhile (· != '=')).tail?.map String.ofList
  match forms.find? (·.name == name) with
  | none => none
  | some form =>
    match form.takesValue, value with
    | true, some v => some { complete := [(form.name, v)] }
    | true, none => some { pending := some form.name }
    | false, some _ => none
    | false, none => some { complete := [(form.name, "")] }

/-- What an argument is. -/
inductive Kind where
  | endOfOptions
  | options (taken : Option Taken)
  | operand
  deriving DecidableEq, Inhabited, Repr

def kind (forms : List OptionForm) (arg : String) : Kind :=
  match arg.toList with
  | ['-', '-'] => .endOfOptions
  | '-' :: '-' :: name => .options (long? forms name)
  | '-' :: c :: rest => .options (letters? forms (c :: rest))
  | _ => .operand

/-- The options and operands of some arguments, if they can be read. Unless options may stand
among the operands, the first operand ends them. -/
def read? (forms : List OptionForm) (mixed : Bool) : List String → Option Arguments
  | [] => some {}
  | arg :: rest =>
    match kind forms arg with
    | .endOfOptions => some { operands := rest }
    | .operand =>
      if mixed then (read? forms mixed rest).map (addOperand arg)
      else some { operands := arg :: rest }
    | .options none => none
    | .options (some { complete, pending := none }) =>
      (read? forms mixed rest).map (addOptions complete)
    | .options (some { complete, pending := some name }) =>
      match rest with
      | [] => none
      | value :: rest => (read? forms mixed rest).map (addOptions (complete ++ [(name, value)]))

/-- The values of an option, in order. -/
def values (a : Arguments) (name : String) : List String :=
  a.options.filterMap fun e => if e.1 = name then some e.2 else none

def has (a : Arguments) (name : String) : Bool := a.options.any (·.1 == name)

end Arguments

end StyleBundle
