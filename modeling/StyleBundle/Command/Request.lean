import StyleBundle.Bundle.Encode
import StyleBundle.Bundle.Summary
import StyleBundle.Command.Arguments
import StyleBundle.Json.Text
import StyleBundle.Text.Terminal

/-!
# StyleBundle.Command.Request

The command line. A request says what is to be done; carried out on the text of a style sheet it
gives a reply. Compiling writes the bundle as JSON, to a file if one is named; inspecting prints
its summary. Names in a style sheet can hold control sequences of terminals; what is printed keeps
them on a terminal only, while the log and written files hold them as they are.
-/

namespace StyleBundle

/-- What is done with a style sheet. -/
inductive Action where
  /-- Compiles it, to a file if one is named. -/
  | compile (output : Option String)
  | inspect
  deriving DecidableEq, Inhabited, Repr

structure Invocation where
  action : Action
  stylesheet : String
  grouping : List String := []
  ignore : List String := []
  verbose : Bool := false
  deriving DecidableEq, Inhabited, Repr

inductive Request where
  | version
  | run (i : Invocation)
  deriving DecidableEq, Inhabited, Repr

/-- What a request comes to: the status, what is printed, what is logged, and a file to write if
there is one. -/
structure Reply where
  status : Nat := 0
  output : String := ""
  log : String := ""
  diagnostics : String := ""
  file : Option (String × String) := none
  deriving DecidableEq, Inhabited, Repr

namespace Reply

/-- A text as it is printed, on a terminal or elsewhere. -/
def shown (terminal : Bool) (text : String) : String :=
  if terminal then text else Text.withoutControls text

/-- What is printed on standard output. -/
def outputOn (terminal : Bool) (r : Reply) : String := shown terminal r.output

/-- What is printed on standard error: the log, then the diagnostics. -/
def diagnosticsOn (terminal : Bool) (r : Reply) : String := r.log ++ shown terminal r.diagnostics

end Reply

namespace Request

def versionText : String := "native-css, version 0.1.0"

/-- The status of a request that cannot be understood. -/
def usageStatus : Nat := 2

def generalForms : List OptionForm :=
  [{ name := "verbose", letter := some 'v', takesValue := false },
    { name := "version", takesValue := false }]

def patternForms : List OptionForm := [{ name := "grouping" }, { name := "ignore-warning" }]

def outputForm : OptionForm := { name := "output", letter := some 'o' }

/-- The invocation with some arguments, if there is just one operand. -/
def invocation? (verbose : Bool) (action : Action) (a : Arguments) : Option Invocation :=
  match a.operands with
  | [stylesheet] =>
    some { action, stylesheet, grouping := a.values "grouping",
           ignore := a.values "ignore-warning", verbose }
  | _ => none

/-- The invocation of a command. -/
def command? (verbose : Bool) (name : String) (args : List String) : Option Invocation :=
  match name with
  | "compile" => do
    let a ← Arguments.read? (outputForm :: patternForms) true args
    invocation? verbose (.compile (a.values "output").getLast?) a
  | "inspect" => do
    let a ← Arguments.read? patternForms true args
    invocation? verbose .inspect a
  | _ => none

/-- The request that some arguments make, if they can be understood. -/
def ofArguments? (args : List String) : Option Request := do
  let a ← Arguments.read? generalForms false args
  if a.has "version" then return .version
  match a.operands with
  | [] => none
  | name :: rest => do return .run (← command? (a.has "verbose") name rest)

end Request

/-- Lines as text. -/
def textOfLines (lines : List String) : String := String.join (lines.map (· ++ "\n"))

namespace Invocation

/-- The reply for a bundle. -/
def reply (i : Invocation) (b : Bundle) : Except Error Reply :=
  match i.action with
  | .inspect => .ok { output := textOfLines b.summary }
  | .compile output => do
    let text := (← (← b.toJson).write (some 2)) ++ "\n"
    match output.filter (!·.isEmpty) with
    | none => return { output := text }
    | some path =>
      return { output := textOfLines
                 ["Wrote " ++ toString b.rules.length ++ " rule set(s) to " ++ path],
               file := some (path, text) }

/-- Whether an error is one of the style sheet, which is reported as such. -/
def isReported : Error → Bool
  | .source _ | .structuredFrame _ _ _ => true
  | _ => false

/-- Carries out an invocation on the text of its style sheet. -/
def run (i : Invocation) (source : String) : Except Error Reply := do
  let options : Options := { grouping := i.grouping.map .text, ignore := i.ignore.map .text }
  let compiled := Bundle.ofSource options source
  let log := if i.verbose then textOfLines (compiled.notes.map Note.line) else ""
  match compiled.result with
  | .ok b =>
    let r ← i.reply b
    return { r with log }
  | .error e =>
    if isReported e then
      return { status := 1, log, diagnostics := textOfLines ["Compile error: " ++ e.message] }
    else throw e

end Invocation

end StyleBundle
