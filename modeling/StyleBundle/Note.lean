import StyleBundle.Sheet.Rule
import StyleBundle.Value.Literal

/-!
# StyleBundle.Note

Notes that a compilation takes of what it leaves out and how far it has come. They do not change
any result. A note knows the channel it is reported on and its wording.
-/

namespace StyleBundle

inductive Note where
  | droppedDeclaration (problem : String)
  | skippedNestedRule
  | skippedAtRule (keyword : String)
  | relocations (table : Table (List String))
  | suppressedWarning (w : Warning)
  | unknownTransition (property : String)
  | unsupportedSelector (selector : String)
  | unsupportedOffset (kind : String)
  | animation (name : String) (frames properties : Nat)
  | skippedMedia (queries : List MediaQuery)
  | skippedKind (kind : String)
  | ignoredDirective (words : List String)
  | unrecognisedDarkMode (value : String)
  | extracted (rules : Nat)
  | ruleSets (count : Nat)
  deriving Inhabited

namespace Note

def channel : Note → String
  | .droppedDeclaration _ | .skippedNestedRule | .skippedAtRule _ => "native_css.parser.stylesheet"
  | .relocations _ => "native_css.compiler.relocation"
  | .suppressedWarning _ | .unknownTransition _ => "native_css.compiler.declarations"
  | .unsupportedSelector _ => "native_css.compiler.aggregate"
  | .unsupportedOffset _ | .animation _ _ _ => "native_css.compiler.keyframes"
  | .skippedMedia _ | .skippedKind _ | .ignoredDirective _ | .unrecognisedDarkMode _ =>
    "native_css.compiler.extractor"
  | .extracted _ | .ruleSets _ => "native_css.compiler.compile"

def message : Note → String
  | .droppedDeclaration problem => "Dropping invalid declaration: " ++ problem
  | .skippedNestedRule => "Skipping nested qualified-rule"
  | .skippedAtRule keyword => "Skipping @" ++ keyword
  | .relocations table =>
    "Relocation table " ++
      Literal.table (table.map fun e => (e.1, Literal.tuple (e.2.map Text.quoted)))
  | .suppressedWarning w => "Suppressed warning " ++ w.text
  | .unknownTransition property =>
    "Ignoring unknown transition property " ++ Text.quoted property
  | .unsupportedSelector selector => "Unsupported selector " ++ Text.quoted selector
  | .unsupportedOffset kind => "Unsupported keyframe selector " ++ Text.quoted kind
  | .animation name frames properties =>
    "Keyframes " ++ Text.quoted name ++ ": " ++ toString frames ++ " frame(s), " ++
      toString properties ++ " propert(ies)"
  | .skippedMedia queries => "Skipping @media " ++ ", ".intercalate (queries.map MediaQuery.text)
  | .skippedKind kind => "Skipping rule of kind " ++ Text.quoted kind
  | .ignoredDirective words =>
    "Ignoring @cssInterop directive " ++ Text.quoted (" ".intercalate words)
  | .unrecognisedDarkMode value => "Unrecognised darkMode value " ++ Text.quoted value
  | .extracted rules => "Extraction of " ++ toString rules ++ " rule(s) finished"
  | .ruleSets count => "Rule set count: " ++ toString count

/-- A note as a line of the report. -/
def line (n : Note) : String := n.channel ++ ": " ++ n.message

end Note

end StyleBundle
