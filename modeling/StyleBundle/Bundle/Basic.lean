import StyleBundle.State.Extract

/-!
# StyleBundle.Bundle.Basic

The result of a compilation: the rule sets of all classes, the animations, the custom properties,
the flags and the font size of the root.

* `Bundle.compile`: compiles rules under settings, from a state.
* `Bundle.ofRules`: compiles rules under options and arranges the rule sets.
* `Bundle.ofSource`: compiles a source text.
-/

namespace StyleBundle

structure Bundle where
  rules : List (String × RuleSet) := []
  keyframes : Table Animation := []
  rootVariables : Variables := []
  universalVariables : Variables := []
  flags : Table Flag := []
  rem : Option Number := none
  deriving Inhabited

namespace Bundle

/-- The rule set of a class. -/
def ruleSet? (b : Bundle) (key : String) : Option RuleSet := Table.get? key b.rules

/-- The animation of a name. -/
def animation? (b : Bundle) (name : String) : Option Animation := b.keyframes.get? name

/-- The bundle of a state. -/
def ofState (s : State) : Bundle where
  rules := RuleSet.ofTable s.rules
  keyframes := s.keyframes
  rootVariables := s.rootVariables
  universalVariables := s.universalVariables
  flags := s.flags
  rem := s.rem

/-- The bundle with its rule sets arranged. -/
def arranged (arrange : List (String × RuleSet) → List (String × RuleSet)) (b : Bundle) : Bundle :=
  { b with rules := arrange b.rules }

/-- The state that a compilation under options starts from. -/
def start (o : Options) : State := { darkMode := o.darkMode }

/-- Compiles rules under settings, from a state. -/
def compile (c : Settings) (s : State) (rules : List Rule) : Noted Error Bundle := do
  let outcome := s.extractAll c {} rules
  Noted.take outcome.notes
  match outcome.failure with
  | some e => Noted.stop e
  | none => .withNotes [.extracted rules.length] (ofState outcome.state)

/-- Compiles rules under options. -/
def ofRules (o : Options) (rules : List Rule) : Noted Error Bundle := do
  let settings ← .ofExcept o.settings
  let compiled ← compile settings (start o) rules
  let b := compiled.arranged o.arrange
  .withNotes [.ruleSets b.rules.length] b

/-- Reads a source text and compiles its rules. -/
def ofParsed (compile : List Rule → Noted Error Bundle) (source : String) : Noted Error Bundle := do
  let rules ← (Sheet.parse source).mapError Error.source
  compile rules

/-- Compiles a source text under options. -/
def ofSource (o : Options) (source : String) : Noted Error Bundle := ofParsed (ofRules o) source

end Bundle

end StyleBundle
