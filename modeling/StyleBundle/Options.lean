import StyleBundle.Declaration.Read
import StyleBundle.Pattern.Read
import StyleBundle.Selector.Classify
import StyleBundle.Style.Build
import StyleBundle.Style.RuleSet

/-!
# StyleBundle.Options

What a compilation is told. Options hold patterns, as text or ready to search; settings hold what
they come to, and there are settings only if every pattern can be read.
-/

namespace StyleBundle

/-- How selectors are classified: which classes are groups, how the dark theme is told, the media
queries around the selector, and the selector. -/
abbrev Classifier := (String → Bool) → DarkMode → List MediaQuery → String → List Variant

/-- The classifier for selectors as they are written in a style sheet. -/
def Classifier.standard : Classifier := fun isGroup dark media selector =>
  (Selector.classify isGroup dark media selector).toList

/-- A pattern for names: a text that has to be read, or a search that is ready. -/
inductive Matcher where
  | text (pattern : String)
  | ready (occursIn : String → Bool)

namespace Matcher

instance : Coe (List String) (List Matcher) := ⟨List.map .text⟩

/-- The search for a pattern, if it can be read. -/
def search? : Matcher → Option (String → Bool)
  | .text pattern => (Search.ofText? pattern).map Search.occursIn
  | .ready occursIn => some occursIn

end Matcher

structure Options where
  /-- Patterns for the names of group classes. -/
  grouping : List Matcher := []
  /-- Patterns for the properties whose warnings are ignored. -/
  ignore : List Matcher := []
  darkMode : DarkMode := {}
  classifier : Classifier := Classifier.standard
  read : Declaration → List Instruction := Declaration.read
  /-- What is done to the rule sets in the end. -/
  arrange : List (String × RuleSet) → List (String × RuleSet) := id

/-- What a compilation consults while it runs. -/
structure Settings where
  isGroup : String → Bool
  ignores : String → Bool
  classifier : Classifier
  read : Declaration → List Instruction

namespace Options

/-- Searches for some patterns, if all of them can be read. -/
def searches? (patterns : List Matcher) : Option (List (String → Bool)) :=
  patterns.mapM Matcher.search?

/-- Whether one of some searches finds something in a text. -/
def found (searches : List (String → Bool)) (text : String) : Bool :=
  searches.any fun occursIn => occursIn text

/-- The settings that options come to. -/
def settings (o : Options) : Except Error Settings :=
  match searches? o.grouping, searches? o.ignore with
  | some groups, some ignored =>
    .ok { isGroup := found groups, ignores := found ignored, classifier := o.classifier,
          read := o.read }
  | _, _ => .error .badPattern

end Options

/-- The variants that a selector stands for. -/
def Settings.classify (c : Settings) (dark : DarkMode) (media : List MediaQuery)
    (selector : String) : List Variant :=
  c.classifier c.isGroup dark media selector

/-- What rules are built with, given the relocations of their block. -/
def Settings.buildContext (c : Settings) (relocations : Relocations) : BuildContext where
  relocations := relocations
  ignores := c.ignores

end StyleBundle
