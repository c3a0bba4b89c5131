import StyleBundle.Options
import StyleBundle.State.Basic

/-!
# StyleBundle.State.Filing

Filing a rule under what its selectors select. A class files it under the class, with the
conditions of the selector; a group files a mark under the group too, so that there is a container
to look for. A scope of custom properties takes the custom properties and the font size.
-/

namespace StyleBundle

/-- The size that a value is; truth values are none. -/
def Value.size? : Value → Option Number
  | .int n => some (.int n)
  | .double d => some (.double d)
  | _ => none

/-- The number that a declaration gives the font size. -/
def StyleDeclaration.fontSize? (d : StyleDeclaration) : Option Number :=
  if d.target = .bare "fontSize" then d.value.size? else none

/-- The last number that a rule gives the font size. -/
def StyleRule.fontSize? (r : StyleRule) : Option Number :=
  (r.declarations.filterMap StyleDeclaration.fontSize?).getLast?

/-- Custom properties with those of a rule added. -/
def Variables.addAll (v : Variables) (subtype : String) (entries : List (String × Value)) :
    Variables :=
  entries.foldl (fun v e => v.put subtype e.1 e.2) v

namespace ClassSelector

/-- The group that a selector asks for; an empty name is none. -/
def group? (c : ClassSelector) : Option String := c.groupClass.filter (!·.isEmpty)

/-- The mark that is filed under a group. -/
def mark (c : ClassSelector) (r : StyleRule) (group : String) : StyleRule where
  specificity := r.specificity + c.specificity
  attributes := c.attributes
  container := some { names := .named [group] }

/-- The condition on a group. -/
def groupQuery (c : ClassSelector) (group : String) : ContainerQuery where
  name := some group
  pseudoClasses := c.groupPseudoClasses
  attributes := c.groupAttributes

/-- A rule with the conditions of the selector. -/
def qualify (c : ClassSelector) (r : StyleRule) : StyleRule :=
  { r with
    specificity := r.specificity + c.specificity,
    pseudoClasses := c.pseudoClasses,
    attributes := c.attributes,
    media := nonempty (r.media.getD [] ++ c.media.getD []),
    containerQuery :=
      nonempty (r.containerQuery.getD [] ++ (c.group?.map c.groupQuery).toList) }

/-- What is filed for a selector: rules and the keys they go under. -/
def entries (c : ClassSelector) (r : StyleRule) : List (String × StyleRule) :=
  (c.group?.map fun group => (group, c.mark r group)).toList ++ [(c.className, c.qualify r)]

end ClassSelector

namespace State

/-- Files a rule under a key. -/
def addRule (s : State) (key : String) (r : StyleRule) : State :=
  { s with rules := s.rules.push key r }

/-- Takes the custom properties and the font size of a rule. -/
def addVariables (s : State) (scope : Scope) (subtype : String) (r : StyleRule) : State :=
  let s := { s with rem := r.fontSize?.orElse fun _ => s.rem }
  let entries := r.customProperties.getD []
  match scope with
  | .root => { s with rootVariables := s.rootVariables.addAll subtype entries }
  | .universal => { s with universalVariables := s.universalVariables.addAll subtype entries }

/-- Files a rule for one variant of a selector. -/
def fileVariant (r : StyleRule) (s : State) : Variant → State
  | .className c => (c.entries r).foldl (fun s e => s.addRule e.1 e.2) s
  | .customProperties scope subtype => s.addVariables scope subtype r

/-- Files a rule for all variants of a selector, and notes if there are none. -/
def fileSelector (c : Settings) (r : StyleRule) (s : State) (selector : String) : Outcome :=
  match c.classify s.darkMode (r.media.getD []) selector with
  | [] => { state := s, notes := [.unsupportedSelector selector] }
  | variants => { state := variants.foldl (fileVariant r) s }

/-- Files a rule for each of some selectors. -/
def file (c : Settings) (selectors : List String) (s : State) (r : StyleRule) : Outcome :=
  Outcome.each (fileSelector c r) s selectors

end State

end StyleBundle
