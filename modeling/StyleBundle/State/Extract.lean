import StyleBundle.State.Directive
import StyleBundle.State.Filing
import StyleBundle.Style.Block
import StyleBundle.Style.Context

/-!
# StyleBundle.State.Extract

Extracting rules into a state. Media and container rules pass on a context to the rules in them;
a media rule none of whose queries can apply is skipped. Each style block that is extracted takes
one order number, whatever its selectors are.
-/

namespace StyleBundle

namespace State

/-- Extracts a style block. -/
def addBlock (c : Settings) (ctx : Context) (s : State) (b : StyleBlock) : Outcome :=
  if b.hasDeclarations then
    let table := Relocations.ofDirectives b.directives
    let rules : Noted Error (List StyleRule) := do
      .take table.notes
      StyleBlock.rules (c.buildContext table) c.read s.order b
    Outcome.ofNoted s rules fun rs =>
      (Outcome.each (file c b.selectors) s (rs.map ctx.apply)).andThen fun s =>
        { state := { s with order := s.order + 1 } }
  else { state := s }

/-- Extracts an animation; it replaces an earlier one of its name. -/
def addKeyframes (c : Settings) (s : State) (k : Keyframes) : Outcome :=
  Outcome.ofNoted s (Animation.ofKeyframes (c.buildContext []) c.read s.order k) fun a =>
    { state := { s with keyframes := s.keyframes.put k.name a } }

/-- Carries out a directive, if it is one that sets an option. -/
def addDirective (s : State) (d : Directive) : Outcome :=
  if d.name = Sheet.optionName then s.setOption d.words else { state := s }

mutual

/-- Extracts a rule in its context. -/
def extract (c : Settings) (ctx : Context) (s : State) : Rule → Outcome
  | .keyframes k => s.addKeyframes c k
  | .container name condition rules =>
    extractAll c (ctx.extend [] [{ name, condition := some condition }]) s rules
  | .media queries rules =>
    match queries.filter MediaQuery.isApplicable with
    | [] => { state := s, notes := [.skippedMedia queries] }
    | applicable => extractAll c (ctx.extend applicable []) s rules
  | .style b => s.addBlock c ctx b
  | .directive d => s.addDirective d
  | .unknown kind => { state := s, notes := [.skippedKind kind] }

/-- Extracts rules one after the other. -/
def extractAll (c : Settings) (ctx : Context) (s : State) : List Rule → Outcome
  | [] => { state := s }
  | r :: rest => (extract c ctx s r).andThen fun s => extractAll c ctx s rest

end

end State

end StyleBundle
