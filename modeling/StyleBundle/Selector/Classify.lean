import StyleBundle.Selector.Compound
import StyleBundle.Text.Blank

/-!
# StyleBundle.Selector.Classify

Telling what a selector selects.

* `.a`, `.a:hover`, `.a[open]`: the elements of a class;
* `.group:hover .a`: those inside an element of a grouping class;
* `.dark .a`: those under the dark theme, if a class or an attribute tells it;
* `:root` and `*`, perhaps under the dark theme: scopes of custom properties.

Any other selector is of no use and has no variant.
-/

namespace StyleBundle

namespace Selector

/-- The media query that asks for the dark theme. -/
def darkQuery : MediaQuery := { condition := some "(prefers-color-scheme: dark)" }

/-- An attribute without blanks and quotes. -/
def bareAttribute (s : String) : List Char :=
  (Text.withoutBlanks s).filter fun c => c != '"' && c != '\''

/-- Whether a compound is what tells the dark theme. -/
def isDarkMarker (dark : DarkMode) (c : Compound) : Bool :=
  match dark.strategy, dark.value with
  | .className, some v => c.classes.contains v
  | .attribute, some v =>
    !v.isEmpty && c.attributes.any fun a => bareAttribute a.text == bareAttribute v
  | _, _ => false

/-- Whether a query mentions the dark theme. -/
def mentionsDark (q : MediaQuery) : Bool :=
  Text.occursIn "prefers-color-scheme:dark".toList
    (Text.folded (Text.withoutBlanks (q.condition.getD "")))

/-- Whether a selector of these compounds, under these media queries, is for the dark theme. -/
def isDark (dark : DarkMode) (media : List MediaQuery) (compounds : List Compound) : Bool :=
  if dark.strategy = .media then media.any mentionsDark else compounds.any (isDarkMarker dark)

/-- The scope of custom properties that some compounds select. -/
def scope? (dark : DarkMode) (media : List MediaQuery) (ancestors : List Compound)
    (subject : Compound) : Option Variant :=
  if ancestors.all (isDarkMarker dark) then
    some (.customProperties (if subject.root then .root else .universal)
      (if isDark dark media (ancestors ++ [subject]) then "dark" else "default"))
  else none

/-- The set of some names, if there are any. -/
def names? (names : List String) : Option NameSet :=
  if names.isEmpty then none else some (.ofList names)

/-- The class that some compounds select. -/
def class? (isGroup : String → Bool) (dark : DarkMode) (ancestors : List Compound)
    (subject : Compound) : Option ClassSelector :=
  match subject.classes with
  | [name] =>
    let plain : ClassSelector :=
      { className := name,
        specificity := { className := Compound.totalWeight (ancestors ++ [subject]) },
        pseudoClasses := names? subject.pseudoClasses,
        attributes := nonempty subject.attributes }
    match ancestors with
    | [] => some plain
    | [ancestor] =>
      if isDarkMarker dark ancestor then some { plain with media := some [darkQuery] }
      else
        match ancestor.classes with
        | [group] =>
          if isGroup group then
            some { plain with
              groupClass := some group,
              groupPseudoClasses := names? ancestor.pseudoClasses,
              groupAttributes := nonempty ancestor.attributes }
          else none
        | _ => none
    | _ => none
  | _ => none

/-- What some compounds select, the subject being the last of them. -/
def ofCompounds? (isGroup : String → Bool) (dark : DarkMode) (media : List MediaQuery)
    (compounds : List Compound) : Option Variant :=
  match compounds.getLast? with
  | none => none
  | some subject =>
    let ancestors := compounds.dropLast
    if subject.root || (subject.universal && subject.classes.isEmpty) then
      scope? dark media ancestors subject
    else (class? isGroup dark ancestors subject).map .className

/-- What a selector selects, in rules under the given media queries. -/
def classify (isGroup : String → Bool) (dark : DarkMode) (media : List MediaQuery)
    (selector : String) : Option Variant :=
  (Compound.listOfTokens? (Token.ofText selector)).bind (ofCompounds? isGroup dark media)

end Selector

end StyleBundle
