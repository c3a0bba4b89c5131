import StyleBundle.State.Basic

/-!
# StyleBundle.State.Directive

Directives that set options: `set darkMode …` says how the dark theme is told, any other
`set name …` sets a flag. What makes no sense is left alone, with a note.
-/

namespace StyleBundle

namespace DarkMode

/-- The strategy that a word names. -/
def strategy? (word : String) : Option DarkStrategy :=
  match DarkStrategy.ofName word with
  | .other _ => none
  | strategy => some strategy

/-- How the dark theme is told, given a strategy and a value. Without a value it is told by the
medium. A value tells by its first character what it is, if it is no plain word. -/
def ofSetting (strategy : Option DarkStrategy) (value : Option String) : Option DarkMode :=
  match strategy, value with
  | some .media, _ => some {}
  | _, none => some {}
  | strategy, some word =>
    match word.toList with
    | '.' :: rest => some { strategy := .className, value := some (String.ofList rest) }
    | '[' :: _ => some { strategy := .attribute, value := some word }
    | _ =>
      if strategy = some .className || word = "dark" then
        some { strategy := .className, value := some word }
      else none

/-- How the dark theme is told by the words of a directive, and the word that is the value. -/
def ofWords (words : List String) : Option DarkMode × Option String :=
  match words with
  | [] => (ofSetting none none, none)
  | word :: rest =>
    match strategy? word with
    | some strategy => (ofSetting (some strategy) rest.head?, rest.head?)
    | none => (ofSetting none (some word), some word)

/-- How the dark theme is told, in words. -/
def text (d : DarkMode) : String := Text.trim (d.strategy.name ++ " " ++ d.value.getD "")

end DarkMode

namespace State

def darkModeName : String := "darkMode"

/-- Sets how the dark theme is told. -/
def setDarkMode (s : State) (words : List String) : Outcome :=
  match DarkMode.ofWords words with
  | (some dark, _) =>
    { state := { s with
        darkMode := dark,
        flags := s.flags.put darkModeName (.text dark.text) } }
  | (none, value) => { state := s, notes := [.unrecognisedDarkMode (value.getD "")] }

/-- The flag that the words after its name give: the first is its type, the others its value. -/
def flagOf (words : List String) : Flag :=
  match words.drop 1 with
  | [] => .on
  | ws => .words ws

/-- Carries out a directive that sets an option. -/
def setOption (s : State) (words : List String) : Outcome :=
  match words with
  | "set" :: name :: rest =>
    if name = darkModeName then s.setDarkMode rest
    else { state := { s with flags := s.flags.put name (flagOf rest) } }
  | _ => { state := s, notes := [.ignoredDirective words] }

end State

end StyleBundle
