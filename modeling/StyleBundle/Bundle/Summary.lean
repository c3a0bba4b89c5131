import StyleBundle.Bundle.Basic

/-!
# StyleBundle.Bundle.Summary

What a bundle holds, in lines for a reader: counts, rule sets with their warnings, animations,
custom properties and flags. A passage that would be empty is left out, but for that of the rules.
-/

namespace StyleBundle

namespace RuleSet

/-- The names of what a rule set needs. -/
def traits (s : RuleSet) : List String :=
  [("variables", s.customProperties), ("container", s.container), ("animation", s.animation),
    ("hover", s.hover), ("active", s.active), ("focus", s.focus)].filterMap fun e =>
      if e.2 then some e.1 else none

/-- The lines on a rule set. -/
def summary (key : String) (s : RuleSet) : List String :=
  let counts := ["  ." ++ key, "normal=" ++ toString (s.normal.getD []).length,
    "important=" ++ toString (s.important.getD []).length]
  let traits := if s.traits.isEmpty then [] else ["flags=" ++ ",".intercalate s.traits]
  "  ".intercalate (counts ++ traits) ::
    (s.warnings.getD []).map fun w => "    warning: " ++ w.text

end RuleSet

/-- The line on an animation. -/
def Animation.summary (name : String) (a : Animation) : String :=
  "  " ++ name ++ "  properties=" ++ ",".intercalate a.frames.keys

namespace Bundle

/-- A title, some lines and an empty line; nothing at all if there are no lines. -/
def passage (title : String) (lines : List String) : List String :=
  if lines.isEmpty then [] else title :: lines ++ [""]

def variableLines (v : Variables) : List String :=
  v.map fun e =>
    "  " ++ e.1 ++ "  " ++ "  ".intercalate (e.2.map fun t => t.1 ++ "=" ++ t.2.literal)

def flagLines (flags : Table Flag) : List String :=
  flags.map fun e => "  " ++ e.1 ++ "=" ++ e.2.toValue.plainText

def warningCount (b : Bundle) : Nat :=
  (b.rules.flatMap fun e => e.2.warnings.getD []).length

/-- The lines on a bundle. -/
def summary (b : Bundle) : List String :=
  let sets := toString b.rules.length
  let rem := match b.rem with
    | some n => ["rem:       " ++ n.text]
    | none => []
  ["Rule sets: " ++ sets, "Keyframes: " ++ toString b.keyframes.length] ++ rem ++ [""] ++
    ["Rules:"] ++ b.rules.flatMap (fun e => e.2.summary e.1) ++ [""] ++
    passage "Keyframes:" (b.keyframes.map fun e => e.2.summary e.1) ++
    passage "Root variables:" (variableLines b.rootVariables) ++
    passage "Universal variables:" (variableLines b.universalVariables) ++
    passage "Flags:" (flagLines b.flags) ++
    ["Summary: " ++ sets ++ " rule set(s), " ++ toString b.warningCount ++ " warning(s)"]

end Bundle

end StyleBundle
