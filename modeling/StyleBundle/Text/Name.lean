import StyleBundle.Text.Upper

/-!
# StyleBundle.Text.Name

Property names. Style sheets write them in words joined by hyphens, the compiled bundle in camel
case. A custom property, whose name starts with two hyphens, keeps its name.
-/

namespace StyleBundle

namespace Name

/-- Each hyphen and the character after it become the capital of that character. A hyphen before
the end of a line, or at the end, stays. -/
def camelChars : List Char → List Char
  | [] => []
  | ['-'] => ['-']
  | '-' :: c :: rest =>
    if c = '\n' then '-' :: c :: camelChars rest else Text.upper c ++ camelChars rest
  | c :: rest => c :: camelChars rest

/-- Whether a name is that of a custom property. -/
def isCustom (name : String) : Bool :=
  ['-', '-'].isPrefixOf name.toList

/-- The name of a property in the bundle. -/
def native (name : String) : String :=
  if isCustom name then name else String.ofList (camelChars name.toList)

/-- Text without the first occurrence of `part`. -/
def dropFirst (part : List Char) : List Char → List Char
  | [] => []
  | c :: cs =>
    if part.isPrefixOf (c :: cs) then (c :: cs).drop part.length else c :: dropFirst part cs

/-- The field of an animation that a property sets: `animation-fill-mode` sets `fillMode`. -/
def animationField (name : String) : String :=
  native (String.ofList (dropFirst "animation-".toList name.toList))

end Name

end StyleBundle
