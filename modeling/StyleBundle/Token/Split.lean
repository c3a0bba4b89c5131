import StyleBundle.Token.Write

/-!
# StyleBundle.Token.Split

Lists of component values between commas. `splitCommas` keeps everything but the commas; `layers`
keeps what is significant and drops lists that hold nothing.
-/

namespace StyleBundle

namespace Token

/-- The parts between the commas of a list; there is always at least one. -/
def splitCommas : List Token → List (List Token)
  | [] => [[]]
  | t :: rest =>
    if t.isComma then [] :: splitCommas rest
    else
      match splitCommas rest with
      | part :: parts => (t :: part) :: parts
      | [] => [[t]]

/-- The layers of a list, `layer` being the one that is read, last first. -/
def layersFrom (layer : List Token) : List Token → List (List Token)
  | [] => if layer.isEmpty then [] else [layer.reverse]
  | t :: rest =>
    if t.isComma then
      if layer.isEmpty then layersFrom [] rest else layer.reverse :: layersFrom [] rest
    else if t.isSignificant then layersFrom (t :: layer) rest
    else layersFrom layer rest

/-- The significant values between commas, layer by layer; an empty layer does not count. -/
def layers (ts : List Token) : List (List Token) := layersFrom [] ts

end Token

end StyleBundle
