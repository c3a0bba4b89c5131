/-!
# StyleBundle.Text.Terminal

Control sequences of terminals, such as those that set colours: the escape character, an opening
square bracket, parameters, and a letter. They are out of text that goes elsewhere.
-/

namespace StyleBundle

namespace Text

/-- The character that begins a control sequence. -/
def escape : Char := Char.ofNat 0x1b

def isParameter (c : Char) : Bool := c == ';' || c == '?' || c.isDigit

/-- The length of the control sequence at the front of a text, or zero if there is none. -/
def controlLength : List Char → Nat
  | first :: '[' :: rest =>
    let parameters := rest.takeWhile isParameter
    match rest.drop parameters.length with
    | last :: _ => if first == escape && last.isAlpha then parameters.length + 3 else 0
    | [] => 0
  | _ => 0

/-- A text without its first characters, as many as are given, and without control sequences. -/
def withoutControlsFrom : Nat → List Char → List Char
  | _, [] => []
  | n + 1, _ :: cs => withoutControlsFrom n cs
  | 0, c :: cs =>
    match controlLength (c :: cs) with
    | n + 1 => withoutControlsFrom n cs
    | 0 => c :: withoutControlsFrom 0 cs

/-- A text without control sequences. -/
def withoutControls (s : String) : String :=
  String.ofList (withoutControlsFrom 0 s.toList)

end Text

end StyleBundle
