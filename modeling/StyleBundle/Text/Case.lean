/-!
# StyleBundle.Text.Case

Small letters. Style sheets compare keywords without regard to the case of ASCII letters and leave
all others alone.
-/

namespace StyleBundle

namespace Text

/-- Text with its ASCII letters made small. -/
def lower (s : String) : String :=
  String.ofList (s.toList.map Char.toLower)

/-- A character made small as far as ASCII goes: the Kelvin sign is the one letter beyond ASCII
whose small form is an ASCII letter. -/
def foldChar (c : Char) : Char :=
  if c.toNat == 0x212a then 'k' else c.toLower

/-- Text made small as far as ASCII goes. -/
def folded (cs : List Char) : List Char :=
  cs.map foldChar

/-- Whether the text `needle` occurs in `cs`. -/
def occursIn (needle : List Char) : List Char → Bool
  | [] => needle.isEmpty
  | c :: cs => needle.isPrefixOf (c :: cs) || occursIn needle cs

end Text

end StyleBundle
