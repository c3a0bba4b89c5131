import StyleBundle.Text.Range

/-!
# StyleBundle.Text.Blank

Blank characters in the widest sense, and the words between them. Style sheet source has a
narrower notion of white space of its own; this one trims text and cuts it into words.
-/

namespace StyleBundle

namespace Text

/-- Where runs of blank characters begin and end, in turn. -/
def blankBounds : List Nat := [
  0x9, 0xe, 0x1c, 0x21, 0x85, 0x86, 0xa0, 0xa1, 0x1680, 0x1681, 0x2000, 0x200b, 0x2028, 0x202a,
  0x202f, 0x2030, 0x205f, 0x2060, 0x3000, 0x3001]

def isBlank (c : Char) : Bool :=
  within blankBounds c.toNat

/-- Text without the blanks at either end. -/
def trimChars (cs : List Char) : List Char :=
  ((cs.dropWhile isBlank).reverse.dropWhile isBlank).reverse

def trim (s : String) : String :=
  String.ofList (trimChars s.toList)

/-- The words of a text; `word` holds the letters of the one being read, last first. -/
def wordsFrom (word : List Char) : List Char → List (List Char)
  | [] => if word.isEmpty then [] else [word.reverse]
  | c :: cs =>
    if isBlank c then
      if word.isEmpty then wordsFrom [] cs else word.reverse :: wordsFrom [] cs
    else wordsFrom (c :: word) cs

/-- The maximal runs of characters that are not blank. -/
def words (cs : List Char) : List String :=
  (wordsFrom [] cs).map String.ofList

/-- Text with every blank taken out. -/
def withoutBlanks (s : String) : List Char :=
  s.toList.filter (!isBlank ·)

end Text

end StyleBundle
