/-!
# Blank characters

The blanks are the characters with the Unicode property `White_Space`. Texts are trimmed at
blanks, and the first word of a text ends at one.
-/

namespace LintWatch.Text

/-- Whether a character has the property `White_Space`. -/
def isBlank (c : Char) : Bool :=
  let n := c.toNat
  (9 ≤ n && n ≤ 13) || n == 0x20 || n == 0x85 || n == 0xA0 || n == 0x1680
    || (0x2000 ≤ n && n ≤ 0x200A) || n == 0x2028 || n == 0x2029 || n == 0x202F
    || n == 0x205F || n == 0x3000

/-- The characters from the first that is not blank. -/
def trimStart (cs : List Char) : List Char :=
  cs.dropWhile isBlank

/-- The characters up to the last that is not blank. -/
def trimEnd (cs : List Char) : List Char :=
  (cs.reverse.dropWhile isBlank).reverse

/-- The characters between the first and the last that are not blank. -/
def trim (cs : List Char) : List Char :=
  trimEnd (trimStart cs)

/-- A text without the blanks around it. -/
def trimText (s : String) : String :=
  String.ofList (trim s.toList)

/-- The first word of `cs` and what follows it, when `cs` starts with a word. -/
def firstWord (cs : List Char) : List Char × List Char :=
  (cs.takeWhile (!isBlank ·), cs.dropWhile (!isBlank ·))

end LintWatch.Text
