/-!
# Taking texts apart

A text with separators in it is the texts between them, of which there is always at least one.
-/

namespace LintWatch.Text

/-- The parts of a text between its separators. -/
def split (separator : Char) : List Char → List (List Char)
  | [] => [[]]
  | c :: cs =>
    match split separator cs with
    | [] => [[c]]
    | part :: parts => if c = separator then [] :: part :: parts else (c :: part) :: parts

end LintWatch.Text
