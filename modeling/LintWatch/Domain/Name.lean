import LintWatch.Domain.Direction
import LintWatch.Domain.Joining
import LintWatch.Domain.Mapping
import LintWatch.Domain.Punycode
import LintWatch.Text.Split
import LintWatch.Text.Utf8

/-!
# Domain names

A domain name is a sequence of labels with dots between them. It may be spelled in many ways, of
which the labels are the simplest one: variants of characters as the characters themselves, letters
and marks put together, and characters beyond ASCII as themselves and not in Punycode. A name need
not be one that is in use: labels may be long or empty.
-/

namespace LintWatch.Domain

open LintWatch.Text

/-- Whether a character has a meaning of its own where names stand, so that no name may hold it. -/
def isForbidden (c : Char) : Bool :=
  c.toNat ≤ 0x20 || c.toNat = 0x7F || "%#/:<>?@[\\]^|".toList.contains c

/-- Whether the characters, in their simplest spelling, may be a label. -/
def isLabel (cs : List Char) : Bool :=
  cs.all (!isForbidden ·) && !(cs.head?.any marks.contains) && haveJoinersPlaces [] cs

/-- What stands in front of a label in Punycode. -/
def punycodeMark : List Char :=
  "xn--".toList

/-- Whether the characters are a label that needs Punycode, in its simplest spelling. -/
def needsPunycode (cs : List Char) : Bool :=
  cs.any (0x80 ≤ ·.toNat) && cs.all isPlain && compose cs = cs && !punycodeMark.isPrefixOf cs

/-- The label that is written in this way. -/
def label? (cs : List Char) : Option (List Char) :=
  if punycodeMark.isPrefixOf cs then
    (Punycode.decode? (cs.drop punycodeMark.length)).filter fun cs => needsPunycode cs && isLabel cs
  else if isLabel cs then some cs
  else none

/-- The labels of the domain name that is written in this way. -/
def labels? (text : String) : Option (List (List Char)) := do
  let spelled ← text.toList.mapM plain?
  let labels ← (split '.' (compose spelled.flatten)).mapM label?
  if haveDirections labels ∧ labels ≠ [[]] then some labels else none

end LintWatch.Domain
