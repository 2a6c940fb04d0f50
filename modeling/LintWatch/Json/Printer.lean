import LintWatch.Decimal.Shortest
import LintWatch.Json.Basic
import LintWatch.Text.Utf8

/-!
# Writing JSON values

`compress` writes a value without blanks: members in order, the quote, the backslash and the
characters below `U+0020` escaped, all else as it is.
-/

namespace LintWatch.Json

/-- A hexadecimal digit. -/
def hexChar (n : Nat) : Char :=
  Char.ofNat (if n < 10 then 0x30 + n else 0x57 + n)

/-- A character as it stands in a written text. -/
def escape (c : Char) : List Char :=
  if c = '"' then ['\\', '"']
  else if c = '\\' then ['\\', '\\']
  else if c = '\n' then ['\\', 'n']
  else if c = '\r' then ['\\', 'r']
  else if c = '\t' then ['\\', 't']
  else if c = '\x08' then ['\\', 'b']
  else if c = '\x0c' then ['\\', 'f']
  else if c.toNat < 0x20 then
    ['\\', 'u', '0', '0', hexChar (c.toNat / 16), hexChar (c.toNat % 16)]
  else [c]

/-- A text with its quotes. -/
def quote (s : String) : String :=
  "\"" ++ String.ofList (s.toList.flatMap escape) ++ "\""

/-- A number as text. -/
def Number.render : Number → String
  | .int n => toString n
  | .real bits => Decimal.renderBits bits

mutual

/-- A value as text without blanks. -/
def compress : Json → String
  | .null => "null"
  | .bool b => if b then "true" else "false"
  | .num n => n.render
  | .str s => quote s
  | .arr items => "[" ++ compressItems items ++ "]"
  | .obj members => "\x7b" ++ compressMembers members ++ "\x7d"

/-- Elements with commas between them. -/
def compressItems : List Json → String
  | [] => ""
  | [v] => compress v
  | v :: vs => compress v ++ "," ++ compressItems vs

/-- Members with commas between them. -/
def compressMembers : List (String × Json) → String
  | [] => ""
  | [(name, v)] => quote name ++ ":" ++ compress v
  | (name, v) :: ms => quote name ++ ":" ++ compress v ++ "," ++ compressMembers ms

end

/-- A value as bytes without blanks. -/
def toBytes (v : Json) : List UInt8 :=
  Text.Utf8.encode (compress v)

end LintWatch.Json
