import LintWatch.Toml.Bare
import LintWatch.Toml.Quoted

/-!
# Reading TOML documents

`Document.read?` takes a text apart into statements with all their layout. It judges the form of
each statement and nothing else: whether keys are bound twice is a question of what the document
means. Carriage returns in front of line ends are dropped from the layout, and a byte order mark
from the start of the text.
-/

namespace LintWatch.Toml

/-- Takes blanks and a comment off the front, and with `lines` also line ends and further
comments; `found` are the characters so far, last first. -/
def gap? (lines inComment : Bool) (found : List Char) : List Char →
    Option (List Char × List Char)
  | [] => some (found.reverse, [])
  | c :: cs =>
    if c = '\n' then
      if lines then gap? lines false (c :: found) cs else some (found.reverse, c :: cs)
    else if c = '\r' ∧ cs.head? = some '\n' then
      if lines then gap? lines inComment found cs else some (found.reverse, c :: cs)
    else if inComment then
      if Quoted.isControl c then none else gap? lines true (c :: found) cs
    else if c = ' ' ∨ c = '\t' then gap? lines false (c :: found) cs
    else if c = '#' then gap? lines true (c :: found) cs
    else some (found.reverse, c :: cs)

/-- The blanks in front, and what follows them. -/
def splitBlanks (cs : List Char) : List Char × List Char :=
  (cs.takeWhile fun c => c = ' ' || c = '\t', Quoted.dropBlanks cs)

/-- What follows a line end, or nothing at the end of the text. -/
def afterLineEnd? : List Char → Option (List Char)
  | [] => some []
  | '\n' :: cs => some cs
  | '\r' :: '\n' :: cs => some cs
  | _ => none

/-- Whether a character may stand in a key without quotes. -/
def isKeyChar (c : Char) : Bool :=
  c.isAlphanum || c = '_' || c = '-'

/-- Reads the name of a part of a key. -/
def keyName? (cs : List Char) : Option (String × List Char) :=
  match cs with
  | '"' :: rest => Quoted.basic [] rest
  | '\'' :: rest => Quoted.literal [] rest
  | _ =>
    let name := cs.takeWhile isKeyChar
    if name = [] then none else some (String.ofList name, cs.dropWhile isKeyChar)

/-- Reads a part of a key with the blanks around it. -/
def keyPart? (cs : List Char) : Option (KeyPart × List Char) := do
  let (lead, cs) := splitBlanks cs
  let (name, rest) ← keyName? cs
  let (tail, after) := splitBlanks rest
  return (⟨lead, cs.take (cs.length - rest.length), name, tail⟩, after)

/-- Reads a key of at most so many parts. -/
def parts? : (limit : Nat) → List Char → Option (List KeyPart × List Char)
  | 0, _ => none
  | limit + 1, cs => do
    let (part, rest) ← keyPart? cs
    match rest with
    | '.' :: rest =>
      let (parts, rest) ← parts? limit rest
      return (part :: parts, rest)
    | _ => return ([part], rest)

/-- How many parts a key may have, and how deep arrays and inline tables may stand in each other. -/
def depthLimit : Nat := 80

/-- Reads a key. -/
def key? (cs : List Char) : Option (List KeyPart × List Char) :=
  parts? depthLimit cs

/-- A key whose last part has a gap behind it. -/
def endWith (gap : List Char) : List KeyPart → List KeyPart
  | [] => []
  | [p] => [{ p with tail := p.tail ++ gap }]
  | p :: ps => p :: endWith gap ps

/-- Whether a character ends an unquoted word. -/
def endsWord (c : Char) : Bool :=
  c = ' ' || c = '\t' || c = '\n' || c = '\r' || c = ',' || c = '#' || c = '=' || c = '"'
    || c = '\'' || c = '[' || c = ']' || c = '\x7b' || c = '\x7d'

/-- The unquoted word in front. A date and a time may have a space between them. -/
def word (cs : List Char) : List Char :=
  let first := cs.takeWhile (!endsWord ·)
  match cs.dropWhile (!endsWord ·) with
  | ' ' :: c :: rest =>
    if Bare.isDate first ∧ c.isDigit then
      first ++ ' ' :: (c :: rest).takeWhile (!endsWord ·)
    else first
  | _ => first

/-- Reads a scalar. -/
def scalar? (cs : List Char) : Option (Value × List Char) :=
  if cs.head? = some '"' ∨ cs.head? = some '\'' then do
    let (text, rest) ← Quoted.read? cs
    return (.scalar (cs.take (cs.length - rest.length)) (.text text), rest)
  else do
    let spelling := word cs
    return (.scalar spelling (← Bare.read? spelling), cs.drop spelling.length)

mutual

/-- Reads a value in which at most `depth` brackets stand in each other. -/
def value? : (fuel depth : Nat) → List Char → Option (Value × List Char)
  | 0, _, _ => none
  | fuel + 1, depth, cs =>
    match cs with
    | '[' :: rest =>
      match depth with
      | 0 => none
      | depth + 1 => items? fuel depth [] rest
    | '\x7b' :: rest =>
      match depth with
      | 0 => none
      | depth + 1 => entries? fuel depth [] rest
    | _ => scalar? cs

/-- Reads the elements of an array after those of `found`, which are last first, and its end. -/
def items? : (fuel depth : Nat) → List (List Char × Value × List Char) → List Char →
    Option (Value × List Char)
  | 0, _, _, _ => none
  | fuel + 1, depth, found, cs => do
    let (before, cs) ← gap? true false [] cs
    match cs with
    | ']' :: rest => return (.array found.reverse (found ≠ []) before, rest)
    | _ =>
      let (v, cs) ← value? fuel depth cs
      let (after, cs) ← gap? true false [] cs
      match cs with
      | ',' :: rest => items? fuel depth ((before, v, after) :: found) rest
      | ']' :: rest => return (.array ((before, v, after) :: found).reverse false [], rest)
      | _ => none

/-- Reads the entries of an inline table after those of `found`, which are last first, and its
end. -/
def entries? : (fuel depth : Nat) →
    List (List Char × List KeyPart × List Char × Value × List Char) → List Char →
    Option (Value × List Char)
  | 0, _, _, _ => none
  | fuel + 1, depth, found, cs => do
    let (lead, cs) ← gap? true false [] cs
    match cs with
    | '\x7d' :: rest => return (.table found.reverse (found ≠ []) lead, rest)
    | _ =>
      let (key, cs) ← key? cs
      let (behind, cs) ← gap? true false [] cs
      match cs with
      | '=' :: cs =>
        let (before, cs) ← gap? true false [] cs
        let (v, cs) ← value? fuel depth cs
        let (after, cs) ← gap? true false [] cs
        let e : Entry := (lead, endWith behind key, before, v, after)
        match cs with
        | ',' :: rest => entries? fuel depth (e :: found) rest
        | '\x7d' :: rest => return (.table (e :: found).reverse false [], rest)
        | _ => none
      | _ => none

end

/-- Reads an entry on a line of its own, after the gap in front. -/
def line? (lead : List Char) (cs : List Char) : Option (Entry × List Char) := do
  let (key, cs) ← key? cs
  match cs with
  | '=' :: cs =>
    let (before, cs) := splitBlanks cs
    let (v, cs) ← value? (2 * cs.length + 2) depthLimit cs
    let (after, cs) ← gap? false false [] cs
    return ((lead, key, before, v, after), ← afterLineEnd? cs)
  | _ => none

/-- Reads the head of a section after its first bracket. -/
def header? (lead : List Char) (cs : List Char) : Option (Header × List Char) := do
  let isArray : Bool := cs.head? == some '['
  let (key, cs) ← key? (if isArray then cs.drop 1 else cs)
  let closing := if isArray then [']', ']'] else [']']
  if !closing.isPrefixOf cs then none
  let (tail, rest) ← gap? false false [] (cs.drop closing.length)
  return (⟨lead, isArray, key, tail⟩, ← afterLineEnd? rest)

/-- Adds an entry to the section that is last, or to the entries before all sections. The
sections and their entries are last first. -/
def addEntry (e : Entry) (root : List Entry) : List Section → List Entry × List Section
  | [] => (e :: root, [])
  | s :: rest => (root, { s with entries := e :: s.entries } :: rest)

/-- Reads statements; `root` and `sections` are those so far, last first. -/
def statements? : (fuel : Nat) → List Entry → List Section → List Char → Option Document
  | 0, _, _, _ => none
  | fuel + 1, root, sections, cs => do
    let (lead, cs) ← gap? true false [] cs
    match cs with
    | [] =>
      return ⟨root.reverse, (sections.map fun s => { s with entries := s.entries.reverse }).reverse,
        lead⟩
    | '[' :: rest =>
      let (h, rest) ← header? lead rest
      statements? fuel root (⟨h, []⟩ :: sections) rest
    | _ =>
      let (e, rest) ← line? lead cs
      let (root, sections) := addEntry e root sections
      statements? fuel root sections rest

/-- The character that may mark the start of a text. -/
def byteOrderMark : Char := '\uFEFF'

/-- Takes a text apart. -/
def Document.read? (text : List Char) : Option Document :=
  let cs := if text.head? = some byteOrderMark then text.drop 1 else text
  statements? (cs.length + 1) [] [] cs

end LintWatch.Toml
