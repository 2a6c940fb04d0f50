/-!
# TOML documents with their layout

A document keeps every blank, comment and spelling, so that a change to one value leaves the
rest of the text as the user wrote it. `Document.render` writes it back: line ends are line feeds
and every statement has a line of its own. `Document.tidy` brings the lines of a table that is
written with dotted keys together, in the order in which its keys occur first.
-/

namespace LintWatch.Toml

/-- A scalar of TOML, as far as settings can use it. -/
inductive Scalar where
  | text (value : String)
  | integer (value : Int)
  | real
  | bool (value : Bool)
  | moment
  deriving DecidableEq, Repr

/-- One part of a key, with the blanks around it. -/
structure KeyPart where
  lead : List Char
  spelling : List Char
  name : String
  tail : List Char
  deriving DecidableEq, Repr, Inhabited

/-- A key, as its parts between dots. -/
abbrev Key := List KeyPart

/-- The names of the parts of a key. -/
def Key.names (k : Key) : List String :=
  k.map KeyPart.name

/-- A value with its layout. Gaps are the blanks, line ends and comments around elements and
entries; `comma` says whether the last one is followed by a comma. -/
inductive Value where
  | scalar (spelling : List Char) (value : Scalar)
  | array (items : List (List Char × Value × List Char)) (comma : Bool) (gap : List Char)
  | table (entries : List (List Char × List KeyPart × List Char × Value × List Char))
      (comma : Bool) (gap : List Char)
  deriving Repr, Inhabited

/-- A key bound to a value: the gap in front, the key, the gap after the equals sign, the value
and the gap behind it. -/
abbrev Entry := List Char × List KeyPart × List Char × Value × List Char

/-- The head of a section. -/
structure Header where
  lead : List Char
  isArray : Bool
  key : Key
  tail : List Char
  deriving Repr, Inhabited

/-- A section: its head and its entries. -/
structure Section where
  header : Header
  entries : List Entry
  deriving Repr, Inhabited

/-- A document: the entries before the first section, the sections, and what follows the last
statement. -/
structure Document where
  root : List Entry
  sections : List Section
  trailing : List Char
  deriving Repr, Inhabited

/-! ## Writing -/

/-- A part of a key as text. -/
def KeyPart.render (p : KeyPart) : List Char :=
  p.lead ++ p.spelling ++ p.tail

/-- A key as text. -/
def renderKey : List KeyPart → List Char
  | [] => []
  | [p] => p.render
  | p :: ps => p.render ++ '.' :: renderKey ps

mutual

/-- A value as text. -/
def Value.render : Value → List Char
  | .scalar spelling _ => spelling
  | .array items comma gap =>
    '[' :: renderItems items ++ (if comma then [','] else []) ++ gap ++ [']']
  | .table entries comma gap =>
    '\x7b' :: renderEntries entries ++ (if comma then [','] else []) ++ gap ++ ['\x7d']

/-- The elements of an array as text. -/
def renderItems : List (List Char × Value × List Char) → List Char
  | [] => []
  | [(before, v, after)] => before ++ v.render ++ after
  | (before, v, after) :: rest => before ++ v.render ++ after ++ ',' :: renderItems rest

/-- The entries of an inline table as text. -/
def renderEntries : List (List Char × List KeyPart × List Char × Value × List Char) → List Char
  | [] => []
  | [(lead, key, before, v, after)] =>
    lead ++ renderKey key ++ '=' :: before ++ v.render ++ after
  | (lead, key, before, v, after) :: rest =>
    lead ++ renderKey key ++ '=' :: before ++ v.render ++ after ++ ',' :: renderEntries rest

end

/-- An entry on a line of its own as text. -/
def renderLine (e : Entry) : List Char :=
  e.1 ++ renderKey e.2.1 ++ '=' :: e.2.2.1 ++ e.2.2.2.1.render ++ e.2.2.2.2 ++ ['\n']

/-- The head of a section as text. -/
def Header.render (h : Header) : List Char :=
  h.lead ++ (if h.isArray then ['[', '['] else ['[']) ++ renderKey h.key
    ++ (if h.isArray then [']', ']'] else [']']) ++ h.tail ++ ['\n']

/-- A section as text. -/
def Section.render (s : Section) : List Char :=
  s.header.render ++ s.entries.flatMap renderLine

/-- A document as text. -/
def Document.render (d : Document) : List Char :=
  d.root.flatMap renderLine ++ d.sections.flatMap Section.render ++ d.trailing

/-! ## Bringing dotted keys together -/

/-- Whether the key of an entry starts with these names. -/
def sameGroup (names : List String) (e : Entry) : Bool :=
  names.isPrefixOf (Key.names e.2.1)

/-- The inner parts of `key` as they are spelled in `first`, for as many as the two share. -/
def respell : List KeyPart → List KeyPart → List KeyPart
  | p :: q :: rest, f :: first =>
    if p.name = f.name ∧ first ≠ [] then f :: respell (q :: rest) first else p :: q :: rest
  | key, _ => key

/-- The entries with those of each dotted table behind its first one, the inner parts of their
keys spelled as they are there. `depth` is the number of parts that all the keys share. -/
def group (depth : Nat) : Nat → List Entry → List Entry
  | 0, entries => entries
  | _ + 1, [] => []
  | fuel + 1, e :: rest =>
    let names := (Key.names e.2.1).take (depth + 1)
    if e.2.1.length ≤ depth + 1 then e :: group depth fuel rest
    else
      let mine := rest.filter (sameGroup names)
      let others := rest.filter (!sameGroup names ·)
      let spelled (o : Entry) : Entry := (o.1, respell o.2.1 e.2.1, o.2.2)
      group (depth + 1) fuel (e :: mine.map spelled) ++ group depth fuel others

/-- The entries of one table with dotted keys brought together. -/
def tidyEntries (entries : List Entry) : List Entry :=
  group 0 ((entries.map fun e => e.2.1.length + 1).foldl (· + ·) 0 + entries.length + 1) entries

mutual

/-- A value with the entries of all inline tables in it brought together. -/
def Value.tidy : Value → Value
  | .scalar spelling v => .scalar spelling v
  | .array items comma gap => .array (tidyItems items) comma gap
  | .table entries comma gap => .table (tidyEntries (tidyValues entries)) comma gap

/-- The elements of an array with the inline tables in them tidied. -/
def tidyItems : List (List Char × Value × List Char) → List (List Char × Value × List Char)
  | [] => []
  | (before, v, after) :: rest => (before, v.tidy, after) :: tidyItems rest

/-- The entries of a table with the inline tables in them tidied. -/
def tidyValues : List (List Char × List KeyPart × List Char × Value × List Char) →
    List (List Char × List KeyPart × List Char × Value × List Char)
  | [] => []
  | (lead, key, before, v, after) :: rest =>
    (lead, key, before, v.tidy, after) :: tidyValues rest

end

/-- The document with the entries of each table brought together. -/
def Document.tidy (d : Document) : Document :=
  { d with
    root := tidyEntries (tidyValues d.root)
    sections := d.sections.map fun s => { s with entries := tidyEntries (tidyValues s.entries) } }

end LintWatch.Toml
