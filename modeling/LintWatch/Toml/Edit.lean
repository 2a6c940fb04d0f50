import LintWatch.Toml.Data

/-!
# Changing one value of a TOML document

`Document.put?` binds a name in one of the tables of a document and leaves every other statement
as it is written. A table that the document does not have, or has only by sections below it, gets
a section of its own; one written with dotted keys gets one more of them; one in braces gets its
entry in there.
-/

namespace LintWatch.Toml

mutual

/-- Whether every integer in a value fits into 64 bits with sign. -/
def Value.fits : Value → Bool
  | .scalar _ (.integer n) => -Int.pow 2 63 ≤ n && n < Int.pow 2 63
  | .scalar _ _ => true
  | .array items _ _ => itemsFit items
  | .table entries _ _ => entriesFit entries

/-- Whether every integer in the elements of an array fits. -/
def itemsFit : List (List Char × Value × List Char) → Bool
  | [] => true
  | (_, v, _) :: rest => v.fits && itemsFit rest

/-- Whether every integer in entries fits. -/
def entriesFit : List (List Char × List KeyPart × List Char × Value × List Char) → Bool
  | [] => true
  | (_, _, _, v, _) :: rest => v.fits && entriesFit rest

end

/-- A truth value as it is written. -/
def Value.ofBool (b : Bool) : Value :=
  .scalar (if b then "true".toList else "false".toList) (.bool b)

/-- How new entries are set: the blanks in front of the key, and those behind a value at the end
of the entries. -/
structure EntryStyle where
  lead : List Char
  lastTail : List Char

/-- Entries on lines of their own have no blanks around them. -/
def EntryStyle.line : EntryStyle := ⟨[], []⟩

/-- Entries in braces have a blank in front, and one in front of the closing brace. -/
def EntryStyle.braces : EntryStyle := ⟨[' '], [' ']⟩

namespace EntryStyle

variable (style : EntryStyle)

/-- A new entry, under a key whose last part is followed by a blank. -/
def entry (key : Key) (v : Value) (isLast : Bool) : Entry :=
  (style.lead, key.dropLast ++ (key.drop (key.length - 1)).map ({ · with tail := [' '] }), [' '], v,
    if isLast then style.lastTail else [])

/-- An entry with another value. Its key keeps its layout, the value does not. -/
def replace (e : Entry) (v : Value) (isLast : Bool) : Entry :=
  (e.1, e.2.1, [' '], v, if isLast then style.lastTail else [])

/-- Binds `name` under the parts of a key in `above`. An entry for it gets the value; of entries
for names below it, the first makes place for it and the others go. Else there is a new entry in
front of all or behind all. -/
def put (above : Key) (name : KeyPart) (v : Value) (inFront : Bool) (entries : List Entry) :
    List Entry :=
  let names := Key.names above ++ [name.name]
  match entries.findIdx? (sameGroup names) with
  | none =>
    if inFront then style.entry (above ++ [name]) v entries.isEmpty :: entries
    else entries ++ [style.entry (above ++ [name]) v true]
  | some i =>
    let rest := (entries.drop (i + 1)).filter (!sameGroup names ·)
    let changed (e : Entry) : Entry :=
      if Key.names e.2.1 = names then style.replace e v rest.isEmpty
      else style.entry (e.2.1.take names.length) v rest.isEmpty
    entries.take i ++ ((entries.drop i).take 1).map changed ++ rest

end EntryStyle

/-- A part of a key that is written as its name, without blanks. -/
def KeyPart.plain (name : String) : KeyPart :=
  ⟨[], name.toList, name, []⟩

/-- A part of a key without the blanks around it. -/
def KeyPart.bare (p : KeyPart) : KeyPart :=
  { p with lead := [], tail := [] }

mutual

/-- The origins of the tables in a field, in their order. -/
def Node.origins : Node → List Origin
  | .value _ => []
  | .table origin fields => origin :: originsOfFields fields
  | .tables elements => originsOfElements elements

/-- The origins of the tables in fields. -/
def originsOfFields : List (String × Node) → List Origin
  | [] => []
  | (_, v) :: rest => v.origins ++ originsOfFields rest

/-- The origins of the tables in an array, of which the last comes first. -/
def originsOfElements : List (Nat × List (String × Node)) → List Origin
  | [] => []
  | (place, fields) :: rest => originsOfElements rest ++ .section place :: originsOfFields fields

end

/-- The places of the sections in fields, in the order of the tables. -/
def Fields.places (fields : Fields) : List Nat :=
  (originsOfFields fields).filterMap Origin.place?

/-- Whether a section is that of the table at a path or of one below it. -/
def Section.isWithin (path : List String) (s : Section) : Bool :=
  path.isPrefixOf (Key.names s.header.key)

namespace Document

variable (d : Document)

/-- Whether a document with these fields can be changed: its integers fit into 64 bits with sign,
and no dotted key adds to a table that only sections below it imply. -/
def canChange (fields : Fields) : Bool :=
  entriesFit d.root && d.sections.all (fun s => entriesFit s.entries)
    && !(originsOfFields fields).contains .extended

/-- The document with one more section behind the one at a place, or in front of all. Nothing or
an empty line stands in front of it. -/
def insertSection (place : Option Nat) (key : Key) (entries : List Entry) : Document :=
  let (before, after) := d.sections.splitAt (match place with | none => 0 | some p => p + 1)
  let lead := if d.root.isEmpty && before.isEmpty then [] else ['\n']
  { d with sections := before ++ ⟨⟨lead, false, key, []⟩, entries⟩ :: after }

/-- The document without the sections of a table and of those below it. -/
def dropSections (path : List String) : Document :=
  { d with sections := d.sections.filter (!·.isWithin path) }

/-- The part of a key that the first section below a path has behind that path. -/
def sectionPart? (path : List String) (name : String) : Option KeyPart :=
  (d.sections.find? (·.isWithin (path ++ [name]))).bind (·.header.key[path.length]?)

/-- How the key of a table at a path is written where it has none yet: as in the first section
below it, else plainly. -/
def newPart (path : List String) (name : String) : KeyPart :=
  ((d.sectionPart? path name).map KeyPart.bare).getD (.plain name)

/-- Whether the first of some sections comes before the section at a place. -/
def startsBefore (path : List String) (place : Nat) : Bool :=
  (d.sections.take place).any (·.isWithin path)

/-- Binds a name in a table in braces. -/
def putInBraces (name : String) (v : Value) (e : Entry) : Entry :=
  match e with
  | (lead, key, before, .table entries comma gap, after) =>
    (lead, key, before,
      .table (EntryStyle.braces.put [] (.plain name) v false entries) comma gap, after)
  | _ => e

/-- Binds a name in a table of the document. Something else than a table in its place admits no
names in it. -/
def put? (fields : Fields) (table name : String) (v : Value) : Option Document :=
  let part := d.newPart [table] name
  let cleared := d.dropSections [table, name]
  match fields.lookup table with
  | none =>
    some (d.insertSection fields.places.getLast? [.plain table]
      (EntryStyle.line.put [] (.plain name) v false []))
  | some (.value (.table _)) =>
    some { d with root := d.root.map fun e =>
      if Key.names e.2.1 = [table] then putInBraces name v e else e }
  | some (.value _) | some (.tables _) => none
  | some (.table (.section place) _) =>
    let inFront := d.startsBefore [table, name] place
    let put (s : Section) : Section :=
      if Key.names s.header.key = [table] then
        { s with entries := EntryStyle.line.put [] part v inFront s.entries }
      else s
    some { cleared with sections := cleared.sections.map put }
  | some (.table .implied _) | some (.table .extended _) =>
    let place := (Fields.places (fields.takeWhile (·.1 ≠ table))).getLast?
    some ((d.insertSection place [d.newPart [] table]
      (EntryStyle.line.put [] part v false [])).dropSections [table, name])
  | some (.table .dotted _) =>
    let above := ((d.root.find? (sameGroup [table])).map fun e => e.2.1.take 1).getD []
    some { cleared with root := EntryStyle.line.put above part v false d.root }

end Document

end LintWatch.Toml
