import LintWatch.Record
import LintWatch.Toml.Reader

/-!
# What a TOML document means

A document means a table. A key may be bound once; a section defines its table once, and the
tables above it if they are new; a dotted key extends tables that have no section of their own; one
that came into being by dotted keys, or to which a dotted key has added a value, gets none later,
though there may be sections below it; an array of tables grows by a section at a time.
`Document.data?` gives the table, unless the document breaks one of these rules.
-/

namespace LintWatch.Toml

/-- A value of TOML without its layout. -/
inductive Data where
  | text (value : String)
  | integer (value : Int)
  | real
  | bool (value : Bool)
  | moment
  | list (items : List Data)
  | table (fields : List (String × Data))
  deriving Repr, Inhabited

/-- How a table came into being: by its own section, which is the one at `place` of the document,
by a section below it, or by dotted keys. One that a section below it implied is `extended` when a
dotted key has added a value to it. -/
inductive Origin where
  | section (place : Nat)
  | implied
  | extended
  | dotted
  deriving DecidableEq, Repr

namespace Origin

/-- The place of the section of a table. -/
def place? : Origin → Option Nat
  | .section place => some place
  | _ => none

/-- The origin of a table to which a dotted key adds a value. -/
def extend : Origin → Origin
  | .implied => .extended
  | o => o

end Origin

/-- A table under construction. The tables of an array are last first, each with the place of its
section. -/
inductive Node where
  | value (v : Data)
  | table (origin : Origin) (fields : List (String × Node))
  | tables (elements : List (Nat × List (String × Node)))
  deriving Repr, Inhabited

/-- The fields of a table under construction, in the order in which they came into being. -/
abbrev Fields := List (String × Node)

namespace Fields

/-- The fields with the one of this name replaced, or with it at the end. -/
def put (name : String) (v : Node) : Fields → Fields
  | [] => [(name, v)]
  | (n, old) :: rest => if n = name then (n, v) :: rest else (n, old) :: put name v rest

/-- The fields without the one of this name. -/
def erase (name : String) (fields : Fields) : Fields :=
  fields.filter (·.1 ≠ name)

end Fields

/-- Binds a key in a table. Dots do not lead into a table that has a section of its own. -/
def bind (v : Node) : List String → Fields → Option Fields
  | [], _ => none
  | [name], fields => if (fields.lookup name).isNone then some (fields ++ [(name, v)]) else none
  | name :: names, fields =>
    match fields.lookup name with
    | none => (bind v names []).map fun fs => fields ++ [(name, .table .dotted fs)]
    | some (.table (.section _) _) => none
    | some (.table o fs) => (bind v names fs).map fun fs =>
      fields.put name (.table (if names.length = 1 then o.extend else o) fs)
    | some _ => none

/-- Does something to the table at a path of sections; tables that are missing on the way come
into being. -/
def within (f : Fields → Option Fields) : List String → Fields → Option Fields
  | [], fields => f fields
  | name :: names, fields =>
    match fields.lookup name with
    | none => (within f names []).map fun fs => fields ++ [(name, .table .implied fs)]
    | some (.table o fs) => (within f names fs).map fun fs => fields.put name (.table o fs)
    | some (.tables ((place, last) :: before)) =>
      (within f names last).map fun fs => fields.put name (.tables ((place, fs) :: before))
    | some _ => none

/-- Begins the section of a table. One that sections below it implied moves behind its
neighbours. -/
def beginTable (place : Nat) (name : String) (fields : Fields) : Option Fields :=
  match fields.lookup name with
  | none => some (fields ++ [(name, .table (.section place) [])])
  | some (.table .implied fs) => some (fields.erase name ++ [(name, .table (.section place) fs)])
  | some _ => none

/-- Begins the section of one more table of an array. -/
def beginElement (place : Nat) (name : String) (fields : Fields) : Option Fields :=
  match fields.lookup name with
  | none => some (fields ++ [(name, .tables [(place, [])])])
  | some (.tables elements) => some (fields.put name (.tables ((place, []) :: elements)))
  | some _ => none

/-- Begins the section at a place. -/
def beginSection (place : Nat) (isArray : Bool) (path : List String) (fields : Fields) :
    Option Fields :=
  match path.getLast? with
  | none => none
  | some name =>
    within (if isArray then beginElement place name else beginTable place name) path.dropLast
      fields

mutual

/-- The value of a table under construction. -/
def Node.data : Node → Data
  | .value v => v
  | .table _ fields => .table (dataOfFields fields)
  | .tables elements => .list (dataOfElements elements).reverse

/-- The values of fields. -/
def dataOfFields : List (String × Node) → List (String × Data)
  | [] => []
  | (n, v) :: rest => (n, v.data) :: dataOfFields rest

/-- The values of the tables of an array. -/
def dataOfElements : List (Nat × List (String × Node)) → List Data
  | [] => []
  | (_, fields) :: rest => .table (dataOfFields fields) :: dataOfElements rest

end

/-- The value of a scalar. -/
def Scalar.data : Scalar → Data
  | .text s => .text s
  | .integer n => .integer n
  | .real => .real
  | .bool b => .bool b
  | .moment => .moment

mutual

/-- What a value means, unless an inline table in it breaks a rule. -/
def Value.data? : Value → Option Data
  | .scalar _ v => some v.data
  | .array items _ _ => (dataOfItems? items).map .list
  | .table entries _ _ => (bindEntries? [] entries).map fun fields => .table (dataOfFields fields)

/-- What the elements of an array mean. -/
def dataOfItems? : List (List Char × Value × List Char) → Option (List Data)
  | [] => some []
  | (_, v, _) :: rest => do return (← v.data?) :: (← dataOfItems? rest)

/-- The fields after the entries of an inline table. -/
def bindEntries? (fields : Fields) :
    List (List Char × List KeyPart × List Char × Value × List Char) → Option Fields
  | [] => some fields
  | (_, key, _, v, _) :: rest =>
    match v.data? with
    | none => none
    | some d =>
      match bind (.value d) (key.map KeyPart.name) fields with
      | none => none
      | some fields => bindEntries? fields rest

end

/-- The fields after a section and its place. -/
def bindSection (fields : Fields) (s : Section × Nat) : Option Fields := do
  let path := Key.names s.1.header.key
  let fields ← beginSection s.2 s.1.header.isArray path fields
  within (bindEntries? · s.1.entries) path fields

/-- The fields of the table that a document means. -/
def Document.fields? (d : Document) : Option Fields := do
  d.sections.zipIdx.foldlM bindSection (← bindEntries? [] d.root)

/-- The table that a document means. -/
def Document.data? (d : Document) : Option Data :=
  d.fields?.map fun fields => .table (dataOfFields fields)

namespace Data

/-- The integer, when it is a natural number of at most 32 bits. -/
def count? : Data → Option UInt32
  | .integer n => if 0 ≤ n ∧ n < UInt32.size then some (UInt32.ofNat n.toNat) else none
  | _ => none

/-- The text, when the value is one. -/
def text? : Data → Option String
  | .text s => some s
  | _ => none

/-- The truth value, when the value is one. -/
def bool? : Data → Option Bool
  | .bool b => some b
  | _ => none

/-- The elements, when the value is a list. -/
def items? : Data → Option (List Data)
  | .list items => some items
  | _ => none

/-- The word of an enumeration: a text, or a table with that one name and an empty value. -/
def word? : Data → Option String
  | .text s => some s
  | .table [(name, .table [])] => some name
  | .table [(name, .list [])] => some name
  | _ => none

/-- The fields of a record. A moment stands for a record without fields. -/
def record? (names : List String) : Data → Option (Record Data)
  | .table fields => some ⟨fields, true⟩
  | .list items => some ⟨names.zip items, false⟩
  | .moment => some ⟨[], true⟩
  | _ => none

/-- How values of TOML are read. None is null. -/
def source : Source Data :=
  ⟨fun _ => false, bool?, text?, count?, items?, word?, record?⟩

end Data

end LintWatch.Toml
