import LintWatch.Json.Tree

/-!
# Records as they are written

A record is written with its fields by name, or in order. `Source` says how a format's values
are read as truth values, texts, counts, lists, words of an enumeration and records, so that one
definition reads a record from any format. A field that may be left out of a record by name still
has its place in a record in order, unless it is one of the last and has a default.
-/

namespace LintWatch

/-- The fields of a record, and whether they were written by name. -/
structure Record (α : Type) where
  fields : List (String × α)
  byName : Bool

/-- How the values of a format are read; a record is read for its field names, in order. -/
structure Source (α : Type) where
  isNull : α → Bool
  bool? : α → Option Bool
  text? : α → Option String
  count? : α → Option UInt32
  list? : α → Option (List α)
  word? : α → Option String
  record? : List String → α → Option (Record α)

namespace Record

variable {α β : Type}

/-- The value of a field that is there. -/
def find? (r : Record α) (name : String) : Option α :=
  r.fields.lookup name

/-- What a field that must be there is read as. -/
def required? (r : Record α) (name : String) (read : α → Option β) : Option β :=
  (r.find? name).bind read

/-- What a field is read as, whose absence means `default`. -/
def withDefault? (r : Record α) (name : String) (default : β) (read : α → Option β) : Option β :=
  match r.find? name with
  | some v => read v
  | none => some default

/-- What a field is read as that may be left out by name. -/
def optional? (r : Record α) (name : String) (read : α → Option (Option β)) :
    Option (Option β) :=
  match r.find? name with
  | some v => read v
  | none => if r.byName then some none else none

end Record

namespace Source

variable {α β : Type}

/-- A value that may be null. -/
def orNull? (source : Source α) (read : α → Option β) (v : α) : Option (Option β) :=
  if source.isNull v then some none else (read v).map some

/-- A list whose elements are all read. -/
def listOf? (source : Source α) (read : α → Option β) (v : α) : Option (List β) :=
  (source.list? v).bind (·.mapM read)

end Source

namespace Json

/-- The fields of a record. -/
def record? (names : List String) : Json → Option (Record Json)
  | .obj members => some ⟨members, true⟩
  | .arr items => if items.length ≤ names.length then some ⟨names.zip items, false⟩ else none
  | _ => none

/-- The word of an enumeration: a text, or an object with that one name and the value null. -/
def word? : Json → Option String
  | .str s => some s
  | .obj [(name, .null)] => some name
  | _ => none

/-- Whether a value is null. -/
def isNull : Json → Bool
  | .null => true
  | _ => false

/-- How JSON values are read. -/
def source : Source Json :=
  ⟨isNull, bool?, text?, nat32?, items?, word?, record?⟩

/-- The two elements of an array of two. -/
def pair? {α : Type} (read : Json → Option α) : Json → Option (α × α)
  | .arr [a, b] => do return (← read a, ← read b)
  | _ => none

namespace Tree

/-- The names of members, when each is a text and none of `names` occurs twice. -/
def fieldsOf? (names : List String) (members : List (Option String × Tree)) :
    Option (List (String × Tree)) := do
  let fields ← members.mapM fun (name, v) => name.map (·, v)
  if names.all fun n => (fields.countP (·.1 = n)) ≤ 1 then some fields else none

/-- The fields of a record. A field that is known is written once; others do not matter. -/
def record? (names : List String) : Tree → Option (Record Tree)
  | .object members => (fieldsOf? names members).map (⟨·, true⟩)
  | .array items => if items.length ≤ names.length then some ⟨names.zip items, false⟩ else none
  | .scalar _ => none

/-- The text, when the tree is one. -/
def text? : Tree → Option String
  | .scalar (.text s) => s
  | _ => none

/-- The value of a tree that is a scalar. -/
def scalarValue? : Tree → Option Json
  | .scalar s => ofScalar? s
  | _ => none

/-- Whether a tree is null. -/
def isNull : Tree → Bool
  | .scalar .null => true
  | _ => false

/-- The elements, when the tree is an array. -/
def items? : Tree → Option (List Tree)
  | .array items => some items
  | _ => none

/-- How JSON text is read without making values of what is skipped. -/
def source : Source Tree where
  isNull := isNull
  bool? t := t.scalarValue?.bind bool?
  text? := text?
  count? t := t.scalarValue?.bind nat32?
  list? := items?
  word? := text?
  record? := record?

end Tree

end Json

end LintWatch
