/-!
# JSON values

A value is null, a truth value, a number, a text, an array or an object. An integer in the
signed or unsigned 64-bit range is kept exactly, any other number as the bits of the binary64
value it was read as. An object keeps its members in increasing order of their names, each name
once; `insertMember` keeps that order and replaces the value of a name already there.
-/

namespace LintWatch

/-- A JSON number. -/
inductive Json.Number where
  | int (value : Int)
  | real (bits : UInt64)
  deriving DecidableEq, Repr, Inhabited

/-- A JSON value. -/
inductive Json where
  | null
  | bool (value : Bool)
  | num (value : Json.Number)
  | str (value : String)
  | arr (items : List Json)
  | obj (members : List (String × Json))
  deriving Repr, Inhabited

namespace Json

/-- The members of an object, by increasing name. -/
abbrev Members := List (String × Json)

/-- The members with `name` bound to `value`, whatever it was bound to before. -/
def insertMember (name : String) (value : Json) : Members → Members
  | [] => [(name, value)]
  | (n, v) :: rest =>
    if name < n then (name, value) :: (n, v) :: rest
    else if name = n then (name, value) :: rest
    else (n, v) :: insertMember name value rest

/-- The members that a list of bindings leaves, the last of each name winning. -/
def membersOfList (bindings : Members) : Members :=
  bindings.foldl (fun members (n, v) => insertMember n v members) []

/-- The object that a list of bindings leaves, the last of each name winning. -/
def object (bindings : Members) : Json :=
  .obj (membersOfList bindings)

/-- The object of those bindings that hold a value. -/
def objectOfSome (bindings : List (String × Option Json)) : Json :=
  object (bindings.filterMap fun (n, v) => v.map (n, ·))

/-- The value of a member of `members`. -/
def lookupMember (name : String) (members : Members) : Option Json :=
  (members.find? (·.1 == name)).map (·.2)

/-- The value of a member, when `v` is an object that has it. -/
def get? (v : Json) (name : String) : Option Json :=
  match v with
  | .obj members => lookupMember name members
  | _ => none

/-- The text, when `v` is one. -/
def text? : Json → Option String
  | .str s => some s
  | _ => none

/-- The elements, when `v` is an array. -/
def items? : Json → Option (List Json)
  | .arr items => some items
  | _ => none

/-- The members, when `v` is an object. -/
def members? : Json → Option Members
  | .obj members => some members
  | _ => none

/-- The truth value, when `v` is one. -/
def bool? : Json → Option Bool
  | .bool b => some b
  | _ => none

/-- The integer, when `v` is one. -/
def int? : Json → Option Int
  | .num (.int n) => some n
  | _ => none

/-- The integer, when `v` is one that satisfies `low ≤ n ≤ high`. -/
def intIn? (low high : Int) (v : Json) : Option Int := do
  let n ← v.int?
  if low ≤ n ∧ n ≤ high then some n else none

/-- The number, when `v` is a natural number of at most 32 bits. -/
def nat32? (v : Json) : Option UInt32 :=
  (v.intIn? 0 0xFFFFFFFF).map fun n => UInt32.ofNat n.toNat

/-- The number, when `v` is a natural number of at most 64 bits. -/
def nat64? (v : Json) : Option UInt64 :=
  (v.intIn? 0 0xFFFFFFFFFFFFFFFF).map fun n => UInt64.ofNat n.toNat

/-- A natural number as a value. -/
def ofNat (n : Nat) : Json :=
  .num (.int n)

/-- A list of texts as a value. -/
def texts (ss : List String) : Json :=
  .arr (ss.map .str)

/-- A value, or null when there is none. -/
def orNull : Option Json → Json
  | some v => v
  | none => .null

end Json

end LintWatch
