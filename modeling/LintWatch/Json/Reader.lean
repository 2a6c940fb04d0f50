import LintWatch.Json.Tree

/-!
# Reading JSON values

`ofBytes?` reads one JSON value. It refuses a text that nests deeper than `depthLimit`, and a
text or number without a value anywhere in it. Of members with the same name the last one counts.
-/

namespace LintWatch.Json

/-- How deep arrays and objects may nest in a text that is read. -/
def depthLimit : Nat := 127

mutual

/-- The value of a tree in which at most `depth` brackets stand in each other. -/
def ofTree? (depth : Nat) : Tree → Option Json
  | .scalar s => ofScalar? s
  | .array items =>
    match depth with
    | 0 => none
    | depth + 1 => (ofTrees? depth items).map .arr
  | .object members =>
    match depth with
    | 0 => none
    | depth + 1 => (ofMembers? depth [] members).map .obj

/-- The values of trees. -/
def ofTrees? (depth : Nat) : List Tree → Option (List Json)
  | [] => some []
  | t :: ts =>
    match ofTree? depth t with
    | none => none
    | some v => (ofTrees? depth ts).map (v :: ·)

/-- The members `found` together with those of trees, the later ones winning. -/
def ofMembers? (depth : Nat) (found : Members) : List (Option String × Tree) → Option Members
  | [] => some found
  | (none, _) :: _ => none
  | (some name, t) :: ts =>
    match ofTree? depth t with
    | none => none
    | some v => ofMembers? depth (insertMember name v found) ts

end

/-- The value of a text that is one JSON value with blanks around it. -/
def ofBytes? (bytes : List UInt8) : Option Json :=
  (Tree.ofBytes? bytes).bind (ofTree? depthLimit)

end LintWatch.Json
