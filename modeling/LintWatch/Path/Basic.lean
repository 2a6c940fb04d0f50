import LintWatch.Text.Utf8

/-!
# File paths

A path is a byte sequence whose parts stand between slashes. It means its components: the root,
`.`, `..` and names; repeated slashes, a slash at the end and a `.` anywhere but at the front of a
relative path mean nothing. Two paths are the same file name when their components agree, and
they are ordered by their components.
-/

namespace LintWatch

/-- A file path as it is spelled. -/
structure Path where
  bytes : List UInt8
  deriving DecidableEq, Repr, Inhabited

namespace Path

open LintWatch.Text

/-- The path that a text spells. -/
def ofString (s : String) : Path :=
  ⟨Utf8.encode s⟩

/-- The path as text, with `U+FFFD` where it is no text. -/
def toText (p : Path) : String :=
  Utf8.decodeLossy p.bytes

/-- The byte between the parts of a path. -/
def slash : UInt8 := 0x2F

/-- The byte `.`. -/
def dot : UInt8 := 0x2E

/-- A part of a path that has a meaning. -/
inductive Component where
  | root
  | current
  | parent
  | name (bytes : List UInt8)
  deriving DecidableEq, Repr

/-- The parts between slashes; there is always at least one. -/
def split : List UInt8 → List (List UInt8)
  | [] => [[]]
  | b :: rest =>
    match split rest with
    | [] => [[b]]
    | part :: parts => if b = slash then [] :: part :: parts else (b :: part) :: parts

/-- The parts with slashes between them. -/
def unsplit : List (List UInt8) → List UInt8
  | [] => []
  | [part] => part
  | part :: parts => part ++ slash :: unsplit parts

/-- The component that a part means, unless it means nothing. -/
def componentOfPart? (part : List UInt8) : Option Component :=
  if part = [] ∨ part = [dot] then none
  else if part = [dot, dot] then some .parent
  else some (.name part)

/-- Whether a path starts at the root. -/
def isAbsolute (p : Path) : Bool :=
  p.bytes.head? = some slash

/-- What the front of a path means by itself: the root, or a `.` that starts a relative path. -/
def front (p : Path) : List Component :=
  if p.isAbsolute then [.root]
  else if (split p.bytes).head? = some [dot] then [.current]
  else []

/-- The components of a path, in order. -/
def components (p : Path) : List Component :=
  p.front ++ (split p.bytes).filterMap componentOfPart?

/-- Whether two paths have the same components. -/
def same (p q : Path) : Bool :=
  p.components = q.components

/-- Paths are the same file name exactly if they have the same components. -/
@[simp]
theorem same_iff {p q : Path} : p.same q = true ↔ p.components = q.components := by
  simp [same]

/-- The bytes of a component. -/
def Component.bytes : Component → List UInt8
  | .root => [slash]
  | .current => [dot]
  | .parent => [dot, dot]
  | .name bytes => bytes

/-- `child` as seen from the directory `base`; an absolute path stays what it is. -/
def join (base child : Path) : Path :=
  if child.isAbsolute then child
  else if base.bytes = [] ∨ base.bytes.getLast? = some slash then ⟨base.bytes ++ child.bytes⟩
  else ⟨base.bytes ++ slash :: child.bytes⟩

/-- The path that spells these components. -/
def ofComponents (cs : List Component) : Path :=
  cs.foldl (fun p c => p.join ⟨c.bytes⟩) ⟨[]⟩

/-- The name at the end of a path. -/
def fileName? (p : Path) : Option (List UInt8) :=
  match p.components.getLast? with
  | some (.name bytes) => some bytes
  | _ => none

/-- What follows the last dot of the name at the end of a path, unless that dot starts it. -/
def extension? (p : Path) : Option (List UInt8) := do
  let name ← p.fileName?
  let tail := name.reverse.takeWhile (· ≠ dot)
  if tail.length + 1 < name.length then some tail.reverse else none

/-- The parts, last first, from the last that means something. -/
def dropMeaningless (parts : List (List UInt8)) : List (List UInt8) :=
  parts.dropWhile fun part => componentOfPart? part = none

/-- The spelling of the parts `parts`, last first, of the path `p`. -/
def spelling (p : Path) (parts : List (List UInt8)) : Path :=
  let kept := (dropMeaningless parts).reverse
  if kept = [] then ⟨(p.front.map Component.bytes).flatten⟩ else ⟨unsplit kept⟩

/-- The path without its last component; a path that is the root or empty has none. -/
def parent? (p : Path) : Option Path :=
  match p.components.getLast? with
  | none | some .root => none
  | some _ =>
    match dropMeaningless (split p.bytes).reverse with
    | [] => some ⟨[]⟩
    | _ :: parts => some (spelling p parts)

/-- Whether the components of `base` are the first ones of `p`. -/
def startsWith (p base : Path) : Bool :=
  base.components.isPrefixOf p.components

/-- A path starts with another exactly if its components do. -/
theorem startsWith_iff {p base : Path} :
    p.startsWith base = true ↔ base.components <+: p.components := by
  simp [startsWith]

/-- The place of a kind of component in the order of components. -/
def Component.rank : Component → Nat
  | .root => 0
  | .current => 1
  | .parent => 2
  | .name _ => 3

/-- Whether a component comes before another: by kind, and names by their bytes. -/
def Component.before : Component → Component → Bool
  | .name a, .name b => decide (a < b)
  | a, b => a.rank < b.rank

/-- Whether a list of components comes before another, at the first place where they differ. -/
def componentsBefore : List Component → List Component → Bool
  | [], [] => false
  | [], _ :: _ => true
  | _ :: _, [] => false
  | a :: as, b :: bs => if a = b then componentsBefore as bs else a.before b

/-- Whether a path comes before another in the order of their components. -/
def before (p q : Path) : Bool :=
  componentsBefore p.components q.components

/-- The path with `.` dropped and each `..` taking away the component in front of it, the root
included. -/
def normalize (p : Path) : Path :=
  ofComponents (p.components.foldl (fun out c =>
    match c with
    | .parent => out.dropLast
    | .current => out
    | c => out ++ [c]) [])

end Path

end LintWatch
