import LintWatch.IoError
import LintWatch.Path.Basic

/-!
# File trees

A file tree as a value: files with their bytes, directories, and links that stand for other
paths. A path is looked up from a directory of the tree, and links on the way are followed.
-/

namespace LintWatch

/-- What stands at a place of a file tree. -/
inductive FileEntry where
  | file (content : List UInt8) (executable : Bool)
  | directory
  | link (target : Path)
  deriving DecidableEq, Repr, Inhabited

/-- A place in a file tree: the names that lead there from the root. -/
abbrev Place := List (List UInt8)

/-- A file tree. The root is a directory, whether or not it has an entry. -/
structure FileTree where
  entries : List (Place × FileEntry)
  deriving Repr, Inhabited

namespace FileTree

variable (t : FileTree)

/-- The tree with nothing in it. -/
def empty : FileTree := ⟨[]⟩

/-- What stands at a place. -/
def entry? (place : Place) : Option FileEntry :=
  if place = [] then some .directory else t.entries.lookup place

/-- The tree with something else at a place. -/
def insert (place : Place) (e : FileEntry) : FileTree :=
  ⟨(place, e) :: t.entries.filter (·.1 ≠ place)⟩

/-- The tree with nothing at a place. -/
def erase (place : Place) : FileTree :=
  ⟨t.entries.filter (·.1 ≠ place)⟩

/-- The tree with directories at a place and on the way there, wherever nothing stands. -/
def withDirectories (place : Place) : FileTree :=
  (List.range (place.length + 1)).foldl (fun t n =>
    if (t.entry? (place.take n)).isSome then t else t.insert (place.take n) .directory) t

/-- The tree with a file at a place, in directories that are made for it. -/
def withFile (place : Place) (content : List UInt8) (executable : Bool) : FileTree :=
  (t.withDirectories place.dropLast).insert place (.file content executable)

/-- What a path reads after too many links. -/
def tooManyLinks : IoError :=
  .ofSystem .other "Too many levels of symbolic links" 40

/-- How many links are followed for one path. -/
def linkLimit : Nat := 40

/-- Goes from a directory along the parts of a path. A link at the end is followed only if
`follow` says so. Only the last place may have nothing at it. -/
def walk (follow : Bool) : (links : Nat) → Place → (parts : List (List UInt8)) →
    Except IoError Place
  | _, place, [] => .ok place
  | links, place, part :: rest =>
    match t.entry? place with
    | none => .error .noSuchFile
    | some (.file _ _) => .error .notDirectory
    | some _ =>
      if part = [] ∨ part = [Path.dot] then walk follow links place rest
      else if part = [Path.dot, Path.dot] then walk follow links place.dropLast rest
      else
        match t.entry? (place ++ [part]) with
        | some (.link target) =>
          if rest = [] ∧ !follow then .ok (place ++ [part])
          else
            match links with
            | 0 => .error tooManyLinks
            | links + 1 =>
              walk follow links (if target.isAbsolute then [] else place)
                (Path.split target.bytes ++ rest)
        | _ => walk follow links (place ++ [part]) rest
  termination_by links _ parts => (links, parts.length)

/-- The place that a path leads to from a directory. -/
def locate (follow : Bool) (dir : Place) (p : Path) : Except IoError Place :=
  if p.bytes = [] then .error .noSuchFile
  else t.walk follow linkLimit (if p.isAbsolute then [] else dir) (Path.split p.bytes)

variable (dir : Place) (p : Path)

/-- The place of what a path names, links followed, and what stands there. -/
def find (dir : Place) (p : Path) : Except IoError (Place × FileEntry) := do
  let place ← t.locate true dir p
  match t.entry? place with
  | none => .error .noSuchFile
  | some e => .ok (place, e)

/-- Whether a path names something. -/
def isPresent : Bool :=
  (t.find dir p).isOk

/-- Whether a path names a file. -/
def isFile : Bool :=
  match t.find dir p with
  | .ok (_, .file _ _) => true
  | _ => false

/-- Whether a path names a directory. -/
def isDirectory : Bool :=
  match t.find dir p with
  | .ok (_, .directory) => true
  | _ => false

/-- Whether a path names a file that may be run. -/
def isExecutable : Bool :=
  match t.find dir p with
  | .ok (_, .file _ executable) => executable
  | _ => false

/-- The bytes of a file. -/
def read (dir : Place) (p : Path) : Except IoError (List UInt8) := do
  match ← t.find dir p with
  | (_, .file content _) => .ok content
  | _ => .error .isDirectory

/-- The text of a file. -/
def readText (dir : Place) (p : Path) : Except IoError String := do
  match Text.Utf8.decode? (← t.read dir p) with
  | some text => .ok text
  | none => .error .notText

/-- The path without the slashes at its end. -/
def withoutSlashes (p : Path) : Path :=
  ⟨(p.bytes.reverse.dropWhile (· = Path.slash)).reverse⟩

/-- Makes one directory, in one that is there. -/
def makeDirectory (dir : Place) (p : Path) : Except IoError FileTree := do
  let place ← t.locate false dir (if p.bytes.all (· = Path.slash) then p else withoutSlashes p)
  match t.entry? place with
  | some _ => .error .fileExists
  | none => .ok (t.insert place .directory)

/-- Makes a directory and those above it that are missing; `fuel` bounds how many. Those made
before something fails stay. -/
def makeDirectories : (fuel : Nat) → Place → Path → FileTree → FileTree × Except IoError Unit
  | 0, _, _, t => (t, .error .noSuchFile)
  | fuel + 1, dir, p, t =>
    let settle (t : FileTree) (failed : IoError) : FileTree × Except IoError Unit :=
      (t, if t.isDirectory dir p then .ok () else .error failed)
    if p.bytes = [] then (t, .ok ())
    else
      match t.makeDirectory dir p with
      | .ok t => (t, .ok ())
      | .error e =>
        if e.kind ≠ .notFound then settle t e
        else
          match p.parent? with
          | none => (t, .error ⟨.other, "failed to create whole tree"⟩)
          | some above =>
            match makeDirectories fuel dir above t with
            | (t, .error e) => (t, .error e)
            | (t, .ok ()) =>
              match t.makeDirectory dir p with
              | .ok t => (t, .ok ())
              | .error e => settle t e

/-- Makes a directory with all those above it. -/
def createDirectories : FileTree × Except IoError Unit :=
  makeDirectories (p.bytes.length + 1) dir p t

/-- Puts a new file in the place of what a path names, a link itself and not what it stands
for. -/
def replaceFile (dir : Place) (p : Path) (content : List UInt8) : Except IoError FileTree := do
  let place ← t.locate false dir p
  match t.entry? place with
  | some .directory => .error .isDirectory
  | _ => .ok (t.insert place (.file content false))

/-- The path from the root to a place. -/
def pathOf (place : Place) : Path :=
  ⟨Path.slash :: Path.unsplit place⟩

/-- The path of what a path names, without links and dots in it. -/
def canonicalize (dir : Place) (p : Path) : Except IoError Path := do
  return pathOf (← t.find dir p).1

end FileTree

end LintWatch
