import LintWatch.Diagnostic.Basic

/-!
# The store of live diagnostics

The store holds, for each file with diagnostics, the diagnostics published for it last. Paths
with the same components are one file. A snapshot lists the files with an error first, and within
both groups by path.
-/

namespace LintWatch

/-- The diagnostics of each file that has some, a file once. -/
structure DiagnosticStore where
  files : List (Path × List Diagnostic)
  deriving DecidableEq, Repr, Inhabited

namespace DiagnosticStore

/-- A store without diagnostics. -/
def empty : DiagnosticStore :=
  ⟨[]⟩

/-- Replaces the diagnostics of `path` in `files`, where a file keeps the spelling it has. -/
def put (path : Path) (items : List Diagnostic) :
    List (Path × List Diagnostic) → List (Path × List Diagnostic)
  | [] => [(path, items)]
  | (p, old) :: rest =>
    if p.same path then (p, items) :: rest else (p, old) :: put path items rest

/-- The store after `items` have been published for `path`. No items clear the file. -/
def update (s : DiagnosticStore) (path : Path) (items : List Diagnostic) : DiagnosticStore :=
  if items = [] then ⟨s.files.filter fun f => !f.1.same path⟩
  else ⟨put path items s.files⟩

/-- The diagnostics of a file. -/
def lookup (s : DiagnosticStore) (path : Path) : List Diagnostic :=
  match s.files.find? fun f => f.1.same path with
  | some (_, items) => items
  | none => []

/-- Whether some of these diagnostics are errors. -/
def hasError (items : List Diagnostic) : Bool :=
  items.any fun d => d.severity.isError

/-- Whether a file comes before another in a snapshot, or may: files with errors come first, and
then paths decide. -/
def inOrder (a b : Path × List Diagnostic) : Bool :=
  match hasError a.2, hasError b.2 with
  | true, false => true
  | false, true => false
  | _, _ => !b.1.before a.1

/-- The files and their diagnostics, in the order they are shown. -/
def snapshot (s : DiagnosticStore) : List (Path × List Diagnostic) :=
  s.files.mergeSort inOrder

end DiagnosticStore

/-- The files and their diagnostics at one moment, in the order they are shown. -/
abbrev Snapshot := List (Path × List Diagnostic)

namespace Snapshot

/-- The number of diagnostics of one severity. -/
def count (s : Snapshot) (severity : Severity) : Nat :=
  (s.flatMap (·.2)).countP fun d => d.severity = severity

/-- The number of errors. -/
def errorCount (s : Snapshot) : Nat :=
  s.count .error

/-- The number of warnings. -/
def warningCount (s : Snapshot) : Nat :=
  s.count .warning

/-- The number of diagnostics. -/
def totalCount (s : Snapshot) : Nat :=
  (s.map (·.2.length)).foldl (· + ·) 0

/-- The counts in short, or nothing when there are no files. -/
def status (s : Snapshot) : String :=
  if s.isEmpty then ""
  else "E:" ++ toString s.errorCount ++ " W:" ++ toString s.warningCount

end Snapshot

end LintWatch
