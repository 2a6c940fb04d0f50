import LintWatch.Environment
import LintWatch.Finding
import LintWatch.Scan.Check
import LintWatch.Settings.Forms

/-!
# Scanning a project

A scan checks the roots of a project one after another and publishes all their findings as one
set. It works with the settings and the executable that were in force when it began. At most one
scan is under way at a time; a request for another one is dropped. A root that cannot be checked
contributes nothing and stops nothing.
-/

namespace LintWatch.Scan

open LintWatch.Execution (Invocation)

/-- Something worth a warning about a root. -/
structure Warning where
  message : String
  root : Path
  deriving DecidableEq, Repr

/-- A scan under way. -/
structure Run where
  executable : Option Path
  flags : List String
  showsSyntaxErrors : Bool
  /-- The roots that are still to be checked, the one being checked first. -/
  waiting : List Path
  /-- How many roots have been used. -/
  used : Nat
  /-- What has been found, in order. -/
  found : List Diagnostic
  /-- What the user is warned of, in order. -/
  warnings : List Warning
  deriving DecidableEq, Repr

namespace Run

/-- The scan of `roots` at its beginning. Without an executable no root is checked. -/
def start (s : Settings) (executable : Option Path) (roots : List Path) : Run :=
  ⟨executable, s.checkFlags, s.showsSyntaxErrors, if executable.isSome then roots else [], 0, [],
    []⟩

variable (env : Environment)

/-- The check of a root. -/
def invocation (executable : Path) (flags : List String) (root : Path) : Invocation :=
  ⟨executable, checkArguments flags root, env.checkDirectory root⟩

/-- The check that is to be run next, if any root waits. -/
def next? (r : Run) : Option Invocation :=
  match r.executable, r.waiting with
  | some executable, root :: _ => some (invocation env executable r.flags root)
  | _, _ => none

/-- The findings in what came of a check. -/
def findings : Except CheckError CheckOutput → Except CheckError (List Finding)
  | .error e => .error e
  | .ok output =>
    if output.stderr ≠ [] then
      .error (.stderr (Text.trimText (Text.Utf8.decodeLossy output.stderr)))
    else
      match Finding.parse? output.stdout with
      | none => .error .badOutput
      | some fs => .ok fs

/-- Whether what came of a check was cut, and is used nevertheless. -/
def isCut : Except CheckError CheckOutput → Bool
  | .ok output => output.stderr = [] && output.isTruncated
  | .error _ => false

/-- The diagnostics that a root contributes. -/
def contribution (showsSyntaxErrors : Bool) (root : Path)
    (result : Except CheckError CheckOutput) : List Diagnostic :=
  match findings result with
  | .error _ => []
  | .ok fs => fs.filterMap fun f =>
    f.diagnostic? ((env.checkDirectory root).join f.filename) showsSyntaxErrors

/-- What the user is warned of about a root. -/
def warningsAbout (root : Path) (result : Except CheckError CheckOutput) : List Warning :=
  (if isCut result then [⟨"ruff check output exceeded the size cap", root⟩] else []) ++
    match findings result with
    | .error e => [⟨"Skipping root: " ++ e.message, root⟩]
    | .ok _ => []

/-- The scan after the check of the root in front has come to a result. -/
def feed (r : Run) (result : Except CheckError CheckOutput) : Run :=
  match r.waiting with
  | [] => r
  | root :: rest =>
    { r with
      waiting := rest
      used := if (findings result).isOk then r.used + 1 else r.used
      found := r.found ++ contribution env r.showsSyntaxErrors root result
      warnings := r.warnings ++ warningsAbout root result }

/-- The scan after all its checks, each run by `check`. -/
def complete {m : Type → Type} [Monad m]
    (check : Invocation → m (Except CheckError CheckOutput)) (r : Run) : m Run :=
  r.waiting.foldlM (fun r _ =>
    match r.next? env with
    | none => pure r
    | some i => do return r.feed env (← check i)) r

end Run

/-- What came of a request to scan. -/
inductive Outcome where
  | completed (roots findings : Nat)
  | alreadyRunning
  deriving DecidableEq, Repr

/-- A scanner: what its scans work with, whether results are still wanted, and the scan under
way. -/
structure Scanner where
  settings : Settings
  executable : Option Path
  isDisposed : Bool
  current : Option Run
  deriving DecidableEq, Repr, Inhabited

namespace Scanner

/-- A scanner that has done nothing yet. -/
def ofSettings (settings : Settings) : Scanner :=
  ⟨settings, none, false, none⟩

variable (s : Scanner)

/-- Whether a scan is under way. -/
def isScanning : Bool :=
  s.current.isSome

/-- Begins a scan, unless one is under way. -/
def begin? (roots : List Path) : Option Scanner :=
  if s.isScanning then none
  else some { s with current := some (.start s.settings s.executable roots) }

/-- The check that the scan under way waits for. -/
def next? (env : Environment) : Option Invocation :=
  s.current.bind (·.next? env)

/-- Hands the result of a check to the scan under way. -/
def feed (env : Environment) (result : Except CheckError CheckOutput) : Scanner :=
  { s with current := s.current.map (·.feed env result) }

/-- Gives up the scan under way. -/
def cancel : Scanner :=
  { s with current := none }

/-- Ends the scan under way: what is published, unless the scanner has been disposed of, and what
came of the scan. -/
def finish (r : Run) : Scanner × Option (List Diagnostic) × Outcome :=
  (s.cancel, if s.isDisposed then none else some r.found, .completed r.used r.found.length)

/-- A whole scan, each check being run by `check`: the scanner after it, what is published, and what
came of the request. -/
def scan {m : Type → Type} [Monad m] (env : Environment)
    (check : Invocation → m (Except CheckError CheckOutput)) (roots : List Path) :
    m (Scanner × Option (List Diagnostic) × Outcome) :=
  if s.isScanning then pure (s, none, .alreadyRunning)
  else do return s.finish (← (Run.start s.settings s.executable roots).complete env check)

/-- Lets the results of later scans go nowhere. -/
def dispose : Scanner :=
  { s with isDisposed := true }

end Scanner

end LintWatch.Scan
