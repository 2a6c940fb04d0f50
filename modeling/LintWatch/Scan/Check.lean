import LintWatch.Execution
import LintWatch.Scan.Output
import LintWatch.Text.Blank

/-!
# Running one project check

A check runs the linter's executable with some arguments in a directory and collects what it
prints, up to a limit.
-/

namespace LintWatch.Scan

open LintWatch.Execution (Invocation)

/-- The arguments of a check of `root`. -/
def checkArguments (flags : List String) (root : Path) : List String :=
  ["check", "--quiet", "--output-format=json"] ++ flags ++ [root.toText]

/-- What a check printed and how it ended; there is no exit code when a signal ended it. -/
structure CheckOutput where
  stdout : List UInt8
  stderr : List UInt8
  exitCode : Option Int
  isTruncated : Bool
  deriving DecidableEq, Repr

/-- Why the check of a root yields no findings. -/
inductive CheckError where
  | spawn (executable : Path) (cause : IoError)
  | stdioUnavailable (name : String)
  | wait (cause : IoError)
  | timedOut (seconds : Nat)
  | stderr (text : String)
  | badOutput
  deriving DecidableEq, Repr

/-- The error as text. -/
def CheckError.message : CheckError → String
  | .spawn executable _ => "failed to spawn " ++ executable.toText
  | .stdioUnavailable name => "failed to capture " ++ name ++ " of ruff check"
  | .wait _ => "failed waiting for ruff check"
  | .timedOut seconds => "ruff check timed out after " ++ toString seconds ++ "s"
  | .stderr text => "ruff check wrote to stderr: " ++ text
  | .badOutput => "ruff check output is not valid JSON"

/-- The limits of a check: the milliseconds that it may take, and the bytes kept of its
output. -/
structure CheckLimits where
  milliseconds : Nat
  stdout : Nat
  stderr : Nat
  deriving DecidableEq, Repr

/-- The limits of every check of a project. -/
def CheckLimits.standard : CheckLimits :=
  ⟨100000, 100 * 1024 * 1024, 64 * 1024⟩

/-- What comes of a check, given what the program does or why it did not start. A program that
is not over in time, its output closed, is killed. -/
def collect (limits : CheckLimits) (executable : Path) :
    Except IoError Execution.Run → Except CheckError CheckOutput
  | .error cause => .error (.spawn executable cause)
  | .ok run =>
    if run.endsWithin limits.milliseconds then
      let (stdout, isTruncated) := capture limits.stdout [run.stdout]
      .ok ⟨stdout, (capture limits.stderr [run.stderr]).1, run.outcome.bind (·.code?), isTruncated⟩
    else .error (.timedOut (limits.milliseconds / 1000))

end LintWatch.Scan
