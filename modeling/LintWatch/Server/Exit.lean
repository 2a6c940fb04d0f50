import LintWatch.Execution

/-!
# How a server ends

A server exits with a code or is killed by a signal; waiting for it may also fail. When the host
has asked a server to stop, every end is the requested one; of the others only a code that is not
zero deserves the user's attention.
-/

namespace LintWatch.Server

/-- How a server ended. -/
inductive Ending where
  | requested
  | clean
  | failed (code : Int)
  | signaled
  | lost (text : String)
  deriving DecidableEq, Repr

namespace Ending

/-- The ending of a process with this exit code; without one a signal killed it. -/
def classify (code : Option Int) (requested : Bool) : Ending :=
  if requested then .requested
  else
    match code with
    | none => .signaled
    | some 0 => .clean
    | some n => .failed n

/-- The ending of a process for which waiting failed. -/
def ofWaitError (text : String) (requested : Bool) : Ending :=
  if requested then .requested else .lost text

/-- The ending of a process with this outcome. -/
def ofOutcome (o : Execution.Outcome) (requested : Bool) : Ending :=
  classify o.code? requested

/-- Whether the user should hear of it. -/
def isUnexpected : Ending → Bool
  | .failed _ => true
  | _ => false

end Ending

end LintWatch.Server
