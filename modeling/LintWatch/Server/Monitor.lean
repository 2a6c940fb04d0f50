import LintWatch.Server.Exit

/-!
# Watching over the end of a server

A monitor waits for the end of a server, or for the word that the host stops it; then it waits for
the end only. Which of the two comes first decides what kind of end it reports.
-/

namespace LintWatch.Server

/-- How far a monitor has come. -/
inductive Monitor where
  | watching
  | stopping
  | reported (ending : Ending)
  deriving DecidableEq, Repr

namespace Monitor

/-- What a monitor notices: the end of the process or a failure to wait for it, and the word that
the host stops the server. -/
inductive Notice where
  | ended (outcome : Execution.Outcome)
  | lost (text : String)
  | stop
  deriving DecidableEq, Repr

/-- What a monitor does on noticing something. -/
def step : Monitor → Notice → Monitor
  | .watching, .ended o => .reported (.ofOutcome o false)
  | .watching, .lost text => .reported (.ofWaitError text false)
  | .watching, .stop => .stopping
  | .stopping, .ended o => .reported (.ofOutcome o true)
  | .stopping, .lost text => .reported (.ofWaitError text true)
  | .stopping, .stop => .stopping
  | .reported ending, _ => .reported ending

/-- What a monitor has come to after noticing several things. -/
def run (m : Monitor) (notices : List Notice) : Monitor :=
  notices.foldl step m

/-- The end that a monitor has reported. -/
def ending? : Monitor → Option Ending
  | .reported ending => some ending
  | _ => none

end Monitor

end LintWatch.Server
