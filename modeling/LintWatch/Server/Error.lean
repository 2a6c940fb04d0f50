import LintWatch.Frame.Error
import LintWatch.Server.Dispatch

/-!
# Server errors

What can go wrong with a language server, from looking for its executable to its end. A missing
executable is noticed elsewhere, and errors that stopping a server brings about are routine.
-/

namespace LintWatch.Server

/-- Why a server is not there, or no longer. -/
inductive Error where
  | executableNotFound (searched : Option Path)
  | spawn (executable : Path) (cause : IoError)
  | setup (reason : String)
  | timedOut (method : String)
  | channelClosed
  | exited (server : ServerId) (code : Int)
  | transport (cause : TransportError)
  deriving DecidableEq, Repr

namespace Error

/-- Whether stopping a server brings the error about. -/
def isRoutine : Error → Bool
  | .transport e => e.isRoutine
  | .channelClosed => true
  | _ => false

/-- Whether the executable itself is missing. -/
def isMissingExecutable : Error → Bool
  | .executableNotFound _ => true
  | .spawn _ cause => cause.kind = .notFound
  | _ => false

/-- The error as text. -/
def message : Error → String
  | .executableNotFound _ => "ruff executable not found"
  | .spawn executable _ => "failed to spawn " ++ executable.toText
  | .setup reason => "language server initialization failed: " ++ reason
  | .timedOut method => "request '" ++ method ++ "' timed out"
  | .channelClosed => "language server channel closed"
  | .exited server code =>
    server.display ++ " exited unexpectedly with code " ++ toString code
  | .transport e => e.message

end Error

end LintWatch.Server
