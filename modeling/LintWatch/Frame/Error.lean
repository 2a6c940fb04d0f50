import LintWatch.IoError

/-!
# Transport errors

What can go wrong between the host and a language server's pipes. A pipe that the other side has
closed is routine while a server is being stopped; everything else is not.
-/

namespace LintWatch

/-- Why no frame could be read or written. -/
inductive TransportError where
  | streamClosed (cause : IoError)
  | io (cause : IoError)
  | malformed (reason : String)
  | oversized (length limit : Nat)
  | json
  deriving DecidableEq, Repr

namespace TransportError

/-- The errors that the kinds of a closing pipe belong to. -/
def ofIo (e : IoError) : TransportError :=
  match e.kind with
  | .brokenPipe | .connectionReset | .connectionAborted | .notConnected | .unexpectedEof =>
    .streamClosed e
  | _ => .io e

/-- Whether the error is routine while a server is being stopped. -/
def isRoutine : TransportError → Bool
  | .streamClosed _ => true
  | _ => false

/-- The error as text. -/
def message : TransportError → String
  | .streamClosed _ => "language server stream closed"
  | .io _ => "I/O error on language server stream"
  | .malformed reason => "malformed frame: " ++ reason
  | .oversized length limit =>
    "Content-Length " ++ toString length ++ " exceeds maximum " ++ toString limit
  | .json => "invalid JSON-RPC payload"

end TransportError

end LintWatch
