import LintWatch.Frame.Reader
import LintWatch.Server.Event

/-!
# Reading what a server writes

Bytes arrive from a server in pieces of any size. Every frame that is complete is routed; the rest
waits for more. Reading stops at the end of the stream and at the first failure, and then no
request is answered any more.
-/

namespace LintWatch.Server

/-- What the host keeps for each server to read from it: how frames are routed, the requests
without an answer, the answers that nobody has taken yet, the bytes that make up no frame yet,
and whether it still reads and still writes. -/
structure Connection where
  router : Router
  waiting : Pending
  answers : List (Nat × Json)
  arrived : List UInt8
  isReading : Bool
  isWriting : Bool

namespace Connection

/-- A connection over which nothing has come yet. -/
def ofRouter (router : Router) : Connection :=
  ⟨router, [], [], [], true, true⟩

/-- What reading says when more bytes are still to come. -/
def unfinished : IoError :=
  .bare .wouldBlock

/-- What comes of reading: events for the supervisor and frames for the server. -/
structure Result where
  events : List Event
  replies : List Json

/-- Nothing comes of it. -/
def Result.none : Result := ⟨[], []⟩

/-- What comes of an effect. -/
def Result.ofEffect : Effect → Result
  | .publish path items => ⟨[.diagnostics path items], []⟩
  | .send frame => ⟨[], [frame]⟩
  | .resolve _ _ | .warn _ | .ignore => .none

/-- The results of two readings, one after the other. -/
def Result.append (r s : Result) : Result :=
  ⟨r.events ++ s.events, r.replies ++ s.replies⟩

variable (c : Connection)

/-- The connection once nothing more will be read. -/
def stopReading : Connection :=
  { c with isReading := false, waiting := [], arrived := [] }

/-- The connection after one frame. -/
def route (frame : Json) : Connection × Result :=
  let effect := c.router.dispatch frame
  let (waiting, answer) := c.waiting.settle effect
  ({ c with waiting, answers := c.answers ++ answer.toList }, .ofEffect effect)

/-- Reads the frames that have arrived, at most `limit`; `isClosed` says whether no more bytes
will come. -/
def readSome (isClosed : Bool) : (limit : Nat) → Connection → Connection × Result
  | 0, c => (c, .none)
  | limit + 1, c =>
    if !c.isReading then (c, .none)
    else
      match Frame.readFrame ⟨c.arrived, [], if isClosed then none else some unfinished⟩ with
      | (.frame v, rest) =>
        let (c, first) := { c with arrived := rest.bytes }.route v
        let (c, later) := readSome isClosed limit c
        (c, first.append later)
      | (.ended, _) => (c.stopReading, .none)
      | (.failed e, _) =>
        if e = .io unfinished then (c, .none)
        else (c.stopReading, ⟨[.transportFailed c.router.server e], []⟩)

/-- Takes in bytes from the server. -/
def receive (bytes : List UInt8) (isClosed : Bool) : Connection × Result :=
  if !c.isReading then (c, .none)
  else
    let c := { c with arrived := c.arrived ++ bytes }
    c.readSome isClosed (c.arrived.length + 1)

/-- Notes that a request waits for its answer. -/
def await (id : Nat) : Connection :=
  { c with waiting := c.waiting ++ [id] }

/-- The answer to a request, if it has come. -/
def answer? (id : Nat) : Option Json :=
  c.answers.lookup id

end Connection

end LintWatch.Server
