import LintWatch.Diagnostic.Store
import LintWatch.Environment
import LintWatch.Server.Error
import LintWatch.Server.Event
import LintWatch.Server.Session

/-!
# Supervising servers

The supervisor knows which servers run, what they have published and what went wrong. Starting a
server has two halves, with the server's own start between them: `prepare` notes the executable
and gives out a number, `settle` notes what came of the start. The end of a server takes it out;
when the last one is gone, its diagnostics go too.
-/

namespace LintWatch.Server

/-- What the supervisor knows. -/
structure Supervisor where
  settings : Settings
  /-- The directories that servers are set up for; there is always one. -/
  directories : List Path
  chain : Chain
  /-- The executable of the last start. -/
  executable : Option Path
  /-- Whether the last start found no executable, or one that was not there. -/
  isExecutableMissing : Bool
  servers : List (ServerId × Session)
  /-- The number of the next server. It goes up by one with each start, so a counter of 64 bits would
  come round to it again only after centuries of a start every nanosecond. -/
  nextServer : Nat
  diagnostics : DiagnosticStore
  /-- What went wrong and has not been reported yet. -/
  errors : List Error
  deriving Inhabited

namespace Supervisor

/-- The supervisor before the first start. -/
def new (settings : Settings) (directories : List Path) (chain : Chain) : Supervisor :=
  ⟨settings, directories, chain, none, false, [], 1, .empty, []⟩

variable (s : Supervisor)

/-- Whether any server runs. -/
def isRunning : Bool :=
  !s.servers.isEmpty

/-- The first half of a start, with the executable that was found. -/
def prepare (found : Option Path) : Supervisor × Option ServerId :=
  match found with
  | none => ({ s with executable := none, isExecutableMissing := true }, none)
  | some executable =>
    ({ s with
        executable := some executable
        isExecutableMissing := false
        nextServer := s.nextServer + 1 },
      some ⟨s.nextServer⟩)

/-- The second half of a start, with what came of it. -/
def settle (id : ServerId) (outcome : Except Error Session) : Supervisor × Option ServerId :=
  match outcome with
  | .ok session => ({ s with servers := s.servers ++ [(id, session)] }, some id)
  | .error e =>
    ({ s with
        isExecutableMissing := s.isExecutableMissing || e.isMissingExecutable
        errors := s.errors ++ [e] },
      none)

/-- A whole start; `launch` says what comes of starting an executable as a server. -/
def start (found : Option Path) (launch : ServerId → Path → Except Error Session) :
    Supervisor × Option ServerId :=
  match s.prepare found, found with
  | (s, some id), some executable => s.settle id (launch id executable)
  | (s, _), _ => (s, none)

/-- Gives up the servers, to be stopped. -/
def release : Supervisor :=
  { s with servers := [] }

/-- Forgets what servers have published. -/
def clearDiagnostics : Supervisor :=
  { s with diagnostics := .empty }

/-- Handles an event. -/
def handle : Event → Supervisor
  | .diagnostics path items => { s with diagnostics := s.diagnostics.update path items }
  | .transportFailed _ e => { s with errors := s.errors ++ [.transport e] }
  | .exited id ending =>
    let servers := s.servers.filter (·.1 ≠ id)
    { s with
      servers
      errors := match ending with
        | .failed code => s.errors ++ [.exited id code]
        | _ => s.errors
      diagnostics := if servers.isEmpty then .empty else s.diagnostics }

/-- Handles the events that are ready, at most `budget`, and says how many. -/
def poll (budget : Nat) (q : EventQueue) : Supervisor × EventQueue × Nat :=
  let (events, q) := q.take budget
  (events.foldl handle s, q, events.length)

/-- Takes the errors that have not been reported. -/
def takeErrors : Supervisor × List Error :=
  ({ s with errors := [] }, s.errors)

/-- Whether servers are told about a file, which goes by the end of its name. -/
def follows (file : Path) : Bool :=
  match file.extension? with
  | some bytes => bytes = Text.Utf8.encode "py" || bytes = Text.Utf8.encode "pyi"
  | none => false

/-- The URI under which servers hear of a file, when they hear of it. -/
def uri? (file : Path) : Option String :=
  if follows file && s.isRunning then FileUri.ofPath? file else none

/-- The messages for each server that carry a new text of the document. -/
def sendText (uri text : String) : Supervisor × List (ServerId × Json) :=
  let told := s.servers.map fun (id, session) => (id, session.sendText uri text)
  ({ s with servers := told.map fun (id, session, _) => (id, session) },
    told.map fun (id, _, message) => (id, message))

/-- Tells the servers about a file: what the supervisor knows then, and the messages. `isOpen` says
to which servers the way is open; a message to any other one is an error. -/
def changeFile (file : Path) (text : String) (isOpen : ServerId → Bool) :
    Supervisor × List (ServerId × Json) :=
  match s.uri? file with
  | none => (s, [])
  | some uri =>
    let (s, messages) := s.sendText uri text
    let lost := messages.filter fun m => !isOpen m.1
    ({ s with errors := s.errors ++ lost.map fun _ => .channelClosed }, messages)

end Supervisor

end LintWatch.Server
