import LintWatch.Frame.Writer
import LintWatch.Execution
import LintWatch.Server.Message

/-!
# A linter that plays a script

A scripted linter stands in for the real one when the host is rehearsed. For each root it has a
run of a check ready; as a server it reacts to each message with the actions that its script lists
for the message's method, and without any to the messages that every server knows.
-/

namespace LintWatch.Rehearsal

/-- Something that a scripted server does. -/
inductive Action where
  | send (frame : Json)
  | reply (result : Json)
  | replyError (error : Json)
  | write (bytes : List UInt8)
  | closeOutput
  | closeInput
  | hang
  | exit (n : Int)
  | signal (number : Nat)
  deriving Inhabited

/-- The actions of a server for each kind of message. -/
abbrev Script := List (String × List Action)

/-- A linter that plays a script: the runs of its checks by their last argument, and the scripts of
the servers that it is started as, one after the other. The last script is played again. -/
structure Linter where
  checks : List (String × Execution.Run)
  servers : List Script
  deriving Inhabited

namespace Linter

/-- The run of a check with these arguments. -/
def check (l : Linter) (arguments : List String) : Execution.Run :=
  ((l.checks.lookup (arguments.getLast?.getD "")).orElse fun _ => l.checks.lookup "*").getD
    (.exit 0)

/-- The script of the server that is started after `before` others. -/
def script (l : Linter) (before : Nat) : Script :=
  ((l.servers[before]?).orElse fun _ => l.servers.getLast?).getD []

end Linter

/-- A server that plays a script. -/
structure Player where
  script : Script
  /-- The messages it has read, the last one first. -/
  read : List Json
  /-- The messages that wait for it. -/
  inbox : List Json
  /-- Whether no more messages will come. -/
  isInputOver : Bool
  hasInput : Bool
  hasOutput : Bool
  isHanging : Bool
  /-- What it has written and nobody has read. -/
  written : List UInt8
  outcome : Option Execution.Outcome

namespace Player

/-- What a message is called in scripts. -/
def kind (message : Json) : String :=
  ((message.get? "method").bind Json.text?).getD "response"

variable (p : Player)

/-- Whether it can still do something. -/
def isActive : Bool :=
  p.outcome.isNone && !p.isHanging

/-- Writes bytes, if its output is open. -/
def put (bytes : List UInt8) : Player :=
  if p.hasOutput then { p with written := p.written ++ bytes } else p

/-- Does one thing, in answer to a message with this identity. -/
def act (id : Json) (a : Action) : Player :=
  if !p.isActive then p
  else
    match a with
    | .send frame => p.put (Frame.ofJson frame)
    | .reply result => p.put (Frame.ofJson (Server.answer id "result" result))
    | .replyError error => p.put (Frame.ofJson (Server.answer id "error" error))
    | .write bytes => p.put bytes
    | .closeOutput => { p with hasOutput := false }
    | .closeInput => { p with hasInput := false }
    | .hang => { p with isHanging := true }
    | .exit n => { p with outcome := some (.ofExit n) }
    | .signal number => { p with outcome := some (.signal number) }

/-- What every server does on a message. -/
def usual (kind : String) : List Action :=
  match kind with
  | "initialize" => [.reply (.object [("capabilities", .object [])])]
  | "shutdown" => [.reply .null]
  | "exit" => [.exit 0]
  | _ => []

/-- The actions for the message of this kind that is the `count`-th one. -/
def actions (kind : String) (count : Nat) : List Action :=
  ((p.script.lookup (kind ++ "#" ++ toString count)).orElse fun _ => p.script.lookup kind).getD
    (usual kind)

/-- The server at its start. -/
def start (script : Script) : Player :=
  ((script.lookup "start").getD []).foldl (act · .null)
    ⟨script, [], [], false, true, true, false, [], none⟩

/-- Reads one message and reacts to it. -/
def readMessage (message : Json) : Player :=
  let k := kind message
  let p := { p with read := message :: p.read }
  (p.actions k (p.read.countP (kind · = k))).foldl (act · ((message.get? "id").getD .null)) p

/-- Reads the messages that wait, as long as it can; at the end of its input it exits. -/
def readAll (p : Player) : (inbox : List Json) → Player
  | [] =>
    let p := { p with inbox := [] }
    if p.isActive && p.hasInput && p.isInputOver then { p with outcome := some (.ofExit 0) } else p
  | message :: rest =>
    if p.isActive && p.hasInput then readAll (p.readMessage message) rest
    else { p with inbox := message :: rest }

/-- Takes a message in; the way may be closed. -/
def deliver? (message : Json) : Option Player :=
  if p.outcome.isSome || !p.hasInput then none
  else some { p with inbox := p.inbox ++ [message] }

end Player

end LintWatch.Rehearsal
