import LintWatch.Server.Message
import LintWatch.Server.Publication

/-!
# Frames from a language server

A frame answers a request of the host, asks something of the host, or tells it something; which
of these it is depends on whether it has a member `id`, a text `method`, and a `result` or
`error`. `Router.dispatch` says what a frame leads to. Every request is answered. Published
diagnostics go on when their file lies in a workspace root, judged with `.` and `..` resolved on
both sides.
-/

namespace LintWatch.Server

/-- A frame by what it is for. -/
inductive Incoming where
  | response (id : Nat) (body : Json)
  | request (id : Json) (method : String) (params : Option Json)
  | notification (method : String) (params : Option Json)
  deriving Repr

namespace Incoming

/-- What a frame is for, if it is for anything. -/
def ofFrame? (frame : Json) : Option Incoming :=
  let method := (frame.get? "method").bind Json.text?
  let answers := (frame.get? "result").isSome || (frame.get? "error").isSome
  match frame.get? "id", method with
  | some id, none =>
    if answers then id.nat64?.map fun n => .response n.toNat frame else none
  | some id, some method => some (.request id method (frame.get? "params"))
  | none, some method => some (.notification method (frame.get? "params"))
  | none, none => none

end Incoming

/-- The methods of servers that need no more than an acknowledgement. -/
def acknowledged : List String :=
  ["client/registerCapability", "client/unregisterCapability", "window/workDoneProgress/create"]

/-- The number of a server, which is never used for another one. -/
structure ServerId where
  number : Nat
  deriving DecidableEq, Repr

/-- The name of a server. -/
def ServerId.display (id : ServerId) : String :=
  "ruff#" ++ toString id.number

/-- What routing a frame needs to know. -/
structure Router where
  server : ServerId
  /-- The workspace roots with `.` and `..` resolved. -/
  roots : List Path
  settings : Settings
  chain : Chain

/-- What a frame leads to. -/
inductive Effect where
  /-- The waiter for this request gets the frame. -/
  | resolve (id : Nat) (body : Json)
  /-- A frame is sent to the server. -/
  | send (frame : Json)
  /-- The diagnostics of a file are replaced. -/
  | publish (path : Path) (items : List LintWatch.Diagnostic)
  /-- Something goes to the log. -/
  | warn (message : String)
  /-- Nothing happens. -/
  | ignore
  deriving Repr

namespace Router

/-- The answer to a request of the server. -/
def reply (r : Router) (id : Json) (method : String) (params : Option Json) : Json :=
  if method = "workspace/configuration" then
    answer id "result" (configurationResult params r.settings)
  else if acknowledged.contains method then answer id "result" .null
  else
    answer id "error" (.object [("code", .num (.int (-32601))),
      ("message", .str ("Method not found: " ++ method))])

/-- Whether a path lies in a workspace root. -/
def covers (r : Router) (path : Path) : Bool :=
  r.roots.any fun root => path.normalize.startsWith root

/-- What published diagnostics lead to. -/
def publish (r : Router) (p : Publication) : Effect :=
  let p := r.chain.apply p
  match FileUri.path? p.uri with
  | none => .ignore
  | some path =>
    if r.covers path then .publish path (p.diagnostics.map (Diagnostic.shown path))
    else
      .warn (r.server.display ++ " reported diagnostics for path outside workspace: "
        ++ path.toText)

/-- What a notification leads to. -/
def notify (r : Router) (method : String) (params : Option Json) : Effect :=
  if method = "textDocument/publishDiagnostics" then
    match params.bind Publication.ofJson? with
    | some p => r.publish p
    | none => .ignore
  else .ignore

/-- What a frame leads to. -/
def dispatch (r : Router) (frame : Json) : Effect :=
  match Incoming.ofFrame? frame with
  | none => .ignore
  | some (.response id body) => .resolve id body
  | some (.request id method params) => .send (r.reply id method params)
  | some (.notification method params) => r.notify method params

end Router

/-- The requests that wait for an answer. -/
abbrev Pending := List Nat

/-- The requests that still wait after an effect, and the answer that one of them got. -/
def Pending.settle (waiting : Pending) : Effect → Pending × Option (Nat × Json)
  | .resolve id body =>
    if waiting.contains id then (waiting.filter (· ≠ id), some (id, body)) else (waiting, none)
  | _ => (waiting, none)

end LintWatch.Server
