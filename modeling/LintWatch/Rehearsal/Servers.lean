import LintWatch.Host
import LintWatch.Rehearsal.Site

/-!
# Servers in a rehearsal

Starting a server on a site, handing it messages and stopping it, as the host does it. A server
that fails to start is killed. One that is stopped is asked first; a yes lets the host tell it to
exit, and whatever it does then counts as requested.
-/

namespace LintWatch.Rehearsal.Site

open Server (Event Session ServerId Supervisor)

variable (s : Site)

/-- The player of a program that is started as a server. -/
def player (program : Program) (dir : Place) (i : Execution.Invocation) : Player :=
  match program with
  | .linter => .start (s.linter.script s.started)
  | _ =>
    let run := s.otherRun program dir i
    let ending : Action := match run.outcome with
      | some (.code n) => .exit n
      | some (.signal n) => .signal n
      | none => .hang
    .start [("start", [.write run.stdout, ending])]

/-- The site with a server of this number on it. -/
def put (id : ServerId) (r : Running) : Site :=
  { s with running := (id, r) :: s.running.filter (·.1 ≠ id) }

/-- The site without a server. -/
def remove (id : ServerId) (r : Running) : Site :=
  { s with
    running := s.running.filter (·.1 ≠ id)
    gone := s.gone ++ (r.before.map (·, r.player.read.reverse)).toList }

/-- Kills a server whose start has failed. -/
def abandon (id : ServerId) (r : Running) : Site :=
  let (r, events) := r.kill
  (s.post events).remove id r

/-- The reason that a server gives for refusing to be set up. -/
def refusal (error : Json) : String :=
  ((error.get? "message").bind Json.text?).getD "unknown error"

/-- Sets a server up, once it runs. -/
def setUp (sup : Supervisor) (id : ServerId) (r : Running) : Launch × Site :=
  match sup.directories.mapM Server.Folder.ofPath with
  | .error e => (.failed (.setup e.message), s.abandon id r)
  | .ok folders =>
    let params := Server.setupParams 0 folders sup.settings.initializationOptions
    let (session, request, message) := Session.new.ask Server.setupMethod (some params)
    let (r, events) := Running.tell { r with connection := r.connection.await request } message
    let s := s.post events
    match r.connection.answer? request with
    | none =>
      (if r.connection.isReading then .silent else .failed .channelClosed, s.abandon id r)
    | some answer =>
      match answer.get? "error" with
      | some error => (.failed (.setup (refusal error)), s.abandon id r)
      | none =>
        if !r.connection.isWriting then (.failed .channelClosed, s.abandon id r)
        else
          let (r, events) := r.tell (Server.notification "initialized" (some (.object [])))
          (.running session, (s.post events).put id r)

/-- Starts a server for the supervisor. -/
def launch (sup : Supervisor) (id : ServerId) (executable : Path) : Launch × Site :=
  let i : Execution.Invocation := ⟨executable, ["server"], sup.directories.headD ⟨[]⟩⟩
  match s.resolve false i with
  | .error e => (.failed (.spawn executable e), s)
  | .ok (program, dir) =>
    let router : Server.Router :=
      ⟨id, sup.directories.map Path.normalize, sup.settings, sup.chain⟩
    let isLinter : Bool := program = .linter
    let r : Running :=
      ⟨if isLinter then some s.started else none, s.player program dir i, .ofRouter router,
        .watching⟩
    setUp { s with started := if isLinter then s.started + 1 else s.started } sup id r

/-- Whether the way to a server is open. -/
def isOpen (id : ServerId) : Bool :=
  (s.running.lookup id).any (·.connection.isWriting)

/-- Hands a message to a server. -/
def tell (id : ServerId) (message : Json) : Site :=
  match s.running.lookup id with
  | none => s
  | some r =>
    let (r, events) := r.tell message
    (s.post events).put id r

/-- Hands messages to servers, one after the other. -/
def tellAll (messages : List (ServerId × Json)) : Site :=
  messages.foldl (fun s (id, message) => s.tell id message) s

/-- Stops a server. -/
def stop (id : ServerId) (session : Session) : Site :=
  match s.running.lookup id with
  | none => s
  | some r =>
    let (_, request, message) := session.ask "shutdown" none
    let asked := { r with connection := r.connection.await request }
    let (told, events) := (asked.push message).settle Running.rounds
    let s := s.post events
    let (r, events) := match told.connection.answer? request with
      | some answer =>
        if (answer.get? "error").isSome then told.finish
        else (told.push (Server.notification "exit" none)).finish
      | none =>
        let watched := told.watch
        let (r, events) := watched.finish
        (r, told.endEvent watched ++ events)
    (s.post events).remove id r

/-- Stops the servers of a supervisor. -/
def stopAll (sup : Supervisor) : Site :=
  sup.servers.foldl (fun s (id, session) => s.stop id session) s

/-- Does what the host needs for a start: looks for the executable and starts a server with it. -/
def attempt (sup : Supervisor) : Attempt × Site :=
  match s.env.linter? sup.settings.executablePath with
  | none => (⟨none, fun _ _ => .silent⟩, s)
  | some executable =>
    let (launched, s) := s.launch sup ⟨sup.nextServer⟩ executable
    (⟨some executable, fun _ _ => launched⟩, s)

/-- Stops the servers of the supervisor and does what the host needs for another start. -/
def attemptAgain (sup : Supervisor) : Attempt × Site :=
  (s.stopAll sup).attempt sup.release.clearDiagnostics

/-- Starts a server for the supervisor. -/
def startServer (sup : Supervisor) : Option ServerId × Supervisor × Site :=
  let (a, s) := s.attempt sup
  let (sup, id) := sup.start a.found fun id p => (a.launch id p).outcome
  (id, sup, s)

/-- Stops the servers of the supervisor and starts another one. -/
def restartServer (sup : Supervisor) : Option ServerId × Supervisor × Site :=
  (s.stopAll sup).startServer sup.release.clearDiagnostics

/-- Handles the events that are ready, at most `budget`, and says how many. -/
def poll (sup : Supervisor) (budget : Nat) : Nat × Supervisor × Site :=
  let (sup, queue, count) := sup.poll budget s.queue
  (count, sup, { s with queue := queue.advance })

/-- Handles events until so many have been handled or none is ready, and says how many have been;
`fuel` bounds the rounds. -/
def pollFor (count budget : Nat) : (fuel : Nat) → Supervisor → Site → Nat × Supervisor × Site
  | 0, sup, s => (0, sup, s)
  | fuel + 1, sup, s =>
    let (handled, sup, s) := s.poll sup budget
    if handled = 0 ∨ count ≤ handled then (handled, sup, s)
    else
      let (more, sup, s) := pollFor (count - handled) budget fuel sup s
      (handled + more, sup, s)

/-- Tells the servers about a file. -/
def changeFile (sup : Supervisor) (file : Path) (text : String) : Supervisor × Site :=
  let (sup, messages) := sup.changeFile file text s.isOpen
  (sup, s.tellAll messages)

/-- What each server has read, in the order in which the servers were started. -/
def received : List (List Json) :=
  let all := s.gone ++ s.running.filterMap fun (_, r) =>
    r.before.map (·, r.player.read.reverse)
  (List.range s.started).map fun n => (all.lookup n).getD []

end LintWatch.Rehearsal.Site
