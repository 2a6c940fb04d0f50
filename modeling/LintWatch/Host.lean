import LintWatch.Report
import LintWatch.Scan.Scanner
import LintWatch.Server.Supervisor
import LintWatch.Settings.File

/-!
# The host

The host ties the supervisor of the language servers, the scanner and the user's commands
together. What the world does in between, such as finding an executable or starting a server, is
handed to each operation as its outcome; what the operation tells the user comes back as notices.
The settings of the host, of the scanner and of the supervisor are the same between operations.
-/

namespace LintWatch

open Server (Supervisor Session ServerId EventQueue)
open Scan (Scanner)

/-- What comes of starting a server. A silent one never answers the first request. -/
inductive Launch where
  | running (session : Session)
  | failed (error : Server.Error)
  | silent
  deriving DecidableEq, Repr

/-- The request that sets a server up. -/
def Server.setupMethod : String := "initialize"

/-- What the supervisor is told of a start that it waits for. -/
def Launch.outcome : Launch → Except Server.Error Session
  | .running session => .ok session
  | .failed e => .error e
  | .silent => .error (.timedOut Server.setupMethod)

/-- What the world does when a server is to be started: the executable that it finds, and what
comes of starting it. -/
structure Attempt where
  found : Option Path
  launch : ServerId → Path → Launch

/-- The host's state. -/
structure Host where
  settings : Settings
  configFile : Option Path
  /-- The linter's own configuration file. -/
  globalConfig : Option Path
  supervisor : Supervisor
  scanner : Scanner
  /-- Whether the user has been told that there is no linter. -/
  isMissingReported : Bool
  deriving Inhabited

namespace Host

/-- How many events a pump handles at most. -/
def eventBudget : Nat := 64

/-- The host before its first server is started. -/
def new (settings : Settings) (configFile globalConfig : Option Path) (directories : List Path) :
    Host :=
  ⟨settings, configFile, globalConfig, .new settings directories .standard,
    .ofSettings settings, false⟩

variable (h : Host)

/-- Takes what went wrong with servers and says what the user is told of it. -/
def report : Host × List Notice :=
  let (supervisor, errors) := h.supervisor.takeErrors
  ({ h with supervisor }, errors.filterMap Server.Error.notice?)

/-- Lets the scanner use the executable that the supervisor found. -/
def shareExecutable : Host :=
  { h with scanner := { h.scanner with executable := h.supervisor.executable } }

/-- Starts the first server. -/
def start (a : Attempt) : Host × List Notice :=
  let supervisor := (h.supervisor.start a.found fun id p => (a.launch id p).outcome).1
  { h with supervisor }.shareExecutable.report

/-- The supervisor after a restart: the servers are gone with what they published, and another
one is started. The host does not wait for one that stays silent. -/
def supervisorAfter (s : Supervisor) (a : Attempt) : Supervisor :=
  match s.release.clearDiagnostics.prepare a.found, a.found with
  | (s, some id), some executable =>
    match a.launch id executable with
    | .silent => s
    | launched => (s.settle id launched.outcome).1
  | (s, _), _ => s

/-- Restarts the server. -/
def restart (a : Attempt) : Host × List Notice :=
  let supervisor := supervisorAfter h.supervisor a
  let isMissingReported := h.isMissingReported && supervisor.executable.isNone
  { h with supervisor, isMissingReported }.shareExecutable.report

/-- The host with other settings. -/
def withSettings (settings : Settings) : Host :=
  { h with
    settings
    scanner := { h.scanner with settings }
    supervisor := { h.supervisor with settings } }

/-- The host with `noqa` comments respected or not. -/
def withUseNoqa (value : Bool) : Host :=
  h.withSettings (h.settings.withUseNoqa value)

/-- What the user is told after a toggle. -/
def toggleNotice (respectsNoqa : Bool) : Notice :=
  .plain .info
    (if respectsNoqa then "noqa comments are respected" else "noqa comments are ignored")

/-- What comes of turning the respect for `noqa` comments around. -/
structure Toggled where
  host : Host
  env : Environment
  notices : List Notice
  /-- Whether the value has been written into the configuration file. -/
  isSaved : Bool

/-- Turns the respect for `noqa` comments around. The value is written into the configuration file;
then all of the host takes it over and the server is restarted, `attempt` being what comes of
that. Nothing changes in the host if the value cannot be written; none stands for a crash. -/
def toggleNoqa? (env : Environment) (attempt : Environment → Attempt) : Option Toggled :=
  let value := !h.settings.respectsNoqa
  match h.configFile with
  | none => some ⟨h, env, [HostError.noConfigPath.notice], false⟩
  | some file =>
    match Settings.persistUseNoqa env file value with
    | .crashed => none
    | .failed env e => some ⟨h, env, [(HostError.config e).notice], false⟩
    | .saved env =>
      let (h, notices) := (h.withUseNoqa value).restart (attempt env)
      some ⟨h, env, notices ++ [toggleNotice value], true⟩

/-- Begins to check the project. Without a linter nothing is checked, and the user is told so
once. -/
def beginLint (roots : List Path) : Host × List Notice :=
  if h.scanner.executable.isNone then
    ({ h with isMissingReported := true },
      if h.isMissingReported then [] else [executableMissingNotice])
  else
    match h.scanner.begin? roots with
    | none => (h, [])
    | some scanner => ({ h with scanner }, [])

/-- Ends the check of the project and says what is published. -/
def endLint (r : Scan.Run) : Host × Option (List Diagnostic) :=
  let (scanner, published, _) := h.scanner.finish r
  ({ h with scanner }, published)

/-- Checks the project from beginning to end, each check being run by `check`: the notices, and what
is published. -/
def lint {m : Type → Type} [Monad m] (env : Environment)
    (check : Execution.Invocation → m (Except Scan.CheckError Scan.CheckOutput))
    (roots : List Path) : m (Host × List Notice × Option (List Diagnostic)) :=
  let (begun, notices) := h.beginLint roots
  match begun.scanner.current with
  | none => pure (begun, notices, none)
  | some r => do
    let (ended, published) := begun.endLint (← r.complete env check)
    return (ended, notices, published)

/-- The notice that there is no place for the linter's own configuration file. -/
def noGlobalConfigNotice : Notice :=
  ⟨.warning, "Cannot locate the global ruff config",
    some "No platform config directory is available."⟩

/-- What the user is told about opening the linter's own configuration file, given what comes of
opening a file. -/
def openGlobalConfig (opened : Path → Except IoError Unit) : List Notice :=
  match h.globalConfig with
  | none => [noGlobalConfigNotice]
  | some file =>
    match opened file with
    | .ok () => []
    | .error e => [(HostError.openFailed file e).notice]

/-- Tells the servers about a file: the messages to them, and what the user is told. `isOpen` says
to which servers the way is open. -/
def changeFile (file : Path) (text : String) (isOpen : ServerId → Bool) :
    Host × List (ServerId × Json) × List Notice :=
  let (supervisor, messages) := h.supervisor.changeFile file text isOpen
  let (h, notices) := { h with supervisor }.report
  (h, messages, notices)

/-- Handles some of the events that are ready, and says how many. -/
def pump (q : EventQueue) : Host × EventQueue × Nat × List Notice :=
  let (supervisor, q, count) := h.supervisor.poll eventBudget q
  let (h, notices) := { h with supervisor }.report
  (h, q, count, notices)

/-- Lets go of the servers and of everything that scans will publish. -/
def dispose : Host :=
  { h with scanner := h.scanner.dispose, supervisor := h.supervisor.release }

end Host

end LintWatch
