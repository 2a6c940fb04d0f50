import LintWatch.Prompt
import LintWatch.Rehearsal.Hosting

/-!
# The program at a terminal

The whole program, rehearsed: it takes arguments and what is typed, and has written something and
changed its site when it ends. Notices go to the error stream, findings to the output. Without a
command among the arguments it reads commands line by line; while nobody types it handles events.
-/

namespace LintWatch.Rehearsal

open LintWatch.Text (Utf8.decode? Utf8.encode Utf8.fault?)

/-- What comes from the keyboard: bytes, or a pause until the output contains a text. -/
inductive Typed where
  | bytes (value : List UInt8)
  | pause (text : String)

/-- Why the program ends: it is done, or something failed. -/
inductive Finish where
  | done
  | failed (reason : String)
  deriving DecidableEq, Repr

/-- The exit code of the program. -/
def Finish.exitCode : Finish → Int
  | .done => 0
  | .failed _ => 1

/-- A host at a terminal, with what has been written so far. -/
structure Terminal where
  stage : Stage
  stdout : String
  stderr : String

namespace Terminal

variable (t : Terminal)

/-- Writes lines to the output. -/
def print (lines : List String) : Terminal :=
  { t with stdout := t.stdout ++ String.join (lines.map (· ++ "\n")) }

/-- Writes lines to the error stream. -/
def warn (lines : List String) : Terminal :=
  { t with stderr := t.stderr ++ String.join (lines.map (· ++ "\n")) }

/-- Shows what the user gets to see; none stands for a crash. -/
def display? (seen : Shown) : Option Terminal := do
  let lines ← seen.published.mapM Prompt.findingLines?
  return (t.warn (seen.notices.map Notice.display)).print lines.flatten

/-- Opens a file in the editor, or names it where there is none. -/
def openFile (file : Path) : Terminal × Except IoError Unit :=
  let site := t.stage.site
  match site.env.editor? with
  | none => (t.print [file.toText], .ok ())
  | some editor =>
    match site.run false ⟨editor, [file.toText], .ofString "."⟩ with
    | (.error e, _) => (t, .error e)
    | (.ok run, site) =>
      let t := { t with
        stage := { t.stage with site }
        stdout := t.stdout ++ Text.Utf8.decodeLossy run.stdout
        stderr := t.stderr ++ Text.Utf8.decodeLossy run.stderr }
      match run.outcome with
      | some (.code 0) | none => (t, .ok ())
      | some o => (t, .error ⟨.other, editor.toText ++ " exited with " ++ o.display⟩)

/-- Carries out a command; none stands for a crash. -/
def execute? (c : Command) : Option Terminal := do
  let (t, opened) := match c, t.stage.host.globalConfig with
    | .openGlobalConfig, some file => t.openFile file
    | _, _ => (t, .ok ())
  let (stage, seen) ← t.stage.execute? (fun _ => opened) c
  { t with stage }.display? seen

/-- Handles events, and says how many. -/
def pump : Nat × Terminal :=
  let (count, stage, seen) := t.stage.pump
  (count, { t with stage }.warn (seen.notices.map Notice.display))

/-- Handles events and shows the diagnostics if there were any; none stands for a crash. -/
def tick? : Option Terminal := do
  let (count, t) := t.pump
  if count = 0 then return t
  return t.print (← Prompt.snapshotLines? t.stage.host.supervisor.diagnostics.snapshot)

/-- Tells the host about a file. -/
def sendFile (file : Path) : Terminal :=
  let env := t.stage.site.env
  let file := (env.files.canonicalize env.directory file).toOption.getD file
  match env.readText file with
  | .error e => t.warn ["Cannot read " ++ file.toText ++ ": " ++ e.text]
  | .ok text =>
    let (stage, seen) := t.stage.changeFile file text
    { t with stage }.warn (seen.notices.map Notice.display)

/-- Does what a line asks for, and says whether the user goes on; none stands for a crash. -/
def obey? (line : String) : Option (Terminal × Bool) :=
  match Prompt.Input.parse line with
  | .quit => some (t, false)
  | .help => some (t.warn [Prompt.helpText], true)
  | .status => do
    return (t.print (← Prompt.statusLines? t.stage.host.supervisor.diagnostics.snapshot), true)
  | .file p => some (t.sendFile (.ofString p), true)
  | .command c => (t.execute? c).map (·, true)
  | .unknown word => some (t.warn ["Unknown command: " ++ word ++ ". " ++ Prompt.helpText], true)
  | .empty => some (t, true)

/-- A line without its end. -/
def withoutEnd (bytes : List UInt8) : List UInt8 :=
  match bytes.reverse with
  | 0x0A :: 0x0D :: rest | 0x0A :: rest => rest.reverse
  | _ => bytes

/-- What a line that is no text makes the program say when it ends. -/
def unreadable (f : Text.Utf8.Fault) : String :=
  "failed to read stdin\n\nCaused by:\n    " ++ f.message

/-- Obeys a line and says why the program ends if it does; none stands for a crash. -/
def obeyBytes? (bytes : List UInt8) : Option (Terminal × Option Finish) :=
  match Utf8.fault? bytes with
  | some f => some (t, some (.failed (unreadable f)))
  | none =>
    (t.obey? ((Utf8.decode? (withoutEnd bytes)).getD "")).map fun (t, goesOn) =>
      (t, if goesOn then none else some .done)

/-- Obeys the lines in a byte sequence after `line`, the bytes of a line that has begun, last one
first. What is left is the beginning of the next line. -/
def obeyLines? (t : Terminal) (line : List UInt8) :
    List UInt8 → Option (Terminal × List UInt8 × Option Finish)
  | [] => some (t, line, none)
  | b :: rest =>
    if b = 0x0A then
      match t.obeyBytes? (b :: line).reverse with
      | none => none
      | some (t, some f) => some (t, [], some f)
      | some (t, none) => obeyLines? t [] rest
    else obeyLines? t (b :: line) rest

/-- Whether the output contains a text. -/
def hasPrinted (text : String) : Bool :=
  (t.stdout.splitOn text).length ≠ 1

/-- Obeys what is typed to the end; none stands for a crash. -/
def converse? (t : Terminal) (line : List UInt8) : List Typed → Option (Terminal × Finish)
  | [] =>
    if line = [] then some (t, .done)
    else (t.obeyBytes? line.reverse).map fun (t, f) => (t, f.getD .done)
  | .pause text :: rest => do
    converse? (← if t.hasPrinted text then some t else t.tick?) line rest
  | .bytes bytes :: rest => do
    match ← t.obeyLines? line bytes with
    | (t, _, some f) => return (t, f)
    | (t, line, none) => converse? t line rest

/-- Reads commands until there are no more; none stands for a crash. -/
def interact? (typed : List Typed) : Option (Terminal × Finish) := do
  (← (t.warn [Prompt.helpText]).tick?).converse? [] typed

/-- Runs the program on a site; none stands for a crash. -/
def run? (site : Site) (arguments : List String) (typed : List Typed) :
    Option (Site × String × String × Finish) := do
  let env := site.env.openLog site.env.logFiles
  let site := { site with env }
  let arguments := Prompt.Arguments.parse arguments
  match arguments.roots.find? fun root => !env.isPresent (.ofString root) with
  | some root =>
    let reason := "no such project root: " ++ root
    return (site, "", "Error: " ++ reason ++ "\n", .failed reason)
  | none =>
    let roots := arguments.roots.map fun root =>
      (env.files.canonicalize env.directory (.ofString root)).toOption.getD (.ofString root)
    let settings := Settings.loadOrDefault env env.configFile?
    let (stage, seen) := Stage.start site settings env.configFile? env.linterConfigFile? roots
    let t ← (⟨stage, "", ""⟩ : Terminal).display? seen
    let (t, finish) ← match arguments.command with
      | some c => (t.execute? c).map fun t => (t.pump.2, Finish.done)
      | none => t.interact? typed
    let t := match finish with
      | .done => t
      | .failed reason => t.warn ["Error: " ++ reason]
    return (t.stage.dispose.site, t.stdout, t.stderr, finish)

end Terminal

end LintWatch.Rehearsal
