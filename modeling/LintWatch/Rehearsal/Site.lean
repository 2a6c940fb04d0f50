import LintWatch.Environment
import LintWatch.Rehearsal.Running
import LintWatch.Rehearsal.Shell
import LintWatch.Scan.Check

/-!
# Where a rehearsal takes place

A site is what the host finds when it is rehearsed: its environment, the programs that can be run
there, the servers that run and the events they have caused. Programs are found as an operating
system finds them: a name without a slash on the search path, any other path from the working
directory of the new process.
-/

namespace LintWatch.Rehearsal

open Server (ServerId Event EventQueue)
open Execution (Invocation)

/-- A program that a site knows. -/
inductive Program where
  | linter
  | shell
  | tool (name : String)
  | script (text : String)
  deriving DecidableEq, Repr

/-- The site of a rehearsal. -/
structure Site where
  env : Environment
  programs : List (Place × Program)
  linter : Linter
  /-- The checks that have run, each with its arguments and its directory. -/
  checks : List (List String × Path)
  /-- How many servers have been started. -/
  started : Nat
  running : List (ServerId × Running)
  /-- What the servers that have gone had read, each with the number of those before it. -/
  gone : List (Nat × List Json)
  queue : EventQueue

namespace Site

/-- The usual small programs. -/
def tools : List (Place × Program) :=
  let place (dir : List String) (name : String) := (dir ++ [name]).map Text.Utf8.encode
  [["bin"], ["usr", "bin"]].flatMap fun dir =>
    (place dir "sh", .shell) ::
      ["true", "false", "echo", "cat", "pwd", "sleep"].map fun t => (place dir t, .tool t)

/-- The site with this environment and no programs, in which nothing has happened yet. -/
def ofEnvironment (env : Environment) : Site :=
  ⟨env, [], default, [], 0, [], [], .empty⟩

/-- The site with this environment and the usual programs. -/
def usual (env : Environment) : Site :=
  let files := tools.foldl (fun t (place, _) => t.withFile place [] true) env.files
  { ofEnvironment { env with files } with programs := tools }

variable (s : Site)

/-- The site with a linter at a place. -/
def install (place : Place) (linter : Linter) : Site :=
  { s with
    linter
    programs := (place, .linter) :: s.programs
    env := { s.env with files := s.env.files.withFile place [] true } }

/-- The site with other files. -/
def mapFiles (f : FileTree → FileTree) : Site :=
  { s with env := { s.env with files := f s.env.files } }

/-- What is said of a file that is no program. -/
def noProgram : IoError :=
  .ofSystem .other "Exec format error" 8

/-- The place of a program that can be run from a directory. -/
def programAt (dir : Place) (p : Path) : Except IoError Place := do
  match ← s.env.files.find dir p with
  | (place, .file _ true) => .ok place
  | _ => .error .accessDenied

/-- The first program of a name on the search path. A program that may not be run is remembered
while the search goes on. -/
def search (dir : Place) (name : Path) : List Path → Except IoError Place
  | [] => .error .noSuchFile
  | entry :: rest =>
    match s.programAt dir (entry.join name) with
    | .ok place => .ok place
    | .error e =>
      match search dir name rest with
      | .ok place => .ok place
      | .error later => .error (if e.kind = .permissionDenied then e else later)

/-- The place of an executable as seen from a directory. -/
def executablePlace (dir : Place) (p : Path) : Except IoError Place :=
  if p.bytes.contains Path.slash then s.programAt dir p
  else if p.bytes = [] then .error .noSuchFile
  else s.search dir p s.env.searchPath

/-- The directory in which a process is to run. -/
def directoryPlace (p : Path) : Except IoError Place := do
  match ← s.env.files.find s.env.directory p with
  | (place, .directory) => .ok place
  | _ => .error .notDirectory

/-- The script in a file that starts as shell scripts do. -/
def shellScript? (content : List UInt8) : Option String := do
  let text ← Text.Utf8.decode? content
  if text.startsWith "#!/bin/sh" then some text else none

/-- The run of the program that writes out files, as seen from a directory. -/
def catRun (dir : Place) (files : List String) : Execution.Run :=
  files.foldl (fun run name =>
    match s.env.files.read dir (.ofString name) with
    | .ok content => { run with stdout := run.stdout ++ content }
    | .error e =>
      let reason := (e.text.splitOn " (").headD ""
      { run with
        stderr := run.stderr ++ Text.Utf8.encode ("cat: " ++ name ++ ": " ++ reason ++ "\n")
        outcome := some (.ofExit 1) }) (.exit 0)

/-- The milliseconds of a number of seconds, which may have decimals. -/
def milliseconds (text : String) : Nat :=
  let number (digits : String) : Nat := (digits.toNat?).getD 0
  match text.splitOn "." with
  | [seconds] => 1000 * number seconds
  | seconds :: decimals :: _ =>
    1000 * number seconds + number (String.ofList ((decimals ++ "000").toList.take 3))
  | [] => 0

/-- The run of one of the usual small programs. -/
def toolRun (dir : Place) (name : String) (arguments : List String) : Execution.Run :=
  match name with
  | "false" => .exit 1
  | "echo" => { Execution.Run.exit 0 with
      stdout := Text.Utf8.encode (" ".intercalate arguments ++ "\n") }
  | "cat" => s.catRun dir arguments
  | "sleep" => { Execution.Run.exit 0 with lasts := (arguments.map milliseconds).foldl (· + ·) 0 }
  | "pwd" => { Execution.Run.exit 0 with
      stdout := Text.Utf8.encode ((FileTree.pathOf dir).toText ++ "\n") }
  | _ => .exit 0

/-- The small program that a name stands for in a directory. -/
def tool? (dir : Place) (name : String) : Option (List String → Execution.Run) :=
  match s.executablePlace dir (.ofString name) with
  | .ok place =>
    match s.programs.lookup place with
    | some (.tool t) => some (s.toolRun dir t)
    | _ => none
  | .error _ => none

/-- What a file says that is run as a program. Without a first line that names the shell it is a
program only if `asScript` says that anything is taken for a script. -/
def fileProgram (asScript : Bool) (content : List UInt8) : Except IoError Program :=
  match shellScript? content with
  | some script => .ok (.script script)
  | none =>
    if asScript then .ok (.script (Text.Utf8.decodeLossy content)) else .error noProgram

/-- The program to run and the place of its working directory. -/
def resolve (asScript : Bool) (i : Invocation) : Except IoError (Program × Place) := do
  let dir ← s.directoryPlace i.directory
  let place ← s.executablePlace dir i.executable
  match s.programs.lookup place, s.env.files.entry? place with
  | some program, _ => return (program, dir)
  | none, some (.file content _) => return (← fileProgram asScript content, dir)
  | none, _ => .error .accessDenied

/-- The run of a program other than the linter. -/
def otherRun (program : Program) (dir : Place) (i : Invocation) : Execution.Run :=
  let shell (text : String) :=
    Shell.run (s.tool? dir) i.executable.toText (FileTree.pathOf dir).toText text
  match program with
  | .script text => shell text
  | .shell =>
    match i.arguments with
    | "-c" :: text :: _ => shell text
    | _ => .exit 0
  | .tool name => s.toolRun dir name i.arguments
  | .linter => .exit 0

/-- Runs a program that reads nothing. -/
def run (asScript : Bool) (i : Invocation) : Except IoError Execution.Run × Site :=
  match s.resolve asScript i with
  | .error e => (.error e, s)
  | .ok (.linter, dir) =>
    (.ok (if i.arguments.head? = some "check" then s.linter.check i.arguments else .exit 0),
      { s with checks := s.checks ++ [(i.arguments, FileTree.pathOf dir)] })
  | .ok (program, dir) => (.ok (s.otherRun program dir i), s)

/-- Runs a check of the project. -/
def check (limits : Scan.CheckLimits) (i : Invocation) :
    Except Scan.CheckError Scan.CheckOutput × Site :=
  let (result, s) := s.run true i
  (Scan.collect limits i.executable result, s)

/-! ## Servers -/

/-- Puts an event into the queue. -/
def post (events : List Event) : Site :=
  { s with queue := events.foldl EventQueue.send s.queue }

end Site

end LintWatch.Rehearsal
