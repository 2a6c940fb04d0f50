import LintWatch.Files.Tree
import LintWatch.Text.Blank

/-!
# The environment of a run

The files, the working directory and the variables that a program finds when it starts, and the
places where it keeps its configuration and its log.
-/

namespace LintWatch

open LintWatch.Text

/-- What a program finds around it. -/
structure Environment where
  files : FileTree
  /-- The working directory. -/
  directory : Place
  /-- The variables, with the bytes of their values. -/
  bindings : List (String × List UInt8)
  deriving Repr, Inhabited

namespace Environment

variable (env : Environment)

/-- Whether a path names something. -/
def isPresent (p : Path) : Bool :=
  env.files.isPresent env.directory p

/-- Whether a path names a file. -/
def isFile (p : Path) : Bool :=
  env.files.isFile env.directory p

/-- Whether a path names a directory. -/
def isDirectory (p : Path) : Bool :=
  env.files.isDirectory env.directory p

/-- The text of a file. -/
def readText (p : Path) : Except IoError String :=
  env.files.readText env.directory p

/-- The path that a variable holds, unless it is empty. -/
def path? (name : String) : Option Path :=
  ((env.bindings.lookup name).map Path.mk).filter (·.bytes ≠ [])

/-- The variable that says where the configuration file is. -/
def configVariable : String := "RUFF_HOST_CONFIG"

/-- The directory that holds the user's configuration files. -/
def configDirectory? : Option Path :=
  match (env.path? "XDG_CONFIG_HOME").filter (·.isAbsolute) with
  | some dir => some dir
  | none => (env.path? "HOME").map (·.join (.ofString ".config"))

/-- The configuration file: the one that the variable names unless that is blank or no text,
else the usual one. -/
def configFile? : Option Path :=
  let named := ((env.bindings.lookup configVariable).bind Utf8.decode?).filter fun text =>
    trimText text ≠ ""
  match named with
  | some text => some (.ofString text)
  | none => env.configDirectory?.map (·.join (.ofString "ruff-host/config.toml"))

/-- The linter's own configuration file for the user. -/
def linterConfigFile? : Option Path :=
  env.configDirectory?.map (·.join (.ofString "ruff/pyproject.toml"))

/-- The files that may hold the log, in the order in which they are tried: beside the
configuration file, then in the working directory. -/
def logFiles : List Path :=
  let beside := (env.configFile?.bind Path.parent?).map (·.join (.ofString "logs/ruff-host.log"))
  beside.toList ++ [.ofString ".ruff-host/logs/ruff-host.log"]

/-- The program that shows files to the user, where one is set. -/
def editor? : Option Path :=
  (env.path? "VISUAL").orElse fun _ => env.path? "EDITOR"

/-- The environment with an empty file at a path if nothing is there, and whether a file can be
written there. -/
def openForAppending (file : Path) : Environment × Bool :=
  match env.files.find env.directory file with
  | .ok (_, .file _ _) => (env, true)
  | .ok _ => (env, false)
  | .error _ =>
    match env.files.replaceFile env.directory file [] with
    | .ok files => ({ env with files }, true)
    | .error _ => (env, false)

/-- Opens the first log file that can be written, and makes the directories for it. -/
def openLog (env : Environment) : List Path → Environment
  | [] => env
  | file :: rest =>
    match env.files.createDirectories env.directory ((file.parent?).getD ⟨[]⟩) with
    | (files, .error _) => openLog { env with files } rest
    | (files, .ok ()) =>
      match { env with files }.openForAppending file with
      | (env, true) => env
      | (env, false) => openLog env rest

/-- The directory of a path, which is `.` for a mere name. -/
def directoryOf (p : Path) : Path :=
  match p.parent? with
  | some parent => if parent.bytes = [] then .ofString "." else parent
  | none => .ofString "."

/-- The linter's usual name. -/
def linterName : Path := .ofString "ruff"

/-- The directories in which programs are looked for. -/
def searchPath : List Path :=
  match env.path? "PATH" with
  | none => []
  | some p => (splitBytes p.bytes).map fun bytes => expandHome ⟨bytes⟩
where
  /-- The parts between colons. -/
  splitBytes : List UInt8 → List (List UInt8)
    | [] => [[]]
    | b :: rest =>
      match splitBytes rest with
      | [] => [[b]]
      | part :: parts => if b = 0x3A then [] :: part :: parts else (b :: part) :: parts
  /-- The path with the home directory for a `~` at its front. -/
  expandHome (p : Path) : Path :=
    match p.components, env.path? "HOME" with
    | .name [0x7E] :: rest, some home => home.join (.ofComponents rest)
    | _, _ => p

/-- The first program of this name on the search path. -/
def lookUp? (name : Path) : Option Path :=
  (env.searchPath.map (·.join name)).find? (env.files.isExecutable env.directory)

/-- The linter's executable: what is configured when it names a file, else what is found under
that name or the usual one. -/
def linter? (configured : Option Path) : Option Path :=
  match configured.filter (·.bytes ≠ []) with
  | none => env.lookUp? linterName
  | some p =>
    if env.isFile p then some p
    else if p.components.length = 1 ∧ !p.isAbsolute then env.lookUp? p
    else none

/-- The directories of the roots of a project, each once and in order: a file stands for its
directory. Without roots it is the working directory. -/
def workspaceDirectories (roots : List Path) : List Path :=
  let images := roots.map fun root => if env.isFile root then directoryOf root else root
  match images.foldl (fun out p => if out.any p.same then out else out ++ [p]) [] with
  | [] => [.ofString "."]
  | dirs => dirs

/-- The directory in which a root is checked: the root itself when it is a directory. -/
def checkDirectory (root : Path) : Path :=
  if env.isDirectory root then root else directoryOf root

end Environment

end LintWatch
