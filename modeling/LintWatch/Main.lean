import LintWatch.Rehearsal.Terminal

/-!
# The program

The outer layer: it looks at the places on disk that matter to the host, takes what is typed, lets
the host work on them and writes back what has changed. It starts no processes, so that the host
finds no linter and no editor here.
-/

namespace LintWatch

open LintWatch.Rehearsal

/-- What stands at a path on disk. -/
def entryOnDisk (path : String) : IO (Option FileEntry) := do
  try
    return some (.file (← IO.FS.readBinFile path).toList false)
  catch
    | .noFileOrDirectory .. => return none
    | _ => return some .directory

/-- The place that an absolute path names. -/
def placeOf (path : Path) : Place :=
  (Path.split path.bytes).filter (· ≠ [])

/-- The tree with what stands on disk at a place and on the way there. -/
def loadPlace (tree : FileTree) (place : Place) : IO FileTree :=
  (List.range place.length).foldlM (fun tree n => do
    let part := place.take (n + 1)
    if (tree.entry? part).isSome then return tree
    match ← entryOnDisk (FileTree.pathOf part).toText with
    | some e => return tree.insert part e
    | none => return tree) tree

/-- The variables that the host asks for. -/
def loadVariables : IO (List (String × List UInt8)) :=
  ["HOME", "XDG_CONFIG_HOME", Environment.configVariable].filterMapM fun name => do
    return (← IO.getEnv name).map fun value => (name, Text.Utf8.encode value)

/-- The paths that matter to a run: the configuration file and the logs, the roots of the project
and the files that are named on typed lines. -/
def pathsOf (env : Environment) (arguments : List String) (typed : String) : List Path :=
  let named := (typed.splitOn "\n").filterMap fun line =>
    match Prompt.Input.parse line with
    | .file path => some path
    | _ => none
  env.configFile?.toList ++ env.logFiles
    ++ ((Prompt.Arguments.parse arguments).roots ++ named).map Path.ofString

/-- What is typed, up to the end of the input. -/
def readTyped : IO (List UInt8) := do
  return (← (← IO.getStdin).readToEnd).toUTF8.toList

/-- Writes a file that is new or has changed. -/
def saveEntry (old : FileTree) (place : Place) (content : List UInt8) : IO Unit :=
  match old.entry? place with
  | some (.file before _) => if before = content then pure () else save
  | _ => save
where
  /-- Writes the file and makes the directories for it. -/
  save : IO Unit := do
    IO.FS.createDirAll (FileTree.pathOf place.dropLast).toText
    IO.FS.writeBinFile (FileTree.pathOf place).toText ⟨content.toArray⟩

/-- Runs the host at the terminal. -/
def runAtTerminal (arguments : List String) : IO UInt32 := do
  let directory := placeOf (.ofString (← IO.currentDir).toString)
  let bare : Environment := ⟨.empty, directory, ← loadVariables⟩
  let interactive := (Prompt.Arguments.parse arguments).command.isNone
  let typed ← if interactive then readTyped else pure []
  let text := Text.Utf8.decodeLossy typed
  let files ← (pathsOf bare arguments text).foldlM (fun tree path =>
    loadPlace tree (placeOf ((FileTree.pathOf directory).join path).normalize)) .empty
  let site := Site.ofEnvironment { bare with files }
  match Terminal.run? site arguments [.bytes typed] with
  | none => return 101
  | some (site, stdout, stderr, finish) =>
    for (place, entry) in site.env.files.entries do
      if let .file content _ := entry then saveEntry files place content
    IO.print stdout
    IO.eprint stderr
    return if finish = .done then 0 else 1

end LintWatch

/-- Runs the program. -/
def main (arguments : List String) : IO UInt32 :=
  LintWatch.runAtTerminal arguments
