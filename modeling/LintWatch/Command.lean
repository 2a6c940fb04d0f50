import LintWatch.Text.Blank

/-!
# Commands of the host

Each command goes by one name. `ofName?_name` says that the name of a command is read as it.
-/

namespace LintWatch

/-- What the user can ask the host to do. -/
inductive Command where
  | restartServer
  | lintProject
  | toggleNoqa
  | openGlobalConfig
  deriving DecidableEq, Repr

namespace Command

/-- All commands, in the order they are listed. -/
def all : List Command :=
  [.restartServer, .lintProject, .toggleNoqa, .openGlobalConfig]

/-- The name of a command. -/
def name : Command → String
  | .restartServer => "restart-server"
  | .lintProject => "lint-project"
  | .toggleNoqa => "toggle-noqa"
  | .openGlobalConfig => "open-global-config"

/-- What a command does. -/
def description : Command → String
  | .restartServer => "Restart the ruff language server"
  | .lintProject => "Run ruff check over every project root"
  | .toggleNoqa => "Toggle whether `# noqa` comments are respected"
  | .openGlobalConfig => "Open the user-level ruff configuration"

/-- The command with this name. -/
def ofName? (name : String) : Option Command :=
  all.find? fun c => c.name = name

/-- The command whose name is `text`, blanks around it aside. -/
def ofText? (text : String) : Option Command :=
  ofName? (Text.trimText text)

/-- What is said of a text that names no command. -/
def unknownMessage (text : String) : String :=
  "unknown command: " ++ Text.trimText text

/-- The commands on one line. -/
def summary : String :=
  "Commands: " ++ ", ".intercalate (all.map name)

/-- The name of a command is read as it. -/
theorem ofName?_name (c : Command) : ofName? c.name = some c := by
  cases c <;> decide

end Command

end LintWatch
