import LintWatch.Notice
import LintWatch.Server.Error
import LintWatch.Settings.Error

/-!
# Reports to the user

Every failure that may reach the user becomes a notice here, so the rules on what is kept from
the user stand in one place: errors that stopping a server brings about, and a missing
executable, which has a notice of its own.
-/

namespace LintWatch

/-- Why the host could not do what it was asked to. -/
inductive HostError where
  | config (cause : ConfigError)
  | noConfigPath
  | openFailed (path : Path) (cause : IoError)
  deriving DecidableEq, Repr

namespace HostError

/-- The error as text, without its cause. -/
def message : HostError → String
  | .config e => e.message
  | .noConfigPath => "no ruff-host config file location is available"
  | .openFailed path _ => "failed to open " ++ path.toText

/-- The error with its causes. -/
def chain : HostError → String
  | .config e => e.chain
  | .noConfigPath => message .noConfigPath
  | .openFailed path cause => message (.openFailed path cause) ++ ": " ++ cause.text

/-- The notice for an error of the host. -/
def notice : HostError → Notice
  | .config e => ⟨.error, "Failed to update the ruff-host config", some e.chain⟩
  | .noConfigPath =>
    ⟨.warning, "Cannot save settings",
      some "No config directory is available; set RUFF_HOST_CONFIG."⟩
  | .openFailed path cause =>
    ⟨.warning, "Failed to open file", some (path.toText ++ ": " ++ cause.text)⟩

end HostError

/-- How to get the linter. -/
def installGuidance : String :=
  "Install ruff (`pip install ruff` or `uv tool install ruff`) "
    ++ "or set `executable_path` in the ruff-host config."

/-- What to do when the linter cannot be started. -/
def spawnRemedy : String :=
  "Check that the file is an executable ruff binary, "
    ++ "or clear `executable_path` to use ruff from PATH."

/-- The notice that there is no linter. -/
def executableMissingNotice : Notice :=
  ⟨.error, "ruff executable not found", some installGuidance⟩

/-- The notice for an error of a server, unless it stays in the log. -/
def Server.Error.notice? (e : Server.Error) : Option Notice :=
  if e.isRoutine || e.isMissingExecutable then none
  else
    some <| match e with
      | .spawn executable cause =>
        ⟨.error, "Failed to start the ruff language server",
          some (executable.toText ++ ": " ++ cause.text ++ ". " ++ spawnRemedy)⟩
      | .exited _ code =>
        ⟨.error, "The ruff language server exited unexpectedly",
          some ("Exit code " ++ toString code ++ ". " ++ installGuidance)⟩
      | other => ⟨.error, "Ruff language server error", some other.message⟩

end LintWatch
