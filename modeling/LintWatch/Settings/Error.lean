import LintWatch.IoError
import LintWatch.Path.Basic

/-!
# Errors of the configuration file

What can go wrong between the settings and the file they are kept in. The report on a file that
is no TOML is not kept in detail.
-/

namespace LintWatch

/-- Why the configuration file could not be used. -/
inductive ConfigError where
  | read (path : Path) (cause : IoError)
  | parse (path : Path)
  | edit (path : Path)
  | write (path : Path) (cause : IoError)
  deriving DecidableEq, Repr

namespace ConfigError

/-- The file. -/
def path : ConfigError → Path
  | .read p _ | .parse p | .edit p | .write p _ => p

/-- The error as text, without its cause. -/
def message : ConfigError → String
  | .read p _ => "failed to read config at " ++ p.toText
  | .parse p => "failed to parse config at " ++ p.toText
  | .edit p => "failed to edit config at " ++ p.toText
  | .write p _ => "failed to write config at " ++ p.toText

/-- What a report on a file that is no TOML starts with. -/
def reportHead : String := "TOML parse error"

/-- The cause as text. -/
def cause : ConfigError → String
  | .read _ e | .write _ e => e.text
  | .parse _ | .edit _ => reportHead

/-- The error with its cause. -/
def chain (e : ConfigError) : String :=
  e.message ++ ": " ++ e.cause

end ConfigError

end LintWatch
