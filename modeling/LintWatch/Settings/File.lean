import LintWatch.Environment
import LintWatch.Settings.Basic
import LintWatch.Settings.Error
import LintWatch.Toml.Edit

/-!
# The configuration file

Settings are read from a TOML file. Whether `noqa` comments are respected is written back into
it, with the rest of the text as the user wrote it.
-/

namespace LintWatch.Settings

/-- The settings that a text holds. -/
def ofToml? (text : String) : Option Settings := do
  let document ← Toml.Document.read? text.toList
  read? Toml.Data.source (← document.data?)

/-- The settings in a file; none when there is no such file. -/
def load (env : Environment) (file : Path) : Except ConfigError (Option Settings) :=
  if !env.isPresent file then .ok none
  else
    match env.readText file with
    | .error e => .error (.read file e)
    | .ok text =>
      match ofToml? text with
      | none => .error (.parse file)
      | some s => .ok (some s)

/-- The settings to start with: those in the file, when it has any. -/
def loadOrDefault (env : Environment) (file : Option Path) : Settings :=
  match file.map (load env) with
  | some (.ok (some s)) => s
  | _ => .empty

/-- What became of writing a value into the configuration file. -/
inductive Persisted where
  | saved (env : Environment)
  | failed (env : Environment) (error : ConfigError)
  /-- Something that takes no names stands where the lint settings belong. -/
  | crashed
  deriving Inhabited

/-- The document of a text and its fields, when it can be changed. -/
def changeable? (text : String) : Option (Toml.Document × Toml.Fields) := do
  let document ← Toml.Document.read? text.toList
  let fields ← document.fields?
  if document.canChange fields then some (document, fields) else none

/-- The text of a document after the value has been set. -/
def setUseNoqa? (document : Toml.Document) (fields : Toml.Fields) (value : Bool) :
    Option String :=
  (document.put? fields "lint" "use_noqa" (.ofBool value)).map fun d =>
    String.ofList d.tidy.render

/-- Writes the value into the configuration file. -/
def persistUseNoqa (env : Environment) (file : Path) (value : Bool) : Persisted :=
  let parent := (file.parent?).getD ⟨[]⟩
  match env.files.createDirectories env.directory parent with
  | (files, .error e) => .failed { env with files } (.write file e)
  | (files, .ok ()) =>
    let env := { env with files }
    match if env.isPresent file then env.readText file else .ok "" with
    | .error e => .failed env (.read file e)
    | .ok text =>
      match changeable? text with
      | none => .failed env (.edit file)
      | some (document, fields) =>
        match setUseNoqa? document fields value with
        | none => .crashed
        | some text =>
          match env.files.replaceFile env.directory file (Text.Utf8.encode text) with
          | .error e => .failed env (.write file e)
          | .ok files => .saved { env with files }

end LintWatch.Settings
