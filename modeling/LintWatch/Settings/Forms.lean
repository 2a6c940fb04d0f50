import LintWatch.Settings.Basic

/-!
# Forms of the settings

The settings reach the language server as one nested object and a project check as flags. Both
say only what is set and not blank, so that the linter falls back on its own files for the rest.
`noqa` comments that are not respected become `ignoreNoqa` for one and `--ignore-noqa` for the
other.
-/

namespace LintWatch.Settings

/-- A text that is set and not empty. -/
def nonEmpty? (s : Option String) : Option String :=
  s.filter (· ≠ "")

/-- A count that is set and not zero. -/
def positive? (n : Option UInt32) : Option UInt32 :=
  n.filter (0 < ·)

/-- The entries of a list that are not empty. -/
def entries (ss : List String) : List String :=
  ss.filter (· ≠ "")

/-- A list as a value, unless it has no entries. -/
def listValue? (ss : List String) : Option Json :=
  if entries ss = [] then none else some (.texts (entries ss))

/-- An object of the bindings that hold a value, unless none does. -/
def objectValue? (bindings : List (String × Option Json)) : Option Json :=
  if bindings.all (·.2.isNone) then none else some (.objectOfSome bindings)

/-- The value of a switch that is an object of its own. -/
def switchValue (enable : Bool) : Json :=
  .object [("enable", .bool enable)]

/-- The lint settings for the server. -/
def lintValue? (l : LintSettings) : Option Json :=
  objectValue? [
    ("enable", l.enable.map .bool),
    ("preview", l.preview.map .bool),
    ("ignoreNoqa", if l.useNoqa = some false then some (.bool true) else none),
    ("select", listValue? l.select),
    ("ignore", listValue? l.ignore),
    ("extendSelect", listValue? l.extendSelect),
    ("extendIgnore", listValue? l.extendIgnore),
    ("fixable", listValue? l.fixable),
    ("unfixable", listValue? l.unfixable)]

/-- The format settings for the server. -/
def formatValue? (f : FormatSettings) : Option Json :=
  objectValue? [
    ("preview", f.preview.map .bool),
    ("indentStyle", f.indentStyle.map fun s => .str s.word),
    ("indentWidth", (positive? f.indentWidth).map fun n => .ofNat n.toNat),
    ("quoteStyle", f.quoteStyle.map fun s => .str s.word)]

/-- The code action settings for the server. -/
def codeActionValue? (c : CodeActionSettings) : Option Json :=
  objectValue? [
    ("fixViolation", c.fixViolation.map switchValue),
    ("disableRuleComment", c.disableRuleComment.map switchValue)]

/-- The settings as the server takes them. -/
def serverValue (s : Settings) : Json :=
  .objectOfSome [
    ("configuration", (nonEmpty? s.configuration).map .str),
    ("lineLength", (positive? s.lineLength).map fun n => .ofNat n.toNat),
    ("targetVersion", (nonEmpty? s.targetVersion).map .str),
    ("exclude", listValue? s.exclude),
    ("lint", lintValue? s.lint),
    ("showSyntaxErrors", s.showSyntaxErrors.map .bool),
    ("format", formatValue? s.format),
    ("codeAction", codeActionValue? s.codeAction),
    ("organizeImports", s.organizeImports.map .bool),
    ("fixAll", s.fixAll.map .bool)]

/-- The options that are sent when a server is set up. -/
def initializationOptions (s : Settings) : Json :=
  .object [("settings", s.serverValue)]

/-- The settings under the name of the linter. -/
def workspaceValue (s : Settings) : Json :=
  .object [("ruff", s.serverValue)]

/-- The flag that lists the entries of a list, unless it has none. -/
def listFlag (flag : String) (ss : List String) : List String :=
  if entries ss = [] then [] else [flag ++ "=" ++ ",".intercalate (entries ss)]

/-- The flags of a project check, in a fixed order. -/
def checkFlags (s : Settings) : List String :=
  ((nonEmpty? s.configuration).map ("--config=" ++ ·)).toList
    ++ ((positive? s.lineLength).map fun n => "--line-length=" ++ toString n.toNat).toList
    ++ ((nonEmpty? s.targetVersion).map ("--target-version=" ++ ·)).toList
    ++ (entries s.exclude).map ("--exclude=" ++ ·)
    ++ (if s.lint.preview = some true then ["--preview"] else [])
    ++ (if s.lint.useNoqa = some false then ["--ignore-noqa"] else [])
    ++ listFlag "--select" s.lint.select
    ++ listFlag "--ignore" s.lint.ignore
    ++ listFlag "--extend-select" s.lint.extendSelect
    ++ listFlag "--extend-ignore" s.lint.extendIgnore
    ++ listFlag "--fixable" s.lint.fixable
    ++ listFlag "--unfixable" s.lint.unfixable

end LintWatch.Settings
