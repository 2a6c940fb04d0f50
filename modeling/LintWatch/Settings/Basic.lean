import LintWatch.Path.Basic
import LintWatch.Record

/-!
# Linter settings

The settings are sparse: what is left out is for the linter to decide from its own files, so
nothing is ever filled in. `read?` reads them from any format, by name or in order.
-/

namespace LintWatch

/-- What lines are indented with. -/
inductive IndentStyle where
  | space
  | tab
  deriving DecidableEq, Repr

/-- The word for an indentation style. -/
def IndentStyle.word : IndentStyle → String
  | .space => "space"
  | .tab => "tab"

/-- The indentation style with this word. -/
def IndentStyle.ofWord? (s : String) : Option IndentStyle :=
  if s = "space" then some .space else if s = "tab" then some .tab else none

/-- How texts are quoted. -/
inductive QuoteStyle where
  | double
  | single
  | preserve
  deriving DecidableEq, Repr

/-- The word for a quote style. -/
def QuoteStyle.word : QuoteStyle → String
  | .double => "double"
  | .single => "single"
  | .preserve => "preserve"

/-- The quote style with this word. -/
def QuoteStyle.ofWord? (s : String) : Option QuoteStyle :=
  if s = "double" then some .double
  else if s = "single" then some .single
  else if s = "preserve" then some .preserve
  else none

/-- Which rules the linter applies. -/
structure LintSettings where
  enable : Option Bool
  preview : Option Bool
  /-- Whether `noqa` comments are respected. -/
  useNoqa : Option Bool
  select : List String
  ignore : List String
  extendSelect : List String
  extendIgnore : List String
  fixable : List String
  unfixable : List String
  deriving DecidableEq, Repr

/-- How the formatter writes files. -/
structure FormatSettings where
  preview : Option Bool
  indentStyle : Option IndentStyle
  indentWidth : Option UInt32
  quoteStyle : Option QuoteStyle
  deriving DecidableEq, Repr

/-- Which code actions are offered. -/
structure CodeActionSettings where
  fixViolation : Option Bool
  disableRuleComment : Option Bool
  deriving DecidableEq, Repr

/-- All that may be set. -/
structure Settings where
  /-- The linter's executable, which only the host needs to know. -/
  executablePath : Option Path
  configuration : Option String
  lineLength : Option UInt32
  targetVersion : Option String
  exclude : List String
  showSyntaxErrors : Option Bool
  organizeImports : Option Bool
  fixAll : Option Bool
  lint : LintSettings
  format : FormatSettings
  codeAction : CodeActionSettings
  deriving DecidableEq, Repr

/-- No lint setting. -/
def LintSettings.empty : LintSettings :=
  ⟨none, none, none, [], [], [], [], [], []⟩

/-- No format setting. -/
def FormatSettings.empty : FormatSettings :=
  ⟨none, none, none, none⟩

/-- No code action setting. -/
def CodeActionSettings.empty : CodeActionSettings :=
  ⟨none, none⟩

namespace Settings

/-- No setting. -/
def empty : Settings :=
  ⟨none, none, none, none, [], none, none, none, .empty, .empty, .empty⟩

instance : Inhabited Settings :=
  ⟨empty⟩

/-- Whether `noqa` comments are respected, which they are unless told otherwise. -/
def respectsNoqa (s : Settings) : Bool :=
  s.lint.useNoqa.getD true

/-- Whether syntax errors are shown, which they are unless told otherwise. -/
def showsSyntaxErrors (s : Settings) : Bool :=
  s.showSyntaxErrors.getD true

/-- The settings with `noqa` comments respected or not. -/
def withUseNoqa (s : Settings) (value : Bool) : Settings :=
  { s with lint := { s.lint with useNoqa := some value } }

variable {α : Type}

/-- Reads the lint settings. -/
def readLint? (source : Source α) (v : α) : Option LintSettings := do
  let r ← source.record? ["enable", "preview", "use_noqa", "select", "ignore", "extend_select",
    "extend_ignore", "fixable", "unfixable"] v
  let flag (name : String) := r.optional? name (source.orNull? source.bool?)
  let list (name : String) := r.withDefault? name [] (source.listOf? source.text?)
  return ⟨← flag "enable", ← flag "preview", ← flag "use_noqa", ← list "select",
    ← list "ignore", ← list "extend_select", ← list "extend_ignore", ← list "fixable",
    ← list "unfixable"⟩

/-- Reads the format settings. -/
def readFormat? (source : Source α) (v : α) : Option FormatSettings := do
  let r ← source.record? ["preview", "indent_style", "indent_width", "quote_style"] v
  let word {β : Type} (ofWord? : String → Option β) (v : α) := (source.word? v).bind ofWord?
  return ⟨← r.optional? "preview" (source.orNull? source.bool?),
    ← r.optional? "indent_style" (source.orNull? (word IndentStyle.ofWord?)),
    ← r.optional? "indent_width" (source.orNull? source.count?),
    ← r.optional? "quote_style" (source.orNull? (word QuoteStyle.ofWord?))⟩

/-- Reads the code action settings. -/
def readCodeAction? (source : Source α) (v : α) : Option CodeActionSettings := do
  let r ← source.record? ["fix_violation", "disable_rule_comment"] v
  let flag (name : String) := r.optional? name (source.orNull? source.bool?)
  return ⟨← flag "fix_violation", ← flag "disable_rule_comment"⟩

/-- Reads the settings. -/
def read? (source : Source α) (v : α) : Option Settings := do
  let r ← source.record? ["executable_path", "configuration", "line_length", "target_version",
    "exclude", "show_syntax_errors", "organize_imports", "fix_all", "lint", "format",
    "code_action"] v
  let flag (name : String) := r.optional? name (source.orNull? source.bool?)
  let text (name : String) := r.optional? name (source.orNull? source.text?)
  return ⟨(← text "executable_path").map Path.ofString, ← text "configuration",
    ← r.optional? "line_length" (source.orNull? source.count?), ← text "target_version",
    ← r.withDefault? "exclude" [] (source.listOf? source.text?),
    ← flag "show_syntax_errors", ← flag "organize_imports", ← flag "fix_all",
    ← r.withDefault? "lint" .empty (readLint? source),
    ← r.withDefault? "format" .empty (readFormat? source),
    ← r.withDefault? "code_action" .empty (readCodeAction? source)⟩

/-- Reads the settings from JSON. -/
def ofJson? (v : Json) : Option Settings :=
  read? Json.source v

end Settings

end LintWatch
