/-!
# Notices

What the host tells the user: a level, a title and possibly a detail, shown on a line of its own.
-/

namespace LintWatch

/-- How grave a notice is. -/
inductive NoticeLevel where
  | info
  | warning
  | error
  deriving DecidableEq, Repr, Inhabited

/-- The word for a level. -/
def NoticeLevel.label : NoticeLevel → String
  | .info => "info"
  | .warning => "warning"
  | .error => "error"

/-- A message for the user. -/
structure Notice where
  level : NoticeLevel
  title : String
  detail : Option String
  deriving DecidableEq, Repr, Inhabited

namespace Notice

/-- A notice without detail. -/
def plain (level : NoticeLevel) (title : String) : Notice :=
  ⟨level, title, none⟩

/-- A notice as text. -/
def display (n : Notice) : String :=
  "[" ++ n.level.label ++ "] " ++ n.title ++
    match n.detail with
    | some detail => "\n  " ++ detail
    | none => ""

end Notice

end LintWatch
