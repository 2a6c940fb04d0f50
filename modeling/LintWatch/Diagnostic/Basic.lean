import LintWatch.Path.Basic

/-!
# Diagnostics

A diagnostic is a finding ready to be shown: how severe it is, what it says, in which file and
where, and where its rule is documented. Positions count rows and columns from zero; they are
shown from one, which the last position of the range has no form for. A rule's code is put in
front of a message once: `Rule.withCode_idem` says that putting it there again changes nothing.
-/

namespace LintWatch

/-- How severe a diagnostic is. -/
inductive Severity where
  | error
  | warning
  | info
  deriving DecidableEq, Repr, Inhabited

namespace Severity

/-- The severity of a language server's number; hints count as information. -/
def ofLsp? (n : UInt64) : Option Severity :=
  if n = 1 then some .error
  else if n = 2 then some .warning
  else if n = 3 ∨ n = 4 then some .info
  else none

/-- The word for a severity. -/
def label : Severity → String
  | .error => "error"
  | .warning => "warning"
  | .info => "info"

/-- The severity with this word. -/
def ofLabel? (s : String) : Option Severity :=
  if s = "error" then some .error
  else if s = "warning" then some .warning
  else if s = "info" then some .info
  else none

/-- Whether a diagnostic of this severity is an error. -/
def isError (s : Severity) : Bool :=
  s = .error

end Severity

/-- A row and a column, both from zero. -/
structure Point where
  row : UInt32
  column : UInt32
  deriving DecidableEq, Repr, Inhabited

/-- The number before `n`, and zero before zero. -/
def precedingIndex (n : UInt32) : UInt32 :=
  if n = 0 then 0 else n - 1

/-- The point with this row and column, both from one; a zero counts as one. -/
def Point.ofOneBased (row column : UInt32) : Point :=
  ⟨precedingIndex row, precedingIndex column⟩

/-- The part of a file from `start` up to `stop`. -/
structure Range where
  start : Point
  stop : Point
  deriving DecidableEq, Repr, Inhabited

/-- The empty range at a point. -/
def Range.at (p : Point) : Range :=
  ⟨p, p⟩

/-- A finding as it is shown. -/
structure Diagnostic where
  severity : Severity
  excerpt : String
  file : Path
  position : Range
  url : Option String
  deriving DecidableEq, Repr, Inhabited

namespace Rule

/-- The code that stands for a syntax error. -/
def syntaxErrorCode : String := "E999"

/-- Whether a code is that of a syntax error; so is the lack of one. -/
def isSyntaxError (code : Option String) : Bool :=
  match code with
  | none => true
  | some c => c = syntaxErrorCode

/-- What a rule's code puts in front of a message. -/
def lead (code : String) : String :=
  code ++ " — "

/-- Whether `text` starts with `front`. -/
def startsWith (text front : String) : Bool :=
  front.toList.isPrefixOf text.toList

/-- A message with its rule's code in front, once. -/
def withCode (code message : String) : String :=
  if startsWith message (lead code) then message else lead code ++ message

/-- A message that carries its rule's code is left alone. -/
theorem withCode_of_startsWith {code message : String} (h : startsWith message (lead code)) :
    withCode code message = message := by
  simp [withCode, h]

/-- A message with its rule's code starts with it. -/
theorem startsWith_withCode (code message : String) :
    startsWith (withCode code message) (lead code) = true := by
  unfold withCode
  split
  · assumption
  · simp [startsWith, String.toList_append]

/-- Putting the code in front again changes nothing. -/
theorem withCode_idem (code message : String) :
    withCode code (withCode code message) = withCode code message :=
  withCode_of_startsWith (startsWith_withCode code message)

end Rule

namespace Diagnostic

/-- The number after `n`, when it fits. -/
def oneBased? (n : UInt32) : Option Nat :=
  if n.toNat + 1 < UInt32.size then some (n.toNat + 1) else none

/-- The line that shows a diagnostic: file, row and column from one, severity and text. -/
def displayLine? (d : Diagnostic) : Option String := do
  let row ← oneBased? d.position.start.row
  let column ← oneBased? d.position.start.column
  return d.file.toText ++ ":" ++ toString row ++ ":" ++ toString column ++ ": "
    ++ d.severity.label ++ ": " ++ d.excerpt

end Diagnostic

end LintWatch
