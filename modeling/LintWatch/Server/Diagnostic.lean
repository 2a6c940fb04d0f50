import LintWatch.Diagnostic.Basic
import LintWatch.Json.Printer
import LintWatch.Record

/-!
# Diagnostics of a language server

A server's diagnostic has a range, a message and, possibly, a severity, a rule code and a source;
all its other members are kept as they are. It becomes a diagnostic of the host with its number
read as a severity and the link of its `codeDescription`.
-/

namespace LintWatch.Server

/-- A line and a character of a text document, both from zero. -/
structure Position where
  line : UInt32
  character : UInt32
  deriving DecidableEq, Repr

/-- The part of a text document from `start` up to `stop`. -/
structure Span where
  start : Position
  stop : Position
  deriving DecidableEq, Repr

/-- A diagnostic as a server publishes it. -/
structure Diagnostic where
  span : Span
  severity : Option UInt64
  code : Option Json
  source : Option String
  message : String
  /-- The members that mean nothing to the host. -/
  extra : Json.Members
  deriving Repr

/-- Reads a position. -/
def Position.ofJson? (v : Json) : Option Position := do
  let r ← v.record? ["line", "character"]
  return ⟨← r.required? "line" Json.nat32?, ← r.required? "character" Json.nat32?⟩

/-- A position as JSON. -/
def Position.toJson (p : Position) : Json :=
  .object [("line", .ofNat p.line.toNat), ("character", .ofNat p.character.toNat)]

/-- The point of a position. -/
def Position.point (p : Position) : Point :=
  ⟨p.line, p.character⟩

/-- Reads a span. -/
def Span.ofJson? (v : Json) : Option Span := do
  let r ← v.record? ["start", "end"]
  return ⟨← r.required? "start" Position.ofJson?, ← r.required? "end" Position.ofJson?⟩

/-- A span as JSON. -/
def Span.toJson (s : Span) : Json :=
  .object [("start", s.start.toJson), ("end", s.stop.toJson)]

namespace Diagnostic

/-- The names of the members that mean something to the host. -/
def names : List String :=
  ["range", "severity", "code", "source", "message"]

/-- Reads a diagnostic, which is written by name. -/
def ofJson? (v : Json) : Option Diagnostic := do
  let members ← v.members?
  let r : Record Json := ⟨members, true⟩
  return {
    span := ← r.required? "range" Span.ofJson?
    severity := ← r.optional? "severity" (Json.source.orNull? Json.nat64?)
    code := ← r.optional? "code" (Json.source.orNull? some)
    source := ← r.optional? "source" (Json.source.orNull? Json.text?)
    message := ← r.required? "message" Json.text?
    extra := members.filter fun m => !names.contains m.1 }

/-- A diagnostic as JSON. What it does not have is left out. -/
def toJson (d : Diagnostic) : Json :=
  .object (d.extra ++ [("range", d.span.toJson), ("message", .str d.message)]
    ++ ((d.severity.map fun n => ("severity", Json.ofNat n.toNat)).toList
      ++ (d.code.map ("code", ·)).toList
      ++ (d.source.map fun s => ("source", Json.str s)).toList))

/-- The rule code as text, when it is a text that is not empty or a number. -/
def codeText? (d : Diagnostic) : Option String :=
  match d.code with
  | some (.str s) => if s = "" then none else some s
  | some (.num n) => some n.render
  | _ => none

/-- The link to the rule's documentation. -/
def link? (d : Diagnostic) : Option String := do
  let description ← Json.lookupMember "codeDescription" d.extra
  (← description.get? "href").text?

/-- The diagnostic of the host for a server's diagnostic in the file at `path`. A severity that
is missing or unknown counts as a warning. -/
def shown (path : Path) (d : Diagnostic) : LintWatch.Diagnostic where
  severity := (d.severity.bind Severity.ofLsp?).getD .warning
  excerpt := d.message
  file := path
  position := ⟨d.span.start.point, d.span.stop.point⟩
  url := d.link?

end Diagnostic

end LintWatch.Server
