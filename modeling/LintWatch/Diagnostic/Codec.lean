import LintWatch.Diagnostic.Basic
import LintWatch.Record

/-!
# Diagnostics as JSON

A diagnostic is stored as an object with a nested location; points are pairs of a row and a
column, ranges pairs of points. Reading also takes each record as an array of its fields.
-/

namespace LintWatch

/-- A severity as JSON. -/
def Severity.toJson (s : Severity) : Json :=
  .str s.label

/-- Reads a severity. -/
def Severity.ofJson? (v : Json) : Option Severity :=
  v.word?.bind Severity.ofLabel?

/-- A point as the pair of its row and column. -/
def Point.toJson (p : Point) : Json :=
  .arr [.ofNat p.row.toNat, .ofNat p.column.toNat]

/-- Reads a point. -/
def Point.ofJson? (v : Json) : Option Point :=
  (v.pair? Json.nat32?).map fun (row, column) => ⟨row, column⟩

/-- A range as the pair of its ends. -/
def Range.toJson (r : Range) : Json :=
  .arr [r.start.toJson, r.stop.toJson]

/-- Reads a range. -/
def Range.ofJson? (v : Json) : Option Range :=
  (v.pair? Point.ofJson?).map fun (start, stop) => ⟨start, stop⟩

namespace Diagnostic

/-- A diagnostic as JSON. The name of its link is left out when it has none. -/
def toJson (d : Diagnostic) : Json :=
  .objectOfSome [
    ("severity", some d.severity.toJson),
    ("excerpt", some (.str d.excerpt)),
    ("location", some (.object [
      ("file", .str d.file.toText),
      ("position", d.position.toJson)])),
    ("url", d.url.map .str)]

/-- Reads the file and the range of a diagnostic. -/
def locationOfJson? (v : Json) : Option (Path × Range) := do
  let r ← v.record? ["file", "position"]
  return (Path.ofString (← r.required? "file" Json.text?),
    ← r.required? "position" Range.ofJson?)

/-- Reads a diagnostic. -/
def ofJson? (v : Json) : Option Diagnostic := do
  let r ← v.record? ["severity", "excerpt", "location", "url"]
  let severity ← r.required? "severity" Severity.ofJson?
  let excerpt ← r.required? "excerpt" Json.text?
  let (file, position) ← r.required? "location" locationOfJson?
  let url ← r.withDefault? "url" none (Json.source.orNull? Json.text?)
  return ⟨severity, excerpt, file, position, url⟩

end Diagnostic

end LintWatch
