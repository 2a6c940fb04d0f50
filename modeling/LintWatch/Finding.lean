import LintWatch.Diagnostic.Basic
import LintWatch.Record

/-!
# Findings of a project check

A project check prints one JSON array with a record for each finding; fields that are not listed
here do not matter. The output counts as a whole: `parse?` refuses it when one record is no
finding. A finding becomes a diagnostic when it has a location, unless it is a syntax error and
those are hidden.
-/

namespace LintWatch

/-- A row and a column as the linter prints them, from one. -/
structure Location where
  row : UInt32
  column : UInt32
  deriving DecidableEq, Repr

/-- A finding as the linter prints it. -/
structure Finding where
  filename : Path
  code : Option String
  message : String
  location : Option Location
  endLocation : Option Location
  url : Option String
  deriving DecidableEq, Repr

variable {α : Type}

/-- Reads a location. -/
def Location.read? (source : Source α) (v : α) : Option Location := do
  let r ← source.record? ["row", "column"] v
  return ⟨← r.required? "row" source.count?, ← r.required? "column" source.count?⟩

/-- The point of a location. -/
def Location.point (l : Location) : Point :=
  .ofOneBased l.row l.column

namespace Finding

/-- Reads a finding. -/
def read? (source : Source α) (v : α) : Option Finding := do
  let r ← source.record? ["filename", "code", "message", "location", "end_location", "url"] v
  let text (name : String) := r.withDefault? name none (source.orNull? source.text?)
  let location (name : String) :=
    r.withDefault? name none (source.orNull? (Location.read? source))
  return ⟨Path.ofString (← r.required? "filename" source.text?), ← text "code",
    ← r.required? "message" source.text?, ← location "location", ← location "end_location",
    ← text "url"⟩

/-- The findings that the output of a check lists. -/
def parse? (output : List UInt8) : Option (List Finding) := do
  let t ← Json.Tree.ofBytes? output
  (← t.items?).mapM (read? Json.Tree.source)

/-- The diagnostic for a finding in `file`, unless it has no location or is a syntax error and
those are not shown. -/
def diagnostic? (file : Path) (showSyntaxErrors : Bool) (f : Finding) : Option Diagnostic :=
  f.location.bind fun location =>
    let isSyntaxError := Rule.isSyntaxError f.code
    if isSyntaxError && !showSyntaxErrors then none
    else
      some {
        severity := if isSyntaxError then .error else .warning
        excerpt := match f.code with
          | some code => Rule.withCode code f.message
          | none => f.message
        file
        position := ⟨location.point, (f.endLocation.getD location).point⟩
        url := f.url }

end Finding

end LintWatch
