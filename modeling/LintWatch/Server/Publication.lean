import LintWatch.Server.Diagnostic

/-!
# Published diagnostics

A server publishes all diagnostics of a file at once. Before they are shown they pass through the
layers of a chain, in order. A layer may make anything of a publication; the standard chain only
puts the rule's code in front of each message.
-/

namespace LintWatch.Server

/-- The diagnostics of one file, all at once. -/
structure Publication where
  uri : String
  version : Option Int
  diagnostics : List Diagnostic
  deriving Repr

namespace Publication

/-- Reads a publication. It is refused as a whole when one of its diagnostics is none. -/
def ofJson? (v : Json) : Option Publication := do
  let r ← v.record? ["uri", "version", "diagnostics"]
  return {
    uri := ← r.required? "uri" Json.text?
    version := ← r.withDefault? "version" none
      (Json.source.orNull? (Json.intIn? (-0x80000000) 0x7FFFFFFF))
    diagnostics := ← r.required? "diagnostics" (Json.source.listOf? Diagnostic.ofJson?) }

/-- A publication as JSON. -/
def toJson (p : Publication) : Json :=
  .objectOfSome [
    ("uri", some (.str p.uri)),
    ("version", p.version.map fun n => .num (.int n)),
    ("diagnostics", some (.arr (p.diagnostics.map Diagnostic.toJson)))]

/-- A publication with other messages. -/
def reword (message : Diagnostic → String) (p : Publication) : Publication :=
  { p with diagnostics := p.diagnostics.map fun d => { d with message := message d } }

end Publication

/-- The message of a diagnostic with its rule's code in front, once, if it has one. -/
def Diagnostic.codedMessage (d : Diagnostic) : String :=
  match d.codeText? with
  | some code => Rule.withCode code d.message
  | none => d.message

/-- A layer that publications pass through. -/
inductive Layer where
  /-- Puts the rule's code in front of each message, once. -/
  | ruleCode
  /-- Any other layer: its name, and what it makes of a publication. -/
  | other (name : String) (process : Publication → Publication)

namespace Layer

/-- A layer that puts a text behind each message. -/
def suffix (text : String) : Layer :=
  .other "tag" (.reword fun d => d.message ++ text)

/-- The name of a layer. -/
def name : Layer → String
  | .ruleCode => "rule-code-prefix"
  | .other name _ => name

/-- A publication after a layer. -/
def apply : Layer → Publication → Publication
  | .ruleCode, p => p.reword Diagnostic.codedMessage
  | .other _ process, p => process p

end Layer

/-- The layers that publications pass through, in order. -/
abbrev Chain := List Layer

namespace Chain

/-- The chain that is used unless another is asked for. -/
def standard : Chain :=
  [.ruleCode]

/-- A publication after all layers. -/
def apply (c : Chain) (p : Publication) : Publication :=
  c.foldl (fun p l => l.apply p) p

/-- The names of the layers. -/
def display (c : Chain) : String :=
  "[" ++ ", ".intercalate (c.map fun l => "\"" ++ l.name ++ "\"") ++ "]"

end Chain

end LintWatch.Server
