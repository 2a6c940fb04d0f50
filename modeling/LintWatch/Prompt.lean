import LintWatch.Command
import LintWatch.Diagnostic.Store

/-!
# The prompt

What the user types and what the terminal shows: a line is decided by its first word, findings
are listed one to a line, and a set of findings ends with a summary.
-/

namespace LintWatch.Prompt

open LintWatch.Text

/-- What a typed line asks for. -/
inductive Input where
  | quit
  | help
  | status
  | file (path : String)
  | command (c : Command)
  | unknown (word : String)
  | empty
  deriving DecidableEq, Repr

/-- What a line asks for whose first word is `word`, `rest` being the remainder without the
blanks around it. -/
def Input.ofWords (word rest : String) : Input :=
  if word = "" then .empty
  else if word = "q" ∨ word = "quit" ∨ word = "exit" then .quit
  else if word = "help" then .help
  else if word = "status" then .status
  else if word = "file" ∧ rest ≠ "" then .file rest
  else
    match Command.ofText? word with
    | some c => .command c
    | none => .unknown word

/-- What a typed line asks for. -/
def Input.parse (line : String) : Input :=
  let (word, rest) := firstWord (trim line.toList)
  .ofWords (String.ofList word) (String.ofList (trim rest))

/-- The help on the prompt. -/
def helpText : String :=
  Command.summary ++ "\nAlso: file <path>, status, help, quit"

/-- The last line of a set of findings. -/
def summaryLine (messages : List Diagnostic) : String :=
  "project: " ++ toString messages.length ++ " finding(s), "
    ++ toString (messages.countP fun d => d.severity.isError) ++ " error(s)"

/-- The lines that show a set of findings. -/
def findingLines? (messages : List Diagnostic) : Option (List String) := do
  return (← messages.mapM Diagnostic.displayLine?) ++ [summaryLine messages]

/-- The lines that show live diagnostics. -/
def snapshotLines? (s : Snapshot) : Option (List String) := do
  let lines ← (s.flatMap (·.2)).mapM Diagnostic.displayLine?
  return lines ++ if s.isEmpty then [] else ["live: " ++ s.status]

/-- The lines that answer a question for the status. -/
def statusLines? (s : Snapshot) : Option (List String) :=
  if s.isEmpty then some ["live: no diagnostics"] else snapshotLines? s

/-- The arguments of the program. -/
structure Arguments where
  command : Option Command
  roots : List String
  deriving DecidableEq, Repr

/-- Reads the arguments: the first is a command when it names one, all others are project roots;
without roots the current directory is the project. -/
def Arguments.parse (raw : List String) : Arguments :=
  let command := raw.head?.bind Command.ofText?
  let roots := if command.isSome then raw.drop 1 else raw
  ⟨command, if roots = [] then ["."] else roots⟩

end LintWatch.Prompt
