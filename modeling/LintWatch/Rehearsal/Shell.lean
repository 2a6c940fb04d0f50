import LintWatch.Execution
import LintWatch.Text.Utf8

/-!
# A small shell

The part of the shell language that short scripts need: commands one after the other, joined by
`;`, `&&` and `||`, words with quotes and variables, output sent to the error stream, and a few
built-in commands. Its input is empty, so that nothing can be read.
-/

namespace LintWatch.Rehearsal.Shell

/-- A piece of a word: text, or the value of a variable. -/
inductive Piece where
  | text (value : List Char)
  | reference (name : String)
  deriving DecidableEq, Repr

/-- A token of a script. -/
inductive Token where
  | word (pieces : List Piece)
  | toErrors
  | nowhere
  | next
  | ifOk
  | ifNotOk
  | apart
  deriving DecidableEq, Repr

/-- Whether a character may stand in the name of a variable. -/
def isNameChar (c : Char) : Bool :=
  c.isAlphanum || c = '_'

/-- The name of a variable behind a dollar sign, and what follows it. -/
def variableName (cs : List Char) : String × List Char :=
  match cs with
  | '?' :: rest => ("?", rest)
  | '$' :: rest => ("$", rest)
  | '\x7b' :: rest =>
    (String.ofList (rest.takeWhile isNameChar), (rest.dropWhile isNameChar).drop 1)
  | _ => (String.ofList (cs.takeWhile isNameChar), cs.dropWhile isNameChar)

/-- Reads the inside of double quotes, at most `fuel` pieces, up to the closing one. -/
def quoted : (fuel : Nat) → List Char → List Piece × List Char
  | 0, cs => ([], cs)
  | _ + 1, [] => ([], [])
  | _ + 1, '"' :: rest => ([], rest)
  | fuel + 1, '\\' :: c :: rest =>
    let (pieces, after) := quoted fuel rest
    if c = '"' ∨ c = '\\' ∨ c = '$' then (.text [c] :: pieces, after)
    else (.text ['\\', c] :: pieces, after)
  | fuel + 1, '$' :: rest =>
    let (name, rest) := variableName rest
    let (pieces, after) := quoted fuel rest
    (.reference name :: pieces, after)
  | fuel + 1, c :: rest =>
    let (pieces, after) := quoted fuel rest
    (.text [c] :: pieces, after)

/-- Whether a character ends a word. -/
def endsWord (c : Char) : Bool :=
  c = ' ' || c = '\t' || c = '\n' || c = ';' || c = '&' || c = '|' || c = '>'

/-- Reads a word, at most `fuel` pieces of it. -/
def word : (fuel : Nat) → List Char → List Piece × List Char
  | 0, cs => ([], cs)
  | _ + 1, [] => ([], [])
  | fuel + 1, '\'' :: rest =>
    let (pieces, after) := word fuel ((rest.dropWhile (· ≠ '\'')).drop 1)
    (.text (rest.takeWhile (· ≠ '\'')) :: pieces, after)
  | fuel + 1, '"' :: rest =>
    let (inside, rest) := quoted fuel rest
    let (pieces, after) := word fuel rest
    (.text [] :: inside ++ pieces, after)
  | fuel + 1, '\\' :: c :: rest =>
    let (pieces, after) := word fuel rest
    (.text [c] :: pieces, after)
  | fuel + 1, '$' :: rest =>
    let (name, rest) := variableName rest
    let (pieces, after) := word fuel rest
    (.reference name :: pieces, after)
  | fuel + 1, c :: rest =>
    if endsWord c then ([], c :: rest)
    else
      let (pieces, after) := word fuel rest
      (.text [c] :: pieces, after)

/-- The tokens of a script, at most `fuel`. -/
def tokens : (fuel : Nat) → List Char → List Token
  | 0, _ => []
  | fuel + 1, cs =>
    match cs with
    | [] => []
    | ' ' :: rest | '\t' :: rest => tokens fuel rest
    | '#' :: rest => tokens fuel (rest.dropWhile (· ≠ '\n'))
    | ';' :: rest | '\n' :: rest => .next :: tokens fuel rest
    | '&' :: '&' :: rest => .ifOk :: tokens fuel rest
    | '&' :: rest => .apart :: tokens fuel rest
    | '|' :: '|' :: rest => .ifNotOk :: tokens fuel rest
    | '>' :: '&' :: '2' :: rest | '1' :: '>' :: '&' :: '2' :: rest => .toErrors :: tokens fuel rest
    | '>' :: rest | '2' :: '>' :: rest =>
      .nowhere :: tokens fuel (word fuel (rest.dropWhile (· = ' '))).2
    | _ =>
      let (pieces, rest) := word (fuel + 1) cs
      .word pieces :: tokens fuel rest

/-- The text of a format: letters behind a backslash stand for characters, and `%s` and `%d` for
the arguments in turn. -/
def format : List Char → List String → List Char
  | '\\' :: 'n' :: cs, arguments => '\n' :: format cs arguments
  | '\\' :: 't' :: cs, arguments => '\t' :: format cs arguments
  | '\\' :: '\\' :: cs, arguments => '\\' :: format cs arguments
  | '%' :: '%' :: cs, arguments => '%' :: format cs arguments
  | '%' :: 's' :: cs, arguments | '%' :: 'd' :: cs, arguments =>
    (arguments.headD "").toList ++ format cs (arguments.drop 1)
  | c :: cs, arguments => c :: format cs arguments
  | [], _ => []

/-- The number that a text writes, or zero. -/
def number (text : String) : Nat :=
  (text.toNat?).getD 0

/-- The signal that an option names, by its number or its name. -/
def signalOf (option : String) : Nat :=
  let name := String.ofList (option.toList.dropWhile (· = '-'))
  match Execution.Outcome.signalNames.findIdx? fun s => s = name ∨ "SIG" ++ s = name with
  | some i => i + 1
  | none => number name

/-- What a script has done so far. -/
structure State where
  /-- The name by which the script goes. -/
  name : String
  /-- The directory in which it runs. -/
  directory : String
  /-- The programs that it can run, by name. -/
  program? : String → Option (List String → Execution.Run)
  values : List (String × String)
  status : Int
  stdout : List UInt8
  stderr : List UInt8
  lasts : Nat
  heldOpen : Nat
  outcome : Option Execution.Outcome

namespace State

variable (s : State)

/-- The text that a piece of a word stands for. -/
def expand : Piece → List Char
  | .text value => value
  | .reference "?" => (toString s.status).toList
  | .reference name => ((s.values.lookup name).getD "").toList

/-- Writes a text. -/
def say (toErrors : Bool) (text : String) : State :=
  let bytes := Text.Utf8.encode text
  if toErrors then { s with stderr := s.stderr ++ bytes }
  else { s with stdout := s.stdout ++ bytes }

/-- The state with another exit status. -/
def withStatus (n : Int) : State :=
  { s with status := n }

/-- The status of a command that has come to its end. -/
def statusOf : Execution.Outcome → Int
  | .code n => n
  | .signal n => 128 + n

/-- What the run of a program adds. `apart` says whether the script does not wait for it. -/
def add (r : Execution.Run) (toErrors silent apart : Bool) : State :=
  let shown := if silent then [] else r.stdout
  { s with
    stdout := s.stdout ++ if toErrors then [] else shown
    stderr := s.stderr ++ (if toErrors then shown else []) ++ r.stderr
    lasts := if apart then s.lasts else s.lasts + r.lasts
    heldOpen := if apart then max s.heldOpen r.lasts else s.heldOpen
    status := if apart then 0 else (r.outcome.map statusOf).getD 0 }

/-- Runs one command. `apart` says whether the script does not wait for it. -/
def command (words : List String) (toErrors silent apart : Bool) : State :=
  let write (text : String) : State := (if silent then s else s.say toErrors text).withStatus 0
  let stop (n : Nat) : State := { s with outcome := some (.signal n) }
  match words with
  | [] => s
  | ["exit"] => { s with outcome := some (.ofExit s.status) }
  | ["exit", n] => { s with outcome := some (.ofExit (number n)) }
  | "echo" :: "-n" :: rest => write (" ".intercalate rest)
  | "echo" :: rest => write (" ".intercalate rest ++ "\n")
  | "printf" :: text :: arguments => write (String.ofList (format text.toList arguments))
  | ["pwd"] => write (s.directory ++ "\n")
  | "read" :: rest =>
    { s with values := rest.map (·, "") ++ s.values, status := 1 }
  | ["true"] | [":"] | ["wait"] => s.withStatus 0
  | ["false"] => s.withStatus 1
  | ["kill", "$"] => stop 15
  | ["kill", option, "$"] => stop (signalOf option)
  | ["kill", "-s", name, "$"] => stop (signalOf name)
  | "exec" :: rest =>
    let s := command rest toErrors silent false
    { s with outcome := s.outcome.orElse fun _ => some (.ofExit s.status) }
  | name :: arguments =>
    match s.program? name with
    | some run => s.add (run arguments) toErrors silent apart
    | none => (s.say true (s.name ++ ": 1: " ++ name ++ ": not found\n")).withStatus 127

/-- Runs the rest of a script. `words` are those of the command so far, the last one first, and
`skip` says whether the command is passed over. -/
def run (s : State) (words : List String) (toErrors silent skip : Bool) : List Token → State
  | [] => finish s words toErrors silent skip false
  | t :: rest =>
    match t with
    | .word pieces =>
      run s (String.ofList (pieces.flatMap s.expand) :: words) toErrors silent skip rest
    | .toErrors => run s words true silent skip rest
    | .nowhere => run s words toErrors true skip rest
    | .next => run (finish s words toErrors silent skip false) [] false false false rest
    | .apart => run (finish s words toErrors silent skip true) [] false false false rest
    | .ifOk =>
      let s := finish s words toErrors silent skip false
      run s [] false false (s.status ≠ 0) rest
    | .ifNotOk =>
      let s := finish s words toErrors silent skip false
      run s [] false false (s.status = 0) rest
where
  /-- Runs the command that is complete, unless the script is over. -/
  finish (s : State) (words : List String) (toErrors silent skip apart : Bool) : State :=
    if skip || s.outcome.isSome then s else s.command words.reverse toErrors silent apart

end State

/-- The run in a directory of a script that goes by a name and can run other programs. -/
def run (program? : String → Option (List String → Execution.Run))
    (name directory script : String) : Execution.Run :=
  let cs := script.toList
  let start : State := ⟨name, directory, program?, [("0", name), ("$", "$")], 0, [], [], 0, 0, none⟩
  let s := start.run [] false false false (tokens (2 * cs.length + 2) cs)
  ⟨s.stdout, s.stderr, some (s.outcome.getD (.ofExit s.status)), s.lasts, some s.heldOpen⟩

end LintWatch.Rehearsal.Shell
