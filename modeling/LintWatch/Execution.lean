import LintWatch.IoError
import LintWatch.Path.Basic

/-!
# Running programs

What it takes to run a program, and what can be seen of it from outside when it reads nothing:
what it writes and how it ends.
-/

namespace LintWatch.Execution

/-- A program to run: its executable, its arguments and its working directory. -/
structure Invocation where
  executable : Path
  arguments : List String
  directory : Path
  deriving DecidableEq, Repr

/-- How a process ends: it exits with a code, or a signal ends it. -/
inductive Outcome where
  | code (value : Int)
  | signal (number : Nat)
  deriving DecidableEq, Repr

namespace Outcome

/-- The outcome that a raw wait status of the operating system encodes. -/
def ofWaitStatus (status : Nat) : Outcome :=
  if status % 128 = 0 then .code (status / 256 % 256 : Nat) else .signal (status % 128)

/-- The outcome of exiting with a number, of which the last eight bits count. -/
def ofExit (n : Int) : Outcome :=
  .code (n % 256)

/-- The names of signals, from the first one. -/
def signalNames : List String :=
  ["HUP", "INT", "QUIT", "ILL", "TRAP", "ABRT", "BUS", "FPE", "KILL", "USR1", "SEGV", "USR2",
    "PIPE", "ALRM", "TERM", "STKFLT", "CHLD", "CONT", "STOP", "TSTP", "TTIN", "TTOU", "URG", "XCPU",
    "XFSZ", "VTALRM", "PROF", "WINCH", "IO", "PWR", "SYS"]

/-- The outcome as text. -/
def display : Outcome → String
  | .code n => "exit status: " ++ toString n
  | .signal n =>
    "signal: " ++ toString n ++
      match n, signalNames[n - 1]? with
      | _ + 1, some name => " (SIG" ++ name ++ ")"
      | _, _ => ""

/-- The exit code of an outcome. -/
def code? : Outcome → Option Int
  | .code n => some n
  | .signal _ => none

end Outcome

/-- A run of a program: what it writes, how it ends and how many milliseconds it takes to. One
without an outcome never ends. A child that it leaves behind can keep its output open for some more
milliseconds, or for ever when there is no number. -/
structure Run where
  stdout : List UInt8
  stderr : List UInt8
  outcome : Option Outcome
  lasts : Nat
  heldOpen : Option Nat
  deriving DecidableEq, Repr, Inhabited

namespace Run

/-- The run of a program that writes nothing and exits at once. -/
def exit (n : Int) : Run :=
  ⟨[], [], some (.ofExit n), 0, some 0⟩

/-- Whether the run is over, with its output closed, before so many milliseconds have passed. -/
def endsWithin (milliseconds : Nat) (r : Run) : Bool :=
  r.outcome.isSome && r.heldOpen.any (r.lasts + · < milliseconds)

end Run

end LintWatch.Execution
