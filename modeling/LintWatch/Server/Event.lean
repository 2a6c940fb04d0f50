import LintWatch.Diagnostic.Basic
import LintWatch.Frame.Error
import LintWatch.Server.Dispatch
import LintWatch.Server.Exit

/-!
# Events of servers

What the host learns about its servers while it does other things. Events wait in a queue of
limited size; what does not fit waits behind it, in order.
-/

namespace LintWatch.Server

/-- Something that happened with a server. -/
inductive Event where
  | diagnostics (path : Path) (items : List LintWatch.Diagnostic)
  | transportFailed (server : ServerId) (error : TransportError)
  | exited (server : ServerId) (ending : Ending)
  deriving DecidableEq, Repr

/-- Events that wait to be handled, and those that wait for a place among them. -/
structure EventQueue where
  ready : List Event
  blocked : List Event
  deriving DecidableEq, Repr, Inhabited

namespace EventQueue

/-- How many events can be ready. -/
def capacity : Nat := 256

/-- The queue with nothing in it. -/
def empty : EventQueue := ⟨[], []⟩

variable (q : EventQueue)

/-- The events in the order in which they will be handled. -/
def toList : List Event :=
  q.ready ++ q.blocked

/-- The queue with the places that are free given to events that wait for one. -/
def advance : EventQueue :=
  ⟨q.toList.take capacity, q.toList.drop capacity⟩

/-- Adds an event, which waits if it finds no place. -/
def send (e : Event) : EventQueue :=
  advance ⟨q.ready, q.blocked ++ [e]⟩

/-- Adds an event if it finds a place. -/
def offer? (e : Event) : Option EventQueue :=
  if q.blocked = [] ∧ q.ready.length < capacity then some ⟨q.ready ++ [e], []⟩ else none

/-- Takes out the first events that are ready, at most `budget`. -/
def take (budget : Nat) : List Event × EventQueue :=
  (q.ready.take budget, ⟨q.ready.drop budget, q.blocked⟩)

/-- Giving places away keeps the order of the events. -/
@[simp]
theorem toList_advance : q.advance.toList = q.toList := by
  simp [advance, toList, List.take_append_drop]

/-- A new event comes last. -/
@[simp]
theorem toList_send (e : Event) : (q.send e).toList = q.toList ++ [e] := by
  rw [send, toList_advance]
  simp [toList]

/-- What is taken out stood in front. -/
theorem take_append_toList (budget : Nat) :
    (q.take budget).1 ++ (q.take budget).2.toList = q.toList := by
  simp [take, toList, ← List.append_assoc, List.take_append_drop]

end EventQueue

end LintWatch.Server
