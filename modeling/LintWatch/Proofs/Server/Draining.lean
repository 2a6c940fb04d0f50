import LintWatch.Server.Supervisor

/-!
# Handling events in pieces

The events of a queue are handled by polls with any budgets, and errors are taken at any time
between them. Whatever the pieces are, each event is handled once and in its turn: `Drains.run`.
What is known in the end, and the errors taken on the way, are those of handling all events at
once.
-/

namespace LintWatch.Server

/-- The error that an event brings, if any: the end of a server that has failed, and every failure
of the transport. -/
def Event.error? : Event → Option Error
  | .transportFailed _ e => some (.transport e)
  | .exited id (.failed code) => some (.exited id code)
  | _ => none

/-- What is done while events are handled: a poll, taking errors, giving events that wait for a
place those that are free, and the arrival of an event. -/
inductive Turn where
  | poll (budget : Nat)
  | takeErrors
  | advance
  | arrive (e : Event)
  deriving DecidableEq, Repr

/-- The event that arrives in a turn. -/
def Turn.arrival? : Turn → Option Event
  | .arrive e => some e
  | _ => none

/-- A supervisor and its queue, how many events the polls have handled so far, and the errors that
have been taken each time. -/
structure Draining where
  supervisor : Supervisor
  queue : EventQueue
  handled : Nat
  taken : List (List Error)

namespace Draining

/-- Nothing has been handled yet. -/
def new (s : Supervisor) (q : EventQueue) : Draining :=
  ⟨s, q, 0, []⟩

variable (d : Draining)

/-- What comes of one turn. -/
def step : Turn → Draining
  | .poll budget =>
    let (supervisor, queue, count) := d.supervisor.poll budget d.queue
    { d with supervisor, queue, handled := d.handled + count }
  | .takeErrors =>
    let (supervisor, errors) := d.supervisor.takeErrors
    { d with supervisor, taken := d.taken ++ [errors] }
  | .advance => { d with queue := d.queue.advance }
  | .arrive e => { d with queue := d.queue.send e }

/-- What comes of several turns. -/
def run (turns : List Turn) : Draining :=
  turns.foldl step d

/-- All errors there have been: those that have been taken, then those that have not. -/
def errors : List Error :=
  d.taken.flatten ++ d.supervisor.errors

end Draining

namespace Supervisor

variable (s : Supervisor)

/-- A poll handles as many events as its budget and the queue allow. -/
theorem count_poll (budget : Nat) (q : EventQueue) :
    (s.poll budget q).2.2 = min budget q.ready.length := by
  show (q.ready.take budget).length = _
  exact List.length_take

/-- A poll whose budget suffices handles all events of a queue in which none waits for a place. -/
theorem poll_all {budget : Nat} {q : EventQueue} (hblocked : q.blocked = [])
    (hbudget : q.ready.length ≤ budget) :
    s.poll budget q = (q.toList.foldl handle s, .empty, q.toList.length) := by
  have htake : q.take budget = (q.toList, .empty) := by
    unfold EventQueue.take EventQueue.toList EventQueue.empty
    rw [List.take_of_length_le hbudget, List.drop_eq_nil_of_le hbudget, hblocked, List.append_nil]
  unfold poll
  rw [htake]

/-- Handling an event adds the error it brings. -/
theorem errors_handle (e : Event) : (s.handle e).errors = s.errors ++ e.error?.toList := by
  cases e with
  | diagnostics path items => exact (List.append_nil _).symm
  | transportFailed server error => rfl
  | exited id ending =>
      cases ending with
      | failed code => rfl
      | requested => exact (List.append_nil _).symm
      | clean => exact (List.append_nil _).symm
      | signaled => exact (List.append_nil _).symm
      | lost text => exact (List.append_nil _).symm

/-- Handling events adds the errors they bring, in order. -/
theorem errors_foldl_handle (events : List Event) :
    (events.foldl handle s).errors = s.errors ++ events.filterMap Event.error? := by
  induction events generalizing s with
  | nil => exact (List.append_nil _).symm
  | cons e events ih =>
      rw [List.foldl_cons, ih, errors_handle, List.filterMap_cons, List.append_assoc]
      cases e.error? with
      | none => rfl
      | some error => rfl

/-- Errors from before do not matter to an event. -/
theorem handle_with_errors (past : List Error) (e : Event) :
    handle { s with errors := past ++ s.errors } e
      = { s.handle e with errors := past ++ (s.handle e).errors } := by
  cases e with
  | diagnostics path items => rfl
  | transportFailed server error => simp only [handle, List.append_assoc]
  | exited id ending =>
      cases ending with
      | failed code => simp only [handle, List.append_assoc]
      | requested => rfl
      | clean => rfl
      | signaled => rfl
      | lost text => rfl

/-- Errors from before do not matter to events. -/
theorem foldl_handle_with_errors (past : List Error) (events : List Event) :
    events.foldl handle { s with errors := past ++ s.errors }
      = { events.foldl handle s with errors := past ++ (events.foldl handle s).errors } := by
  induction events generalizing s with
  | nil => rfl
  | cons e events ih => rw [List.foldl_cons, List.foldl_cons, handle_with_errors, ih]

end Supervisor

/-- Of all events, the first ones have been handled, each once and in its turn, and the others are
in the queue. But for the errors that have been taken the supervisor is what it would be if those
had been handled at once. -/
structure Drains (s : Supervisor) (all : List Event) (d : Draining) : Prop where
  handled_le : d.handled ≤ all.length
  queue : d.queue.toList = all.drop d.handled
  supervisor : { d.supervisor with errors := d.errors }
    = (all.take d.handled).foldl Supervisor.handle s

variable {s : Supervisor} {all : List Event} {d : Draining}

/-- Nothing is handled at first. -/
theorem drains_new (s : Supervisor) (q : EventQueue) : Drains s q.toList (.new s q) :=
  ⟨Nat.zero_le _, rfl, rfl⟩

/-- A poll handles the next events. -/
theorem Drains.poll (h : Drains s all d) (budget : Nat) : Drains s all (d.step (.poll budget)) := by
  have htake := d.queue.take_append_toList budget
  generalize hevents : (d.queue.take budget).1 = events at htake
  have hhandled : (d.step (.poll budget)).handled = d.handled + events.length := by
    rw [← hevents]
    rfl
  have hqueue : events ++ (d.queue.take budget).2.toList = all.drop d.handled :=
    htake.trans h.queue
  have hlength : d.handled + events.length ≤ all.length := by
    have hle := congrArg List.length hqueue
    have := h.handled_le
    rw [List.length_append, List.length_drop] at hle
    omega
  have hnext : all.take (d.handled + events.length) = all.take d.handled ++ events := by
    rw [List.take_add, ← hqueue, List.take_left']
    rfl
  refine ⟨hhandled ▸ hlength, ?_, ?_⟩
  · show (d.queue.take budget).2.toList = _
    rw [hhandled, ← List.drop_drop, ← hqueue, List.drop_left']
    rfl
  · have hsupervisor : (d.step (.poll budget)).supervisor
        = events.foldl Supervisor.handle d.supervisor := by
      rw [← hevents]
      rfl
    have herrors : (d.step (.poll budget)).errors
        = d.taken.flatten ++ (d.step (.poll budget)).supervisor.errors := rfl
    rw [hhandled, hnext, List.foldl_append, ← h.supervisor, herrors, hsupervisor]
    exact (d.supervisor.foldl_handle_with_errors d.taken.flatten events).symm

/-- Each turn keeps what is handled in order; an event that arrives is the last. -/
theorem Drains.step (h : Drains s all d) (turn : Turn) :
    Drains s (all ++ turn.arrival?.toList) (d.step turn) := by
  cases turn with
  | poll budget =>
      rw [show all ++ (Turn.poll budget).arrival?.toList = all from List.append_nil all]
      exact h.poll budget
  | takeErrors =>
      rw [show all ++ Turn.takeErrors.arrival?.toList = all from List.append_nil all]
      refine ⟨h.handled_le, h.queue, ?_⟩
      have herrors : (d.step .takeErrors).errors = d.errors := by
        show (d.taken ++ [d.supervisor.errors]).flatten ++ [] = _
        rw [List.flatten_append, List.append_nil, List.flatten_cons, List.flatten_nil,
          List.append_nil]
        rfl
      rw [herrors]
      exact h.supervisor
  | advance =>
      rw [show all ++ Turn.advance.arrival?.toList = all from List.append_nil all]
      exact ⟨h.handled_le, d.queue.toList_advance.trans h.queue, h.supervisor⟩
  | arrive e =>
      have hle := h.handled_le
      refine ⟨?_, ?_, ?_⟩
      · show d.handled ≤ _
        rw [List.length_append]
        omega
      · show (d.queue.send e).toList = (all ++ [e]).drop d.handled
        rw [EventQueue.toList_send, h.queue, List.drop_append_of_le_length hle]
      · show _ = ((all ++ [e]).take d.handled).foldl Supervisor.handle s
        rw [List.take_append_of_le_length hle]
        exact h.supervisor

/-- However events are handled, each is handled once and in its turn. -/
theorem Drains.run (h : Drains s all d) (turns : List Turn) :
    Drains s (all ++ turns.filterMap Turn.arrival?) (d.run turns) := by
  induction turns generalizing all d with
  | nil =>
      rw [List.filterMap_nil, List.append_nil]
      exact h
  | cons turn turns ih =>
      have hrest := ih (h.step turn)
      rw [List.append_assoc] at hrest
      rw [List.filterMap_cons]
      cases harrival : turn.arrival? with
      | none =>
          rw [harrival] at hrest
          exact hrest
      | some e =>
          rw [harrival] at hrest
          exact hrest

/-- Once all events have been handled, the supervisor and the errors are those of handling all at
once. -/
theorem Drains.complete (h : Drains s all d) (hdone : d.queue.toList = []) :
    { d.supervisor with errors := d.errors } = all.foldl Supervisor.handle s := by
  have hlength := congrArg List.length h.queue
  rw [hdone, List.length_drop, List.length_nil] at hlength
  have hall : all.take d.handled = all := List.take_of_length_le (by omega)
  rw [h.supervisor, hall]

/-- What holds of a supervisor and a queue whose events are handled in pieces, while more arrive. -/
structure HandlesEach (s : Supervisor) (q : EventQueue) (turns : List Turn) : Prop where
  /-- Each event is handled once and in its turn. -/
  in_order : Drains s (q.toList ++ turns.filterMap Turn.arrival?) ((Draining.new s q).run turns)
  /-- In the end all is as if all had been handled at once, the errors that were taken included. -/
  together : ((Draining.new s q).run turns).queue.toList = [] →
    { ((Draining.new s q).run turns).supervisor with
        errors := ((Draining.new s q).run turns).errors }
      = (q.toList ++ turns.filterMap Turn.arrival?).foldl Supervisor.handle s
  /-- Each poll handles as many events as it may and can. -/
  count (s : Supervisor) (budget : Nat) (q : EventQueue) :
    (s.poll budget q).2.2 = min budget q.ready.length
  /-- One poll may handle all. -/
  at_once (budget : Nat) : q.blocked = [] → q.ready.length ≤ budget →
    s.poll budget q = (q.toList.foldl Supervisor.handle s, .empty, q.toList.length)
  /-- Only failed ends and failures of the transport bring errors, one each. -/
  errors (events : List Event) :
    (events.foldl Supervisor.handle s).errors = s.errors ++ events.filterMap Event.error?

/-- All this holds of every supervisor and every queue. -/
theorem handles_each (s : Supervisor) (q : EventQueue) (turns : List Turn) :
    HandlesEach s q turns :=
  have hrun := (drains_new s q).run turns
  ⟨hrun, hrun.complete, Supervisor.count_poll, fun _ => s.poll_all, s.errors_foldl_handle⟩

end LintWatch.Server
