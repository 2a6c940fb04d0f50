import LintWatch.Host
import LintWatch.Proofs.Server.Draining
import LintWatch.Proofs.Server.Effects

/-!
# What the user is told of errors

Errors of servers are queued where they arise and taken at the end of each operation of the host
that may bring one. The user is told of each in turn, but for those that stopping a server brings
about and for a missing executable: `reports_each`.
-/

namespace LintWatch

open Server (Event EventQueue HandlesEach ServerId Session Supervisor Turn)

namespace Server.Supervisor

variable (s : Supervisor)

/-- The errors of a start that the supervisor waits for. -/
def launchErrors (found : Option Path) (launch : ServerId → Path → Except Server.Error Session) :
    List Server.Error :=
  match found with
  | none => []
  | some executable =>
    match launch ⟨s.nextServer⟩ executable with
    | .ok _ => []
    | .error e => [e]

/-- A start adds the error of a launch that fails. -/
theorem errors_start (found : Option Path)
    (launch : ServerId → Path → Except Server.Error Session) :
    (s.start found launch).1.errors = s.errors ++ s.launchErrors found launch := by
  obtain ⟨hfound, heq⟩ | ⟨_, _, hfound, hlaunch, heq⟩ | ⟨_, _, hfound, hlaunch, heq⟩ :=
    s.start_cases found launch <;> rw [heq]
  · simp [launchErrors, hfound]
  · simp [launchErrors, hfound, hlaunch]
  · simp [launchErrors, hfound, hlaunch]

/-- The errors of messages that do not reach their server. -/
def lostErrors (messages : List (ServerId × Json)) (isOpen : ServerId → Bool) :
    List Server.Error :=
  (messages.filter fun m => !isOpen m.1).map fun _ => .channelClosed

/-- A change of a file adds an error for each message that is lost. -/
theorem errors_changeFile (file : Path) (text : String) (isOpen : ServerId → Bool) :
    (s.changeFile file text isOpen).1.errors
      = s.errors ++ lostErrors (s.changeFile file text isOpen).2 isOpen := by
  unfold changeFile
  split
  next => exact (List.append_nil _).symm
  next => rfl

/-- A poll adds the errors of the events that it handles. -/
theorem errors_poll (budget : Nat) (q : EventQueue) :
    (s.poll budget q).1.errors = s.errors ++ (q.ready.take budget).filterMap Event.error? :=
  s.errors_foldl_handle (q.ready.take budget)

end Server.Supervisor

namespace Host

/-- The errors of a start that the host does not wait for when it is silent. -/
def restartErrors (s : Supervisor) (a : Attempt) : List Server.Error :=
  match a.found with
  | none => []
  | some executable =>
    match a.launch ⟨s.nextServer⟩ executable with
    | .failed e => [e]
    | .running _ | .silent => []

/-- What a restart makes of a launch. -/
theorem supervisorAfter_of_found (s : Supervisor) {a : Attempt} {executable : Path}
    (hfound : a.found = some executable) :
    supervisorAfter s a =
      match a.launch ⟨s.nextServer⟩ executable with
      | .silent => (s.release.clearDiagnostics.prepare (some executable)).1
      | launched => ((s.release.clearDiagnostics.prepare (some executable)).1.settle
          ⟨s.nextServer⟩ launched.outcome).1 := by
  unfold supervisorAfter
  rw [hfound]
  rfl

/-- A restart adds the error of a launch that fails. -/
theorem errors_supervisorAfter (s : Supervisor) (a : Attempt) :
    (supervisorAfter s a).errors = s.errors ++ restartErrors s a := by
  cases hfound : a.found with
  | none =>
      unfold supervisorAfter restartErrors
      rw [hfound]
      exact (List.append_nil _).symm
  | some executable =>
      unfold restartErrors
      rw [supervisorAfter_of_found s hfound, hfound]
      dsimp only
      cases a.launch ⟨s.nextServer⟩ executable with
      | running session => exact (List.append_nil _).symm
      | failed e => rfl
      | silent => exact (List.append_nil _).symm

/-- The user is told of the errors, each in turn, and none is left. -/
structure Reports (errors : List Server.Error) (h : Host) (notices : List Notice) : Prop where
  notices_eq : notices = errors.filterMap Server.Error.notice?
  none_left : h.supervisor.errors = []

variable (h : Host)

/-- What each operation that may bring errors tells the user: what was queued, and what it adds. -/
structure ReportsEach (h : Host) : Prop where
  start (a : Attempt) :
    Reports (h.supervisor.errors
        ++ h.supervisor.launchErrors a.found fun id p => (a.launch id p).outcome)
      (h.start a).1 (h.start a).2
  restart (a : Attempt) :
    Reports (h.supervisor.errors ++ restartErrors h.supervisor a) (h.restart a).1 (h.restart a).2
  changeFile (file : Path) (text : String) (isOpen : ServerId → Bool) :
    Reports (h.supervisor.errors
        ++ Supervisor.lostErrors (h.supervisor.changeFile file text isOpen).2 isOpen)
      (h.changeFile file text isOpen).1 (h.changeFile file text isOpen).2.2
  pump (q : EventQueue) :
    Reports (h.supervisor.errors ++ (q.ready.take eventBudget).filterMap Event.error?)
      (h.pump q).1 (h.pump q).2.2.2

/-- Every operation that may bring errors reports them. -/
theorem reports_each : h.ReportsEach := by
  refine ⟨fun a => ?_, fun a => ?_, fun file text isOpen => ?_, fun q => ?_⟩
  · rw [← h.supervisor.errors_start]
    exact ⟨rfl, rfl⟩
  · rw [← errors_supervisorAfter]
    exact ⟨rfl, rfl⟩
  · rw [← h.supervisor.errors_changeFile]
    exact ⟨rfl, rfl⟩
  · rw [← h.supervisor.errors_poll]
    exact ⟨rfl, rfl⟩

end Host

/-- The user is told of an error unless stopping a server brings it about or the executable is
missing. -/
theorem Server.Error.notice?_isSome_iff (e : Server.Error) :
    e.notice?.isSome = true ↔ e.isRoutine = false ∧ e.isMissingExecutable = false := by
  unfold Server.Error.notice?
  cases hroutine : e.isRoutine with
  | true => exact iff_of_false Bool.false_ne_true fun h => Bool.false_ne_true h.1.symm
  | false =>
      cases hmissing : e.isMissingExecutable with
      | true => exact iff_of_false Bool.false_ne_true fun h => Bool.false_ne_true h.2.symm
      | false => exact iff_of_true rfl ⟨rfl, rfl⟩

/-- However the events of servers are handled, each is handled once and in its turn, and the user is
told of each error that needs attention, of no other, and of none later than the operation that
brought it. -/
theorem handled_and_reported (s : Supervisor) (q : EventQueue) (turns : List Turn) (h : Host) :
    HandlesEach s q turns ∧ h.ReportsEach ∧
      ∀ e : Server.Error,
        e.notice?.isSome = true ↔ e.isRoutine = false ∧ e.isMissingExecutable = false :=
  ⟨Server.handles_each s q turns, h.reports_each, Server.Error.notice?_isSome_iff⟩

end LintWatch
