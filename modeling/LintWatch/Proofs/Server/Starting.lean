import LintWatch.Proofs.Server.Run
import LintWatch.Rehearsal.Servers

/-!
# Starting a server

A start finds an executable or not, and the server that it launches comes up or not. What it returns
and queues, and what the supervisor knows of the executable afterwards, depends on this start alone
(`Supervisor.starts_afresh`), and the latter stays until the next start (`Supervision.known_run`).
So no start keeps a failure from the user, or reports a missing executable, because of another one:
`Supervision.starts_apart`.
-/

namespace LintWatch.Server

/-- An executable is missing if it is not found, or not there when it is to be spawned. -/
theorem Error.is_missing_executable_iff {e : Error} : e.isMissingExecutable = true ↔
    (∃ searched, e = .executableNotFound searched) ∨
      ∃ executable cause, e = .spawn executable cause ∧ cause.kind = .notFound := by
  cases e <;> simp [isMissingExecutable]

/-- The user is not told of a missing executable as an error. -/
theorem Error.notice_of_is_missing_executable {e : Error} (h : e.isMissingExecutable = true) :
    e.notice? = none := by
  unfold notice?
  rw [h, Bool.or_true, if_pos rfl]

namespace Supervisor

variable {s : Supervisor} {found : Option Path} {launch : ServerId → Path → Except Error Session}

/-- What a start comes to, `queued` being the errors that it queues behind those that wait: nothing
without an executable, the error of a server that does not come up, or a server. What is known of
the executable afterwards is what this start has found of it. -/
structure StartsAfresh (s : Supervisor) (found : Option Path)
    (launch : ServerId → Path → Except Error Session) (queued : List Error) : Prop where
  errors_eq : (s.start found launch).1.errors = s.errors ++ queued
  silent_iff : (s.start found launch).2 = none ∧ queued = [] ↔ found = none
  failed_iff (e : Error) : (s.start found launch).2 = none ∧ queued = [e] ↔
    ∃ executable, found = some executable ∧ launch ⟨s.nextServer⟩ executable = .error e
  running_iff : (s.start found launch).2 = some ⟨s.nextServer⟩ ∧ queued = [] ↔
    ∃ executable session, found = some executable ∧
      launch ⟨s.nextServer⟩ executable = .ok session
  executable_eq : (s.start found launch).1.executable = found
  missing_iff : (s.start found launch).1.isExecutableMissing = true ↔
    found = none ∨ ∃ executable spawned cause, found = some executable ∧
      launch ⟨s.nextServer⟩ executable = .error (.spawn spawned cause) ∧ cause.kind = .notFound
  /-- A missing executable is not among the errors that the user is told of. -/
  quiet : (s.start found launch).1.isExecutableMissing = true →
    queued.filterMap Error.notice? = []

/-- A launch gets an executable and does not look for one. -/
def LaunchesFound (s : Supervisor) (found : Option Path)
    (launch : ServerId → Path → Except Error Session) : Prop :=
  ∀ executable, found = some executable → ∀ searched,
    launch ⟨s.nextServer⟩ executable ≠ .error (.executableNotFound searched)

/-- Whatever starts came before, a start comes to what it finds and what becomes of the launch. -/
theorem starts_afresh (hlaunch : s.LaunchesFound found launch) :
    ∃ queued, s.StartsAfresh found launch queued := by
  rcases s.start_cases found launch with ⟨rfl, heq⟩ | ⟨executable, session, rfl, hok, heq⟩ |
      ⟨executable, e, rfl, herror, heq⟩
  · refine ⟨[], ?_⟩
    constructor <;> simp [heq]
  · refine ⟨[], ?_⟩
    constructor <;> simp [heq, hok]
  · have hsearched : ∀ searched, e ≠ .executableNotFound searched := by
      rintro searched rfl
      exact hlaunch executable rfl searched herror
    refine ⟨[e], ?_⟩
    constructor
    case missing_iff => simp [heq, herror, Error.is_missing_executable_iff, hsearched]
    case quiet =>
      intro hmissing
      rw [heq] at hmissing
      simp [Error.notice_of_is_missing_executable hmissing]
    all_goals simp [heq, herror, eq_comm]

/-- What is known of the executable. -/
def known (s : Supervisor) : Option Path × Bool :=
  (s.executable, s.isExecutableMissing)

/-- A step looks for an executable. -/
def Step.seeks : Step → Bool
  | .start _ _ | .restart _ _ => true
  | _ => false

end Supervisor

namespace Supervision

variable {w : Supervision} {s : Supervisor} {found : Option Path}
  {launch : ServerId → Path → Except Error Session} {step : Supervisor.Step}

/-- A step without a start leaves what is known of the executable. -/
theorem known_step (hstep : step.seeks = false) :
    (w.step step).supervisor.known = w.supervisor.known := by
  cases step with
  | start found launch => cases hstep
  | restart found launch => cases hstep
  | changeFile file text isOpen =>
      obtain ⟨servers, errors, heq⟩ := w.supervisor.exists_changeFile file text isOpen
      have hknown := congrArg Supervisor.known heq
      exact hknown
  | poll budget =>
      obtain ⟨servers, diagnostics, errors, heq⟩ :=
        w.supervisor.exists_foldl_handle (w.queue.take budget).1
      have hknown := congrArg Supervisor.known heq
      exact hknown
  | shutdown | configure | takeErrors | report => rfl

/-- What is known of the executable stays until the next start. -/
theorem known_run {steps : List Supervisor.Step} (hsteps : ∀ step ∈ steps, step.seeks = false) :
    (w.run steps).supervisor.known = w.supervisor.known := by
  induction steps generalizing w with
  | nil => rfl
  | cons step steps ih =>
      obtain ⟨hstep, hsteps⟩ := List.forall_mem_cons.1 hsteps
      exact (ih hsteps).trans (known_step hstep)

/-- The start that a step makes, and the supervisor that makes it. -/
inductive Starts (w : Supervision) : Supervisor.Step → Supervisor → Option Path →
    (ServerId → Path → Except Error Session) → Prop
  | start (found : Option Path) (launch : ServerId → Path → Except Error Session) :
      Starts w (.start found launch) w.supervisor found launch
  | restart (found : Option Path) (launch : ServerId → Path → Except Error Session) :
      Starts w (.restart found launch) w.supervisor.release.clearDiagnostics found launch

/-- Whatever a supervisor has been through, a start comes to what it finds and what becomes of the
launch, and whatever follows, this is known of the executable until the next start. -/
theorem starts_apart (hstarts : w.Starts step s found launch)
    (hlaunch : s.LaunchesFound found launch) {later : List Supervisor.Step}
    (hlater : ∀ step ∈ later, step.seeks = false) :
    ∃ queued, s.StartsAfresh found launch queued ∧
      (w.step step).supervisor = (s.start found launch).1 ∧
      ((w.step step).run later).supervisor.executable = found ∧
      ((w.step step).run later).supervisor.isExecutableMissing
        = (s.start found launch).1.isExecutableMissing := by
  obtain ⟨queued, hafresh⟩ := Supervisor.starts_afresh hlaunch
  have hstep : (w.step step).supervisor = (s.start found launch).1 := by
    cases hstarts <;> rfl
  have hknown := known_run (w := w.step step) hlater
  rw [hstep] at hknown
  obtain ⟨hexecutable, hmissing⟩ := Prod.mk.inj hknown
  exact ⟨queued, hafresh, hstep, hexecutable.trans hafresh.executable_eq, hmissing⟩

/-- A linter that must not be executed. -/
def deniedLinter : Error :=
  .spawn (.ofString "/bin/ruff") (.bare .permissionDenied)

/-- A linter that must not be executed is reported though the start before found none, and it is not
missing after that. -/
theorem starts_apart_after_missing :
    let w := (new .empty [] .standard).run [.start none fun _ _ => .ok .new]
    let linter := Path.ofString "/bin/ruff"
    let after := (w.step (.restart (some linter) fun _ _ => .error deniedLinter)).run
      [.takeErrors, .poll 64]
    w.supervisor.isExecutableMissing = true ∧
      w.supervisor.release.clearDiagnostics.StartsAfresh (some linter)
        (fun _ _ => .error deniedLinter) [deniedLinter] ∧
      after.supervisor.executable = some linter ∧
      after.supervisor.isExecutableMissing = false := by
  intro w linter after
  have hlaunch : w.supervisor.release.clearDiagnostics.LaunchesFound (some linter)
      fun _ _ => .error deniedLinter := fun _ _ _ => nofun
  have hlater : ∀ step ∈ [Supervisor.Step.takeErrors, .poll 64], step.seeks = false := by decide
  obtain ⟨queued, hafresh, -, hexecutable, hmissing⟩ :=
    starts_apart (w := w) (.restart (some linter) fun _ _ => .error deniedLinter) hlaunch hlater
  obtain ⟨-, rfl⟩ := (hafresh.failed_iff deniedLinter).2 ⟨linter, rfl, rfl⟩
  exact ⟨rfl, hafresh, hexecutable, hmissing.trans rfl⟩

end Supervision

end LintWatch.Server

namespace LintWatch.Rehearsal.Site

open Server (ServerId Supervisor)

variable {s : Site} {supervisor : Supervisor} {id : ServerId}

/-- Setting a server up does not look for an executable. -/
theorem outcome_setUp_ne (r : Running) (searched : Option Path) :
    (s.setUp supervisor id r).1.outcome ≠ .error (.executableNotFound searched) := by
  unfold setUp Launch.outcome
  grind

/-- Starting a server on a site does not look for an executable. -/
theorem outcome_launch_ne (executable : Path) (searched : Option Path) :
    (s.launch supervisor id executable).1.outcome ≠ .error (.executableNotFound searched) := by
  unfold launch
  dsimp only
  split
  next e hresolve => exact nofun
  next program dir hresolve => exact outcome_setUp_ne _ searched

/-- What a site makes of a start is a launch of what was found. -/
theorem launches_found (s : Site) (supervisor : Supervisor) :
    supervisor.LaunchesFound (s.attempt supervisor).1.found
      fun id p => ((s.attempt supervisor).1.launch id p).outcome := by
  unfold attempt
  split
  next => exact nofun
  next executable hlinter => exact fun _ _ searched => outcome_launch_ne executable searched

end LintWatch.Rehearsal.Site
