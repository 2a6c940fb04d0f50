import LintWatch.Server.Supervisor

/-!
# What operations change

Each operation changes some of what a supervisor knows and leaves the rest as it is. Here stands
once for each of them what that is, so that what follows need not look into the operations again.
-/

namespace LintWatch.Server

namespace Supervisor

variable (s : Supervisor)

/-- A start finds no executable, launches a server that comes up, or one that does not. What the
supervisor knows of the executable is new in each case. -/
theorem start_cases (found : Option Path) (launch : ServerId → Path → Except Error Session) :
    (found = none ∧
      s.start found launch = ({ s with executable := none, isExecutableMissing := true }, none)) ∨
    (∃ executable session, found = some executable ∧
      launch ⟨s.nextServer⟩ executable = .ok session ∧
      s.start found launch =
        ({ s with
            executable := found
            isExecutableMissing := false
            nextServer := s.nextServer + 1
            servers := s.servers ++ [(⟨s.nextServer⟩, session)] },
          some ⟨s.nextServer⟩)) ∨
    ∃ executable e, found = some executable ∧ launch ⟨s.nextServer⟩ executable = .error e ∧
      s.start found launch =
        ({ s with
            executable := found
            isExecutableMissing := e.isMissingExecutable
            nextServer := s.nextServer + 1
            errors := s.errors ++ [e] },
          none) := by
  cases found with
  | none => exact .inl ⟨rfl, rfl⟩
  | some executable =>
      have hsettle : s.start (some executable) launch
          = (s.prepare (some executable)).1.settle ⟨s.nextServer⟩
              (launch ⟨s.nextServer⟩ executable) := rfl
      cases hlaunch : launch ⟨s.nextServer⟩ executable with
      | ok session =>
          rw [hlaunch] at hsettle
          exact .inr (.inl ⟨executable, session, rfl, hlaunch, hsettle⟩)
      | error e =>
          rw [hlaunch] at hsettle
          exact .inr (.inr ⟨executable, e, rfl, hlaunch, hsettle⟩)

/-- Events change servers, diagnostics and errors, and nothing else. -/
theorem exists_foldl_handle (events : List Event) : ∃ servers diagnostics errors,
    events.foldl handle s = { s with servers, diagnostics, errors } := by
  induction events generalizing s with
  | nil => exact ⟨_, _, _, rfl⟩
  | cons e events ih =>
      obtain ⟨servers, diagnostics, errors, heq⟩ := ih (s.handle e)
      refine ⟨servers, diagnostics, errors, heq.trans ?_⟩
      cases e with
      | diagnostics path items => rfl
      | transportFailed server error => rfl
      | exited id ending => rfl

/-- A change of a file changes servers and errors, and nothing else. -/
theorem exists_changeFile (file : Path) (text : String) (isOpen : ServerId → Bool) :
    ∃ servers errors, (s.changeFile file text isOpen).1 = { s with servers, errors } := by
  unfold changeFile
  split
  next => exact ⟨_, _, rfl⟩
  next => exact ⟨_, _, rfl⟩

end Supervisor

end LintWatch.Server
