import LintWatch.Proofs.Host.Errors
import LintWatch.Proofs.Settings.Persist

/-!
# Settings in three places

The host, the scanner and the supervisor each have the settings, and the scanner has the executable
of the supervisor too. They agree after every run of operations, and a toggle of the respect for
`noqa` comments either reaches all of them and the configuration file, or changes nothing:
`toggles_whole`.
-/

namespace LintWatch

open Server (EventQueue ServerId Session Supervisor)

namespace Server.Supervisor

variable (s : Supervisor)

/-- What the supervisor knows of settings and executable. -/
def setup : Settings × Option Path :=
  (s.settings, s.executable)

/-- A change of a file leaves the settings and the executable. -/
theorem setup_changeFile (file : Path) (text : String) (isOpen : ServerId → Bool) :
    (s.changeFile file text isOpen).1.setup = s.setup := by
  obtain ⟨servers, errors, heq⟩ := s.exists_changeFile file text isOpen
  rw [heq]
  rfl

/-- Events leave the settings and the executable. -/
theorem setup_foldl_handle (events : List Server.Event) :
    (events.foldl handle s).setup = s.setup := by
  obtain ⟨servers, diagnostics, errors, heq⟩ := s.exists_foldl_handle events
  rw [heq]
  rfl

end Server.Supervisor

namespace Host

variable {h h' : Host} {env : Environment} {attempt : Environment → Attempt}

/-- The settings are the same in all three places, and the scanner has the executable of the
supervisor. -/
structure Agrees (h : Host) : Prop where
  scanner : h.scanner.settings = h.settings
  supervisor : h.supervisor.settings = h.settings
  executable : h.scanner.executable = h.supervisor.executable

/-- What the user or the world does to a host. -/
inductive Step where
  | restart (a : Attempt)
  | beginLint (roots : List Path)
  | endLint (r : Scan.Run)
  | toggleNoqa (env : Environment) (attempt : Environment → Attempt)
  | openGlobalConfig
  | changeFile (file : Path) (text : String) (isOpen : ServerId → Bool)
  | pump (q : EventQueue)

/-- The host after a step; none stands for a crash. -/
def step? (h : Host) : Step → Option Host
  | .restart a => some (h.restart a).1
  | .beginLint roots => some (h.beginLint roots).1
  | .endLint r => some (h.endLint r).1
  | .toggleNoqa env attempt => (h.toggleNoqa? env attempt).map (·.host)
  | .openGlobalConfig => some h
  | .changeFile file text isOpen => some (h.changeFile file text isOpen).1
  | .pump q => some (h.pump q).1

/-- The host after several steps. -/
def run? (h : Host) (steps : List Step) : Option Host :=
  steps.foldlM step? h

/-- A restart leaves the settings of the supervisor. -/
theorem settings_supervisorAfter (s : Supervisor) (a : Attempt) :
    (supervisorAfter s a).settings = s.settings := by
  cases hfound : a.found with
  | none =>
      unfold supervisorAfter
      rw [hfound]
      rfl
  | some executable =>
      rw [supervisorAfter_of_found s hfound]
      cases a.launch ⟨s.nextServer⟩ executable with
      | running session => rfl
      | failed e => rfl
      | silent => rfl

/-- All agree after a restart. -/
theorem Agrees.restart (hagrees : h.Agrees) (a : Attempt) : (h.restart a).1.Agrees :=
  ⟨hagrees.scanner, (settings_supervisorAfter h.supervisor a).trans hagrees.supervisor, rfl⟩

/-- All agree after something that leaves the settings and the executable of the supervisor. -/
theorem Agrees.with_supervisor (hagrees : h.Agrees) {s : Supervisor}
    (hs : s.setup = h.supervisor.setup) : { h with supervisor := s }.report.1.Agrees := by
  obtain ⟨hsettings, hexecutable⟩ := Prod.mk.inj hs
  exact ⟨hagrees.scanner, hsettings.trans hagrees.supervisor,
    hagrees.executable.trans hexecutable.symm⟩

/-! ## Toggles -/

/-- A toggle that has reached everything. -/
structure TogglesAll (h : Host) (env : Environment) (t : Toggled) : Prop where
  isSaved : t.isSaved = true
  /-- Nothing but the value has changed. -/
  settings : t.host.settings = h.settings.withUseNoqa (!h.settings.respectsNoqa)
  agrees : t.host.Agrees
  effective : t.host.settings.respectsNoqa = !h.settings.respectsNoqa
  written : ∃ file, h.configFile = some file ∧
    Settings.Writes env file (!h.settings.respectsNoqa) t.env

/-- Why a toggle has failed. -/
inductive IsReason (configFile : Option Path) : HostError → Prop where
  | noConfigPath : configFile = none → IsReason configFile .noConfigPath
  | read {file : Path} {cause : IoError} :
      configFile = some file → IsReason configFile (.config (.read file cause))
  | edit {file : Path} : configFile = some file → IsReason configFile (.config (.edit file))
  | write {file : Path} {cause : IoError} :
      configFile = some file → IsReason configFile (.config (.write file cause))

/-- A toggle that has changed nothing. -/
structure TogglesNothing (h : Host) (env : Environment) (t : Toggled) : Prop where
  isSaved : t.isSaved = false
  host : t.host = h
  /-- Directories may have been made, but every file is as it was. -/
  files : env.files.Extends t.env.files
  bytes (p : Path) (content : List UInt8) : env.files.read env.directory p = .ok content →
    t.env.files.read t.env.directory p = .ok content
  notice : ∃ e, t.notices = [e.notice] ∧ IsReason h.configFile e

/-- A toggle reaches everything or changes nothing. -/
theorem Agrees.toggle (hagrees : h.Agrees) {t : Toggled}
    (ht : h.toggleNoqa? env attempt = some t) : TogglesAll h env t ∨ TogglesNothing h env t := by
  unfold toggleNoqa? at ht
  dsimp only at ht
  split at ht
  next hfile =>
    obtain rfl := Option.some.inj ht
    exact Or.inr ⟨rfl, rfl, .refl _, fun _ _ => id, _, rfl, .noConfigPath hfile⟩
  next file hfile =>
  split at ht
  next => cases ht
  next env' e hpersist =>
    obtain rfl := Option.some.inj ht
    obtain ⟨rfl, hreason⟩ := Settings.fails_of_persistUseNoqa hpersist
    have hmore := Settings.extends_prepared env file
    have hbytes : ∀ p content, env.files.read env.directory p = .ok content →
        (Settings.prepared env file).files.read env.directory p = .ok content :=
      fun _ _ hread => FileTree.read_extends hmore hread
    refine Or.inr ⟨rfl, rfl, hmore, hbytes, .config e, rfl, ?_⟩
    rcases hreason with ⟨cause, rfl⟩ | rfl | ⟨cause, rfl⟩
    · exact .read hfile
    · exact .edit hfile
    · exact .write hfile
  next env' hpersist =>
    obtain rfl := Option.some.inj ht
    have hvalue : (h.withUseNoqa (!h.settings.respectsNoqa)).Agrees :=
      ⟨rfl, rfl, hagrees.executable⟩
    exact Or.inl ⟨rfl, rfl, hvalue.restart (attempt env'), rfl, file, hfile,
      Settings.writes_of_saved hpersist⟩

/-- A toggle crashes where writing the value does. -/
theorem toggleNoqa?_eq_none_iff :
    h.toggleNoqa? env attempt = none ↔
      ∃ file, h.configFile = some file ∧ Settings.Crashes env file := by
  unfold toggleNoqa?
  dsimp only
  cases h.configFile with
  | none =>
      refine iff_of_false (fun heq => nomatch heq) ?_
      rintro ⟨file, heq, -⟩
      cases heq
  | some file =>
      constructor
      · intro heq
        refine ⟨file, rfl, ?_⟩
        dsimp only at heq
        split at heq
        next hpersist => exact Settings.persistUseNoqa_eq_crashed_iff.1 hpersist
        next => cases heq
        next => cases heq
      · rintro ⟨file', heq, hcrashes⟩
        obtain rfl := Option.some.inj heq
        dsimp only
        rw [Settings.persistUseNoqa_eq_crashed_iff.2 hcrashes]

/-- Beginning a scan leaves the settings and the executable. -/
theorem setup_begin? {s s' : Scan.Scanner} {roots : List Path} (hbegin : s.begin? roots = some s') :
    s'.settings = s.settings ∧ s'.executable = s.executable := by
  unfold Scan.Scanner.begin? at hbegin
  split at hbegin
  next => cases hbegin
  next =>
    obtain rfl := Option.some.inj hbegin
    exact ⟨rfl, rfl⟩

/-- All agree after a step. -/
theorem Agrees.step (hagrees : h.Agrees) {step : Step} (hstep : h.step? step = some h') :
    h'.Agrees := by
  cases step with
  | restart a =>
      obtain rfl := Option.some.inj hstep
      exact hagrees.restart a
  | beginLint roots =>
      obtain rfl := Option.some.inj hstep
      unfold beginLint
      split
      next => exact ⟨hagrees.scanner, hagrees.supervisor, hagrees.executable⟩
      split
      next => exact hagrees
      next scanner hbegin =>
        obtain ⟨hsettings, hexecutable⟩ := setup_begin? hbegin
        exact ⟨hsettings.trans hagrees.scanner, hagrees.supervisor,
          hexecutable.trans hagrees.executable⟩
  | endLint r =>
      obtain rfl := Option.some.inj hstep
      exact ⟨hagrees.scanner, hagrees.supervisor, hagrees.executable⟩
  | toggleNoqa env attempt =>
      obtain ⟨t, ht, rfl⟩ := Option.map_eq_some_iff.1 hstep
      rcases hagrees.toggle ht with hall | hnothing
      · exact hall.agrees
      · rw [hnothing.host]
        exact hagrees
  | openGlobalConfig =>
      obtain rfl := Option.some.inj hstep
      exact hagrees
  | changeFile file text isOpen =>
      obtain rfl := Option.some.inj hstep
      exact hagrees.with_supervisor (h.supervisor.setup_changeFile file text isOpen)
  | pump q =>
      obtain rfl := Option.some.inj hstep
      exact hagrees.with_supervisor (h.supervisor.setup_foldl_handle _)

/-- All agree after every run of steps. -/
theorem Agrees.run (hagrees : h.Agrees) {steps : List Step} (hrun : h.run? steps = some h') :
    h'.Agrees := by
  induction steps generalizing h with
  | nil =>
      obtain rfl := Option.some.inj hrun
      exact hagrees
  | cons step steps ih =>
      obtain ⟨next, hstep, hrest⟩ := Option.bind_eq_some_iff.1 hrun
      exact ih (hagrees.step hstep) hrest

/-- A world without a linter. -/
def noLinter : Attempt :=
  ⟨none, fun _ _ => .silent⟩

end Host

end LintWatch
