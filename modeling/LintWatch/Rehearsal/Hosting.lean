import LintWatch.Command
import LintWatch.Rehearsal.Servers
import LintWatch.Settings.File

/-!
# The host in a rehearsal

A stage is a site with a host on it. Each operation of the host is carried out with what the site
makes of it, and tells what the user gets to see.
-/

namespace LintWatch.Rehearsal

/-- What the user gets to see: notices, files that are opened, and sets of findings. -/
structure Shown where
  notices : List Notice
  opened : List Path
  published : List (List Diagnostic)

/-- Only notices. -/
def Shown.ofNotices (notices : List Notice) : Shown :=
  ⟨notices, [], []⟩

/-- What the user gets to see one after the other. -/
def Shown.append (a b : Shown) : Shown :=
  ⟨a.notices ++ b.notices, a.opened ++ b.opened, a.published ++ b.published⟩

/-- A site with a host on it, and the roots of the project. -/
structure Stage where
  site : Site
  host : Host
  roots : List Path

namespace Stage

/-- Starts a host on a site. -/
def start (site : Site) (settings : Settings) (configFile globalConfig : Option Path)
    (roots : List Path) : Stage × Shown :=
  let host := Host.new settings configFile globalConfig (site.env.workspaceDirectories roots)
  let (a, site) := site.attempt host.supervisor
  let (host, notices) := host.start a
  (⟨site, host, roots⟩, .ofNotices notices)

variable (s : Stage)

/-- Restarts the server of the host. -/
def restart : Stage × Shown :=
  let (a, site) := s.site.attemptAgain s.host.supervisor
  let (host, notices) := s.host.restart a
  ({ s with site, host }, .ofNotices notices)

/-- Checks the project. -/
def lint : Stage × Shown :=
  let check (i : Execution.Invocation) : StateM Site _ := fun site => site.check .standard i
  let ((host, notices, published), site) := (s.host.lint s.site.env check s.roots).run s.site
  ({ s with site, host }, ⟨notices, [], published.toList⟩)

/-- Turns the respect for `noqa` comments around; none stands for a crash. -/
def toggleNoqa? : Option (Stage × Shown) := do
  let supervisor := (s.host.withUseNoqa (!s.host.settings.respectsNoqa)).supervisor
  let restarted (env : Environment) := { s.site with env }.attemptAgain supervisor
  let t ← s.host.toggleNoqa? s.site.env fun env => (restarted env).1
  let site := if t.isSaved then (restarted t.env).2 else { s.site with env := t.env }
  return ({ s with site, host := t.host }, .ofNotices t.notices)

/-- Carries out a command; `opened` says what comes of opening a file. None stands for a crash. -/
def execute? (opened : Path → Except IoError Unit) : Command → Option (Stage × Shown)
  | .restartServer => some s.restart
  | .lintProject => some s.lint
  | .toggleNoqa => s.toggleNoqa?
  | .openGlobalConfig =>
    some (s, ⟨s.host.openGlobalConfig opened, s.host.globalConfig.toList, []⟩)

/-- Tells the host that a file has another text. -/
def changeFile (file : Path) (text : String) : Stage × Shown :=
  let (host, messages, notices) := s.host.changeFile file text s.site.isOpen
  ({ s with site := s.site.tellAll messages, host }, .ofNotices notices)

/-- Lets the host handle events, and says how many. -/
def pump : Nat × Stage × Shown :=
  let (host, queue, count, notices) := s.host.pump s.site.queue
  (count, { s with host, site := { s.site with queue := queue.advance } }, .ofNotices notices)

/-- Lets the host handle events until so many have been handled or none is ready, and says how many
have been; `fuel` bounds the rounds. -/
def pumpFor (count : Nat) : (fuel : Nat) → Stage → Nat × Stage × Shown
  | 0, s => (0, s, .ofNotices [])
  | fuel + 1, s =>
    let (handled, s, seen) := s.pump
    if handled = 0 ∨ count ≤ handled then (handled, s, seen)
    else
      let (more, s, later) := pumpFor (count - handled) fuel s
      (handled + more, s, seen.append later)

/-- Ends the host. -/
def dispose : Stage :=
  { s with site := s.site.stopAll s.host.supervisor, host := s.host.dispose }

end Stage

end LintWatch.Rehearsal
