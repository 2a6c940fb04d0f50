import LintWatch.Host
import LintWatch.Proofs.Files.Walk
import LintWatch.Proofs.Path.Components
import LintWatch.Proofs.Scan.Progress

/-!
# A scan, root by root

Whatever the checks come to, a scan runs one for each root, in order, and what it publishes is what
the roots contribute, one after the other (`scans_root_by_root`). What a root contributes depends on
the result of its own check only: `contributed?` says it without regard to how a scan goes on.
-/

namespace LintWatch.Scan

open LintWatch.Execution (Invocation)

/-- What those of the roots contribute whose results are used. -/
def contributions (env : Environment) (showsSyntaxErrors : Bool) (roots : List Path)
    (results : List (Except CheckError CheckOutput)) : List (List Diagnostic) :=
  (roots.zip results).filterMap fun k => contributed? env showsSyntaxErrors k.1 k.2

namespace Run

variable {env : Environment} {executable : Path}

/-- What has been found and how many roots have been used after the results of checks. -/
theorem foldl_feed (env : Environment) (r : Run) (results : List (Except CheckError CheckOutput)) :
    let parts := contributions env r.showsSyntaxErrors r.waiting results
    (results.foldl (feed env) r).found = r.found ++ parts.flatten ∧
      (results.foldl (feed env) r).used = r.used + parts.length := by
  induction results generalizing r with
  | nil => simp [contributions]
  | cons result results ih =>
      cases hwaiting : r.waiting with
      | nil =>
          have hfeed : r.feed env result = r := by
            unfold feed
            rw [hwaiting]
          have hrest := ih r
          rw [hwaiting] at hrest
          rw [List.foldl_cons, hfeed]
          simpa [contributions] using hrest
      | cons root rest =>
          obtain ⟨hfound, hused⟩ := ih (r.feed env result)
          have hnext : (r.feed env result).waiting = rest
              ∧ (r.feed env result).showsSyntaxErrors = r.showsSyntaxErrors := by
            rw [feed_of_waiting hwaiting]
            exact ⟨rfl, rfl⟩
          rw [hnext.1, hnext.2] at hfound hused
          rw [List.foldl_cons, hfound, hused, found_feed hwaiting, used_feed hwaiting]
          unfold contributions
          rw [List.zip_cons_cons, List.filterMap_cons]
          cases contributed? env r.showsSyntaxErrors root result with
          | none => simp
          | some part => exact ⟨by simp, by simp [Nat.add_assoc, Nat.add_comm]⟩

variable {m : Type → Type} [Monad m] [LawfulMonad m]

/-- A scan with an executable runs a check for each root that waits, in order, and goes on with the
results. -/
theorem complete_eq (check : Invocation → m (Except CheckError CheckOutput)) (r : Run)
    (hexecutable : r.executable = some executable) :
    r.complete env check = do
      let results ← r.waiting.mapM fun root => check (invocation env executable r.flags root)
      return results.foldl (feed env) r := by
  unfold complete
  generalize hwaiting : r.waiting = waiting
  induction waiting generalizing r with
  | nil => simp
  | cons root rest ih =>
      have hnext : r.next? env = some (invocation env executable r.flags root) := by
        unfold next?
        rw [hexecutable, hwaiting]
      rw [List.foldlM_cons, hnext, List.mapM_cons]
      simp only [bind_assoc, pure_bind, List.foldl_cons]
      congr 1
      funext result
      have hfed : r.feed env result = _ := feed_of_waiting hwaiting
      have hrest := ih (r.feed env result) (by rw [hfed]; exact hexecutable) (by rw [hfed])
      rw [hrest, show (r.feed env result).flags = r.flags by rw [hfed]]

end Run

namespace Scanner

variable {m : Type → Type} [Monad m] {s : Scanner} {env : Environment} {roots : List Path}

/-- What is published of a set: all of it, unless the scanner has been disposed of. -/
def published (s : Scanner) (found : List Diagnostic) : Option (List Diagnostic) :=
  if s.isDisposed then none else some found

/-- The host checks a project by a whole scan, if there is an executable and no scan is under
way. -/
theorem lint_eq_scan {h : Host} {executable : Path}
    (hexecutable : h.scanner.executable = some executable) (hidle : h.scanner.current = none)
    (check : Invocation → m (Except CheckError CheckOutput)) [LawfulMonad m] :
    h.lint env check roots = do
      let (scanner, published, _) ← h.scanner.scan env check roots
      return ({ h with scanner }, [], published) := by
  have hfree : ¬ h.scanner.isScanning = true := by
    rw [isScanning, hidle]
    decide
  have hbegin : h.beginLint roots = ({ h with scanner := { h.scanner with
      current := some (.start h.scanner.settings h.scanner.executable roots) } }, []) := by
    have hbegun : h.scanner.begin? roots = some { h.scanner with
        current := some (.start h.scanner.settings h.scanner.executable roots) } :=
      if_neg hfree
    unfold Host.beginLint
    rw [if_neg (by simp [hexecutable]), hbegun]
  unfold Host.lint scan
  rw [hbegin, if_neg hfree, bind_assoc]
  simp only [pure_bind]
  rfl

/-- A scan that finds no other under way runs one check for each root, in order: of that root, with
the flags of the settings, in the directory of the root. It publishes what the roots contribute
whose results are used, one after the other, and counts these roots and their diagnostics. Without
an executable it runs no checks and publishes that nothing was found. -/
theorem scans_root_by_root [LawfulMonad m] (hidle : s.current = none) (env : Environment)
    (check : Invocation → m (Except CheckError CheckOutput)) (roots : List Path) :
    (s.executable = none →
        s.scan env check roots = pure (s, s.published [], .completed 0 0)) ∧
      ∀ executable, s.executable = some executable →
        s.scan env check roots = do
          let results ← roots.mapM fun root =>
            check ⟨executable, checkArguments s.settings.checkFlags root, env.checkDirectory root⟩
          let parts := contributions env s.settings.showsSyntaxErrors roots results
          return (s, s.published parts.flatten, .completed parts.length parts.flatten.length) := by
  have hscan : s.scan env check roots
      = do return s.finish (← (Run.start s.settings s.executable roots).complete env check) := by
    refine if_neg ?_
    rw [isScanning, hidle]
    decide
  have hcancel : s.cancel = s := by
    rw [cancel, ← hidle]
  have hfinish : ∀ r, s.finish r = (s, s.published r.found, .completed r.used r.found.length) := by
    intro r
    rw [finish, hcancel]
    rfl
  refine ⟨fun hnone => ?_, fun executable hexecutable => ?_⟩
  · rw [hscan, hnone]
    simp only [hfinish]
    exact pure_bind _ _
  · have hwaiting : (Run.start s.settings s.executable roots).waiting = roots := by
      rw [hexecutable]
      rfl
    rw [hscan, Run.complete_eq check _ hexecutable, bind_assoc, hwaiting]
    refine bind_congr fun results => ?_
    obtain ⟨hfound, hused⟩ := Run.foldl_feed env (Run.start s.settings s.executable roots) results
    rw [hwaiting] at hfound hused
    rw [pure_bind, hfinish, hfound, hused]
    simp [Run.start]

/-- An environment without files. -/
def bareEnvironment : Environment :=
  ⟨.empty, [], []⟩

/-- Where there are no files a mere name is checked in the directory of the process. -/
theorem check_directory_bare {name : List UInt8} (hname : Path.IsName name)
    (hparent : Environment.directoryOf ⟨name⟩ = .ofString ".") :
    bareEnvironment.checkDirectory ⟨name⟩ = .ofString "." := by
  have hpart : FileTree.IsName name :=
    ⟨not_or_intro hname.ne_nil hname.ne_dot, hname.ne_dots⟩
  have hwalk : FileTree.empty.walk true FileTree.linkLimit [] [name] = .ok [name] := by
    rw [FileTree.walk_name ⟨.directory, rfl, nofun⟩ hpart, FileTree.walk]
    rfl
  have hfind : FileTree.empty.find [] ⟨name⟩ = .error .noSuchFile := by
    rw [FileTree.find, FileTree.locate, if_neg hname.ne_nil, hname.not_absolute,
      if_neg (by decide), Path.split_of_not_mem hname.slash_not_mem, hwalk]
    rfl
  have hmissing : bareEnvironment.isDirectory ⟨name⟩ = false := by
    show FileTree.isDirectory .empty [] ⟨name⟩ = false
    rw [FileTree.isDirectory, hfind]
  rw [Environment.checkDirectory, hmissing, if_neg (by decide), hparent]

/-- A scanner with an executable. -/
def equipped : Scanner :=
  { ofSettings .empty with executable := some (.ofString "/bin/ruff") }

/-- A runner whose checks come to these results, one after the other, and that remembers which
checks it has run. -/
def scripted (i : Invocation) :
    StateM (List Invocation × List (Except CheckError CheckOutput))
      (Except CheckError CheckOutput) :=
  fun (calls, results) =>
    (results.headD (.error (.timedOut 100)), calls ++ [i], results.tail)

/-- An output with a finding and with another one that has no location. -/
def twoFindings : List UInt8 :=
  Text.Utf8.encode ("[\x7b\"filename\":\"x.py\",\"code\":\"F401\",\"message\":\"unused\"," ++
    "\"location\":\x7b\"row\":3,\"column\":0\x7d\x7d," ++
    "\x7b\"filename\":\"y.py\",\"message\":\"odd\"\x7d]")

/-- Of three roots the first one cannot be checked and the check of the last one writes an error.
The second one contributes its finding that has a location, and all three have been checked. -/
theorem scans_scripted_roots :
    let roots := ["lib", "app.py", "etc"].map Path.ofString
    let results := [.error (.timedOut 100), .ok ⟨twoFindings, [], some 1, false⟩,
      .ok ⟨twoFindings, [0x21], some 2, false⟩]
    let calls := roots.map fun root : Path =>
      ⟨.ofString "/bin/ruff", ["check", "--quiet", "--output-format=json", root.toText],
        .ofString "."⟩
    (equipped.scan bareEnvironment scripted roots).run ([], results) =
      ((equipped, some [⟨.warning, "F401 — unused", .ofString "./x.py", .at ⟨2, 0⟩, none⟩],
        .completed 1 1), calls, []) := by
  intro roots results calls
  have hparse : Finding.parse? twoFindings = some
      [⟨.ofString "x.py", some "F401", "unused", some ⟨3, 0⟩, none, none⟩,
        ⟨.ofString "y.py", none, "odd", none, none, none⟩] := by
    decide +kernel
  have hlib : bareEnvironment.checkDirectory (.ofString "lib") = .ofString "." :=
    check_directory_bare ⟨by decide +kernel, by decide +kernel⟩ (by decide +kernel)
  have happ : bareEnvironment.checkDirectory (.ofString "app.py") = .ofString "." :=
    check_directory_bare ⟨by decide +kernel, by decide +kernel⟩ (by decide +kernel)
  have hetc : bareEnvironment.checkDirectory (.ofString "etc") = .ofString "." :=
    check_directory_bare ⟨by decide +kernel, by decide +kernel⟩ (by decide +kernel)
  have hused : contributed? bareEnvironment equipped.settings.showsSyntaxErrors (.ofString "app.py")
      (.ok ⟨twoFindings, [], some 1, false⟩)
        = some [⟨.warning, "F401 — unused", .ofString "./x.py", .at ⟨2, 0⟩, none⟩] := by
    rw [contributed?, usable?, if_pos rfl, hparse, happ]
    decide +kernel
  have hparts : contributions bareEnvironment equipped.settings.showsSyntaxErrors roots results =
      [[⟨.warning, "F401 — unused", .ofString "./x.py", .at ⟨2, 0⟩, none⟩]] := by
    simp only [contributions, roots, results, List.map_cons, List.zip_cons_cons,
      List.filterMap_cons, hused]
    rfl
  rw [(scans_root_by_root rfl bareEnvironment scripted roots).2 (.ofString "/bin/ruff") rfl]
  show ((equipped, equipped.published (contributions _ _ roots results).flatten, Outcome.completed
    (contributions _ _ roots results).length (contributions _ _ roots results).flatten.length),
    ([⟨_, _, bareEnvironment.checkDirectory (.ofString "lib")⟩,
      ⟨_, _, bareEnvironment.checkDirectory (.ofString "app.py")⟩,
      ⟨_, _, bareEnvironment.checkDirectory (.ofString "etc")⟩] : List Invocation), _) = _
  rw [hparts, hlib, happ, hetc]
  rfl

end Scanner

end LintWatch.Scan
