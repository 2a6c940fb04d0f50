import LintWatch.Proofs.Scan.Roots

/-!
# Scans that hide syntax errors

Whether syntax errors are shown is decided finding by finding and has no part in the checks. So of
two scanners that differ in nothing else, the one that hides them runs the same checks and publishes
what the other one does, without the errors: `hides_errors`.
-/

namespace LintWatch

/-- Diagnostics without the errors, in the same order. -/
def withoutErrors (diagnostics : List Diagnostic) : List Diagnostic :=
  diagnostics.filter (·.severity ≠ .error)

/-- A finding is hidden with the syntax errors exactly if it is shown as an error. -/
theorem Finding.diagnostic_hidden (file : Path) (f : Finding) :
    f.diagnostic? file false = (f.diagnostic? file true).filter (·.severity ≠ .error) := by
  unfold Finding.diagnostic?
  cases f.location with
  | none => rfl
  | some location =>
      cases Rule.isSyntaxError f.code with
      | true => rfl
      | false => rfl

namespace Scan

namespace Run

variable {r : Run}

/-- A root contributes what it contributes when errors are shown, without the errors. -/
theorem contribution_hidden (env : Environment) (root : Path)
    (result : Except CheckError CheckOutput) :
    contribution env false root result = withoutErrors (contribution env true root result) := by
  unfold contribution withoutErrors
  cases findings result with
  | error e => rfl
  | ok fs =>
      dsimp only
      rw [List.filter_filterMap]
      exact List.filterMap_congr fun f _ => f.diagnostic_hidden _

/-- A scan as it is when syntax errors are hidden. -/
def hide (r : Run) : Run :=
  { r with showsSyntaxErrors := false, found := withoutErrors r.found }

/-- One more result is hidden as well. -/
theorem feed_hide (env : Environment) (hshows : r.showsSyntaxErrors = true)
    (result : Except CheckError CheckOutput) :
    r.hide.feed env result = (r.feed env result).hide ∧
      (r.feed env result).showsSyntaxErrors = true := by
  cases hwaiting : r.waiting with
  | nil =>
      have hfeed : ∀ r : Run, r.waiting = [] → r.feed env result = r := by
        intro r h
        rw [feed, h]
      rw [hfeed r hwaiting]
      exact ⟨hfeed r.hide hwaiting, hshows⟩
  | cons root rest =>
      have hfound : withoutErrors (r.found ++ contribution env r.showsSyntaxErrors root result)
          = withoutErrors r.found ++ contribution env false root result := by
        rw [hshows, contribution_hidden]
        exact List.filter_append ..
      rw [feed_of_waiting hwaiting, feed_of_waiting (r := r.hide) hwaiting]
      refine ⟨?_, hshows⟩
      simp only [hide, hfound]

variable {m : Type → Type} [Monad m] [LawfulMonad m]

/-- A scan that hides syntax errors is run by the same checks, and hides them in the end. -/
theorem complete_hide (env : Environment)
    (check : Execution.Invocation → m (Except CheckError CheckOutput))
    (hshows : r.showsSyntaxErrors = true) :
    r.hide.complete env check = hide <$> r.complete env check := by
  unfold complete
  rw [show r.hide.waiting = r.waiting from rfl]
  generalize r.waiting = roots
  induction roots generalizing r with
  | nil => simp
  | cons root roots ih =>
      rw [List.foldlM_cons, List.foldlM_cons, map_bind]
      rw [show r.hide.next? env = r.next? env from rfl]
      cases r.next? env with
      | none => simp only [pure_bind, ih hshows]
      | some i =>
          simp only [bind_assoc, pure_bind]
          refine bind_congr fun result => ?_
          obtain ⟨hfeed, hnext⟩ := feed_hide env hshows result
          rw [hfeed, ih hnext]

end Run

namespace Scanner

variable {m : Type → Type} [Monad m] [LawfulMonad m]

/-- The scanner with a choice whether syntax errors are shown. -/
def withSyntaxErrors (s : Scanner) (choice : Option Bool) : Scanner :=
  { s with settings := { s.settings with showSyntaxErrors := choice } }

/-- What comes of a scan that has found a set in some number of roots. -/
def finished (s : Scanner) (found : List Diagnostic) (used : Nat) :
    Scanner × Option (List Diagnostic) × Outcome :=
  (s, s.published found, .completed used found.length)

omit [LawfulMonad m] in
/-- A scanner that is not busy runs all checks and finishes. -/
theorem scan_of_idle (s : Scanner) (hidle : s.current = none) (env : Environment)
    (check : Execution.Invocation → m (Except CheckError CheckOutput)) (roots : List Path) :
    s.scan env check roots = do
      let r ← (Run.start s.settings s.executable roots).complete env check
      return s.finished r.found r.used := by
  have hfree : ¬ s.isScanning = true := by
    rw [isScanning, hidle]
    decide
  have hfinish : ∀ r, s.finish r = s.finished r.found r.used := by
    intro r
    rw [finish, show s.cancel = s by rw [cancel, ← hidle]]
    rfl
  rw [scan, if_neg hfree]
  exact bind_congr fun r => congrArg pure (hfinish r)

/-- Of two scanners that differ only in that one shows syntax errors and the other one hides them,
either both are busy, or both scan by the same run of checks, with the same arguments and as many
roots used; the set of the one that hides them is the set of the other one without the errors. -/
theorem hides_errors (s : Scanner) (shown hidden : Option Bool)
    (hshows : (s.withSyntaxErrors shown).settings.showsSyntaxErrors = true)
    (hhides : (s.withSyntaxErrors hidden).settings.showsSyntaxErrors = false) (env : Environment)
    (check : Execution.Invocation → m (Except CheckError CheckOutput)) (roots : List Path) :
    (s.isScanning = true →
        (s.withSyntaxErrors shown).scan env check roots
            = pure (s.withSyntaxErrors shown, none, .alreadyRunning) ∧
          (s.withSyntaxErrors hidden).scan env check roots
            = pure (s.withSyntaxErrors hidden, none, .alreadyRunning)) ∧
      (s.isScanning = false → ∃ run : m (List Diagnostic × Nat),
        (s.withSyntaxErrors shown).scan env check roots = (do
            let (found, used) ← run
            return (s.withSyntaxErrors shown).finished found used) ∧
          (s.withSyntaxErrors hidden).scan env check roots = (do
            let (found, used) ← run
            return (s.withSyntaxErrors hidden).finished (withoutErrors found) used)) := by
  constructor
  · intro hbusy
    exact ⟨if_pos hbusy, if_pos hbusy⟩
  · intro hidle
    have hnone : s.current = none := Option.not_isSome_iff_eq_none.1 (Bool.eq_false_iff.1 hidle)
    -- The two runs begin with nothing found, and differ in what they show only.
    have hstart : Run.start (s.withSyntaxErrors hidden).settings s.executable roots
        = (Run.start (s.withSyntaxErrors shown).settings s.executable roots).hide := by
      unfold Run.start Run.hide
      rw [hhides]
      rfl
    have hcomplete := Run.complete_hide env check
      (r := Run.start (s.withSyntaxErrors shown).settings s.executable roots) hshows
    refine ⟨(fun r => (r.found, r.used)) <$> Run.complete env check
      (Run.start (s.withSyntaxErrors shown).settings s.executable roots), ?_, ?_⟩
    · rw [scan_of_idle (s.withSyntaxErrors shown) hnone, bind_map_left]
      rfl
    · rw [scan_of_idle (s.withSyntaxErrors hidden) hnone, bind_map_left,
        show (s.withSyntaxErrors hidden).executable = s.executable from rfl, hstart, hcomplete,
        bind_map_left]
      rfl

/-- An output with a syntax error and with another finding. -/
def brokenModule : List UInt8 :=
  Text.Utf8.encode ("[\x7b\"filename\":\"x.py\",\"code\":null,\"message\":\"expected )\"," ++
    "\"location\":\x7b\"row\":1,\"column\":2\x7d\x7d," ++
    "\x7b\"filename\":\"x.py\",\"code\":\"F401\",\"message\":\"unused\"," ++
    "\"location\":\x7b\"row\":3,\"column\":1\x7d\x7d]")

/-- Of a syntax error and another finding in one root, the other one is published alone where errors
are hidden. -/
theorem hides_errors_scripted :
    let check : Execution.Invocation := ⟨.ofString "/bin/ruff",
      ["check", "--quiet", "--output-format=json", "app.py"], .ofString "."⟩
    let result := .ok ⟨brokenModule, [], some 1, false⟩
    let hides := equipped.withSyntaxErrors (some false)
    (hides.scan bareEnvironment scripted [.ofString "app.py"]).run ([], [result]) =
      ((hides, some [⟨.warning, "F401 — unused", .ofString "./x.py", .at ⟨2, 0⟩, none⟩],
        .completed 1 1), [check], []) := by
  intro check result hides
  let both : List Diagnostic := [⟨.error, "expected )", .ofString "./x.py", .at ⟨0, 1⟩, none⟩,
    ⟨.warning, "F401 — unused", .ofString "./x.py", .at ⟨2, 0⟩, none⟩]
  have hparse : Finding.parse? brokenModule = some
      [⟨.ofString "x.py", none, "expected )", some ⟨1, 2⟩, none, none⟩,
        ⟨.ofString "x.py", some "F401", "unused", some ⟨3, 1⟩, none, none⟩] := by
    decide +kernel
  have happ : bareEnvironment.checkDirectory (.ofString "app.py") = .ofString "." :=
    check_directory_bare ⟨by decide +kernel, by decide +kernel⟩ (by decide +kernel)
  have hused : contributed? bareEnvironment true (.ofString "app.py") result = some both := by
    rw [contributed?, usable?, if_pos rfl, hparse, happ]
    decide +kernel
  -- The scanner that shows errors publishes both findings.
  have hshown : ((equipped.withSyntaxErrors none).scan bareEnvironment scripted
      [.ofString "app.py"]).run ([], [result])
        = ((equipped.withSyntaxErrors none).finished both 1, [check], []) := by
    let start := Run.start (equipped.withSyntaxErrors none).settings (some (.ofString "/bin/ruff"))
      [.ofString "app.py"]
    have hfound : (start.feed bareEnvironment result).found = both := by
      rw [Run.found_feed (r := start) rfl]
      exact congrArg (·.getD []) hused
    have hcount : (start.feed bareEnvironment result).used = 1 := by
      rw [Run.used_feed (r := start) rfl]
      exact congrArg (0 + ·.toList.length) hused
    rw [scan_of_idle _ rfl]
    show ((equipped.withSyntaxErrors none).finished (start.feed bareEnvironment result).found
        (start.feed bareEnvironment result).used,
      ([⟨_, _, bareEnvironment.checkDirectory (.ofString "app.py")⟩] : List Execution.Invocation),
        _) = _
    rw [hfound, hcount, happ]
    rfl
  obtain ⟨run, hshows, hhides⟩ := (hides_errors equipped none (some false) rfl rfl
    bareEnvironment scripted [.ofString "app.py"]).2 rfl
  rw [hshows] at hshown
  rw [hhides]
  -- The run that both scanners have in common has found both as well.
  rw [StateT.run_bind] at hshown ⊢
  generalize run.run ([], [result]) = r at hshown ⊢
  obtain ⟨⟨found, used⟩, final⟩ := r
  obtain ⟨hfinished, rfl⟩ := Prod.mk.inj
    (show ((equipped.withSyntaxErrors none).finished found used, final) = _ from hshown)
  obtain ⟨hpublished, hcompleted⟩ := Prod.mk.inj (Prod.mk.inj hfinished).2
  obtain rfl : found = both := Option.some.inj hpublished
  obtain ⟨rfl, -⟩ := Outcome.completed.inj hcompleted
  rfl

end Scanner

end Scan

end LintWatch
