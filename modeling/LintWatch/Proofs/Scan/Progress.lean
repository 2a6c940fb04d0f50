import LintWatch.Scan.Scanner

/-!
# The progress of a scan

A scan takes the settings and the executable when it begins, and then checks one root after the
other. What a root contributes depends on the result of its own check only: `contributed?` says it
without regard to how a scan goes on. A `Story` says what a scan has taken and which checks it has
run; it determines the state of the scan (`Story.Leads`) and, at the end, what is published.
-/

namespace LintWatch.Scan

open LintWatch.Execution (Invocation)

/-- The findings that can be used: those printed by a check that ran and wrote no errors. -/
def usable? : Except CheckError CheckOutput → Option (List Finding)
  | .ok output => if output.stderr = [] then Finding.parse? output.stdout else none
  | .error _ => none

/-- What a root contributes if the result of its check is used: the diagnostics for its findings,
in order, without those that are not shown. The files are as seen from where the check ran. -/
def contributed? (env : Environment) (showsSyntaxErrors : Bool) (root : Path)
    (result : Except CheckError CheckOutput) : Option (List Diagnostic) :=
  (usable? result).map fun findings => findings.filterMap fun f =>
    f.diagnostic? ((env.checkDirectory root).join f.filename) showsSyntaxErrors

namespace Run

variable {env : Environment} {r : Run} {root : Path} {rest : List Path}
  {result : Except CheckError CheckOutput}

/-- The result of a check is taken in for the root in front. -/
theorem feed_of_waiting (h : r.waiting = root :: rest) :
    r.feed env result = { r with
      waiting := rest
      used := if (findings result).isOk then r.used + 1 else r.used
      found := r.found ++ contribution env r.showsSyntaxErrors root result
      warnings := r.warnings ++ warningsAbout root result } := by
  unfold feed
  rw [h]

/-- The findings of a check are those that can be used, or there is an error. -/
theorem to_option_findings (result : Except CheckError CheckOutput) :
    (findings result).toOption = usable? result := by
  cases result with
  | error e => rfl
  | ok output =>
      simp only [findings, usable?]
      by_cases hstderr : output.stderr = []
      · rw [if_neg (not_not_intro hstderr), if_pos hstderr]
        cases Finding.parse? output.stdout <;> rfl
      · rw [if_pos hstderr, if_neg hstderr]
        rfl

/-- What is added to a scan for a root is what the root contributes, or nothing. -/
theorem contribution_eq (env : Environment) (showsSyntaxErrors : Bool) (root : Path)
    (result : Except CheckError CheckOutput) : contribution env showsSyntaxErrors root result
      = (contributed? env showsSyntaxErrors root result).getD [] := by
  unfold contribution contributed?
  rw [← to_option_findings]
  cases findings result <;> rfl

/-- One more result adds what its root contributes. -/
theorem found_feed (hwaiting : r.waiting = root :: rest) : (r.feed env result).found
    = r.found ++ (contributed? env r.showsSyntaxErrors root result).getD [] := by
  rw [feed_of_waiting hwaiting, ← contribution_eq]

/-- One more result counts if its root contributes something. -/
theorem used_feed (hwaiting : r.waiting = root :: rest) : (r.feed env result).used
    = r.used + (contributed? env r.showsSyntaxErrors root result).toList.length := by
  rw [feed_of_waiting hwaiting]
  unfold contributed?
  rw [← to_option_findings]
  cases findings result <;> rfl

end Run

/-- A check that has been run for a root, with the environment in which its result came. -/
structure Checked where
  root : Path
  invocation : Invocation
  env : Environment
  result : Except CheckError CheckOutput

/-- What a scan has taken at its beginning, and the checks that it has run. -/
structure Story where
  roots : List Path
  settings : Settings
  executable : Option Path
  checks : List Checked

namespace Story

variable (t : Story)

/-- The roots that are to be checked, which are none without an executable. -/
def due : List Path :=
  if t.executable.isSome then t.roots else []

/-- What the checks have contributed whose results have been used, converted as the settings say that
the scan has taken. -/
def parts : List (List Diagnostic) :=
  t.checks.filterMap fun k => contributed? k.env t.settings.showsSyntaxErrors k.root k.result

/-- How many roots have been used. -/
def used : Nat :=
  t.parts.length

/-- What has been found. -/
def found : List Diagnostic :=
  t.parts.flatten

/-- The invocation checks the root: it runs the executable that the scan has taken, with the flags of
the settings that the scan has taken and the root as arguments, in the directory of the root. -/
def Checks (root : Path) (i : Invocation) : Prop :=
  ∃ (env : Environment) (executable : Path), t.executable = some executable ∧
    i = ⟨executable, checkArguments t.settings.checkFlags root, env.checkDirectory root⟩

/-- The story with one more check. -/
def add (k : Checked) : Story :=
  { t with checks := t.checks ++ [k] }

/-- A scan is where its story says. -/
structure Leads (t : Story) (r : Run) : Prop where
  executable : r.executable = t.executable
  flags : r.flags = t.settings.checkFlags
  showsSyntaxErrors : r.showsSyntaxErrors = t.settings.showsSyntaxErrors
  /-- The roots have been checked in order, and those left over wait. -/
  roots : t.due = t.checks.map Checked.root ++ r.waiting
  checks : ∀ k ∈ t.checks, t.Checks k.root k.invocation
  used : r.used = t.used
  found : r.found = t.found

variable {t : Story} {r : Run} {env : Environment} {root : Path} {rest : List Path}
  {i : Invocation} {result : Except CheckError CheckOutput}

/-- One more check adds what it contributes, if that is used. -/
theorem parts_add (k : Checked) : (t.add k).parts = t.parts ++
    (contributed? k.env t.settings.showsSyntaxErrors k.root k.result).toList := by
  show (t.checks ++ [k]).filterMap _ = _
  rw [List.filterMap_append, List.filterMap_cons, List.filterMap_nil]
  rfl

/-- One more check counts if what it contributes is used. -/
theorem used_add (k : Checked) : (t.add k).used = t.used +
    (contributed? k.env t.settings.showsSyntaxErrors k.root k.result).toList.length := by
  rw [used, parts_add, List.length_append, used]

/-- One more check adds its findings. -/
theorem found_add (k : Checked) : (t.add k).found = t.found ++
    (contributed? k.env t.settings.showsSyntaxErrors k.root k.result).getD [] := by
  rw [found, parts_add, List.flatten_append]
  congr 1
  cases contributed? k.env t.settings.showsSyntaxErrors k.root k.result <;> simp

/-- A scan at its beginning has run no checks. -/
theorem leads_start (settings : Settings) (executable : Option Path) (roots : List Path) :
    Leads ⟨roots, settings, executable, []⟩ (.start settings executable roots) :=
  ⟨rfl, rfl, rfl, rfl, fun _ hk => absurd hk List.not_mem_nil, rfl, rfl⟩

/-- The next check is one of the root in front. -/
theorem Leads.next (h : t.Leads r) (hnext : r.next? env = some i) :
    ∃ root rest, r.waiting = root :: rest ∧ t.Checks root i := by
  unfold Run.next? at hnext
  split at hnext
  next executable root rest hexecutable hwaiting =>
    obtain rfl := Option.some.inj hnext
    refine ⟨root, rest, hwaiting, env, executable, h.executable.symm.trans hexecutable, ?_⟩
    rw [← h.flags, Run.invocation]
  next => cases hnext

/-- As long as a root waits there is a next check. -/
theorem Leads.exists_next (h : t.Leads r) (hwaiting : r.waiting = root :: rest)
    (env : Environment) : ∃ i, r.next? env = some i := by
  cases hexecutable : t.executable with
  | none =>
      have hroots := h.roots
      rw [hwaiting, due, hexecutable] at hroots
      simp at hroots
  | some executable =>
      refine ⟨Run.invocation env executable r.flags root, ?_⟩
      unfold Run.next?
      rw [h.executable, hexecutable, hwaiting]

/-- The result of a check adds it to the story. -/
theorem Leads.feed (h : t.Leads r) (hwaiting : r.waiting = root :: rest) (hi : t.Checks root i)
    (env : Environment) (result : Except CheckError CheckOutput) :
    (t.add ⟨root, i, env, result⟩).Leads (r.feed env result) := by
  obtain ⟨hexecutable, hflags, hshows, hrest⟩ : (r.feed env result).executable = r.executable ∧
      (r.feed env result).flags = r.flags ∧
      (r.feed env result).showsSyntaxErrors = r.showsSyntaxErrors ∧
      (r.feed env result).waiting = rest := by
    rw [Run.feed_of_waiting hwaiting]
    exact ⟨rfl, rfl, rfl, rfl⟩
  refine ⟨hexecutable.trans h.executable, hflags.trans h.flags, hshows.trans h.showsSyntaxErrors,
    ?_, ?_, ?_, ?_⟩
  · show t.due = (t.checks ++ [_]).map Checked.root ++ _
    rw [hrest, h.roots, hwaiting]
    simp
  · intro k hk
    rcases List.mem_append.1 hk with hk | hk
    · exact h.checks k hk
    · obtain rfl := List.mem_singleton.1 hk
      exact hi
  · rw [used_add, Run.used_feed hwaiting, h.used, h.showsSyntaxErrors]
  · rw [found_add, Run.found_feed hwaiting, h.found, h.showsSyntaxErrors]

end Story

end LintWatch.Scan
