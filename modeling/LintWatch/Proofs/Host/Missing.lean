import LintWatch.Proofs.Host.Toggle

/-!
# Telling of a missing linter

Without a linter a project cannot be checked, and the user is told so the first time, not each
time. A linter may turn up with any restart and be gone with the next one, so what counts is the
history of the host: `Reaches` are the hosts that requests lead to, each with what has been seen of
every request. The user is told again only after a restart that found a linter, and only by a
check that needs one: `missing_told_once`.
-/

namespace LintWatch.Host

open Execution (Invocation)
open Scan (CheckError CheckOutput)
open Server (EventQueue ServerId)

/-- Something that a host is asked to do, with what the world makes of it. A check may come to
another result each time that it is run. -/
inductive Request where
  | restartServer (a : Attempt)
  | lintProject (env : Environment) (roots : List Path)
      (result : List Invocation → Except CheckError CheckOutput)
  | toggleNoqa (env : Environment) (attempt : Environment → Attempt)
  | openGlobalConfig (opened : Path → Except IoError Unit)
  | changeFile (file : Path) (text : String) (isOpen : ServerId → Bool)
  | pump (q : EventQueue)

/-- What has been seen of a request: what the user has been told, the checks that have been run, the
sets of findings that have been published, and, if a server was to be started, the linter that was
found for it. -/
structure Seen where
  notices : List Notice
  checks : List Invocation
  published : List (List Diagnostic)
  sought : Option (Option Path)

/-- Notes a check that is run. -/
def noted (result : List Invocation → Except CheckError CheckOutput) (i : Invocation) :
    StateM (List Invocation) (Except CheckError CheckOutput) :=
  fun checks => (result (checks ++ [i]), checks ++ [i])

/-- A new host that has started its first server, and what has been seen of that. -/
def started (settings : Settings) (configFile globalConfig : Option Path)
    (directories : List Path) (a : Attempt) : Host × Seen :=
  let (h, notices) := (Host.new settings configFile globalConfig directories).start a
  (h, ⟨notices, [], [], some a.found⟩)

variable (h : Host)

/-- The host after a request, and what is seen of it; none stands for a crash. -/
def perform? : Request → Option (Host × Seen)
  | .restartServer a =>
    let (h, notices) := h.restart a
    some (h, ⟨notices, [], [], some a.found⟩)
  | .lintProject env roots result =>
    let ((h, notices, published), checks) := (h.lint env (noted result) roots).run []
    some (h, ⟨notices, checks, published.toList, none⟩)
  | .toggleNoqa env attempt => do
    let t ← h.toggleNoqa? env attempt
    return (t.host, ⟨t.notices, [], [], if t.isSaved then some (attempt t.env).found else none⟩)
  | .openGlobalConfig opened => some (h, ⟨h.openGlobalConfig opened, [], [], none⟩)
  | .changeFile file text isOpen =>
    let (h, _, notices) := h.changeFile file text isOpen
    some (h, ⟨notices, [], [], none⟩)
  | .pump q =>
    let (h, _, _, notices) := h.pump q
    some (h, ⟨notices, [], [], none⟩)

/-- The hosts that there can be, with what has been seen since they were started. -/
inductive Reaches : List Seen → Host → Prop where
  | started (settings : Settings) (configFile globalConfig : Option Path)
      (directories : List Path) (a : Attempt) :
      Reaches [(started settings configFile globalConfig directories a).2]
        (started settings configFile globalConfig directories a).1
  | perform {seen : List Seen} {h h' : Host} {r : Request} {s : Seen} :
      Reaches seen h → h.perform? r = some (h', s) → Reaches (seen ++ [s]) h'

/-- The linter that was found when a server was last to be started. -/
def known (seen : List Seen) : Option Path :=
  (seen.reverse.findSome? Seen.sought).join

/-- The user has been told that there is no linter, and no restart has found one since then. -/
def IsTold (seen : List Seen) : Prop :=
  ∃ early s late, seen = early ++ s :: late ∧ executableMissingNotice ∈ s.notices ∧
    ∀ t ∈ late, ∀ p, t.sought ≠ some (some p)

variable {h h' : Host} {seen : List Seen} {s : Seen} {r : Request}

/-- With one more request the linter is the one found for it, if any was looked for. -/
theorem known_concat : known (seen ++ [s]) = s.sought.getD (known seen) := by
  unfold known
  rw [List.reverse_append]
  cases hs : s.sought <;> simp [hs]

/-- A request for which no linter is looked for does not change which one is known. -/
theorem known_concat_of_none (hsought : s.sought = none) : known (seen ++ [s]) = known seen := by
  rw [known_concat, hsought, Option.getD_none]

/-- With one more request the user has been told if that one told, or if none that found a linter
came after one that told. -/
theorem is_told_concat :
    IsTold (seen ++ [s]) ↔ executableMissingNotice ∈ s.notices ∨
      IsTold seen ∧ ∀ p, s.sought ≠ some (some p) := by
  constructor
  · rintro ⟨early, t, late, heq, htold, hlate⟩
    rcases List.eq_nil_or_concat late with rfl | ⟨late, last, rfl⟩
    · obtain ⟨-, hlast⟩ := List.append_inj' heq rfl
      exact Or.inl (List.head_eq_of_cons_eq hlast ▸ htold)
    · rw [List.concat_eq_append, ← List.cons_append, ← List.append_assoc] at heq
      obtain ⟨rfl, hlast⟩ := List.append_inj' heq rfl
      obtain rfl := List.head_eq_of_cons_eq hlast
      exact Or.inr ⟨⟨early, t, late, rfl, htold, fun u hu => hlate u (by simp [hu])⟩,
        hlate s (by simp)⟩
  · rintro (htold | ⟨⟨early, t, late, rfl, htold, hlate⟩, hs⟩)
    · exact ⟨seen, s, [], rfl, htold, by simp⟩
    · refine ⟨early, t, late ++ [s], by simp, htold, fun u hu => ?_⟩
      rcases List.mem_append.1 hu with hu | hu
      · exact hlate u hu
      · exact List.mem_singleton.1 hu ▸ hs

/-! ## Who tells -/

/-- What has another title does not tell of a missing linter. -/
theorem missing_ne_of_title {n : Notice} (h : n.title ≠ executableMissingNotice.title) :
    executableMissingNotice ≠ n := by
  rintro rfl
  exact h rfl

/-- No error of a server is told like a missing linter. -/
theorem missing_not_mem_errors (errors : List Server.Error) :
    executableMissingNotice ∉ errors.filterMap Server.Error.notice? := by
  intro hmem
  obtain ⟨e, -, he⟩ := List.mem_filterMap.1 hmem
  unfold Server.Error.notice? at he
  split at he
  · cases he
  · refine missing_ne_of_title ?_ (Option.some.inj he).symm
    cases e <;> simp [executableMissingNotice]

/-- No error of the host is told like a missing linter. -/
theorem missing_ne_host_notice (e : HostError) : executableMissingNotice ≠ e.notice :=
  missing_ne_of_title (by cases e <;> simp [executableMissingNotice, HostError.notice])

/-- A toggle is not told like a missing linter. -/
theorem missing_ne_toggle_notice (value : Bool) : executableMissingNotice ≠ toggleNotice value :=
  missing_ne_of_title (by cases value <;> simp [executableMissingNotice, toggleNotice, Notice.plain])

/-- Opening the linter's own settings tells of no missing linter. -/
theorem missing_not_mem_open_global_config (opened : Path → Except IoError Unit) :
    executableMissingNotice ∉ h.openGlobalConfig opened := by
  unfold openGlobalConfig
  split
  · rw [List.mem_singleton]
    exact missing_ne_of_title (by simp [executableMissingNotice, noGlobalConfigNotice])
  split
  · exact List.not_mem_nil
  · rw [List.mem_singleton]
    exact missing_ne_host_notice _

/-! ## What a host remembers -/

/-- What the state of a host says of what has been seen. -/
structure Remembers (seen : List Seen) (h : Host) : Prop where
  supervisor : h.supervisor.executable = known seen
  scanner : h.scanner.executable = known seen
  told : h.isMissingReported = true ↔ IsTold seen
  /-- No check of the project is under way between requests. -/
  idle : h.scanner.current = none
  /-- Every error of a server has been reported. -/
  reported : h.supervisor.errors = []

/-- After a start the executable is the one that was found for it. -/
theorem executable_start (s : Server.Supervisor) (found : Option Path)
    (launch : ServerId → Path → Except Server.Error Server.Session) :
    (s.start found launch).1.executable = found := by
  obtain ⟨hfound, heq⟩ | ⟨_, _, -, -, heq⟩ | ⟨_, _, -, -, heq⟩ := s.start_cases found launch
  · rw [heq, hfound]
  · rw [heq]
  · rw [heq]

/-- The start of a host tells of the error that it brings, and of nothing else. -/
theorem notices_started (settings : Settings) (configFile globalConfig : Option Path)
    (directories : List Path) (a : Attempt) :
    (started settings configFile globalConfig directories a).2.notices =
      ((Host.new settings configFile globalConfig directories).supervisor.launchErrors a.found
        fun id p => (a.launch id p).outcome).filterMap Server.Error.notice? :=
  ((Host.new settings configFile globalConfig directories).reports_each.start a).notices_eq

/-- A new host remembers its start. -/
theorem remembers_started (settings : Settings) (configFile globalConfig : Option Path)
    (directories : List Path) (a : Attempt) :
    Remembers [(started settings configFile globalConfig directories a).2]
      (started settings configFile globalConfig directories a).1 := by
  have hexecutable := executable_start (Host.new settings configFile globalConfig
    directories).supervisor a.found fun id p => (a.launch id p).outcome
  have hnot : ¬ IsTold [(started settings configFile globalConfig directories a).2] := by
    rw [← List.nil_append [_], is_told_concat, notices_started]
    rintro (hmem | ⟨⟨early, t, late, heq, -⟩, -⟩)
    · exact missing_not_mem_errors _ hmem
    · simp at heq
  exact ⟨hexecutable, hexecutable, iff_of_false Bool.false_ne_true hnot, rfl, rfl⟩

/-- A request that starts no server and tells of no missing linter is remembered if it changes
nothing of what the host remembers. -/
theorem Remembers.quiet (hr : Remembers seen h) (hsought : s.sought = none)
    (hnotices : executableMissingNotice ∉ s.notices)
    (hsupervisor : h'.supervisor.executable = h.supervisor.executable)
    (hscanner : h'.scanner = h.scanner) (htold : h'.isMissingReported = h.isMissingReported)
    (herrors : h'.supervisor.errors = []) : Remembers (seen ++ [s]) h' := by
  have hknown : known (seen ++ [s]) = known seen := known_concat_of_none hsought
  refine ⟨?_, ?_, ?_, ?_, herrors⟩
  · rw [hsupervisor, hknown, hr.supervisor]
  · rw [hscanner, hknown, hr.scanner]
  · rw [htold, hr.told, is_told_concat]
    simp [hnotices, hsought]
  · rw [hscanner, hr.idle]

/-- After a restart the executable is the one that was found for it. -/
theorem executable_supervisorAfter (s : Server.Supervisor) (a : Attempt) :
    (supervisorAfter s a).executable = a.found := by
  cases hfound : a.found with
  | none =>
      unfold supervisorAfter
      rw [hfound]
      rfl
  | some executable =>
      rw [supervisorAfter_of_found s hfound]
      cases a.launch ⟨s.nextServer⟩ executable with
      | running session => rfl
      | failed e => rfl
      | silent => rfl

/-- A restart tells of the errors that it brings, and of nothing else. -/
theorem Remembers.notices_restart (hr : Remembers seen h) (a : Attempt) :
    (h.restart a).2 = (restartErrors h.supervisor a).filterMap Server.Error.notice? := by
  rw [(h.reports_each.restart a).notices_eq, hr.reported, List.nil_append]

/-- A restart is remembered. -/
theorem Remembers.restart (hr : Remembers seen h) (a : Attempt) (hsought : s.sought = some a.found)
    (hnotices : executableMissingNotice ∉ s.notices) :
    Remembers (seen ++ [s]) (h.restart a).1 := by
  have hexecutable : (h.restart a).1.supervisor.executable = a.found :=
    executable_supervisorAfter h.supervisor a
  have hknown : known (seen ++ [s]) = a.found := by rw [known_concat, hsought, Option.getD_some]
  refine ⟨hexecutable.trans hknown.symm, hexecutable.trans hknown.symm, ?_, hr.idle, rfl⟩
  show (h.isMissingReported && (supervisorAfter h.supervisor a).executable.isNone) = true ↔ _
  rw [executable_supervisorAfter, is_told_concat, Bool.and_eq_true, hr.told, hsought]
  cases a.found <;> simp [hnotices]

/-- A toggle that cannot be saved tells why and changes nothing; one that is saved restarts the
server and says what holds now. -/
theorem toggle_cases {env : Environment} {attempt : Environment → Attempt} {t : Toggled}
    (ht : h.toggleNoqa? env attempt = some t) :
    (t.isSaved = false ∧ t.host = h ∧ ∃ e : HostError, t.notices = [e.notice]) ∨
      t.isSaved = true ∧ ∃ value,
        t.host = ((h.withUseNoqa value).restart (attempt t.env)).1 ∧
        t.notices = ((h.withUseNoqa value).restart (attempt t.env)).2 ++ [toggleNotice value] := by
  unfold toggleNoqa? at ht
  dsimp only at ht
  split at ht
  next =>
    obtain rfl := Option.some.inj ht
    exact Or.inl ⟨rfl, rfl, _, rfl⟩
  next =>
    split at ht
    next => cases ht
    next =>
      obtain rfl := Option.some.inj ht
      exact Or.inl ⟨rfl, rfl, _, rfl⟩
    next =>
      obtain rfl := Option.some.inj ht
      exact Or.inr ⟨rfl, _, rfl, rfl⟩

/-- A check of the project ends as it began, but for the findings and the checks. -/
theorem run_lint (h : Host) (env : Environment) (roots : List Path)
    (check : Invocation → StateM (List Invocation) (Except CheckError CheckOutput)) :
    (h.lint env check roots).run [] =
      match (h.beginLint roots).1.scanner.current with
      | none => (((h.beginLint roots).1, (h.beginLint roots).2, none), [])
      | some r =>
        (((((h.beginLint roots).1.endLint ((r.complete env check).run []).1)).1,
          (h.beginLint roots).2,
          ((h.beginLint roots).1.endLint ((r.complete env check).run []).1).2),
          ((r.complete env check).run []).2) := by
  unfold lint
  dsimp only
  cases (h.beginLint roots).1.scanner.current with
  | none => rfl
  | some r => rfl

/-- Without a linter nothing is checked or published, and the user is told unless that has been
done. -/
theorem Remembers.lint_unknown (hr : Remembers seen h) (hunknown : known seen = none)
    (env : Environment) (roots : List Path)
    (result : List Invocation → Except CheckError CheckOutput) :
    h.perform? (.lintProject env roots result) =
      some ({ h with isMissingReported := true },
        ⟨if h.isMissingReported then [] else [executableMissingNotice], [], [], none⟩) := by
  have hbegin : h.beginLint roots = ({ h with isMissingReported := true },
      if h.isMissingReported then [] else [executableMissingNotice]) :=
    if_pos (by rw [hr.scanner, hunknown]; rfl)
  unfold perform?
  dsimp only
  rw [run_lint, hbegin, show ({ h with isMissingReported := true } : Host).scanner.current = none
    from hr.idle]
  rfl

/-- A scanner that has nothing to do begins the scan that it is asked for. -/
theorem begin_of_idle {scanner : Scan.Scanner} (hidle : scanner.current = none)
    (roots : List Path) :
    scanner.begin? roots =
      some { scanner with current := some (.start scanner.settings scanner.executable roots) } := by
  unfold Scan.Scanner.begin? Scan.Scanner.isScanning
  rw [hidle]
  rfl

/-- With a linter the project is checked, and the host is the same after it. -/
theorem Remembers.lint_known (hr : Remembers seen h) (hknown : known seen ≠ none)
    (env : Environment) (roots : List Path)
    (result : List Invocation → Except CheckError CheckOutput) :
    ∃ checks published,
      h.perform? (.lintProject env roots result) = some (h, ⟨[], checks, published, none⟩) := by
  have hfound : ¬ h.scanner.executable.isNone = true := by
    rw [hr.scanner]
    simpa using hknown
  have hbegin : h.beginLint roots = ({ h with scanner := { h.scanner with
      current := some (.start h.scanner.settings h.scanner.executable roots) } }, []) := by
    unfold beginLint
    rw [if_neg hfound, begin_of_idle hr.idle]
  have hafter : { h with scanner := { h.scanner with current := none } } = h := by
    rw [← hr.idle]
  unfold perform?
  dsimp only
  rw [run_lint, hbegin]
  exact ⟨_, _, congrArg (fun after => some (after, _)) hafter⟩

/-- A check of the project is remembered, and tells of the missing linter if there is none and that
has not been done. -/
theorem Remembers.lint (hr : Remembers seen h) {env : Environment} {roots : List Path}
    {result : List Invocation → Except CheckError CheckOutput}
    (hperform : h.perform? (.lintProject env roots result) = some (h', s)) :
    Remembers (seen ++ [s]) h' ∧
      (executableMissingNotice ∈ s.notices ↔ known seen = none ∧ ¬ IsTold seen) := by
  by_cases hknown : known seen = none
  · rw [hr.lint_unknown hknown] at hperform
    obtain ⟨rfl, hs⟩ := Prod.mk.inj (Option.some.inj hperform)
    have hsought : s.sought = none := hs ▸ rfl
    have hmem : executableMissingNotice ∈ s.notices ↔ ¬ IsTold seen := by
      rw [← hs, ← hr.told]
      cases h.isMissingReported <;> simp
    refine ⟨⟨?_, ?_, iff_of_true rfl ?_, hr.idle, hr.reported⟩, ?_⟩
    · rw [known_concat_of_none hsought]
      exact hr.supervisor
    · rw [known_concat_of_none hsought]
      exact hr.scanner
    · rw [is_told_concat, hmem, hsought]
      by_cases htold : IsTold seen <;> simp [htold]
    · rw [hmem, and_iff_right hknown]
  · obtain ⟨checks, published, heq⟩ := hr.lint_known hknown env roots result
    obtain ⟨rfl, rfl⟩ := Prod.mk.inj (Option.some.inj (heq.symm.trans hperform))
    exact ⟨hr.quiet rfl List.not_mem_nil rfl rfl rfl hr.reported,
      iff_of_false List.not_mem_nil fun hlint => hknown hlint.1⟩

/-- A host whose settings are changed remembers the same. -/
theorem Remembers.with_use_noqa (hr : Remembers seen h) (value : Bool) :
    Remembers seen (h.withUseNoqa value) :=
  ⟨hr.supervisor, hr.scanner, hr.told, hr.idle, hr.reported⟩

/-- A toggle is remembered, and tells of no missing linter. -/
theorem Remembers.toggle (hr : Remembers seen h) {env : Environment}
    {attempt : Environment → Attempt}
    (hperform : h.perform? (.toggleNoqa env attempt) = some (h', s)) :
    Remembers (seen ++ [s]) h' ∧ executableMissingNotice ∉ s.notices := by
  obtain ⟨t, ht, heq⟩ := Option.bind_eq_some_iff.1 hperform
  obtain ⟨rfl, rfl⟩ := Prod.mk.inj (Option.some.inj heq)
  rcases toggle_cases ht with ⟨hsaved, hhost, e, hnotices⟩ | ⟨hsaved, value, hhost, hnotices⟩
  · have hmissing : executableMissingNotice ∉ t.notices := by
      rw [hnotices, List.mem_singleton]
      exact missing_ne_host_notice e
    rw [hhost]
    refine ⟨hr.quiet ?_ hmissing rfl rfl rfl hr.reported, hmissing⟩
    rw [hsaved]
    rfl
  · have hvalue := hr.with_use_noqa value
    have hmissing : executableMissingNotice ∉ t.notices := by
      rw [hnotices, hvalue.notices_restart, List.mem_append, List.mem_singleton]
      exact not_or.2 ⟨missing_not_mem_errors _, missing_ne_toggle_notice value⟩
    rw [hhost]
    refine ⟨hvalue.restart (attempt t.env) ?_ hmissing, hmissing⟩
    rw [hsaved]
    rfl

/-- The request is to check the project. -/
def Request.IsLint : Request → Prop
  | .lintProject _ _ _ => True
  | _ => False

/-- Every request is remembered, and only a check of the project that finds no linter tells of it, if
that has not been done. -/
theorem Remembers.perform (hr : Remembers seen h) (hperform : h.perform? r = some (h', s)) :
    Remembers (seen ++ [s]) h' ∧
      (executableMissingNotice ∈ s.notices ↔ r.IsLint ∧ known seen = none ∧ ¬ IsTold seen) := by
  cases r with
  | lintProject env roots result =>
      obtain ⟨hremembers, htells⟩ := hr.lint hperform
      exact ⟨hremembers, htells.trans (and_iff_right trivial).symm⟩
  | toggleNoqa env attempt =>
      obtain ⟨hremembers, hmissing⟩ := hr.toggle hperform
      exact ⟨hremembers, iff_of_false hmissing fun hlint => hlint.1⟩
  | restartServer a =>
      obtain ⟨rfl, rfl⟩ := Prod.mk.inj (Option.some.inj hperform)
      have hmissing : executableMissingNotice ∉ (h.restart a).2 :=
        hr.notices_restart a ▸ missing_not_mem_errors _
      exact ⟨hr.restart a rfl hmissing, iff_of_false hmissing fun hlint => hlint.1⟩
  | openGlobalConfig opened =>
      obtain ⟨rfl, rfl⟩ := Prod.mk.inj (Option.some.inj hperform)
      have hmissing := h.missing_not_mem_open_global_config opened
      exact ⟨hr.quiet rfl hmissing rfl rfl rfl hr.reported, iff_of_false hmissing fun hlint => hlint.1⟩
  | changeFile file text isOpen =>
      obtain ⟨rfl, rfl⟩ := Prod.mk.inj (Option.some.inj hperform)
      have hmissing : executableMissingNotice ∉ (h.changeFile file text isOpen).2.2 := by
        rw [(h.reports_each.changeFile file text isOpen).notices_eq]
        exact missing_not_mem_errors _
      refine ⟨hr.quiet rfl hmissing ?_ rfl rfl rfl, iff_of_false hmissing fun hlint => hlint.1⟩
      exact congrArg Prod.snd (h.supervisor.setup_changeFile file text isOpen)
  | pump q =>
      obtain ⟨rfl, rfl⟩ := Prod.mk.inj (Option.some.inj hperform)
      have hmissing : executableMissingNotice ∉ (h.pump q).2.2.2 := by
        rw [(h.reports_each.pump q).notices_eq]
        exact missing_not_mem_errors _
      refine ⟨hr.quiet rfl hmissing ?_ rfl rfl rfl, iff_of_false hmissing fun hlint => hlint.1⟩
      exact congrArg Prod.snd (h.supervisor.setup_foldl_handle _)

/-- What has been seen is remembered. -/
theorem Reaches.remembers (hreaches : Reaches seen h) : Remembers seen h := by
  induction hreaches with
  | started settings configFile globalConfig directories a =>
      exact remembers_started settings configFile globalConfig directories a
  | perform _ hperform ih => exact (ih.perform hperform).1

/-- A host starts silently when no linter is found. -/
theorem Reaches.silent_start (hreaches : Reaches seen h) :
    ∃ s late, seen = s :: late ∧ (s.sought = some none → s.notices = []) := by
  induction hreaches with
  | started settings configFile globalConfig directories a =>
      refine ⟨_, [], rfl, fun hsought => ?_⟩
      have hfound : a.found = none := Option.some.inj hsought
      rw [notices_started, hfound]
      rfl
  | perform _ _ ih =>
      obtain ⟨s, late, rfl, hsilent⟩ := ih
      exact ⟨s, _, rfl, hsilent⟩

/-- A restart is silent when no linter is found. -/
theorem Remembers.silent_restart (hr : Remembers seen h) {a : Attempt} (hfound : a.found = none) :
    (h.restart a).2 = [] := by
  rw [hr.notices_restart, restartErrors, hfound]
  rfl

/-- How a host goes about a missing linter, after what has been seen of it. -/
structure TellsOnce (seen : List Seen) (h : Host) : Prop where
  /-- A check of the project without a linter runs no check and publishes nothing. It tells of the
  missing linter, and of nothing else, unless that has been done. -/
  lint : ∀ env roots result, known seen = none → ∃ h' s,
    h.perform? (.lintProject env roots result) = some (h', s) ∧ s.checks = [] ∧ s.published = [] ∧
      (IsTold seen → s.notices = []) ∧ (¬ IsTold seen → s.notices = [executableMissingNotice])
  /-- Nothing else tells of it. -/
  only_lint : ∀ r h' s, h.perform? r = some (h', s) → executableMissingNotice ∈ s.notices →
    r.IsLint ∧ known seen = none ∧ ¬ IsTold seen
  /-- The start was silent if it found no linter. -/
  start : ∃ s late, seen = s :: late ∧ (s.sought = some none → s.notices = [])
  /-- A restart that finds no linter is silent. -/
  restart : ∀ a, a.found = none →
    ∃ h', h.perform? (.restartServer a) = some (h', ⟨[], [], [], some none⟩)
  /-- A toggle whose restart finds no linter only says what it has done. -/
  toggle : ∀ env attempt h' s, h.perform? (.toggleNoqa env attempt) = some (h', s) →
    s.sought = some none → ∃ value, s.notices = [toggleNotice value]

/-- After any requests the user is told of a missing linter by a check of the project that finds
none, if none has told since the start or, if that was later, since the last restart that found
one. -/
theorem missing_told_once (hreaches : Reaches seen h) : TellsOnce seen h := by
  have hr := hreaches.remembers
  refine ⟨fun env roots result hunknown => ?_, fun r h' s hperform => (hr.perform hperform).2.1,
    hreaches.silent_start, fun a hfound => ?_, fun env attempt h' s hperform hsought => ?_⟩
  · exact ⟨_, _, hr.lint_unknown hunknown env roots result, rfl, rfl,
      fun htold => if_pos (hr.told.2 htold), fun hnot => if_neg fun htold => hnot (hr.told.1 htold)⟩
  · refine ⟨(h.restart a).1, ?_⟩
    show some ((h.restart a).1, (⟨(h.restart a).2, [], [], some a.found⟩ : Seen)) = _
    rw [hr.silent_restart hfound, hfound]
  · obtain ⟨t, ht, heq⟩ := Option.bind_eq_some_iff.1 hperform
    obtain ⟨rfl, rfl⟩ := Prod.mk.inj (Option.some.inj heq)
    rcases toggle_cases ht with ⟨hsaved, -⟩ | ⟨hsaved, value, -, hnotices⟩
    · simp [hsaved] at hsought
    · have hvalue := hr.with_use_noqa value
      have hfound : (attempt t.env).found = none := by simpa [hsaved] using hsought
      exact ⟨value, by rw [hnotices, hvalue.silent_restart hfound, List.nil_append]⟩

/-- A world with a linter whose server never answers. -/
def silentLinter : Attempt :=
  ⟨some (.ofString "ruff"), fun _ _ => .silent⟩

/-- A linter that turns up and is gone again is missed anew: the first check has told of it, the two
restarts are silent, and the next check will tell again. -/
theorem missing_told_anew : ∃ seen h, Reaches seen h ∧
    seen.map Seen.notices = [[], [executableMissingNotice], [], []] ∧ known seen = none ∧
    ¬ IsTold seen ∧ TellsOnce seen h := by
  have hstart := Reaches.started .empty none none [] noLinter
  have hlint := hstart.perform (r := .lintProject default [] fun _ => .error .badOutput) rfl
  have hfound := hlint.perform (r := .restartServer silentLinter) rfl
  have hgone := hfound.perform (r := .restartServer noLinter) rfl
  refine ⟨_, _, hgone, rfl, rfl, ?_, missing_told_once hgone⟩
  rw [is_told_concat, is_told_concat]
  rintro (hmem | ⟨hmem | ⟨-, hnone⟩, -⟩)
  · exact List.not_mem_nil hmem
  · exact List.not_mem_nil hmem
  · exact hnone _ rfl

end LintWatch.Host
