import LintWatch.Proofs.Server.Run

/-!
# Whose diagnostics are shown

A view is fresh when every file it shows was last published by a server that runs. Restarting and
the end of the last server clear what has been handled, not what is still queued, so a view can be
stale: `fresh_iff_standing` says exactly when it is not, and `not_fresh_replaced_before_poll` is a
run that leaves a stale file behind.
-/

namespace LintWatch.Server.Supervision

open Report (lastPublication replay)

variable {w : Supervision}

/-- Every file shown was last published by a server that runs. -/
def Fresh (w : Supervision) : Prop :=
  ∀ f ∈ w.supervisor.diagnostics.snapshot,
    ∃ r, lastPublication w.reports f.1 = some r ∧ r.sender ∈ w.running

/-- The reports that have been handled since the diagnostics were last cleared, that is, since the
last restart and since the last end of a server that left none. -/
def standing (w : Supervision) : List Report :=
  (w.reports.take w.handled).drop w.cleared

/-- When no event waits, the standing reports are the last of all reports. -/
theorem Accounted.append_standing (h : Accounted w) (hdrained : w.queue.toList = []) :
    w.reports.take w.cleared ++ w.standing = w.reports := by
  have hall : w.reports.take w.handled = w.reports := by
    have hwaiting := h.waiting
    rw [hdrained] at hwaiting
    exact List.take_of_length_le (List.drop_eq_nil_iff.1 (List.map_eq_nil_iff.1 hwaiting.symm))
  rw [standing, hall, List.take_append_drop]

/-- A file is shown exactly if the last standing report on it carries diagnostics. -/
theorem Accounted.shown_iff (h : Accounted w) (path : Path) :
    (∃ f ∈ w.supervisor.diagnostics.snapshot, f.1.components = path.components) ↔
      ∃ r, lastPublication w.standing path = some r ∧ r.items ≠ [] := by
  have hstore : w.supervisor.diagnostics = replay w.standing := h.store
  have hlookup : (replay w.standing).lookup path
      = ((lastPublication w.standing path).map Report.items).getD [] := Report.lookup_replay
  rw [hstore]
  constructor
  · rintro ⟨f, hf, hsame⟩
    -- A listed file has diagnostics, and they are those of the last standing report on it.
    rw [DiagnosticStore.mem_snapshot] at hf
    have hread := Report.well_formed_replay.lookup_of_mem hf
    rw [DiagnosticStore.lookup_congr hsame, hlookup] at hread
    have hitems := Report.well_formed_replay.nonempty f hf
    cases hlast : lastPublication w.standing path with
    | none => exact absurd (by simpa [hlast] using hread.symm) hitems
    | some r => exact ⟨r, rfl, by simpa [hlast, ← hread] using hitems⟩
  · rintro ⟨r, hlast, hitems⟩
    rw [hlast] at hlookup
    obtain ⟨f, hf, hsame, _⟩ :=
      DiagnosticStore.exists_mem_of_lookup_ne_nil (by rw [hlookup]; exact hitems)
    exact ⟨f, DiagnosticStore.mem_snapshot.2 hf, hsame⟩

/-- Once no event waits, the view is fresh exactly if each standing report that is the last on its
file, and carries diagnostics, comes from a server that still runs. -/
theorem fresh_iff_standing (h : Reachable w) (hdrained : w.queue.toList = []) :
    Fresh w ↔ ∀ path r, lastPublication w.standing path = some r → r.items ≠ [] →
      r.sender ∈ w.running := by
  have happend := h.accounted.append_standing hdrained
  constructor
  · intro hfresh path r hlast hitems
    -- The file is shown, perhaps in another spelling, and no later report is on it.
    obtain ⟨f, hf, hsame⟩ := (h.accounted.shown_iff path).2 ⟨r, hlast, hitems⟩
    obtain ⟨r', hlast', hrunning⟩ := hfresh f hf
    rw [← happend, Report.last_publication_congr hsame,
      Report.last_publication_append hlast] at hlast'
    rwa [Option.some.inj hlast']
  · intro hstanding f hf
    obtain ⟨r, hlast, hitems⟩ := (h.accounted.shown_iff f.1).1 ⟨f, hf, rfl⟩
    refine ⟨r, ?_, hstanding f.1 r hlast hitems⟩
    rw [← happend]
    exact Report.last_publication_append hlast

/-- The file `/a`. -/
def someFile : Path := ⟨[0x2F, 0x61]⟩

/-- A report of a server on `someFile`. -/
def finding (server : ServerId) : Report :=
  ⟨server, .diagnostics someFile [⟨.warning, "unused import", someFile, default, none⟩]⟩

/-- A server is started, reports on a file and is replaced by another one; `before` and `after` are
what happens before and after it is replaced. -/
def replacement (before after : List Supervisor.Step) : Supervision :=
  let launch : ServerId → Path → Except Error Session := fun _ _ => .ok .new
  (new .empty [] .standard).run
    ([.start (some someFile) launch, .report (finding ⟨1⟩)] ++ before
      ++ [.restart (some someFile) launch] ++ after)

/-- The report of the first server has been handled before the restart, and the second server has
reported on the same file. -/
def replacedAfterPoll : Supervision :=
  replacement [.poll 64] [.report ⟨⟨1⟩, .exited ⟨1⟩ .requested⟩, .report (finding ⟨2⟩), .poll 64]

/-- The report of the first server is still queued at the restart. -/
def replacedBeforePoll : Supervision :=
  replacement [] [.report ⟨⟨1⟩, .exited ⟨1⟩ .requested⟩, .poll 64]

/-- A view is fresh after a restart before which the reports had been handled. -/
theorem fresh_replaced_after_poll :
    replacedAfterPoll.queue.toList = [] ∧ replacedAfterPoll.running = [⟨2⟩] ∧
      Fresh replacedAfterPoll := by
  refine ⟨rfl, rfl, (fresh_iff_standing ⟨_, _, _, _, rfl⟩ rfl).2 fun path r hlast _ => ?_⟩
  have hmem : r ∈ [finding ⟨2⟩, ⟨⟨1⟩, .exited ⟨1⟩ .requested⟩] :=
    List.mem_of_find?_eq_some hlast
  have hpublishes : r.publishes path = true := by simpa using List.find?_some hlast
  simp only [List.mem_cons, List.not_mem_nil, or_false] at hmem
  rcases hmem with rfl | rfl
  · exact List.mem_singleton.2 rfl
  · simp [Report.publishes] at hpublishes

/-- A report that is still queued at a restart is shown afterwards, though the server that published
it is gone. -/
theorem not_fresh_replaced_before_poll :
    replacedBeforePoll.queue.toList = [] ∧ replacedBeforePoll.running = [⟨2⟩] ∧
      ¬ Fresh replacedBeforePoll := by
  refine ⟨rfl, rfl, fun hfresh => ?_⟩
  obtain ⟨r, hlast, hrunning⟩ := hfresh (someFile, (finding ⟨1⟩).items)
    (DiagnosticStore.mem_snapshot.2 (List.mem_singleton.2 rfl))
  obtain rfl : finding ⟨1⟩ = r := Option.some.inj hlast
  have hone : (⟨1⟩ : ServerId) ∈ [⟨2⟩] := hrunning
  exact absurd hone (by decide)

end LintWatch.Server.Supervision
