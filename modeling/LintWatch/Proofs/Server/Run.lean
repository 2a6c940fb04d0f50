import LintWatch.Proofs.Diagnostic.Store
import LintWatch.Proofs.Server.Effects
import Mathlib.Data.List.Induction

/-!
# Runs of a supervisor

A host starts, restarts and shuts down servers and polls for events, while the tasks of the servers
queue events; the two come in any order. `Supervision` keeps a supervisor and its queue together
with what happened: all reports so far, how many of them have been handled, and how many had been
handled when the diagnostics were last cleared. After every run the store holds what the reports
handled since then have published: `Reachable.accounted`.
-/

namespace LintWatch.Server

/-- An event together with the server whose task queues it. -/
structure Report where
  sender : ServerId
  event : Event
  deriving DecidableEq, Repr

namespace Report

/-- Whether a report says what the diagnostics of a file are. -/
def publishes (r : Report) (path : Path) : Bool :=
  match r.event with
  | .diagnostics p _ => p.same path
  | _ => false

/-- The diagnostics that a report carries. -/
def items (r : Report) : List LintWatch.Diagnostic :=
  match r.event with
  | .diagnostics _ items => items
  | _ => []

/-- The store after a report. -/
def apply (s : DiagnosticStore) (r : Report) : DiagnosticStore :=
  match r.event with
  | .diagnostics path items => s.update path items
  | _ => s

/-- The store that reports fill, one after the other. -/
def replay (reports : List Report) : DiagnosticStore :=
  reports.foldl apply .empty

/-- The last report that says what the diagnostics of a file are. -/
def lastPublication (reports : List Report) (path : Path) : Option Report :=
  reports.reverse.find? (·.publishes path)

variable {reports : List Report} {r : Report} {path other : Path}

/-- One more report is applied last. -/
@[simp]
theorem replay_concat : replay (reports ++ [r]) = apply (replay reports) r := by
  simp [replay]

/-- One more report is the last publication of the files it publishes. -/
theorem last_publication_concat :
    lastPublication (reports ++ [r]) path
      = if r.publishes path then some r else lastPublication reports path := by
  by_cases h : r.publishes path <;> simp [lastPublication, h]

/-- A file with a last publication in the later reports has the same one in all of them. -/
theorem last_publication_append {later : List Report}
    (h : lastPublication later path = some r) :
    lastPublication (reports ++ later) path = some r := by
  unfold lastPublication at h ⊢
  rw [List.reverse_append, List.find?_append, h, Option.some_or]

/-- Which report published a file last does not depend on the spelling of the file. -/
theorem last_publication_congr (h : path.components = other.components) :
    lastPublication reports path = lastPublication reports other := by
  have hp : (fun r : Report => r.publishes path) = fun r => r.publishes other := by
    funext r
    unfold publishes
    split <;> simp [Path.same, h]
  rw [lastPublication, hp, lastPublication]

/-- A store is read as the last publication of each file says. -/
theorem lookup_replay :
    (replay reports).lookup path = ((lastPublication reports path).map items).getD [] := by
  induction reports using List.reverseRecOn with
  | nil => rfl
  | append_singleton reports r ih =>
      rw [replay_concat, last_publication_concat]
      obtain ⟨sender, event⟩ := r
      cases event with
      | diagnostics p new =>
          by_cases hp : p.components = path.components
          · simp [apply, publishes, items, Path.same, hp]
          · have hne : ¬ path.components = p.components := fun he => hp he.symm
            simpa [apply, publishes, Path.same, hp, hne] using ih
      | transportFailed | exited => simpa [apply, publishes] using ih

/-- A store that reports fill is well-formed. -/
theorem well_formed_replay : (replay reports).WellFormed := by
  induction reports using List.reverseRecOn with
  | nil => exact DiagnosticStore.well_formed_empty
  | append_singleton reports r ih =>
      rw [replay_concat]
      unfold apply
      split
      · exact ih.update
      · exact ih

end Report

/-- Something that happens to a supervisor: an operation of the host, with what the world makes of
it, or a report of a server. -/
inductive Supervisor.Step where
  | start (found : Option Path) (launch : ServerId → Path → Except Error Session)
  | restart (found : Option Path) (launch : ServerId → Path → Except Error Session)
  | shutdown
  | configure (settings : Settings)
  | changeFile (file : Path) (text : String) (isOpen : ServerId → Bool)
  | poll (budget : Nat)
  | takeErrors
  | report (r : Report)

/-- A supervisor with its queue, and what has happened so far. -/
structure Supervision where
  supervisor : Supervisor
  queue : EventQueue
  /-- The reports in the order in which they were queued. -/
  reports : List Report
  /-- How many reports have been handled. -/
  handled : Nat
  /-- How many reports had been handled when the diagnostics were last cleared. -/
  cleared : Nat

namespace Supervision

open Report (replay)

/-- A new supervisor, of which nothing has been reported. -/
def new (settings : Settings) (directories : List Path) (chain : Chain) : Supervision :=
  ⟨.new settings directories chain, .empty, [], 0, 0⟩

/-- Whether an event is the end of the only server. -/
def endsLast (s : Supervisor) : Event → Bool
  | .exited id _ => (s.servers.filter (·.1 ≠ id)).isEmpty
  | _ => false

/-- How many reports have been handled when the diagnostics are cleared for the last time, while
a supervisor that has handled `handled` reports handles events. -/
def clearedAfter (s : Supervisor) (handled cleared : Nat) : List Event → Nat
  | [] => cleared
  | e :: es =>
    clearedAfter (s.handle e) (handled + 1) (if endsLast s e then handled + 1 else cleared) es

variable (w : Supervision)

/-- The servers that run. -/
def running : List ServerId :=
  w.supervisor.servers.map (·.1)

/-- What happens in one step. -/
def step : Supervisor.Step → Supervision
  | .start found launch => { w with supervisor := (w.supervisor.start found launch).1 }
  | .restart found launch =>
    { w with
      supervisor := (w.supervisor.release.clearDiagnostics.start found launch).1
      cleared := w.handled }
  | .shutdown => { w with supervisor := w.supervisor.release }
  | .configure settings => { w with supervisor := { w.supervisor with settings } }
  | .changeFile file text isOpen =>
    { w with supervisor := (w.supervisor.changeFile file text isOpen).1 }
  | .poll budget =>
    let (supervisor, queue, count) := w.supervisor.poll budget w.queue
    { w with
      supervisor
      queue := queue.advance
      handled := w.handled + count
      cleared := clearedAfter w.supervisor w.handled w.cleared (w.queue.take budget).1 }
  | .takeErrors => { w with supervisor := w.supervisor.takeErrors.1 }
  | .report r => { w with queue := w.queue.send r.event, reports := w.reports ++ [r] }

/-- What happens in several steps. -/
def run (steps : List Supervisor.Step) : Supervision :=
  steps.foldl step w

/-- What has happened is accounted for: the events that wait are those of the reports that have not
been handled, and the store holds what was published by those handled since it was last cleared. -/
structure Accounted (w : Supervision) : Prop where
  waiting : w.queue.toList = (w.reports.drop w.handled).map (·.event)
  handled_le : w.handled ≤ w.reports.length
  cleared_le : w.cleared ≤ w.handled
  store : w.supervisor.diagnostics = replay ((w.reports.take w.handled).drop w.cleared)

/-- Nothing is unaccounted for at first. -/
theorem accounted_new (settings : Settings) (directories : List Path) (chain : Chain) :
    Accounted (new settings directories chain) :=
  ⟨rfl, Nat.le_refl _, Nat.le_refl _, rfl⟩

/-- Starting a server changes nothing of what has been published. -/
theorem diagnostics_start (s : Supervisor) (found : Option Path)
    (launch : ServerId → Path → Except Error Session) :
    (s.start found launch).1.diagnostics = s.diagnostics := by
  obtain ⟨-, heq⟩ | ⟨_, _, -, -, heq⟩ | ⟨_, _, -, -, heq⟩ := s.start_cases found launch <;> rw [heq]

/-- Telling the servers about a file changes nothing of what has been published. -/
theorem diagnostics_change_file (s : Supervisor) (file : Path) (text : String)
    (isOpen : ServerId → Bool) : (s.changeFile file text isOpen).1.diagnostics = s.diagnostics := by
  unfold Supervisor.changeFile
  split <;> rfl

/-- What one event does to the published diagnostics. -/
theorem diagnostics_handle (s : Supervisor) (r : Report) :
    (s.handle r.event).diagnostics
      = if endsLast s r.event then .empty else r.apply s.diagnostics := by
  obtain ⟨sender, event⟩ := r
  cases event with
  | diagnostics path items => rfl
  | transportFailed server error => rfl
  | exited id ending => rfl

/-- A supervisor that handles events keeps what was published since the last time it cleared. -/
theorem diagnostics_foldl_handle (reports : List Report) :
    ∀ (s : Supervisor) (past : List Report) (cleared : Nat), cleared ≤ past.length →
      s.diagnostics = replay (past.drop cleared) →
      clearedAfter s past.length cleared (reports.map (·.event)) ≤ past.length + reports.length ∧
        ((reports.map (·.event)).foldl Supervisor.handle s).diagnostics
          = replay ((past ++ reports).drop
              (clearedAfter s past.length cleared (reports.map (·.event)))) := by
  induction reports with
  | nil =>
      intro s past cleared hle hs
      exact ⟨hle, by simpa [clearedAfter] using hs⟩
  | cons r reports ih =>
      intro s past cleared hle hs
      have hlength : (past ++ [r]).length = past.length + 1 := by simp
      have hstep : (s.handle r.event).diagnostics = replay ((past ++ [r]).drop
          (if endsLast s r.event then past.length + 1 else cleared)) := by
        rw [diagnostics_handle]
        split
        -- The end of the last server clears the store: nothing of what has been handled is left.
        · rw [← hlength, List.drop_length]
          rfl
        · rw [List.drop_append_of_le_length hle, Report.replay_concat, hs]
      have hbound : (if endsLast s r.event then past.length + 1 else cleared)
          ≤ (past ++ [r]).length := by
        split <;> omega
      have hrest := ih (s.handle r.event) (past ++ [r]) _ hbound hstep
      rw [hlength, List.append_assoc] at hrest
      refine ⟨?_, hrest.2⟩
      have := hrest.1
      simp only [List.map_cons, clearedAfter, List.length_cons]
      omega

/-- The events that a poll takes are those of the next reports. -/
theorem Accounted.take_queue {w : Supervision} (h : Accounted w) (budget : Nat) :
    (w.queue.take budget).1
        = (((w.reports.drop w.handled).take (w.queue.take budget).1.length)).map (·.event) ∧
      (w.queue.take budget).2.toList
        = ((w.reports.drop w.handled).drop (w.queue.take budget).1.length).map (·.event) := by
  have hq := w.queue.take_append_toList budget
  rw [h.waiting] at hq
  constructor
  · rw [List.map_take, ← hq, List.take_left']
    rfl
  · rw [List.map_drop, ← hq, List.drop_left']
    rfl

/-- Everything is still accounted for after one more step. -/
theorem Accounted.step {w : Supervision} (h : Accounted w) (a : Supervisor.Step) :
    Accounted (w.step a) := by
  cases a with
  | start found launch =>
      exact ⟨h.waiting, h.handled_le, h.cleared_le, (diagnostics_start _ _ _).trans h.store⟩
  | restart found launch =>
      refine ⟨h.waiting, h.handled_le, Nat.le_refl _, (diagnostics_start _ _ _).trans ?_⟩
      simp [Supervision.step, Supervisor.clearDiagnostics, Supervisor.release, replay]
  | shutdown | configure | takeErrors =>
      exact ⟨h.waiting, h.handled_le, h.cleared_le, h.store⟩
  | changeFile file text isOpen =>
      exact ⟨h.waiting, h.handled_le, h.cleared_le,
        (diagnostics_change_file _ _ _ _).trans h.store⟩
  | poll budget =>
      -- The events taken are those of the next `n` reports, which are handled one after the other.
      obtain ⟨htaken, hleft⟩ := h.take_queue budget
      generalize hn : (w.queue.take budget).1.length = n at htaken hleft
      have hpast : (w.reports.take w.handled).length = w.handled :=
        List.length_take_of_le h.handled_le
      have hnext : ((w.reports.drop w.handled).take n).length = n := by
        have hlength := congrArg List.length htaken
        rw [hn, List.length_map] at hlength
        exact hlength.symm
      have hroom : w.handled + n ≤ w.reports.length := by
        have := h.handled_le
        rw [List.length_take, List.length_drop] at hnext
        omega
      obtain ⟨hcleared, hstore⟩ := diagnostics_foldl_handle ((w.reports.drop w.handled).take n)
        w.supervisor (w.reports.take w.handled) w.cleared (by rw [hpast]; exact h.cleared_le)
        h.store
      rw [hpast, ← htaken, hnext] at hcleared
      rw [hpast, ← htaken, ← List.take_add] at hstore
      refine ⟨?_, ?_, ?_, ?_⟩
      · simpa [Supervision.step, Supervisor.poll, hn, List.drop_drop] using hleft
      · simpa only [Supervision.step, Supervisor.poll, hn] using hroom
      · simpa only [Supervision.step, Supervisor.poll, hn] using hcleared
      · simpa only [Supervision.step, Supervisor.poll, hn] using hstore
  | report r =>
      refine ⟨?_, ?_, h.cleared_le, ?_⟩
      · simp [Supervision.step, h.waiting, List.drop_append_of_le_length h.handled_le]
      · have := h.handled_le
        simp only [Supervision.step, List.length_append, List.length_singleton]
        omega
      · simp only [Supervision.step, List.take_append_of_le_length h.handled_le]
        exact h.store

/-- Everything is accounted for after every run. -/
theorem Accounted.run {w : Supervision} (h : Accounted w) (steps : List Supervisor.Step) :
    Accounted (w.run steps) := by
  induction steps generalizing w with
  | nil => exact h
  | cons a steps ih => exact ih (h.step a)

/-- A state that a run of a new supervisor comes to. -/
def Reachable (w : Supervision) : Prop :=
  ∃ settings directories chain steps, (new settings directories chain).run steps = w

/-- Everything is accounted for in every state that is reached. -/
theorem Reachable.accounted {w : Supervision} (h : Reachable w) : Accounted w := by
  obtain ⟨settings, directories, chain, steps, rfl⟩ := h
  exact (accounted_new settings directories chain).run steps

end Supervision

end LintWatch.Server
