import LintWatch.Proofs.Server.Edits

/-!
# The succession of servers

Servers come and go: a start gives a number to a server and launches it, and returns the number if
that succeeds; a shutdown and a restart give up all servers; and the end of a server may be handled
at any later time. `Change` lists what happens to servers in this way, and `Stands` says by it alone
which of them should be there. The supervisor has exactly these, whatever the run and however late
the events (`standing_are_running`), so the end of a server that has been replaced, or that has
never been there, takes out no other one.
-/

namespace LintWatch.Server

/-- Something that happens to servers: one is given a number and launched, a start or restart
returns one, all that there are are given up, or the end of one is handled. -/
inductive Change where
  | launched (id : ServerId)
  | returned (id : ServerId)
  | released
  | ended (id : ServerId)
  deriving DecidableEq, Repr

namespace Change

/-- The server that is launched. -/
def launched? : Change → Option ServerId
  | .launched id => some id
  | _ => none

/-- The server that a start or restart returns. -/
def returned? : Change → Option ServerId
  | .returned id => some id
  | _ => none

/-- What happens to servers when an event is handled. -/
def ofEvent? : Event → Option Change
  | .exited id _ => some (.ended id)
  | _ => none

end Change

/-- The servers that have been launched, in order. -/
def launchedIn (changes : List Change) : List ServerId :=
  changes.filterMap Change.launched?

/-- The servers that starts and restarts have returned, in order. -/
def returnedIn (changes : List Change) : List ServerId :=
  changes.filterMap Change.returned?

/-- A server stands: a start or restart has returned it, and since then neither have all servers
been given up nor has its end been handled. -/
def Stands (changes : List Change) (id : ServerId) : Prop :=
  ∃ early late, changes = early ++ .returned id :: late ∧ .released ∉ late ∧ .ended id ∉ late

variable {changes : List Change} {t : Change} {id : ServerId}

/-- One more change may launch one more server. -/
theorem launched_in_concat :
    launchedIn (changes ++ [t]) = launchedIn changes ++ t.launched?.toList := by
  cases h : t.launched? <;> simp [launchedIn, h]

/-- One more change may return one more server. -/
theorem returned_in_concat :
    returnedIn (changes ++ [t]) = returnedIn changes ++ t.returned?.toList := by
  cases h : t.returned? <;> simp [returnedIn, h]

/-- No server stands before anything has happened. -/
theorem not_stands_nil : ¬ Stands [] id := by
  rintro ⟨early, late, heq, -⟩
  simp at heq

/-- With one more change a server stands if that returns it, or if it stood before and the change
does not take it away. -/
theorem stands_concat : Stands (changes ++ [t]) id ↔
    t = .returned id ∨ (Stands changes id ∧ t ≠ .released ∧ t ≠ .ended id) := by
  constructor
  · rintro ⟨early, late, heq, hreleased, hended⟩
    rcases List.eq_nil_or_concat late with rfl | ⟨late, last, rfl⟩
    · exact Or.inl (List.head_eq_of_cons_eq (List.append_inj' heq rfl).2)
    · rw [List.concat_eq_append] at heq hreleased hended
      rw [← List.cons_append, ← List.append_assoc] at heq
      obtain ⟨hchanges, hlast⟩ := List.append_inj' heq rfl
      obtain rfl : t = last := List.head_eq_of_cons_eq hlast
      simp only [List.mem_append, List.mem_singleton, not_or] at hreleased hended
      exact Or.inr ⟨⟨early, late, hchanges, hreleased.1, hended.1⟩, Ne.symm hreleased.2,
        Ne.symm hended.2⟩
  · rintro (rfl | ⟨⟨early, late, rfl, hreleased, hended⟩, hne, hother⟩)
    · exact ⟨changes, [], rfl, List.not_mem_nil, List.not_mem_nil⟩
    · refine ⟨early, late ++ [t], by simp, ?_, ?_⟩
      · simpa using ⟨hreleased, Ne.symm hne⟩
      · simpa using ⟨hended, Ne.symm hother⟩

namespace Supervisor

/-- What happens to servers in a start: the number that it gives out, and the server that it
returns. -/
def startChanges (s : Supervisor) (found : Option Path)
    (launch : ServerId → Path → Except Error Session) : List Change :=
  (s.prepare found).2.toList.map .launched ++ (s.start found launch).2.toList.map .returned

/-- What has happened to servers is recorded: each was launched with a greater number than those
before, no other one was returned, and those that stand are those that the supervisor has. -/
structure Recorded (s : Supervisor) (changes : List Change) : Prop where
  increasing : (launchedIn changes).Pairwise (·.number < ·.number)
  below : ∀ id ∈ launchedIn changes, id.number < s.nextServer
  returned : (returnedIn changes).Sublist (launchedIn changes)
  running : ∀ id, id ∈ s.servers.map (·.1) ↔ Stands changes id

variable {s s' : Supervisor}

/-- Nothing has happened to servers before the first start. -/
theorem recorded_new (settings : Settings) (directories : List Path) (chain : Chain) :
    Recorded (new settings directories chain) [] :=
  ⟨.nil, nofun, .refl _, fun _ => iff_of_false List.not_mem_nil not_stands_nil⟩

/-- A supervisor with the same servers and the same next number has the same record. -/
theorem Recorded.congr (h : Recorded s changes)
    (hservers : s'.servers.map (·.1) = s.servers.map (·.1)) (hnext : s'.nextServer = s.nextServer) :
    Recorded s' changes := by
  refine ⟨h.increasing, ?_, h.returned, ?_⟩
  · rw [hnext]
    exact h.below
  · rw [hservers]
    exact h.running

/-- A change that gives out no number and returns no server is recorded if the servers are those
that it does not take away. -/
theorem Recorded.quiet (h : Recorded s changes) (hlaunched : t.launched? = none)
    (hreturned : t.returned? = none) (hnext : s'.nextServer = s.nextServer)
    (hservers : ∀ id, id ∈ s'.servers.map (·.1) ↔
      id ∈ s.servers.map (·.1) ∧ t ≠ .released ∧ t ≠ .ended id) :
    Recorded s' (changes ++ [t]) := by
  have hlaunches : launchedIn (changes ++ [t]) = launchedIn changes := by
    rw [launched_in_concat, hlaunched]
    exact List.append_nil _
  have hreturns : returnedIn (changes ++ [t]) = returnedIn changes := by
    rw [returned_in_concat, hreturned]
    exact List.append_nil _
  refine ⟨?_, ?_, ?_, fun id => ?_⟩
  · rw [hlaunches]
    exact h.increasing
  · rw [hlaunches, hnext]
    exact h.below
  · rw [hlaunches, hreturns]
    exact h.returned
  · have hother : t ≠ .returned id := by
      rintro rfl
      cases hreturned
    rw [hservers, stands_concat, h.running, or_iff_right hother]

/-- Giving up all servers leaves none that stands. -/
theorem Recorded.release (h : Recorded s changes) : Recorded s.release (changes ++ [.released]) :=
  h.quiet rfl rfl rfl fun _ => iff_of_false List.not_mem_nil fun hall => hall.2.1 rfl

/-- A number that is given out is greater than those before. -/
theorem Recorded.prepare (h : Recorded s changes) (executable : Path) :
    Recorded (s.prepare (some executable)).1 (changes ++ [.launched ⟨s.nextServer⟩]) := by
  have hlaunches : launchedIn (changes ++ [.launched ⟨s.nextServer⟩])
      = launchedIn changes ++ [⟨s.nextServer⟩] :=
    launched_in_concat
  have hreturns : returnedIn (changes ++ [.launched ⟨s.nextServer⟩]) = returnedIn changes :=
    returned_in_concat.trans (List.append_nil _)
  refine ⟨?_, ?_, ?_, fun id => ?_⟩
  · rw [hlaunches, List.pairwise_append]
    refine ⟨h.increasing, List.pairwise_singleton _ _, fun id hid new hnew => ?_⟩
    obtain rfl := List.mem_singleton.1 hnew
    exact h.below id hid
  · rw [hlaunches]
    intro id hid
    rcases List.mem_append.1 hid with hid | hid
    · exact Nat.lt_succ_of_lt (h.below id hid)
    · obtain rfl := List.mem_singleton.1 hid
      exact Nat.lt_succ_self _
  · rw [hlaunches, hreturns]
    exact h.returned.trans (List.sublist_append_left _ _)
  · show id ∈ s.servers.map (·.1) ↔ _
    rw [stands_concat, h.running]
    simp

/-- A start records the number that it gives out and the server that it returns. -/
theorem Recorded.start (h : Recorded s changes) (found : Option Path)
    (launch : ServerId → Path → Except Error Session) :
    Recorded (s.start found launch).1 (changes ++ s.startChanges found launch) := by
  cases found with
  | none =>
      rw [show s.startChanges none launch = [] from rfl, List.append_nil]
      exact h.congr rfl rfl
  | some executable =>
      have hprepared := h.prepare executable
      have hstart : s.start (some executable) launch = (s.prepare (some executable)).1.settle
          ⟨s.nextServer⟩ (launch ⟨s.nextServer⟩ executable) := rfl
      rw [startChanges, hstart]
      cases launch ⟨s.nextServer⟩ executable with
      | error e => exact hprepared.congr rfl rfl
      | ok session =>
          show Recorded _ (changes ++ ([.launched ⟨s.nextServer⟩] ++ [.returned ⟨s.nextServer⟩]))
          rw [← List.append_assoc]
          have hlaunches : launchedIn (changes ++ [.launched ⟨s.nextServer⟩] ++
              [.returned ⟨s.nextServer⟩]) = launchedIn (changes ++ [.launched ⟨s.nextServer⟩]) :=
            launched_in_concat.trans (List.append_nil _)
          refine ⟨?_, ?_, ?_, fun id => ?_⟩
          · rw [hlaunches]
            exact hprepared.increasing
          · rw [hlaunches]
            exact hprepared.below
          · -- Of the numbers returned the last one is the last one given out.
            rw [hlaunches, launched_in_concat, returned_in_concat, returned_in_concat]
            show (returnedIn changes ++ [] ++ _).Sublist _
            rw [List.append_nil]
            exact h.returned.append_right [⟨s.nextServer⟩]
          · show id ∈ List.map _ (s.servers ++ [(⟨s.nextServer⟩, session)]) ↔ _
            rw [stands_concat, ← hprepared.running]
            simp [Supervisor.prepare, or_comm, eq_comm]

/-- Handling an event records the end of a server. -/
theorem Recorded.handle (h : Recorded s changes) (event : Event) :
    Recorded (s.handle event) (changes ++ (Change.ofEvent? event).toList) := by
  cases event with
  | diagnostics | transportFailed =>
      rw [show changes ++ (Change.ofEvent? _).toList = changes from List.append_nil _]
      exact h.congr rfl rfl
  | exited gone ending =>
      refine h.quiet rfl rfl rfl fun id => ?_
      show id ∈ List.map _ (s.servers.filter (·.1 ≠ gone)) ↔ _
      simp only [List.mem_map, List.mem_filter, decide_eq_true_eq, ne_eq, Change.ended.injEq]
      grind

/-- Handling events one after the other records the ends of servers in order. -/
theorem Recorded.foldl_handle (h : Recorded s changes) (events : List Event) :
    Recorded (events.foldl Supervisor.handle s) (changes ++ events.filterMap Change.ofEvent?) := by
  induction events generalizing s changes with
  | nil => simpa using h
  | cons event events ih =>
      have hrest := ih (h.handle event)
      rw [List.append_assoc] at hrest
      rw [List.filterMap_cons]
      cases hevent : Change.ofEvent? event with
      | none => simpa [hevent] using hrest
      | some change => simpa [hevent] using hrest

end Supervisor

namespace Supervision

variable {w : Supervision}

/-- What happens to servers in a step. -/
def changesIn (w : Supervision) : Supervisor.Step → List Change
  | .start found launch => w.supervisor.startChanges found launch
  | .restart found launch =>
    .released :: w.supervisor.release.clearDiagnostics.startChanges found launch
  | .shutdown => [.released]
  | .poll budget => (w.queue.take budget).1.filterMap Change.ofEvent?
  | .configure _ | .changeFile _ _ _ | .takeErrors | .report _ => []

/-- What happens to servers in a run. -/
def history (w : Supervision) (steps : List Supervisor.Step) : List Change :=
  w.gather changesIn steps

/-- A step records what happens to servers in it. -/
theorem recorded_step {past : List Change} (h : w.supervisor.Recorded past) (a : Supervisor.Step) :
    (w.step a).supervisor.Recorded (past ++ w.changesIn a) := by
  cases a with
  | start found launch => exact h.start found launch
  | restart found launch =>
      have hreleased : w.supervisor.release.clearDiagnostics.Recorded (past ++ [.released]) :=
        h.release.congr rfl rfl
      have hstarted := hreleased.start found launch
      rw [List.append_assoc] at hstarted
      exact hstarted
  | shutdown => exact h.release
  | poll budget => exact h.foldl_handle (w.queue.take budget).1
  | changeFile file text isOpen =>
      obtain ⟨hservers, hnext⟩ := w.supervisor.numbers_change_file file text isOpen
      rw [show w.changesIn (.changeFile file text isOpen) = [] from rfl, List.append_nil]
      exact h.congr hservers hnext
  | configure | takeErrors | report =>
      rw [show past ++ w.changesIn _ = past from List.append_nil _]
      exact h.congr rfl rfl

/-- A run records what happens to servers in it. -/
theorem recorded_run {past : List Change} (h : w.supervisor.Recorded past)
    (steps : List Supervisor.Step) :
    (w.run steps).supervisor.Recorded (past ++ w.history steps) := by
  induction steps generalizing w past with
  | nil => simpa [history, gather, run] using h
  | cons a steps ih =>
      have hrest := ih (recorded_step h a)
      rw [List.append_assoc] at hrest
      exact hrest

/-- The end of a server that does not run takes out no other one. -/
theorem servers_handle_exited_of_not_running (h : id ∉ w.running) (ending : Ending) :
    (w.supervisor.handle (.exited id ending)).servers = w.supervisor.servers := by
  show w.supervisor.servers.filter (·.1 ≠ id) = _
  refine List.filter_eq_self.2 fun server hserver => decide_eq_true ?_
  rintro rfl
  exact h (List.mem_map.2 ⟨server, hserver, rfl⟩)

/-- In every run, servers are launched with greater and greater numbers, so none is given out twice,
and starts and restarts return some of them, in order. The supervisor has exactly the servers that
have been returned and since then neither been given up nor come to an end that was handled, each
once, and it says that a server runs exactly if there is one. The end of a server that is none of
them, such as one that has been replaced or that failed to start, takes out no other one. -/
theorem standing_are_running (settings : Settings) (directories : List Path) (chain : Chain)
    (steps : List Supervisor.Step) :
    let w := (new settings directories chain).run steps
    let changes := (new settings directories chain).history steps
    (launchedIn changes).Pairwise (·.number < ·.number) ∧
      (returnedIn changes).Sublist (launchedIn changes) ∧
      w.running.Nodup ∧
      (∀ id, id ∈ w.running ↔ Stands changes id) ∧
      (w.supervisor.isRunning = true ↔ ∃ id, Stands changes id) ∧
      ∀ id, ¬ Stands changes id → ∀ ending,
        (w.supervisor.handle (.exited id ending)).servers = w.supervisor.servers := by
  intro w changes
  have h : w.supervisor.Recorded changes :=
    recorded_run (w := new settings directories chain)
      (Supervisor.recorded_new settings directories chain) steps
  have hnumbered : w.supervisor.Numbered := Reachable.numbered ⟨_, _, _, _, rfl⟩
  have hrunning : ∀ id, id ∈ w.running ↔ Stands changes id := h.running
  refine ⟨h.increasing, h.returned, hnumbered.distinct, hrunning, ?_, fun id hid ending => ?_⟩
  · simp only [← hrunning]
    show (!w.supervisor.servers.isEmpty) = true ↔ ∃ id, id ∈ w.supervisor.servers.map (·.1)
    cases w.supervisor.servers <;> simp
  · exact servers_handle_exited_of_not_running (fun hmem => hid ((hrunning id).1 hmem)) ending

/-- Three generations of servers, of which the second one fails to start, and then a start that
finds no executable. The ends of the first two are handled when the third one runs. -/
def generations : List Supervisor.Step :=
  let linter := some (Path.ofString "/bin/ruff")
  [.start linter fun _ _ => .ok .new, .restart linter fun _ _ => .error .channelClosed,
    .restart linter fun _ _ => .ok .new, .start none fun _ _ => .ok .new,
    .report ⟨⟨1⟩, .exited ⟨1⟩ .requested⟩, .report ⟨⟨2⟩, .exited ⟨2⟩ (.failed 1)⟩, .poll 64]

/-- The third server runs, and the end of the first one, if it came again, would not take it out. -/
theorem standing_are_running_of_generations :
    let w := (new .empty [] .standard).run generations
    let changes := (new .empty [] .standard).history generations
    launchedIn changes = [⟨1⟩, ⟨2⟩, ⟨3⟩] ∧ returnedIn changes = [⟨1⟩, ⟨3⟩] ∧ w.running = [⟨3⟩] ∧
      Stands changes ⟨3⟩ ∧ ¬ Stands changes ⟨1⟩ ∧
      (w.supervisor.handle (.exited ⟨1⟩ (.failed 1))).servers = w.supervisor.servers := by
  intro w changes
  have hrunning : w.running = [⟨3⟩] := by decide
  obtain ⟨-, -, -, hiff, -, hlate⟩ := standing_are_running .empty [] .standard generations
  have hstands : ∀ id, Stands changes id ↔ id = ⟨3⟩ := by
    intro id
    rw [← hiff]
    show id ∈ w.running ↔ _
    rw [hrunning, List.mem_singleton]
  have hfirst : ¬ Stands changes ⟨1⟩ := by
    rw [hstands]
    decide
  exact ⟨by decide, by decide, hrunning, (hstands _).2 rfl, hfirst, hlate ⟨1⟩ hfirst (.failed 1)⟩

end Supervision

end LintWatch.Server
