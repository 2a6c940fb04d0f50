import LintWatch.Host
import LintWatch.Rehearsal.Running

/-!
# How the end of a server counts that is being stopped

The host asks a server to shut down, tells it to exit once it has agreed, and then gives the word to
its monitor. The server answers as it likes and ends when and how it likes, and the monitor runs
when it is scheduled: `Stopping.Reaches` are the runs in which all of this comes in any order. The
end counts as requested exactly if the monitor heeded the word, that is, if it ran between the word
and the end; `exit_quiet_iff` says what the user hears otherwise.
-/

namespace LintWatch.Server

open Execution (Outcome)

/-- What a monitor notices of a process that has ended, or for which waiting has failed. -/
def Monitor.Notice.ofEnd : Except String Outcome → Monitor.Notice
  | .ok o => .ended o
  | .error text => .lost text

/-- The ending of a process that has ended, or for which waiting has failed. -/
def Ending.ofEnd (e : Except String Outcome) (requested : Bool) : Ending :=
  match e with
  | .ok o => .ofOutcome o requested
  | .error text => .ofWaitError text requested

/-- What a monitor does when it runs: the end of the process goes before the word. -/
def Monitor.wake (m : Monitor) (ended : Option (Except String Outcome)) (isTold : Bool) : Monitor :=
  match ended with
  | some e => m.step (.ofEnd e)
  | none => if isTold then m.step .stop else m

namespace Monitor

variable {m : Monitor} {ended : Option (Except String Outcome)} {isTold : Bool}

/-- A monitor still watches if it finds neither the end nor the word. -/
theorem wake_eq_watching_iff :
    m.wake ended isTold = .watching ↔ m = .watching ∧ ended = none ∧ isTold = false := by
  cases ended with
  | none => cases m <;> cases isTold <;> simp [wake, step]
  | some e => cases m <;> cases e <;> simp [wake, Notice.ofEnd, step]

/-- A monitor is stopping if it finds no end and finds the word, or has found it before. -/
theorem wake_eq_stopping_iff :
    m.wake ended isTold = .stopping ↔
      ended = none ∧ (m = .stopping ∨ m = .watching ∧ isTold = true) := by
  cases ended with
  | none => cases m <;> cases isTold <;> simp [wake, step]
  | some e => cases m <;> cases e <;> simp [wake, Notice.ofEnd, step]

/-- A monitor reports the end that it finds; it counts as requested if the monitor is stopping. -/
theorem wake_eq_reported_iff {ending : Ending} :
    m.wake ended isTold = .reported ending ↔
      m = .reported ending ∨
        ∃ e, ended = some e ∧
          (m = .watching ∧ ending = .ofEnd e false ∨ m = .stopping ∧ ending = .ofEnd e true) := by
  cases ended with
  | none => cases m <;> cases isTold <;> simp [wake, step]
  | some e =>
      cases m <;> cases e <;> simp [wake, Notice.ofEnd, step, Ending.ofEnd, eq_comm]

end Monitor

namespace Ending

variable {e : Except String Outcome} {requested : Bool}

/-- Only what was requested counts as requested. -/
theorem of_end_eq_requested_iff : ofEnd e requested = .requested ↔ requested = true := by
  cases requested with
  | true => cases e <;> simp [ofEnd, ofOutcome, ofWaitError, classify]
  | false =>
      cases e with
      | error text => simp [ofEnd, ofWaitError]
      | ok o =>
          simp only [ofEnd, ofOutcome, classify, Bool.false_eq_true, if_false, iff_false]
          split <;> simp

/-- An exit that was not requested fails unless its code is zero. -/
theorem of_end_code (n : Int) :
    ofEnd (.ok (.code n)) false = if n = 0 then .clean else .failed n := by
  by_cases hn : n = 0
  · rw [hn]
    rfl
  · simp only [ofEnd, ofOutcome, classify, Outcome.code?, if_neg hn]
    split <;> simp_all

/-- The code of a failure is that of a process whose end was not requested. -/
theorem of_end_eq_failed_iff {code : Int} :
    ofEnd e requested = .failed code ↔ requested = false ∧ e = .ok (.code code) ∧ code ≠ 0 := by
  cases requested with
  | true => cases e <;> simp [ofEnd, ofOutcome, ofWaitError, classify]
  | false =>
      cases e with
      | error text => simp [ofEnd, ofWaitError]
      | ok o =>
          cases o with
          | signal number => simp [ofEnd, ofOutcome, classify, Outcome.code?]
          | code n =>
              rw [of_end_code]
              constructor
              · intro hfailed
                split at hfailed
                next => cases hfailed
                next hne =>
                  obtain rfl := Ending.failed.inj hfailed
                  exact ⟨rfl, rfl, hne⟩
              · rintro ⟨-, hcode, hne⟩
                obtain rfl : n = code := by simpa using hcode
                exact if_neg hne

end Ending

/-- How far the host has come with stopping a server: it has asked, the server has agreed, there is
nothing more to say to the server, the monitor has been given the word. -/
inductive StopStage where
  | asked
  | agreed
  | settled
  | told
  deriving DecidableEq, Repr

/-- At the deadline nothing more is said to the server. -/
def StopStage.expire : StopStage → StopStage
  | .told => .told
  | _ => .settled

/-- A server that is being stopped. -/
structure Stopping where
  stage : StopStage
  /-- Whether the deadline has passed. -/
  isLate : Bool
  /-- How the process has ended, or why waiting for it will fail. -/
  ended : Option (Except String Outcome)
  monitor : Monitor

namespace Stopping

/-- Something that the host, the server or the monitor does. -/
inductive Move where
  | agree
  | refuse
  | hangUp
  | sendExit
  | expire
  | tell
  | leave (e : Except String Outcome)
  | wake
  | kill
  deriving Repr

/-- Whether the process ends. -/
def Move.ends : Move → Bool
  | .leave _ | .kill => true
  | _ => false

/-- The host has just asked a server that runs. -/
def begin : Stopping :=
  ⟨.asked, false, none, .watching⟩

/-- What a move does, and when it can be made. The server can end at any time, before or after it
answers. A monitor that has heeded the word kills a process that is still there at the deadline. -/
inductive Step (s : Stopping) : Move → Stopping → Prop where
  | agree (h : s.stage = .asked) : Step s .agree { s with stage := .agreed }
  | refuse (h : s.stage = .asked) : Step s .refuse { s with stage := .settled }
  | hangUp (h : s.stage = .asked) : Step s .hangUp { s with stage := .settled }
  | sendExit (h : s.stage = .agreed) : Step s .sendExit { s with stage := .settled }
  | expire : Step s .expire { s with stage := s.stage.expire, isLate := true }
  | tell (h : s.stage = .settled) : Step s .tell { s with stage := .told }
  | leave (h : s.ended = none) (e) : Step s (.leave e) { s with ended := some e }
  | wake : Step s .wake { s with monitor := s.monitor.wake s.ended (s.stage = .told) }
  | kill (hmonitor : s.monitor = .stopping) (hlate : s.isLate = true) (h : s.ended = none) :
      Step s .kill { s with ended := some (.ok (.signal 9)) }

/-- The states that moves lead to, from the moment at which the host asks. -/
inductive Reaches : List Move → Stopping → Prop where
  | begin : Reaches [] begin
  | move {moves : List Move} {m : Move} {s s' : Stopping} :
      Reaches moves s → Step s m s' → Reaches (moves ++ [m]) s'

/-- The process does not end in these moves. -/
def Lasts (moves : List Move) : Prop :=
  ∀ m ∈ moves, m.ends = false

/-- The monitor has run after it was given the word and before the process ended. -/
def Heeded (moves : List Move) : Prop :=
  ∃ early late, moves = early ++ .wake :: late ∧ .tell ∈ early ∧ Lasts early

variable {moves : List Move} {m : Move} {s s' : Stopping}

/-- With one more move the process lasts if it does not end in that one either. -/
theorem lasts_concat : Lasts (moves ++ [m]) ↔ Lasts moves ∧ m.ends = false := by
  simp [Lasts, or_imp, forall_and]

/-- With one more move the word is heeded if it was before, or if the monitor runs in time. -/
theorem heeded_concat :
    Heeded (moves ++ [m]) ↔ Heeded moves ∨ m = .wake ∧ .tell ∈ moves ∧ Lasts moves := by
  constructor
  · rintro ⟨early, late, hmoves, htold, hlasts⟩
    -- Either the last move is the run that heeds the word, or that run is among the moves before.
    rcases List.eq_nil_or_concat late with rfl | ⟨late, last, rfl⟩
    · obtain ⟨rfl, hlast⟩ := List.append_inj' hmoves rfl
      exact Or.inr ⟨List.head_eq_of_cons_eq hlast, htold, hlasts⟩
    · refine Or.inl ⟨early, late, ?_, htold, hlasts⟩
      rw [List.concat_eq_append, ← List.cons_append, ← List.append_assoc] at hmoves
      exact (List.append_inj' hmoves rfl).1
  · rintro (⟨early, late, rfl, htold, hlasts⟩ | ⟨rfl, htold, hlasts⟩)
    · exact ⟨early, late ++ [m], by simp, htold, hlasts⟩
    · exact ⟨moves, [], rfl, htold, hlasts⟩

/-- Only a run of the monitor makes the word heeded. -/
theorem heeded_concat_of_ne (h : m ≠ .wake) : Heeded (moves ++ [m]) ↔ Heeded moves := by
  rw [heeded_concat]
  simp [h]

/-- What the state says of the moves that led to it. A monitor that watches has not heeded the word,
one that is stopping has, and what it reports tells the two apart. -/
structure Tracked (moves : List Move) (s : Stopping) : Prop where
  told : s.stage = .told ↔ .tell ∈ moves
  lasts : s.ended = none ↔ Lasts moves
  watching : s.monitor = .watching → ¬ Heeded moves
  stopping : s.monitor = .stopping → Heeded moves
  reported : ∀ ending, s.monitor = .reported ending →
    ∃ e requested, s.ended = some e ∧ (requested = true ↔ Heeded moves) ∧
      ending = .ofEnd e requested

/-- What is tracked at first. -/
theorem tracked_begin : Tracked [] begin := by
  refine ⟨by simp [begin], by simp [begin, Lasts], ?_, by simp [begin], by simp [begin]⟩
  rintro - ⟨early, late, hmoves, -⟩
  simp at hmoves

/-- A move by which neither the monitor runs nor the process ends keeps what is tracked. -/
theorem Tracked.talk (h : Tracked moves s) {stage : StopStage} {isLate : Bool}
    (hwake : m ≠ .wake) (hends : m.ends = false)
    (hstage : stage = .told ↔ s.stage = .told ∨ m = .tell) :
    Tracked (moves ++ [m]) { s with stage, isLate } := by
  have hheeded : Heeded (moves ++ [m]) ↔ Heeded moves := heeded_concat_of_ne hwake
  refine ⟨?_, ?_, ?_, ?_, ?_⟩
  · rw [hstage, h.told, List.mem_append, List.mem_singleton, eq_comm (a := m)]
  · rw [lasts_concat]
    simpa [hends] using h.lasts
  · exact fun hmonitor => mt hheeded.1 (h.watching hmonitor)
  · exact fun hmonitor => hheeded.2 (h.stopping hmonitor)
  · rw [hheeded]
    exact h.reported

/-- The end of the process keeps what is tracked, since nothing has been reported before. -/
theorem Tracked.leave (h : Tracked moves s) {e : Except String Outcome}
    (hends : m.ends = true) (hended : s.ended = none) :
    Tracked (moves ++ [m]) { s with ended := some e } := by
  have hwake : m ≠ .wake := by
    rintro rfl
    cases hends
  have htell : Move.tell ≠ m := by
    rintro rfl
    cases hends
  have hheeded : Heeded (moves ++ [m]) ↔ Heeded moves := heeded_concat_of_ne hwake
  refine ⟨?_, ?_, ?_, ?_, ?_⟩
  · simpa [htell] using h.told
  · simp [lasts_concat, hends]
  · exact fun hmonitor => mt hheeded.1 (h.watching hmonitor)
  · exact fun hmonitor => hheeded.2 (h.stopping hmonitor)
  · intro ending hreported
    obtain ⟨_, _, hsome, _⟩ := h.reported ending hreported
    rw [hended] at hsome
    cases hsome

/-- A run of the monitor keeps what is tracked: it heeds the word if it finds it and no end. -/
theorem Tracked.wake (h : Tracked moves s) :
    Tracked (moves ++ [.wake])
      { s with monitor := s.monitor.wake s.ended (s.stage = .told) } := by
  have hheeded :
      Heeded (moves ++ [.wake]) ↔ Heeded moves ∨ s.stage = .told ∧ s.ended = none := by
    rw [heeded_concat, h.told, h.lasts]
    simp
  refine ⟨?_, ?_, ?_, ?_, ?_⟩
  · simpa using h.told
  · rw [lasts_concat]
    simpa [Move.ends] using h.lasts
  · intro hmonitor
    obtain ⟨hwatching, -, htold⟩ := Monitor.wake_eq_watching_iff.1 hmonitor
    rw [hheeded]
    rintro (hbefore | ⟨hnow, -⟩)
    · exact h.watching hwatching hbefore
    · simp [hnow] at htold
  · intro hmonitor
    obtain ⟨hnone, hstopping | ⟨-, htold⟩⟩ := Monitor.wake_eq_stopping_iff.1 hmonitor
    · exact hheeded.2 (Or.inl (h.stopping hstopping))
    · exact hheeded.2 (Or.inr ⟨of_decide_eq_true htold, hnone⟩)
  · intro ending hmonitor
    -- Whoever reports an end has found one, so this run does not heed the word any more.
    have hsome : ∀ e, s.ended = some e → (Heeded (moves ++ [.wake]) ↔ Heeded moves) := by
      intro e hended
      rw [hheeded, hended]
      simp
    rcases Monitor.wake_eq_reported_iff.1 hmonitor with hreported | ⟨e, hended, hnew⟩
    · obtain ⟨e, requested, hended, hrequested, hending⟩ := h.reported ending hreported
      exact ⟨e, requested, hended, hrequested.trans (hsome e hended).symm, hending⟩
    · rcases hnew with ⟨hwatching, hending⟩ | ⟨hstopping, hending⟩
      · exact ⟨e, false, hended, by simp [hsome e hended, h.watching hwatching], hending⟩
      · exact ⟨e, true, hended, by simp [hsome e hended, h.stopping hstopping], hending⟩

/-- Every move keeps what is tracked. -/
theorem Tracked.step (h : Tracked moves s) (hstep : Step s m s') : Tracked (moves ++ [m]) s' := by
  cases hstep with
  | agree hstage | refuse hstage | hangUp hstage | sendExit hstage =>
      exact h.talk (by simp) rfl (by simp [hstage])
  | expire =>
      refine h.talk (by simp) rfl ?_
      cases s.stage <;> simp [StopStage.expire]
  | tell => exact h.talk (by simp) rfl (by simp)
  | leave hended e => exact h.leave rfl hended
  | wake => exact h.wake
  | kill _ _ hended => exact h.leave rfl hended

/-- What is tracked holds in every state that is reached. -/
theorem Reaches.tracked (h : Reaches moves s) : Tracked moves s := by
  induction h with
  | begin => exact tracked_begin
  | move _ hstep ih => exact ih.step hstep

/-- The end that is reported is the one that the process came to, and it counts as requested exactly
if the word was heeded. -/
theorem Reaches.reported (h : Reaches moves s) {ending : Ending}
    (hreported : s.monitor = .reported ending) :
    (ending = .requested ↔ Heeded moves) ∧
      ((∀ code, ending ≠ .failed code) ↔
        Heeded moves ∨ ∀ code, s.ended = some (.ok (.code code)) → code = 0) := by
  obtain ⟨e, requested, hended, hheeded, rfl⟩ := h.tracked.reported ending hreported
  refine ⟨Ending.of_end_eq_requested_iff.trans hheeded, ?_⟩
  rw [← hheeded, hended]
  simp only [ne_eq, Ending.of_end_eq_failed_iff, Option.some.injEq]
  cases requested with
  | true => simp
  | false => simp

/-- The run can go on until the monitor has reported an end. -/
def Reports (moves : List Move) : Prop :=
  ∃ more s ending, Reaches (moves ++ more) s ∧ s.monitor = .reported ending

/-- A run that can go on after one more move can go on. -/
theorem Reports.of_concat (h : Reports (moves ++ [m])) : Reports moves := by
  obtain ⟨more, s, ending, hreaches, hreported⟩ := h
  exact ⟨m :: more, s, ending, by simpa using hreaches, hreported⟩

/-- The monitor reports an end that is there when it runs. -/
theorem Reaches.reports_of_ended (h : Reaches moves s) {e : Except String Outcome}
    (hended : s.ended = some e) : Reports moves := by
  obtain ⟨ending, hending⟩ : ∃ ending, s.monitor.wake s.ended (s.stage = .told)
      = .reported ending := by
    simp only [Monitor.wake_eq_reported_iff, hended]
    cases s.monitor <;> simp
  exact Reports.of_concat ⟨[], _, ending, by simpa using h.move .wake, hending⟩

/-- After the deadline a monitor that has the word reports an end, since it kills a process that is
still there. -/
theorem Reaches.reports_of_late (h : Reaches moves s) (htold : s.stage = .told)
    (hlate : s.isLate = true) : Reports moves := by
  cases hended : s.ended with
  | some e => exact h.reports_of_ended hended
  | none =>
      have hstopping : s.monitor.wake s.ended (s.stage = .told) = .stopping := by
        rw [Monitor.wake_eq_stopping_iff]
        refine ⟨hended, ?_⟩
        cases hmonitor : s.monitor with
        | watching => simp [htold]
        | stopping => simp
        | reported ending =>
            obtain ⟨e, _, hsome, _⟩ := h.tracked.reported ending hmonitor
            rw [hended] at hsome
            cases hsome
      -- It runs, heeds the word, kills the process and runs again.
      have hkill := (h.move .wake).move (.kill hstopping hlate hended)
      exact (hkill.reports_of_ended rfl).of_concat.of_concat

/-- Every run can go on until the monitor has reported an end, whatever the server does: at the
deadline the host gives the word. -/
theorem Reaches.reports (h : Reaches moves s) : Reports moves := by
  have hexpire := h.move .expire
  by_cases htold : s.stage = .told
  · exact (hexpire.reports_of_late (by simp [htold, StopStage.expire]) rfl).of_concat
  · have hsettled : s.stage.expire = .settled := by
      revert htold
      cases s.stage <;> simp [StopStage.expire]
    exact ((hexpire.move (.tell hsettled)).reports_of_late rfl rfl).of_concat.of_concat

/-- An end adds an error exactly if it is a failure. -/
theorem errors_handle_exited (sup : Supervisor) (id : ServerId) (ending : Ending) :
    (sup.handle (.exited id ending)).errors = sup.errors ↔ ∀ code, ending ≠ .failed code := by
  cases ending <;> simp [Supervisor.handle]

/-- An end is told to the user exactly if it is a failure. -/
theorem notices_handle_exited (host : Host) (id : ServerId) (ending : Ending) :
    ({ host with supervisor := host.supervisor.handle (.exited id ending) } : Host).report.2
        = host.report.2 ↔ ∀ code, ending ≠ .failed code := by
  cases ending <;>
    simp [Supervisor.handle, Host.report, Supervisor.takeErrors, Error.notice?, Error.isRoutine,
      Error.isMissingExecutable]

/-- The end of a server that is being stopped counts as requested exactly if the monitor heeded the
word. It adds no error, and the user is not told of it, exactly if it does or if the server has not
exited with a code other than zero. -/
theorem exit_quiet_iff (h : Reaches moves s) {ending : Ending}
    (hreported : s.monitor = .reported ending) (host : Host) (id : ServerId) :
    (ending = .requested ↔ Heeded moves) ∧
      ((host.supervisor.handle (.exited id ending)).errors = host.supervisor.errors ↔
        Heeded moves ∨ ∀ code, s.ended = some (.ok (.code code)) → code = 0) ∧
      (({ host with supervisor := host.supervisor.handle (.exited id ending) } : Host).report.2
          = host.report.2 ↔
        Heeded moves ∨ ∀ code, s.ended = some (.ok (.code code)) → code = 0) := by
  obtain ⟨hrequested, hfailed⟩ := h.reported hreported
  refine ⟨hrequested, ?_, ?_⟩
  · rw [errors_handle_exited, hfailed]
  · rw [notices_handle_exited, hfailed]

/-- A host of which nothing has gone wrong yet. -/
def quietHost : Host :=
  .new .empty none none []

/-- The server agrees to shut down and exits with code three once it is told to, and the monitor
runs in between. -/
theorem exit_quiet_heeded :
    ∃ s, Reaches [.agree, .sendExit, .tell, .wake, .leave (.ok (.code 3)), .wake] s ∧
      s.monitor = .reported .requested ∧
      (quietHost.supervisor.handle (.exited ⟨1⟩ .requested)).errors = [] := by
  have hreaches := ((((((Reaches.begin.move (.agree rfl)).move (.sendExit rfl)).move
    (.tell rfl)).move .wake).move (.leave rfl (.ok (.code 3)))).move .wake)
  refine ⟨_, hreaches, rfl, (exit_quiet_iff hreaches rfl quietHost ⟨1⟩).2.1.2 (Or.inl ?_)⟩
  exact ⟨[.agree, .sendExit, .tell], [.leave (.ok (.code 3)), .wake], rfl, by simp,
    by simp [Lasts, Move.ends]⟩

/-- The server answers the request by exiting with code three, and the monitor notices that before
the host gives up waiting for an answer. The user is told of the exit. -/
theorem exit_not_quiet_unheeded :
    ∃ s, Reaches [.leave (.ok (.code 3)), .wake, .expire, .tell, .wake] s ∧
      s.monitor = .reported (.failed 3) ∧
      (quietHost.supervisor.handle (.exited ⟨1⟩ (.failed 3))).errors = [.exited ⟨1⟩ 3] ∧
      ({ quietHost with
          supervisor := quietHost.supervisor.handle (.exited ⟨1⟩ (.failed 3)) } : Host).report.2
        ≠ [] := by
  have hreaches := (((((Reaches.begin.move (.leave rfl (.ok (.code 3)))).move .wake).move
    .expire).move (.tell rfl)).move .wake)
  exact ⟨_, hreaches, rfl, rfl, by simp [Host.report, Supervisor.takeErrors, quietHost, Host.new,
    Supervisor.new, Supervisor.handle, Error.notice?, Error.isRoutine, Error.isMissingExecutable]⟩

end Stopping

end LintWatch.Server

namespace LintWatch.Rehearsal.Running

open Server (Ending Monitor Stopping)
open Server.Stopping (Reaches Heeded)

variable {r : Running}

/-- Handing over a message is nothing that the monitor notices. -/
theorem monitor_push (r : Running) (message : Json) : (r.push message).monitor = r.monitor := by
  unfold push
  split
  · rfl
  · split <;> rfl

/-- Handing over several messages is nothing that the monitor notices. -/
theorem monitor_foldl_push (messages : List Json) (r : Running) :
    (messages.foldl push r).monitor = r.monitor := by
  induction messages generalizing r with
  | nil => rfl
  | cons message messages ih => exact (ih _).trans (monitor_push r message)

/-- The monitor does not run while a server and its connection work. -/
theorem monitor_settle (fuel : Nat) (r : Running) : (r.settle fuel).1.monitor = r.monitor := by
  induction fuel generalizing r with
  | zero => rfl
  | succ fuel ih =>
      simp only [settle]
      split
      · exact monitor_foldl_push _ _
      · exact (ih _).trans (monitor_foldl_push _ _)

/-- Ending a server, the monitor notices the word and then some end. -/
theorem monitor_finish (r : Running) :
    ∃ o, r.finish.1.monitor = (r.monitor.step .stop).step (.ended o) := by
  have hstopping : ∀ stopped : Running, stopped.monitor = r.monitor.step .stop →
      (stopped.settle rounds).1.monitor = r.monitor.step .stop :=
    fun stopped hstopped => (monitor_settle rounds stopped).trans hstopped
  simp only [finish, watch]
  split
  next o _ =>
    refine ⟨o, congrArg (Monitor.step · (.ended o)) ?_⟩
    split <;> exact hstopping _ rfl
  next hnone =>
    -- A server that has not come to its end by itself has been killed.
    split at hnone
    next hsome => simp [hnone] at hsome
    next => cases hnone

/-- A rehearsal that stops a server of whose end nothing is known is a run in which the monitor
heeds the word. -/
theorem finish_reaches (hwatching : r.monitor = .watching) :
    ∃ moves s, Reaches moves s ∧ Heeded moves ∧ s.monitor = r.finish.1.monitor := by
  obtain ⟨o, hmonitor⟩ := monitor_finish r
  have hreaches := ((((Reaches.begin.move .expire).move (.tell rfl)).move .wake).move
    (.leave rfl (.ok o))).move .wake
  refine ⟨_, _, hreaches, ⟨[.expire, .tell], [.leave (.ok o), .wake], rfl, by simp, ?_⟩, ?_⟩
  · simp [Stopping.Lasts, Stopping.Move.ends]
  · rw [hmonitor, hwatching]
    rfl

/-- A rehearsal that stops a server whose end has been noticed is a run in which the monitor does
not heed the word. -/
theorem finish_watch_reaches (hwatching : r.monitor = .watching) {o : Execution.Outcome}
    (hended : r.player.outcome = some o) :
    ∃ moves s, Reaches moves s ∧ ¬ Heeded moves ∧ s.monitor = r.watch.finish.1.monitor := by
  obtain ⟨o', hmonitor⟩ := monitor_finish r.watch
  have hreaches := (((Reaches.begin.move (.leave rfl (.ok o))).move .wake).move .expire).move
    (.tell rfl)
  have hreported : r.watch.finish.1.monitor = .reported (.ofOutcome o false) := by
    rw [hmonitor]
    simp [watch, hended, hwatching, Monitor.step]
  refine ⟨_, _, hreaches, fun hheeded => ?_, hreported.symm⟩
  have hrequested : Ending.ofEnd (.ok o) false = .requested := (hreaches.reported rfl).1.2 hheeded
  exact absurd (Ending.of_end_eq_requested_iff.1 hrequested) Bool.false_ne_true

end LintWatch.Rehearsal.Running
