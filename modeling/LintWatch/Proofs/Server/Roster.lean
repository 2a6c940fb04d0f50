import LintWatch.Proofs.Server.Run
import Mathlib.Data.List.Nodup

/-!
# Which servers run

Each server has a number of its own, and numbers are not given out twice: `Reachable.numbered`. In
every step but an edit some servers may go and one may come (`Supervisor.Turnover`), so a server
keeps its session until it is gone, and then it does not come back: `Supervisor.Turnover.lookup`.
-/

namespace LintWatch.Server

section Lookup

variable {servers kept : List (ServerId × Session)} {id : ServerId} {session : Session}

/-- Where numbers are not used twice, a server is found exactly if it is there. -/
theorem lookup_eq_some_iff_mem (h : (servers.map (·.1)).Nodup) :
    servers.lookup id = some session ↔ (id, session) ∈ servers := by
  induction servers with
  | nil => simp
  | cons server servers ih =>
      obtain ⟨other, first⟩ := server
      obtain ⟨hother, h⟩ := List.nodup_cons.1 h
      by_cases heq : id = other
      · subst heq
        have hnot : (id, session) ∉ servers := fun hmem => hother (List.mem_map.2 ⟨_, hmem, rfl⟩)
        simp [hnot, eq_comm]
      · simp [List.lookup_cons, beq_false_of_ne heq, heq, ih h]

/-- Of some of the servers, one is found as it is among all, or it is not there. -/
theorem lookup_of_sublist (h : (servers.map (·.1)).Nodup) (hkept : kept.Sublist servers) :
    kept.lookup id = none ∨ kept.lookup id = servers.lookup id := by
  cases hfound : kept.lookup id with
  | none => exact Or.inl rfl
  | some session =>
      have hmem := (lookup_eq_some_iff_mem (h.sublist (hkept.map _))).1 hfound
      exact Or.inr ((lookup_eq_some_iff_mem h).2 (hkept.mem hmem)).symm

/-- A server is found in what became of all servers as what became of it. -/
theorem lookup_map_sessions (f : Session → Session) :
    (servers.map fun server => (server.1, f server.2)).lookup id = (servers.lookup id).map f := by
  induction servers with
  | nil => rfl
  | cons server servers ih =>
      rw [List.map_cons, List.lookup_cons, List.lookup_cons, ih]
      cases id == server.1 <;> rfl

/-- Of messages for all servers, one server has its own. -/
theorem filter_map_messages (h : (servers.map (·.1)).Nodup) (f : Session → Json) :
    ((servers.map fun server => (server.1, f server.2)).filter (·.1 = id)).map (·.2)
      = ((servers.lookup id).map f).toList := by
  induction servers with
  | nil => rfl
  | cons server servers ih =>
      obtain ⟨other, first⟩ := server
      obtain ⟨hother, h⟩ := List.nodup_cons.1 h
      by_cases heq : other = id
      · subst heq
        have hnone : servers.lookup other = none := by
          cases hfound : servers.lookup other with
          | none => rfl
          | some session =>
              have hmem := (lookup_eq_some_iff_mem h).1 hfound
              exact absurd (List.mem_map.2 ⟨_, hmem, rfl⟩) hother
        have hrest := ih h
        rw [hnone] at hrest
        rw [List.map_cons, List.filter_cons_of_pos (by simp), List.map_cons, hrest,
          List.lookup_cons_self]
        rfl
      · rw [List.map_cons, List.filter_cons_of_neg (by simpa using heq), ih h, List.lookup_cons,
          beq_false_of_ne (Ne.symm heq)]

end Lookup

namespace Supervisor

variable {s s' : Supervisor} {id : ServerId}

/-- The servers have different numbers, which have been given out. -/
structure Numbered (s : Supervisor) : Prop where
  distinct : (s.servers.map (·.1)).Nodup
  below : ∀ id ∈ s.servers.map (·.1), id.number < s.nextServer

/-- What becomes of the servers when they are told nothing: some are gone, and there may be one
more, with a number that was not given out before. -/
inductive Turnover (s s' : Supervisor) : Prop where
  | fewer :
      s'.servers.Sublist s.servers → s.nextServer ≤ s'.nextServer → Turnover s s'
  | started (kept : List (ServerId × Session)) (session : Session) :
      kept.Sublist s.servers → s'.servers = kept ++ [(⟨s.nextServer⟩, session)] →
      s.nextServer < s'.nextServer → Turnover s s'

/-- A start keeps the servers and adds one at most. -/
theorem turnover_start (s : Supervisor) (found : Option Path)
    (launch : ServerId → Path → Except Error Session) : Turnover s (s.start found launch).1 := by
  obtain ⟨-, heq⟩ | ⟨_, session, -, -, heq⟩ | ⟨_, _, -, -, heq⟩ := s.start_cases found launch <;>
    rw [heq]
  · exact .fewer (List.Sublist.refl _) (Nat.le_refl _)
  · exact .started s.servers session (List.Sublist.refl _) rfl (Nat.lt_succ_self _)
  · exact .fewer (List.Sublist.refl _) (Nat.le_succ _)

/-- A start after a restart has only the new server. -/
theorem turnover_restart (s : Supervisor) (found : Option Path)
    (launch : ServerId → Path → Except Error Session) :
    Turnover s (s.release.clearDiagnostics.start found launch).1 := by
  cases s.release.clearDiagnostics.turnover_start found launch with
  | fewer hkept hnext => exact .fewer (hkept.trans (List.nil_sublist _)) hnext
  | started kept session hkept hservers hnext =>
      exact .started kept session (hkept.trans (List.nil_sublist _)) hservers hnext

/-- Events take out servers at most. -/
theorem turnover_handle (s : Supervisor) (events : List Event) :
    (events.foldl handle s).servers.Sublist s.servers
      ∧ (events.foldl handle s).nextServer = s.nextServer := by
  induction events generalizing s with
  | nil => exact ⟨List.Sublist.refl _, rfl⟩
  | cons event events ih =>
      obtain ⟨hservers, hnext⟩ := ih (s.handle event)
      cases event with
      | diagnostics | transportFailed => exact ⟨hservers, hnext⟩
      | exited => exact ⟨hservers.trans List.filter_sublist, hnext⟩

/-- Servers that are told nothing still have different numbers. -/
theorem Numbered.turnover (hs : Numbered s) (h : Turnover s s') : Numbered s' := by
  cases h with
  | fewer hservers hnext =>
      have hnumbers := hservers.map (·.1)
      refine ⟨hs.distinct.sublist hnumbers, ?_⟩
      intro id hid
      have := hs.below id (hnumbers.mem hid)
      omega
  | started kept session hkept hservers hnext =>
      have hnumbers := hkept.map (·.1)
      have hbelow : ∀ id ∈ kept.map (·.1), id.number < s.nextServer := by
        intro id hid
        exact hs.below id (hnumbers.mem hid)
      constructor
      · rw [hservers, List.map_append, List.nodup_append]
        refine ⟨hs.distinct.sublist hnumbers, List.nodup_singleton _, ?_⟩
        rintro id hid new hnew rfl
        obtain rfl := List.mem_singleton.1 hnew
        exact Nat.lt_irrefl _ (hbelow _ hid)
      · intro id hid
        rw [hservers, List.map_append, List.mem_append] at hid
        rcases hid with hid | hid
        · have := hbelow id hid
          omega
        · obtain rfl := List.mem_singleton.1 hid
          exact hnext

/-- A server that is told nothing is found as before, or it is gone, and one that is gone does not
come back. -/
theorem Turnover.lookup (h : Turnover s s') (hs : Numbered s) (hid : id.number < s.nextServer) :
    s'.servers.lookup id = none ∨ s'.servers.lookup id = s.servers.lookup id := by
  cases h with
  | fewer hservers _ => exact lookup_of_sublist hs.distinct hservers
  | started kept session hkept hservers _ =>
      have hnew : (id == (⟨s.nextServer⟩ : ServerId)) = false := by
        refine beq_false_of_ne fun heq => ?_
        rw [heq] at hid
        exact Nat.lt_irrefl _ hid
      rw [hservers, List.lookup_append, List.lookup_cons, hnew, List.lookup_nil, Option.or_none]
      exact lookup_of_sublist hs.distinct hkept

/-- Changing a file leaves the servers and their numbers as they are, whatever becomes of their
sessions. -/
theorem numbers_change_file (s : Supervisor) (file : Path) (text : String)
    (isOpen : ServerId → Bool) :
    (s.changeFile file text isOpen).1.servers.map (·.1) = s.servers.map (·.1)
      ∧ (s.changeFile file text isOpen).1.nextServer = s.nextServer := by
  unfold changeFile
  split
  · exact ⟨rfl, rfl⟩
  · refine ⟨?_, rfl⟩
    show List.map _ (List.map _ (List.map _ s.servers)) = _
    rw [List.map_map, List.map_map]
    rfl

/-- Servers that hear of a file still have different numbers. -/
theorem Numbered.change_file (hs : Numbered s) (file : Path) (text : String)
    (isOpen : ServerId → Bool) : Numbered (s.changeFile file text isOpen).1 := by
  obtain ⟨hnumbers, hnext⟩ := s.numbers_change_file file text isOpen
  constructor
  · rw [hnumbers]
    exact hs.distinct
  · rw [hnumbers, hnext]
    exact hs.below

end Supervisor

namespace Supervision

variable {w : Supervision} {id : ServerId} {session : Session}

/-- The session of a server that runs. -/
def session? (w : Supervision) (id : ServerId) : Option Session :=
  w.supervisor.servers.lookup id

/-- A step is an edit, or it may start one server and otherwise takes out servers at most. -/
theorem edit_or_turnover (w : Supervision) (a : Supervisor.Step) :
    (∃ file text isOpen, a = .changeFile file text isOpen)
      ∨ (∀ file text isOpen, a ≠ .changeFile file text isOpen)
        ∧ Supervisor.Turnover w.supervisor (w.step a).supervisor := by
  cases a with
  | changeFile file text isOpen => exact Or.inl ⟨file, text, isOpen, rfl⟩
  | start found launch => exact Or.inr ⟨nofun, w.supervisor.turnover_start found launch⟩
  | restart found launch => exact Or.inr ⟨nofun, w.supervisor.turnover_restart found launch⟩
  | shutdown => exact Or.inr ⟨nofun, .fewer (List.nil_sublist _) (Nat.le_refl _)⟩
  | configure | takeErrors | report =>
      exact Or.inr ⟨nofun, .fewer (List.Sublist.refl _) (Nat.le_refl _)⟩
  | poll budget =>
      obtain ⟨hservers, hnext⟩ := w.supervisor.turnover_handle (w.queue.take budget).1
      exact Or.inr ⟨nofun, .fewer hservers (Nat.le_of_eq hnext.symm)⟩

/-- The servers have different numbers after every step. -/
theorem numbered_step (h : w.supervisor.Numbered) (a : Supervisor.Step) :
    (w.step a).supervisor.Numbered := by
  rcases w.edit_or_turnover a with ⟨file, text, isOpen, rfl⟩ | ⟨-, hturnover⟩
  · exact h.change_file file text isOpen
  · exact h.turnover hturnover

/-- The servers have different numbers after every run. -/
theorem numbered_run (h : w.supervisor.Numbered) (steps : List Supervisor.Step) :
    (w.run steps).supervisor.Numbered := by
  induction steps generalizing w with
  | nil => exact h
  | cons a steps ih => exact ih (numbered_step h a)

/-- The servers have different numbers in every state that is reached. -/
theorem Reachable.numbered (h : Reachable w) : w.supervisor.Numbered := by
  obtain ⟨settings, directories, chain, steps, rfl⟩ := h
  refine numbered_run ⟨?_, ?_⟩ steps
  · exact List.nodup_nil
  · exact fun _ h => absurd h List.not_mem_nil

/-- A number that has been given out stays so. -/
theorem next_server_step (w : Supervision) (a : Supervisor.Step) :
    w.supervisor.nextServer ≤ (w.step a).supervisor.nextServer := by
  rcases w.edit_or_turnover a with ⟨file, text, isOpen, rfl⟩ | ⟨-, hturnover⟩
  · exact Nat.le_of_eq (w.supervisor.numbers_change_file file text isOpen).2.symm
  · cases hturnover with
    | fewer _ hnext => exact hnext
    | started _ _ _ _ hnext => exact Nat.le_of_lt hnext

/-- A server that is found has a number that has been given out. -/
theorem number_lt_of_session (hw : w.supervisor.Numbered) (h : w.session? id = some session) :
    id.number < w.supervisor.nextServer := by
  have hmem := (lookup_eq_some_iff_mem hw.distinct).1 h
  exact hw.below id (List.mem_map.2 ⟨_, hmem, rfl⟩)

end Supervision

end LintWatch.Server
