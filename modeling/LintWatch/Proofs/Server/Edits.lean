import LintWatch.Proofs.Server.Documents
import LintWatch.Proofs.Server.Roster

/-!
# Edits of files while servers run

An edit is heard by the servers that run if the file is a document (`IsDocument`). What a server is
written in a run of the supervisor is what its session sends for the edits it hears of
(`written_eq`), whatever happens to other servers meanwhile. So it hears of each document in
sequence: `written_in_sequence`.
-/

namespace LintWatch.Server

/-- A file is a document under a URI: its extension is exactly `py` or `pyi`, and this is its
URI. -/
structure IsDocument (file : Path) (uri : String) : Prop where
  extension : file.extension? = some (Text.Utf8.encode "py")
    ∨ file.extension? = some (Text.Utf8.encode "pyi")
  uri : FileUri.ofPath? file = some uri

/-- The URI under which a file is a document. -/
def documentUri? (file : Path) : Option String :=
  if Supervisor.follows file then FileUri.ofPath? file else none

variable {file : Path} {uri text : String} {isOpen : ServerId → Bool} {id : ServerId}

/-- A file has a URI as a document exactly if it is one under that URI. -/
theorem document_uri_eq_some_iff : documentUri? file = some uri ↔ IsDocument file uri := by
  have hfollows : Supervisor.follows file = true ↔
      file.extension? = some (Text.Utf8.encode "py")
        ∨ file.extension? = some (Text.Utf8.encode "pyi") := by
    unfold Supervisor.follows
    cases file.extension? with
    | none => simp
    | some bytes => simp
  rw [documentUri?, Option.ite_none_right_eq_some, hfollows]
  constructor
  · rintro ⟨hextension, huri⟩
    exact ⟨hextension, huri⟩
  · rintro ⟨hextension, huri⟩
    exact ⟨hextension, huri⟩

namespace Supervisor

/-- A file has the URI under which it is a document, as long as there is a server to hear of it. -/
theorem uri_eq (s : Supervisor) (file : Path) :
    s.uri? file = if s.isRunning then documentUri? file else none := by
  unfold uri? documentUri?
  cases follows file <;> cases s.isRunning <;> rfl

/-- What becomes of the servers when a file is changed: the session of each sends the text of a
document, and nothing is sent of any other file. -/
theorem servers_change_file (s : Supervisor) (file : Path) (text : String)
    (isOpen : ServerId → Bool) :
    (s.changeFile file text isOpen).1.servers = s.servers.map (fun server => (server.1,
        server.2.afterTexts ((documentUri? file).map (·, text)).toList)) ∧
      (s.changeFile file text isOpen).2 = match documentUri? file with
        | some uri => s.servers.map fun server => (server.1, (server.2.sendText uri text).2)
        | none => [] := by
  unfold changeFile
  rw [uri_eq]
  cases hrunning : s.isRunning with
  | false =>
      -- There are no servers, so it does not matter whether the file is a document.
      have hservers : s.servers = [] := by simpa [isRunning] using hrunning
      rw [hservers]
      cases documentUri? file <;> exact ⟨hservers, rfl⟩
  | true =>
      cases documentUri? file with
      | none => exact ⟨(List.map_id _).symm, rfl⟩
      | some uri =>
          refine ⟨?_, ?_⟩
          · show List.map _ (List.map _ s.servers) = _
            rw [List.map_map]
            rfl
          · show List.map _ (List.map _ s.servers) = _
            rw [List.map_map]
            rfl

end Supervisor

namespace Supervision

variable {w : Supervision} {session : Session} {a : Supervisor.Step}
  {steps : List Supervisor.Step}

/-- The document and the text that the servers are told of in a step. -/
def told : Supervisor.Step → List (String × String)
  | .changeFile file text _ => ((documentUri? file).map (·, text)).toList
  | _ => []

/-- An edit tells of a file that is a document. -/
@[simp]
theorem told_change_file :
    told (.changeFile file text isOpen) = ((documentUri? file).map (·, text)).toList :=
  rfl

/-- Nothing is told in a step that is no edit. -/
theorem told_eq_nil (h : ∀ file text isOpen, a ≠ .changeFile file text isOpen) :
    told a = [] := by
  cases a with
  | changeFile file text isOpen => exact absurd rfl (h file text isOpen)
  | _ => rfl

/-- An edit moves every session on. -/
theorem session_change_file (w : Supervision) (id : ServerId) (file : Path) (text : String)
    (isOpen : ServerId → Bool) :
    (w.step (.changeFile file text isOpen)).session? id
      = (w.session? id).map (·.afterTexts (told (.changeFile file text isOpen))) := by
  show List.lookup id (w.supervisor.changeFile file text isOpen).1.servers = _
  rw [(w.supervisor.servers_change_file file text isOpen).1]
  exact lookup_map_sessions fun s => s.afterTexts (told (.changeFile file text isOpen))

/-- In a step the session of a server is moved on by what it is told, or the server is gone. One
that is gone does not come back. -/
theorem session_step (hw : w.supervisor.Numbered) (hid : id.number < w.supervisor.nextServer)
    (a : Supervisor.Step) :
    (w.step a).session? id = none
      ∨ (w.step a).session? id = (w.session? id).map (·.afterTexts (told a)) := by
  rcases w.edit_or_turnover a with ⟨file, text, isOpen, rfl⟩ | ⟨hother, hturnover⟩
  · exact Or.inr (w.session_change_file id file text isOpen)
  · rw [told_eq_nil hother]
    show _ ∨ _ = (w.session? id).map fun s => s
    rw [Option.map_id']
    exact hturnover.lookup hw hid

/-! ## Messages -/

/-- The document and the text that a server hears of in a step, as long as it runs. -/
def heardIn (w : Supervision) (id : ServerId) (a : Supervisor.Step) : List (String × String) :=
  if (w.session? id).isSome then told a else []

/-- The messages on an edited file that a server is written in a step, as long as it accepts
them. -/
def writtenIn (w : Supervision) (id : ServerId) : Supervisor.Step → List Json
  | .changeFile file text isOpen =>
    ((w.supervisor.changeFile file text isOpen).2.filter fun m => m.1 = id && isOpen m.1).map (·.2)
  | _ => []

/-- What is gathered in the steps of a run. -/
def gather {α : Type} (f : Supervision → Supervisor.Step → List α) (w : Supervision) :
    List Supervisor.Step → List α
  | [] => []
  | a :: steps => f w a ++ (w.step a).gather f steps

/-- The documents and texts that a server hears of in a run. -/
def heard (w : Supervision) (id : ServerId) (steps : List Supervisor.Step) :
    List (String × String) :=
  w.gather (·.heardIn id) steps

/-- The messages on edited files that a server is written in a run. -/
def written (w : Supervision) (id : ServerId) (steps : List Supervisor.Step) : List Json :=
  w.gather (·.writtenIn id) steps

/-- Every message to a server is accepted. -/
def Accepts (id : ServerId) (steps : List Supervisor.Step) : Prop :=
  ∀ file text isOpen, .changeFile file text isOpen ∈ steps → isOpen id = true

/-- A server that accepts the messages of a run accepts those of its first step. -/
theorem Accepts.head (h : Accepts id (a :: steps)) : Accepts id [a] := by
  intro file text isOpen hmem
  exact h file text isOpen (List.mem_cons.2 (.inl (List.mem_singleton.1 hmem)))

/-- A server that accepts the messages of a run accepts those of its later steps. -/
theorem Accepts.tail (h : Accepts id (a :: steps)) : Accepts id steps := by
  intro file text isOpen hmem
  exact h file text isOpen (List.mem_cons_of_mem a hmem)

/-- What a server is written in a step is what its session sends for what it is told. -/
theorem written_in_eq (hw : w.supervisor.Numbered) (ha : Accepts id [a]) :
    w.writtenIn id a = ((w.session? id).map (·.sendTexts (told a))).getD [] := by
  cases a with
  | changeFile file text isOpen =>
      have hopen : isOpen id = true := ha file text isOpen (List.mem_singleton.2 rfl)
      have haccepted : (fun m : ServerId × Json => m.1 = id && isOpen m.1)
          = fun m => decide (m.1 = id) := by
        funext m
        by_cases hm : m.1 = id
        · simp [hm, hopen]
        · simp [hm]
      show List.map _ (List.filter (fun m : ServerId × Json => m.1 = id && isOpen m.1) _) = _
      rw [haccepted, (w.supervisor.servers_change_file file text isOpen).2, told_change_file]
      cases documentUri? file with
      | none => cases w.session? id <;> rfl
      | some uri =>
          refine (filter_map_messages hw.distinct fun s => (s.sendText uri text).2).trans ?_
          show Option.toList (Option.map _ (w.session? id)) = _
          cases w.session? id <;> rfl
  | start | restart | shutdown | configure | poll | takeErrors | report =>
      cases h : w.session? id <;> rfl

/-- A server that is gone hears of nothing and is written nothing. -/
theorem heard_written_of_gone (hw : w.supervisor.Numbered)
    (hid : id.number < w.supervisor.nextServer) (hgone : w.session? id = none)
    (haccepts : Accepts id steps) : w.heard id steps = [] ∧ w.written id steps = [] := by
  induction steps generalizing w with
  | nil => exact ⟨rfl, rfl⟩
  | cons a steps ih =>
      have hnext : (w.step a).session? id = none := by
        rcases session_step hw hid a with h | h
        · exact h
        · rw [h, hgone]
          rfl
      obtain ⟨hheard, hwritten⟩ := ih (numbered_step hw a)
        (Nat.lt_of_lt_of_le hid (w.next_server_step a)) hnext haccepts.tail
      constructor
      · show w.heardIn id a ++ (w.step a).heard id steps = []
        rw [hheard, heardIn, hgone]
        rfl
      · show w.writtenIn id a ++ (w.step a).written id steps = []
        rw [hwritten, written_in_eq hw haccepts.head, hgone]
        rfl

/-- What a server is written in a run is what its session sends for what it hears of. -/
theorem written_eq (hw : w.supervisor.Numbered) (hsession : w.session? id = some session)
    (haccepts : Accepts id steps) :
    w.written id steps = session.sendTexts (w.heard id steps) := by
  induction steps generalizing w session with
  | nil => rfl
  | cons a steps ih =>
      have hid := number_lt_of_session hw hsession
      have hwritten : w.writtenIn id a = session.sendTexts (told a) := by
        rw [written_in_eq hw haccepts.head, hsession]
        rfl
      have hheard : w.heardIn id a = told a := by
        rw [heardIn, hsession]
        rfl
      show w.writtenIn id a ++ (w.step a).written id steps
        = session.sendTexts (w.heardIn id a ++ (w.step a).heard id steps)
      rw [hwritten, hheard, Session.send_texts_append]
      rcases session_step hw hid a with hnext | hnext
      -- The server has been taken out, so nothing follows.
      · obtain ⟨hnone, hnothing⟩ := heard_written_of_gone (numbered_step hw a)
          (Nat.lt_of_lt_of_le hid (w.next_server_step a)) hnext haccepts.tail
        rw [hnone, hnothing]
        rfl
      · rw [hsession] at hnext
        rw [ih (numbered_step hw a) hnext haccepts.tail]

/-- The version of a document that a server was sent last. -/
def version? (w : Supervision) (id : ServerId) (uri : String) : Option Int32 :=
  (w.session? id).bind (·.version? uri)

/-- An edit of a file changes the version of no other document. -/
theorem version_change_file (w : Supervision) (id : ServerId) (text : String)
    (isOpen : ServerId → Bool) (h : ¬ IsDocument file uri) :
    (w.step (.changeFile file text isOpen)).version? id uri = w.version? id uri := by
  unfold version?
  rw [session_change_file, told_change_file]
  cases hfile : documentUri? file with
  | none => cases w.session? id <;> rfl
  | some other =>
      have hother : uri ≠ other := fun heq => h (document_uri_eq_some_iff.1 (heq ▸ hfile))
      cases w.session? id with
      | none => rfl
      | some session => exact (session.version_send_text other text uri).trans (if_neg hother)

/-- What a server is written, from when it runs with no document open: a message for each edit that
it hears of, in order. The messages on a document open it and then carry its texts under
consecutive versions. An edit of a file that is no document leads to none, and an edit of one file
leaves the versions of other documents alone. -/
theorem written_in_sequence (h : Reachable w) (hsession : w.session? id = some session)
    (hnew : session.opened = []) (haccepts : Accepts id steps) :
    List.Forall₂ (fun (d : String × String) m => subject? m = some d.1)
        (w.heard id steps) (w.written id steps) ∧
      (∀ uri, (textsOf uri (w.heard id steps)).length < 2 ^ 31 →
        List.Forall₂ (fun (t : String × Nat) m => CarriesText uri t.1 t.2 m)
          ((textsOf uri (w.heard id steps)).zipIdx 1)
          ((w.written id steps).filter fun m => subject? m = some uri)) ∧
      ∀ file text isOpen,
        ((∀ uri, ¬ IsDocument file uri) →
          (w.run steps).writtenIn id (.changeFile file text isOpen) = []) ∧
        ∀ uri, ¬ IsDocument file uri →
          ((w.run steps).step (.changeFile file text isOpen)).version? id uri
            = (w.run steps).version? id uri := by
  rw [written_eq h.numbered hsession haccepts]
  refine ⟨session.subjects_send_texts _, fun uri hfew => ?_, fun file text isOpen => ⟨?_, ?_⟩⟩
  · exact (Session.tracks_nil hnew).numbered (by simpa using hfew)
  · intro hnone
    have huri : documentUri? file = none :=
      Option.eq_none_iff_forall_ne_some.2 fun uri huri => hnone uri (document_uri_eq_some_iff.1 huri)
    show List.map _ (List.filter _ ((w.run steps).supervisor.changeFile file text isOpen).2) = []
    rw [((w.run steps).supervisor.servers_change_file file text isOpen).2, huri]
    rfl
  · exact fun uri hnone => (w.run steps).version_change_file id text isOpen hnone

/-- A server that has just been started. -/
def justStarted : Supervision :=
  (new .empty [] .standard).run [.start (some (.ofString "/bin/ruff")) fun _ _ => .ok .new]

/-- Edits of two files by turns, of a file that is no document and of one that has no URI. -/
def mixedEdits : List Supervisor.Step :=
  let edit (file text : String) : Supervisor.Step :=
    .changeFile (.ofString file) text fun _ => true
  [edit "/p/a.py" "x = 1", edit "/p/b.pyi" "y: int", edit "/p/a.PY" "no", edit "a.py" "no",
    edit "/p/a.py" "x = 2"]

/-- Each of the two files is opened, the first one is changed as well, and that is all. -/
theorem written_of_mixed_edits :
    List.Forall₂ (fun (t : String × Nat) m => CarriesText "file:///p/a.py" t.1 t.2 m)
        [("x = 1", 1), ("x = 2", 2)]
        ((justStarted.written ⟨1⟩ mixedEdits).filter fun m => subject? m = some "file:///p/a.py") ∧
      List.Forall₂ (fun (t : String × Nat) m => CarriesText "file:///p/b.pyi" t.1 t.2 m)
        [("y: int", 1)]
        ((justStarted.written ⟨1⟩ mixedEdits).filter fun m =>
          subject? m = some "file:///p/b.pyi") ∧
      (justStarted.written ⟨1⟩ mixedEdits).length = 3 := by
  have haccepts : Accepts ⟨1⟩ mixedEdits := by
    intro file text isOpen hmem
    simp only [mixedEdits, List.mem_cons, List.not_mem_nil, or_false,
      Supervisor.Step.changeFile.injEq] at hmem
    rcases hmem with ⟨-, -, rfl⟩ | ⟨-, -, rfl⟩ | ⟨-, -, rfl⟩ | ⟨-, -, rfl⟩ | ⟨-, -, rfl⟩ <;> rfl
  have hheard : justStarted.heard ⟨1⟩ mixedEdits
      = [("file:///p/a.py", "x = 1"), ("file:///p/b.pyi", "y: int"),
        ("file:///p/a.py", "x = 2")] := by
    decide +kernel
  have hrunning : justStarted.session? ⟨1⟩ = some .new := rfl
  obtain ⟨hall, hnumbered, -⟩ :=
    written_in_sequence (w := justStarted) ⟨_, _, _, _, rfl⟩ hrunning rfl haccepts
  rw [hheard] at hall hnumbered
  exact ⟨hnumbered "file:///p/a.py" (by decide), hnumbered "file:///p/b.pyi" (by decide),
    hall.length_eq.symm⟩

end Supervision

end LintWatch.Server
