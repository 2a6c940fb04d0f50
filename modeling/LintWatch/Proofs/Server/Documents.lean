import LintWatch.Server.Session
import Mathlib.Algebra.Group.Nat.Defs
import Mathlib.Data.List.Forall2

/-!
# Documents as a server hears of them

`CarriesText` says by its members which text of which document a message carries, and under which
version. A session tracks the documents of which a server was told (`Tracks`): those that are open
are just these, and each has as its version how often it was told of. So the messages on one
document open it and then count up, whatever is told of others in between: `Tracks.numbered`.
-/

namespace LintWatch.Server

variable {uri other text method : String} {m params : Json} {version : Nat}

/-- A notification: a method with parameters, which nobody answers. -/
structure IsNotification (method : String) (m params : Json) : Prop where
  protocol : m.get? "jsonrpc" = some (.str "2.0")
  method : m.get? "method" = some (.str method)
  params : m.get? "params" = some params
  unnumbered : m.get? "id" = none

/-- A message that carries the whole text of a document under a version: the first version opens
the document, and any later one changes it. -/
inductive CarriesText (uri text : String) : (version : Nat) → Json → Prop where
  | opened {m params document : Json} :
      IsNotification "textDocument/didOpen" m params →
      params.get? "textDocument" = some document →
      document.get? "uri" = some (.str uri) →
      document.get? "languageId" = some (.str "python") →
      document.get? "version" = some (.ofNat 1) →
      document.get? "text" = some (.str text) →
      CarriesText uri text 1 m
  | changed {version : Nat} {m params document change : Json} :
      1 < version →
      IsNotification "textDocument/didChange" m params →
      params.get? "textDocument" = some document →
      document.get? "uri" = some (.str uri) →
      document.get? "version" = some (.ofNat version) →
      params.get? "contentChanges" = some (.arr [change]) →
      change.get? "text" = some (.str text) →
      -- A change without a range is one of the whole text.
      change.get? "range" = none →
      CarriesText uri text version m

/-- The URI of the document that a message is about. -/
def subject? (m : Json) : Option String :=
  (((m.get? "params").bind (·.get? "textDocument")).bind (·.get? "uri")).bind Json.text?

/-- A notification has the members that it is made of. -/
theorem is_notification (method : String) (params : Json) :
    IsNotification method (notification method (some params)) params :=
  ⟨rfl, rfl, rfl, rfl⟩

/-- A document is opened with its first text. -/
theorem carries_opened (uri text : String) :
    CarriesText uri text 1
      (notification "textDocument/didOpen" (some (openedParams uri Session.language 1 text))) :=
  .opened (is_notification _ _) rfl rfl rfl rfl rfl

/-- A document is changed to any later text. -/
theorem carries_changed (uri text : String) (h : 1 < version) :
    CarriesText uri text version
      (notification "textDocument/didChange" (some (changedParams uri version text))) :=
  .changed h (is_notification _ _) rfl rfl rfl rfl rfl rfl

/-- The texts of one document among those of several. -/
def textsOf (uri : String) (told : List (String × String)) : List String :=
  (told.filter (·.1 = uri)).map (·.2)

namespace Session

variable {s : Session} {v : Int32}

/-- Leaving out the version of a document leaves the others alone. -/
theorem lookup_filter_ne (versions : List (String × Int32)) (h : other ≠ uri) :
    (versions.filter (·.1 ≠ uri)).lookup other = versions.lookup other := by
  induction versions with
  | nil => rfl
  | cons entry versions ih =>
      by_cases hentry : entry.1 = uri
      · have hother : (other == entry.1) = false := beq_false_of_ne fun he => h (he.trans hentry)
        rw [List.filter_cons_of_neg (by simpa using hentry), List.lookup_cons, hother]
        exact ih
      · rw [List.filter_cons_of_pos (by simpa using hentry), List.lookup_cons, List.lookup_cons, ih]

/-- A new version of a document is the one that was sent last, and leaves other documents alone. -/
theorem version_with_version (uri other : String) :
    (s.withVersion uri v).version? other = if other = uri then some v else s.version? other := by
  show ((uri, v) :: s.versions.filter _).lookup other = _
  by_cases h : other = uri
  · subst h
    rw [List.lookup_cons_self, if_pos rfl]
  · rw [List.lookup_cons, beq_false_of_ne h, if_neg h]
    exact lookup_filter_ne s.versions h

/-- The version that a text of a document is sent under. -/
def nextVersion (s : Session) (uri : String) : Int32 :=
  if s.opened.contains uri then (s.version? uri).getD 0 + 1 else 1

/-- Sending a text changes the version of its document only. -/
theorem version_send_text (uri text other : String) :
    (s.sendText uri text).1.version? other
      = if other = uri then some (s.nextVersion uri) else s.version? other := by
  unfold sendText nextVersion
  split
  · exact version_with_version uri other
  · exact version_with_version uri other

/-- Once a text of a document has been sent, the document is open, and no other one is opened. -/
theorem mem_opened_send_text (uri text other : String) :
    other ∈ (s.sendText uri text).1.opened ↔ other = uri ∨ other ∈ s.opened := by
  unfold sendText
  split
  next h =>
    show other ∈ s.opened ↔ _
    constructor
    · exact Or.inr
    · rintro (rfl | h')
      · exact List.contains_iff_mem.1 h
      · exact h'
  next => exact List.mem_cons

/-- The session has told of these documents, the last one first: they are open, and the version of
each is how often it was told of. -/
structure Tracks (s : Session) (past : List String) : Prop where
  opened : ∀ uri, uri ∈ s.opened ↔ uri ∈ past
  versions : ∀ uri ∈ past, s.version? uri = some (Int32.ofNat (past.count uri))

variable {past : List String}

/-- A session in which no document is open has told of none. -/
theorem tracks_nil (h : s.opened = []) : Tracks s [] :=
  ⟨fun _ => by rw [h], fun _ h => absurd h List.not_mem_nil⟩

/-- A document is open exactly if the session has told of it. -/
theorem Tracks.contains_iff (h : Tracks s past) (uri : String) :
    s.opened.contains uri = true ↔ uri ∈ past := by
  rw [List.contains_iff_mem]
  exact h.opened uri

/-- The next version of a document is one more than how often it was told of. -/
theorem Tracks.next_version (h : Tracks s past) (uri : String) :
    s.nextVersion uri = Int32.ofNat (past.count uri + 1) := by
  unfold nextVersion
  split
  next hopen =>
    have hpast : uri ∈ past := (h.contains_iff uri).1 hopen
    rw [h.versions uri hpast, Option.getD_some, Int32.ofNat_add]
    rfl
  next hopen =>
    have hpast : uri ∉ past := fun hmem => hopen ((h.contains_iff uri).2 hmem)
    rw [List.count_eq_zero_of_not_mem hpast]
    rfl

/-- The two tables of a session stay in step: after another text they track its document as well. -/
theorem Tracks.send_text (h : Tracks s past) (uri text : String) :
    Tracks (s.sendText uri text).1 (uri :: past) := by
  refine ⟨fun other => ?_, fun other hmem => ?_⟩
  · rw [mem_opened_send_text, h.opened, List.mem_cons]
  · rw [version_send_text, List.count_cons]
    by_cases hother : other = uri
    · subst hother
      rw [if_pos rfl, beq_self_eq_true, if_pos rfl, h.next_version]
    · have hpast : other ∈ past := List.mem_of_ne_of_mem hother hmem
      rw [if_neg hother, beq_false_of_ne (Ne.symm hother), h.versions other hpast]
      rfl

/-- The next text of a document is sent under the next version, as long as 32 bits are enough. -/
theorem Tracks.carries (h : Tracks s past) (text : String) (hfew : past.count uri + 1 < 2 ^ 31) :
    CarriesText uri text (past.count uri + 1) (s.sendText uri text).2 := by
  by_cases hpast : uri ∈ past
  · have hopen : s.opened.contains uri = true := (h.contains_iff uri).2 hpast
    have hversion : ((s.version? uri).getD 0 + 1).toInt = (past.count uri + 1 : Nat) := by
      have hnext := h.next_version uri
      rw [nextVersion, if_pos hopen] at hnext
      rw [hnext, Int32.toInt_ofNat_of_lt hfew]
    have hlater : 1 < past.count uri + 1 := by
      have := List.count_pos_iff.2 hpast
      omega
    rw [sendText, if_pos hopen]
    show CarriesText uri text _ (notification _ (some (changedParams uri _ text)))
    rw [hversion]
    exact carries_changed uri text hlater
  · have hclosed : ¬ s.opened.contains uri = true := fun hopen =>
      hpast ((h.contains_iff uri).1 hopen)
    rw [sendText, if_neg hclosed, List.count_eq_zero_of_not_mem hpast]
    exact carries_opened uri text

/-- The messages that carry texts of documents, one after the other. -/
def sendTexts (s : Session) : List (String × String) → List Json
  | [] => []
  | (uri, text) :: told => (s.sendText uri text).2 :: (s.sendText uri text).1.sendTexts told

/-- The session after texts of documents have been sent. -/
def afterTexts (s : Session) (told : List (String × String)) : Session :=
  told.foldl (fun s d => (s.sendText d.1 d.2).1) s

/-- The messages on more texts follow those on the texts before. -/
theorem send_texts_append (s : Session) (told more : List (String × String)) :
    s.sendTexts (told ++ more) = s.sendTexts told ++ (s.afterTexts told).sendTexts more := by
  induction told generalizing s with
  | nil => rfl
  | cons d told ih => exact congrArg ((s.sendText d.1 d.2).2 :: ·) (ih _)

/-- A text of a document is sent in a message about it. -/
theorem subject_send_text (s : Session) (uri text : String) :
    subject? (s.sendText uri text).2 = some uri := by
  unfold sendText
  split <;> rfl

/-- Every text is sent in a message of its own, in order. -/
theorem subjects_send_texts (s : Session) (told : List (String × String)) :
    List.Forall₂ (fun (d : String × String) m => subject? m = some d.1) told
      (s.sendTexts told) := by
  induction told generalizing s with
  | nil => exact .nil
  | cons d told ih => exact .cons (s.subject_send_text d.1 d.2) (ih _)

namespace Tracks

variable {told : List (String × String)}

/-- A text that is sent counts for its document, and leaves fewer of it to be sent. -/
theorem count_cons_add_length (uri text other : String) :
    (uri :: past).count other + (textsOf other told).length
      = past.count other + (textsOf other ((uri, text) :: told)).length := by
  unfold textsOf
  by_cases h : uri = other
  · subst h
    rw [List.count_cons_self, List.filter_cons_of_pos (by simp), List.map_cons, List.length_cons]
    omega
  · rw [List.count_cons_of_ne h, List.filter_cons_of_neg (by simpa using h)]

/-- The messages on a document carry its texts under consecutive versions, whatever is told of
other documents in between. -/
theorem numbered (h : Tracks s past)
    (hfew : past.count uri + (textsOf uri told).length < 2 ^ 31) :
    List.Forall₂ (fun (t : String × Nat) m => CarriesText uri t.1 t.2 m)
      ((textsOf uri told).zipIdx (past.count uri + 1))
      ((s.sendTexts told).filter fun m => subject? m = some uri) := by
  induction told generalizing s past with
  | nil => exact .nil
  | cons d told ih =>
      obtain ⟨other, text⟩ := d
      rw [← count_cons_add_length other text] at hfew
      have hnumbered := ih (h.send_text other text) hfew
      unfold textsOf at hfew hnumbered ⊢
      by_cases hother : other = uri
      · subst hother
        rw [List.count_cons_self] at hfew hnumbered
        have hcarries := h.carries text (Nat.lt_of_le_of_lt (Nat.le_add_right _ _) hfew)
        rw [sendTexts, List.filter_cons_of_pos (by simp), List.map_cons, List.zipIdx_cons,
          List.filter_cons_of_pos (by simp [subject_send_text])]
        exact .cons hcarries hnumbered
      · rw [List.count_cons_of_ne hother] at hnumbered
        rw [sendTexts, List.filter_cons_of_neg (by simpa using hother),
          List.filter_cons_of_neg (by simpa [subject_send_text] using hother)]
        exact hnumbered

end Tracks

end Session

end LintWatch.Server
