import LintWatch.Proofs.Json.Access
import LintWatch.Server.Dispatch

/-!
# What frames are for

`Answers` and `Asks` say by its members when a frame answers a request of the host and when it is
itself a request. Frames are sorted by them (`of_frame_response_iff`, `of_frame_request_iff`), and
only these frames go to a waiter or are replied to (`dispatch_resolve_iff`, `dispatch_send_iff`).
Diagnostics are published by notifications alone (`dispatch_publish_iff`).
-/

namespace LintWatch.Server

/-- A frame that answers a request of the host: it has the number of the request, a result or an
error, and no name of a method. -/
structure Answers (frame : Json) (id : Nat) : Prop where
  number : frame.get? "id" = some (.ofNat id)
  lt : id < 2 ^ 64
  unnamed : ∀ method, frame.get? "method" ≠ some (.str method)
  outcome : frame.get? "result" ≠ none ∨ frame.get? "error" ≠ none

/-- A frame that is a request of the server: it has a name of a method and an identity, which may be
any value. -/
structure Asks (frame id : Json) (method : String) : Prop where
  identity : frame.get? "id" = some id
  named : frame.get? "method" = some (.str method)

variable {frame body id : Json} {method : String} {params : Option Json} {n : Nat}

/-- A frame answers at most one request. -/
theorem Answers.unique {m : Nat} (h : Answers frame n) (h' : Answers frame m) : n = m := by
  have heq : Json.ofNat n = Json.ofNat m := Option.some.inj (h.number.symm.trans h'.number)
  simpa only [Json.ofNat, Json.num.injEq, Json.Number.int.injEq, Int.natCast_inj] using heq

namespace Incoming

/-- A frame has no name of a method if it has no text in that place. -/
theorem method_eq_none_iff :
    (frame.get? "method").bind Json.text? = none
      ↔ ∀ method, frame.get? "method" ≠ some (.str method) := by
  simp only [Option.eq_none_iff_forall_ne_some, ne_eq, Json.bind_text?_eq_some_iff]

/-- A frame is taken for the answer to a request exactly if it answers that request, and then it is
taken as a whole. -/
theorem of_frame_response_iff :
    ofFrame? frame = some (.response n body) ↔ body = frame ∧ Answers frame n := by
  constructor
  · intro h
    simp only [ofFrame?] at h
    split at h
    next v hid hmethod =>
      split at h
      next houtcome =>
        obtain ⟨w, hw, heq⟩ := Option.map_eq_some_iff.1 h
        cases heq
        rw [Json.nat64?_eq_some_iff] at hw
        refine ⟨rfl, ⟨hw ▸ hid, w.toNat_lt, method_eq_none_iff.1 hmethod, ?_⟩⟩
        simpa [Option.isSome_iff_ne_none] using houtcome
      · cases h
    · cases h
    · cases h
    · cases h
  · rintro ⟨rfl, h⟩
    have hnumber : (Json.ofNat n).nat64? = some (UInt64.ofNat n) :=
      Json.nat64?_eq_some_iff.2 (by rw [UInt64.toNat_ofNat_of_lt' h.lt])
    have houtcome : ((body.get? "result").isSome || (body.get? "error").isSome) = true := by
      simpa [Option.isSome_iff_ne_none] using h.outcome
    simp only [ofFrame?, h.number, method_eq_none_iff.2 h.unnamed, houtcome, hnumber]
    simp [UInt64.toNat_ofNat_of_lt' h.lt]

/-- The number of the request that is answered, if one is. -/
def number? : Incoming → Option Nat
  | .response id _ => some id
  | .request _ _ _ | .notification _ _ => none

/-- Sorting a frame tells which request it answers. -/
theorem number_eq_some_iff : (ofFrame? frame).bind number? = some n ↔ Answers frame n := by
  rw [Option.bind_eq_some_iff]
  constructor
  · rintro ⟨incoming, hincoming, hn⟩
    cases incoming with
    | response m body =>
        obtain rfl := Option.some.inj hn
        exact (of_frame_response_iff.1 hincoming).2
    | request id method params => cases hn
    | notification method params => cases hn
  · intro h
    exact ⟨_, of_frame_response_iff.2 ⟨rfl, h⟩, rfl⟩

instance : Decidable (Answers frame n) :=
  decidable_of_iff _ number_eq_some_iff

/-- A frame is taken for a request of the server exactly if it is one, with its own identity, method
and parameters. -/
theorem of_frame_request_iff :
    ofFrame? frame = some (.request id method params)
      ↔ params = frame.get? "params" ∧ Asks frame id method := by
  constructor
  · intro h
    simp only [ofFrame?] at h
    split at h
    · split at h
      · obtain ⟨w, -, heq⟩ := Option.map_eq_some_iff.1 h
        cases heq
      · cases h
    next v m hid hmethod =>
      cases h
      exact ⟨rfl, ⟨hid, Json.bind_text?_eq_some_iff.1 hmethod⟩⟩
    · cases h
    · cases h
  · rintro ⟨rfl, h⟩
    simp only [ofFrame?, h.identity, Json.bind_text?_eq_some_iff.2 h.named]

/-- A frame is taken for a notification exactly if it has the name of a method and no identity. -/
theorem of_frame_notification_iff :
    ofFrame? frame = some (.notification method params)
      ↔ params = frame.get? "params" ∧ frame.get? "id" = none
        ∧ frame.get? "method" = some (.str method) := by
  constructor
  · intro h
    simp only [ofFrame?] at h
    split at h
    · split at h
      · obtain ⟨w, -, heq⟩ := Option.map_eq_some_iff.1 h
        cases heq
      · cases h
    · cases h
    next m hid hmethod =>
      cases h
      exact ⟨rfl, hid, Json.bind_text?_eq_some_iff.1 hmethod⟩
    · cases h
  · rintro ⟨rfl, hid, hnamed⟩
    simp only [ofFrame?, hid, Json.bind_text?_eq_some_iff.2 hnamed]

/-- A frame without the name of a method is neither a request nor a notification. -/
theorem response_of_unnamed (hunnamed : ∀ method, frame.get? "method" ≠ some (.str method)) :
    ofFrame? frame = none ∨ ∃ n, ofFrame? frame = some (.response n frame) := by
  cases h : ofFrame? frame with
  | none => exact .inl rfl
  | some incoming =>
      cases incoming with
      | response n body =>
          obtain ⟨rfl, -⟩ := of_frame_response_iff.1 h
          exact .inr ⟨n, rfl⟩
      | request id method params =>
          exact absurd (of_frame_request_iff.1 h).2.named (hunnamed method)
      | notification method params =>
          exact absurd (of_frame_notification_iff.1 h).2.2 (hunnamed method)

end Incoming

namespace Router

variable {r : Router} {path : Path} {items : List LintWatch.Diagnostic}

/-- A notification is never an answer to a request, nor is it answered. -/
theorem notify_cases (r : Router) (method : String) (params : Option Json) :
    (∃ path items, r.notify method params = .publish path items) ∨
      (∃ message, r.notify method params = .warn message) ∨ r.notify method params = .ignore := by
  unfold notify publish
  grind

/-- A frame goes to the waiter of a request exactly if it answers that request. -/
theorem dispatch_resolve_iff :
    r.dispatch frame = .resolve n body ↔ body = frame ∧ Answers frame n := by
  constructor
  · intro h
    rw [dispatch] at h
    split at h
    · cases h
    next m other hresponse =>
      cases h
      exact Incoming.of_frame_response_iff.1 hresponse
    · cases h
    next method params _ =>
      rcases r.notify_cases method params with ⟨path, items, heq⟩ | ⟨message, heq⟩ | heq <;>
        rw [heq] at h <;> cases h
  · intro h
    rw [dispatch, Incoming.of_frame_response_iff.2 h]

/-- A frame is answered exactly if it is a request, with the reply to that request. -/
theorem dispatch_send_iff {reply : Json} :
    r.dispatch frame = .send reply
      ↔ ∃ id method, Asks frame id method ∧ reply = r.reply id method (frame.get? "params") := by
  constructor
  · intro h
    rw [dispatch] at h
    split at h
    · cases h
    · cases h
    next id method params hrequest =>
      cases h
      obtain ⟨rfl, hasks⟩ := Incoming.of_frame_request_iff.1 hrequest
      exact ⟨id, method, hasks, rfl⟩
    next method params _ =>
      rcases r.notify_cases method params with ⟨path, items, heq⟩ | ⟨message, heq⟩ | heq <;>
        rw [heq] at h <;> cases h
  · rintro ⟨id, method, hasks, rfl⟩
    rw [dispatch, Incoming.of_frame_request_iff.2 ⟨rfl, hasks⟩]

/-- A publication leads to diagnostics of the file that it names once it has passed the layers, as
long as that file is covered. -/
theorem publish_iff {p : Publication} :
    r.publish p = .publish path items ↔
      FileUri.path? (r.chain.apply p).uri = some path ∧ r.covers path = true ∧
        items = (r.chain.apply p).diagnostics.map (Diagnostic.shown path) := by
  constructor
  · intro h
    simp only [publish] at h
    split at h
    · cases h
    next found huri =>
      split at h
      next hcovers =>
        cases h
        exact ⟨huri, hcovers, rfl⟩
      · cases h
  · rintro ⟨huri, hcovers, rfl⟩
    simp only [publish, huri, hcovers, if_true]

/-- A frame leads to diagnostics exactly if it is a notification with a publication that does. -/
theorem dispatch_publish_iff :
    r.dispatch frame = .publish path items ↔
      frame.get? "id" = none ∧ frame.get? "method" = some (.str "textDocument/publishDiagnostics") ∧
        ∃ params p, frame.get? "params" = some params ∧ Publication.ofJson? params = some p ∧
          r.publish p = .publish path items := by
  constructor
  · intro h
    rw [dispatch] at h
    split at h
    · cases h
    · cases h
    · cases h
    next method params hnotification =>
      obtain ⟨rfl, hid, hnamed⟩ := Incoming.of_frame_notification_iff.1 hnotification
      unfold notify at h
      split at h
      next hmethod =>
        split at h
        next p hp =>
          obtain ⟨params, hparams, hread⟩ := Option.bind_eq_some_iff.1 hp
          exact ⟨hid, hmethod ▸ hnamed, params, p, hparams, hread, h⟩
        · cases h
      · cases h
  · rintro ⟨hid, hnamed, params, p, hparams, hread, hpublish⟩
    rw [dispatch, Incoming.of_frame_notification_iff.2 ⟨rfl, hid, hnamed⟩]
    simp only [notify, if_true, hparams, Option.bind_some, hread]
    exact hpublish

end Router

end LintWatch.Server
