import LintWatch.Proofs.Server.Incoming
import LintWatch.Server.Connection
import Mathlib.Data.List.Forall2

/-!
# Replies to requests of the server

A server may stall when a request of it stays open. `replied_iff_asked`: exactly the requests are
replied to, each once, under their own identity and with a result or an error. `ReplyTo` says what
each reply holds.
-/

namespace LintWatch.Server

/-- The methods that the host knows. -/
def served : List String :=
  ["workspace/configuration", "client/registerCapability", "client/unregisterCapability",
    "window/workDoneProgress/create"]

/-- The items of the configuration that a frame asks for. -/
def requestedItems (frame : Json) : List Json :=
  match (frame.get? "params").bind (·.get? "items") with
  | some (.arr items) => items
  | _ => []

/-- The entry for an item of the configuration: the settings as they are for the linter's own
section, and under the name of the linter for any other and for none. -/
inductive IsEntry (settings : Settings) (item : Json) : Json → Prop where
  | own : item.get? "section" = some (.str "ruff") → IsEntry settings item settings.serverValue
  | other : item.get? "section" ≠ some (.str "ruff") →
      IsEntry settings item (.obj [("ruff", settings.serverValue)])

/-- What the host says to a request: under its identity, with a result or an error but not both. A
method that the host does not know is refused, and the configuration has an entry for each item. -/
structure ReplyTo (settings : Settings) (frame id : Json) (method : String) (reply : Json) :
    Prop where
  identity : reply.get? "id" = some id
  outcome : reply.get? "result" = none ↔ reply.get? "error" ≠ none
  refusal : (reply.get? "error").bind (·.get? "code") = some (.num (.int (-32601)))
    ↔ method ∉ served
  configuration : method = "workspace/configuration" → ∃ entries,
    reply.get? "result" = some (.arr entries)
      ∧ List.Forall₂ (IsEntry settings) (requestedItems frame) entries
  /-- Whoever reads the reply takes it for an answer or for nothing. -/
  unnamed : ∀ incoming, Incoming.ofFrame? reply = some incoming →
    ∃ n, incoming = .response n reply

variable {frame id value : Json} {method name : String} {params : Option Json}

/-- The settings determine the entry for an item. -/
theorem IsEntry.unique {settings : Settings} {item entry other : Json}
    (h : IsEntry settings item entry) (h' : IsEntry settings item other) : entry = other := by
  cases h with
  | own hown =>
      cases h' with
      | own => rfl
      | other hother => exact absurd hown hother
  | other hother =>
      cases h' with
      | own hown => exact absurd hown hother
      | other => rfl

/-- The members of an answer. -/
theorem get_answer (k : String) :
    (answer id name value).get? k
      = if k = name then some value else if k = "id" then some id
        else if k = "jsonrpc" then some (.str "2.0") else none := by
  simp only [answer, Json.object, Json.membersOfList, List.foldl_cons, List.foldl_nil, Json.get?,
    Json.lookup_insert_member]
  rfl

/-- The value of the configuration has an entry for each item that is asked for, in order. -/
theorem configuration_result_eq (settings : Settings) (frame : Json) :
    ∃ entries, configurationResult (frame.get? "params") settings = .arr entries
      ∧ List.Forall₂ (IsEntry settings) (requestedItems frame) entries := by
  have hitems : (((frame.get? "params").bind (·.get? "items")).bind Json.items?).getD []
      = requestedItems frame := by
    unfold requestedItems
    split
    next items h => rw [h]; rfl
    next h =>
      cases hparams : (frame.get? "params").bind (·.get? "items") with
      | none => rfl
      | some v =>
          cases v with
          | arr items => exact absurd hparams (h items)
          | _ => rfl
  rw [configurationResult, hitems]
  refine ⟨_, rfl, List.forall₂_map_right_iff.2 (List.forall₂_same.2 fun item _ => ?_)⟩
  split
  next h => exact .own (Json.bind_text?_eq_some_iff.1 h)
  next h => exact .other fun hown => h (Json.bind_text?_eq_some_iff.2 hown)

namespace Router

variable {r : Router}

/-- A known method is answered with a result, and any other one is refused. -/
theorem reply_cases (r : Router) (id : Json) (method : String) (params : Option Json) :
    (method ∈ served ∧ ∃ value, r.reply id method params = answer id "result" value) ∨
      method ∉ served ∧ ∃ error, r.reply id method params = answer id "error" error
        ∧ error.get? "code" = some (.num (.int (-32601))) := by
  unfold reply
  split
  next h => exact .inl ⟨by simp [served, h], _, rfl⟩
  next hconfiguration =>
    have hserved : method ∈ served ↔ acknowledged.contains method = true := by
      simp [served, acknowledged, hconfiguration]
    split
    next h => exact .inl ⟨hserved.2 h, _, rfl⟩
    next h => exact .inr ⟨fun hmem => h (hserved.1 hmem), _, rfl, rfl⟩

/-- The reply to a request is as it should be. -/
theorem reply_to_reply (r : Router) (frame id : Json) (method : String) :
    ReplyTo r.settings frame id method (r.reply id method (frame.get? "params")) := by
  have hcases := r.reply_cases id method (frame.get? "params")
  have hunnamed : ∀ m, (r.reply id method (frame.get? "params")).get? "method"
      ≠ some (.str m) := by
    rcases hcases with ⟨-, value, heq⟩ | ⟨-, error, heq, -⟩ <;> simp [heq, get_answer]
  constructor
  case identity =>
    rcases hcases with ⟨-, value, heq⟩ | ⟨-, error, heq, -⟩ <;> simp [heq, get_answer]
  case outcome =>
    rcases hcases with ⟨-, value, heq⟩ | ⟨-, error, heq, -⟩ <;> simp [heq, get_answer]
  case refusal =>
    rcases hcases with ⟨hserved, value, heq⟩ | ⟨hserved, error, heq, hcode⟩
    · simp [heq, get_answer, hserved]
    · simp [heq, get_answer, hserved, hcode]
  case configuration =>
    rintro rfl
    obtain ⟨entries, hresult, hentries⟩ := configuration_result_eq r.settings frame
    refine ⟨entries, ?_, hentries⟩
    simp [reply, get_answer, hresult]
  case unnamed =>
    intro incoming h
    rcases Incoming.response_of_unnamed hunnamed with hnone | ⟨n, hresponse⟩
    · cases hnone.symm.trans h
    · exact ⟨n, Option.some.inj (h.symm.trans hresponse)⟩

end Router

namespace Connection

/-- A frame is replied to exactly if it is a request of the server. A request leads to one reply and
to nothing else. -/
theorem replied_iff_asked (c : Connection) (frame : Json) :
    ((c.route frame).2.replies ≠ [] ↔ ∃ id method, Asks frame id method) ∧
      ∀ id method, Asks frame id method → ∃ reply, c.route frame = (c, ⟨[], [reply]⟩)
        ∧ ReplyTo c.router.settings frame id method reply := by
  have hreply : ∀ id method, Asks frame id method → ∃ reply, c.route frame = (c, ⟨[], [reply]⟩)
      ∧ ReplyTo c.router.settings frame id method reply := by
    intro id method h
    have heffect := Router.dispatch_send_iff (r := c.router).2 ⟨id, method, h, rfl⟩
    exact ⟨_, by simp [route, heffect, Pending.settle, Result.ofEffect],
      c.router.reply_to_reply frame id method⟩
  refine ⟨⟨fun h => ?_, ?_⟩, hreply⟩
  · cases heffect : c.router.dispatch frame with
    | send reply =>
        obtain ⟨id, method, hasks, -⟩ := Router.dispatch_send_iff.1 heffect
        exact ⟨id, method, hasks⟩
    | resolve | publish | warn | ignore =>
        simp [route, heffect, Result.ofEffect, Result.none] at h
  · rintro ⟨id, method, h⟩
    obtain ⟨reply, heq, -⟩ := hreply id method h
    simp [heq]

/-- A request for two entries of the configuration, with null for its identity. -/
def configurationPull : Json :=
  .object [("id", .null), ("method", .str "workspace/configuration"),
    ("params", .object [("items", .arr [.object [("section", .str "ruff")], .null])])]

/-- The two entries are the settings as they are and under the name of the linter. -/
theorem replied_to_configuration_pull :
    Asks configurationPull .null "workspace/configuration" ∧ ∃ reply,
      (ofRouter ⟨⟨1⟩, [], .empty, []⟩).route configurationPull
          = (ofRouter ⟨⟨1⟩, [], .empty, []⟩, ⟨[], [reply]⟩) ∧
        reply.get? "id" = some .null ∧
        reply.get? "result" = some (.arr [Settings.empty.serverValue,
          .obj [("ruff", Settings.empty.serverValue)]]) := by
  have hasks : Asks configurationPull .null "workspace/configuration" := ⟨rfl, rfl⟩
  obtain ⟨reply, hroute, hreply⟩ :=
    (replied_iff_asked (ofRouter ⟨⟨1⟩, [], .empty, []⟩) configurationPull).2 _ _ hasks
  have hitems : requestedItems configurationPull
      = [.object [("section", .str "ruff")], .null] := by rfl
  obtain ⟨entries, hresult, hentries⟩ := hreply.configuration rfl
  rw [hitems] at hentries
  have hown : (Json.object [("section", .str "ruff")]).get? "section" = some (.str "ruff") := by rfl
  have hnone : Json.null.get? "section" ≠ some (.str "ruff") := fun h => nomatch h
  obtain ⟨first, rest, hfirst, hrest, rfl⟩ := List.forall₂_cons_left_iff.1 hentries
  obtain ⟨second, tail, hsecond, htail, rfl⟩ := List.forall₂_cons_left_iff.1 hrest
  rw [hfirst.unique (.own hown), hsecond.unique (.other hnone),
    List.forall₂_nil_left_iff.1 htail] at hresult
  exact ⟨hasks, reply, hroute, hreply.identity, hresult⟩

end Connection

end LintWatch.Server
