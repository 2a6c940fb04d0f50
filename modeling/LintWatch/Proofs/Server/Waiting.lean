import LintWatch.Proofs.Server.Incoming
import LintWatch.Server.Connection

/-!
# Waiting for answers

Requests of the host begin to wait and frames of the server are routed, in any order. One frame
ends the wait of one request at most (`route_of_answers`, `route_of_unanswered`). Over a whole run
each waiter gets the first frame that answers its request after the wait began, and nothing else:
`given_first_answer`.
-/

namespace LintWatch.Server.Connection

/-- Something that happens to a connection: a request begins to wait, or a frame is routed. -/
inductive Step where
  | await (id : Nat)
  | route (frame : Json)

/-- The answer to a request that a step brings. -/
def Step.answer? (id : Nat) : Step → Option Json
  | .await _ => none
  | .route frame => if Answers frame id then some frame else none

/-- The first answer to a request that steps bring. -/
def firstAnswer? (id : Nat) (steps : List Step) : Option Json :=
  steps.findSome? (Step.answer? id)

/-- The requests that begin to wait, in order. -/
def awaited (steps : List Step) : List Nat :=
  steps.filterMap fun
    | .await id => some id
    | .route _ => none

variable (c : Connection)

/-- The connection after a step. -/
def step : Step → Connection
  | .await id => c.await id
  | .route frame => (c.route frame).1

/-- The connection after steps. -/
def run (steps : List Step) : Connection :=
  steps.foldl step c

/-- The frames that have come for a request, in order. -/
def given (id : Nat) : List Json :=
  (c.answers.filter (·.1 = id)).map (·.2)

/-- The connection once the waiter of a request has got a frame. -/
def resolve (id : Nat) (frame : Json) : Connection :=
  { c with waiting := c.waiting.filter (· ≠ id), answers := c.answers ++ [(id, frame)] }

variable {c : Connection} {id : Nat} {frame : Json} {s : Step} {steps : List Step}

/-- The requests that begin to wait are those of the steps that say so. -/
theorem mem_awaited : id ∈ awaited steps ↔ .await id ∈ steps := by
  simp only [awaited, List.mem_filterMap]
  constructor
  · rintro ⟨s, hs, heq⟩
    cases s with
    | await i => exact Option.some.inj heq ▸ hs
    | route frame => cases heq
  · intro h
    exact ⟨_, h, rfl⟩

/-- An answer that is waited for ends that wait and no other. -/
theorem route_of_answers (hid : id ∈ c.waiting) (h : Answers frame id) :
    (c.route frame).1 = c.resolve id frame := by
  simp [route, Router.dispatch_resolve_iff.2 ⟨rfl, h⟩, Pending.settle, resolve, hid]

/-- A frame that answers none of the requests that wait changes nothing. -/
theorem route_of_unanswered (h : ∀ id ∈ c.waiting, ¬ Answers frame id) :
    (c.route frame).1 = c := by
  unfold route
  cases heffect : c.router.dispatch frame with
  | resolve id body =>
      have hid : id ∉ c.waiting := fun hid =>
        h id hid (Router.dispatch_resolve_iff.1 heffect).2
      simp [Pending.settle, hid]
  | send | publish | warn | ignore => simp [Pending.settle]

/-- A frame ends the wait of the request that it answers, or it changes nothing. -/
theorem route_cases (c : Connection) (frame : Json) :
    (∃ i ∈ c.waiting, Answers frame i ∧ (c.route frame).1 = c.resolve i frame) ∨
      (∀ i ∈ c.waiting, ¬ Answers frame i) ∧ (c.route frame).1 = c := by
  by_cases h : ∃ i ∈ c.waiting, Answers frame i
  · obtain ⟨i, hi, hanswers⟩ := h
    exact .inl ⟨i, hi, hanswers, route_of_answers hi hanswers⟩
  · have hnone : ∀ i ∈ c.waiting, ¬ Answers frame i := fun i hi ha => h ⟨i, hi, ha⟩
    exact .inr ⟨hnone, route_of_unanswered hnone⟩

/-- After a step a request waits if it has begun to, or if it waited and the step was not its
answer. -/
theorem mem_waiting_step :
    id ∈ (c.step s).waiting ↔ s = .await id ∨ id ∈ c.waiting ∧ s.answer? id = none := by
  cases s with
  | await i => simp [step, Connection.await, Step.answer?, or_comm, eq_comm]
  | route frame =>
      rcases c.route_cases frame with ⟨i, hi, hanswers, hroute⟩ | ⟨hnone, hroute⟩
      · have heq : id = i ↔ Answers frame id :=
          ⟨fun heq => heq ▸ hanswers, fun hid => hid.unique hanswers⟩
        simp [step, hroute, resolve, Step.answer?, heq]
      · simp only [step, hroute, Step.answer?]
        simpa using hnone id

/-- A step gives a waiter its answer, and nothing to those that do not wait. -/
theorem given_step :
    (c.step s).given id
      = c.given id ++ if id ∈ c.waiting then (s.answer? id).toList else [] := by
  cases s with
  | await i => simp [step, Connection.await, given, Step.answer?]
  | route frame =>
      rcases c.route_cases frame with ⟨i, hi, hanswers, hroute⟩ | ⟨hnone, hroute⟩
      · by_cases heq : i = id
        · subst heq
          simp [step, hroute, resolve, given, Step.answer?, hi, hanswers]
        · have hid : ¬ Answers frame id := fun hid => heq (hanswers.unique hid)
          simp [step, hroute, resolve, given, Step.answer?, heq, hid]
      · by_cases hid : id ∈ c.waiting
        · simp [step, hroute, Step.answer?, hid, hnone id hid]
        · simp [step, hroute, hid]

/-- Without a wait nothing is given, whatever comes. -/
theorem run_of_not_waiting (hnew : .await id ∉ steps) (hid : id ∉ c.waiting) :
    id ∉ (c.run steps).waiting ∧ (c.run steps).given id = c.given id := by
  induction steps generalizing c with
  | nil => exact ⟨hid, rfl⟩
  | cons s steps ih =>
      rw [List.mem_cons, not_or] at hnew
      have hstep : id ∉ (c.step s).waiting := by
        rw [mem_waiting_step]
        rintro (heq | ⟨hwaits, -⟩)
        · exact hnew.1 heq.symm
        · exact hid hwaits
      obtain ⟨hrun, hgiven⟩ := ih hnew.2 hstep
      refine ⟨hrun, hgiven.trans ?_⟩
      rw [given_step, if_neg hid, List.append_nil]

/-- A request that waits goes on to wait until the first answer to it comes, and that is all its
waiter gets. -/
theorem run_of_waiting (hnew : .await id ∉ steps) (hid : id ∈ c.waiting) :
    (c.run steps).given id = c.given id ++ (firstAnswer? id steps).toList ∧
      (id ∈ (c.run steps).waiting ↔ firstAnswer? id steps = none) := by
  induction steps generalizing c with
  | nil => simp [run, firstAnswer?, hid]
  | cons s steps ih =>
      rw [List.mem_cons, not_or] at hnew
      have hgiven : (c.step s).given id = c.given id ++ (s.answer? id).toList := by
        rw [given_step, if_pos hid]
      cases hanswer : s.answer? id with
      | none =>
          have hstep : id ∈ (c.step s).waiting := mem_waiting_step.2 (.inr ⟨hid, hanswer⟩)
          have hfirst : firstAnswer? id (s :: steps) = firstAnswer? id steps := by
            simp [firstAnswer?, hanswer]
          have hsame : (c.step s).given id = c.given id := by simp [hgiven, hanswer]
          rw [hfirst, ← hsame]
          exact ih hnew.2 hstep
      | some frame =>
          -- The wait ends here, and what comes later does not matter.
          have hstep : id ∉ (c.step s).waiting := by
            rw [mem_waiting_step]
            rintro (heq | ⟨-, hnone⟩)
            · exact hnew.1 heq.symm
            · exact Option.some_ne_none _ (hanswer.symm.trans hnone)
          have hfirst : firstAnswer? id (s :: steps) = some frame := by
            simp [firstAnswer?, hanswer]
          obtain ⟨hrun, hlater⟩ := run_of_not_waiting hnew.2 hstep
          rw [hfirst]
          refine ⟨hlater.trans ?_, iff_of_false hrun (Option.some_ne_none _)⟩
          rw [hgiven, hanswer]

/-- A request that begins to wait only once begins to at no other step. -/
theorem not_mem_of_nodup {before after : List Step}
    (h : (awaited (before ++ .await id :: after)).Nodup) :
    .await id ∉ before ∧ .await id ∉ after := by
  have hsplit : awaited (before ++ .await id :: after) = awaited before ++ id :: awaited after := by
    simp [awaited]
  rw [hsplit, List.nodup_append] at h
  obtain ⟨-, hafter, hdisjoint⟩ := h
  rw [← mem_awaited, ← mem_awaited]
  exact ⟨fun hmem => hdisjoint id hmem id List.mem_cons_self rfl, (List.nodup_cons.1 hafter).1⟩

/-- Requests with different numbers begin to wait and frames are routed, in any order. A frame
changes what waits only if it answers a request that waits; then this wait ends and its waiter gets
the frame. So each waiter gets the first answer that comes after the wait began, and no other
frame. -/
theorem given_first_answer (router : Router) {steps : List Step}
    (hdistinct : (awaited steps).Nodup) :
    let c := (ofRouter router).run steps
    (∀ frame id body, Incoming.ofFrame? frame = some (.response id body)
        ↔ body = frame ∧ Answers frame id) ∧
      (∀ frame, (∀ id ∈ c.waiting, ¬ Answers frame id) → (c.route frame).1 = c) ∧
      (∀ frame, ∀ id ∈ c.waiting, Answers frame id → (c.route frame).1 = c.resolve id frame) ∧
      (∀ id ∉ awaited steps, id ∉ c.waiting ∧ c.given id = []) ∧
      ∀ before id after, steps = before ++ .await id :: after →
        c.given id = (firstAnswer? id after).toList ∧
          (id ∈ c.waiting ↔ firstAnswer? id after = none) := by
  have hnothing : ∀ id, id ∉ (ofRouter router).waiting := fun id => List.not_mem_nil
  refine ⟨fun frame id body => Incoming.of_frame_response_iff, fun frame => route_of_unanswered,
    fun frame id => route_of_answers, fun id hid => ?_, ?_⟩
  · exact run_of_not_waiting (fun h => hid (mem_awaited.2 h)) (hnothing id)
  · rintro before id after rfl
    obtain ⟨hbefore, hafter⟩ := not_mem_of_nodup hdistinct
    obtain ⟨-, hgiven⟩ := run_of_not_waiting hbefore (hnothing id)
    have hwaits : id ∈ (((ofRouter router).run before).await id).waiting := by
      simp [Connection.await]
    have hrun : (ofRouter router).run (before ++ .await id :: after)
        = (((ofRouter router).run before).await id).run after := by
      simp [run, step]
    obtain ⟨hlater, hends⟩ := run_of_waiting hafter hwaits
    rw [hrun]
    exact ⟨hlater.trans (congrArg (· ++ _) hgiven), hends⟩

/-- Two requests wait. The server asks under the number of the first one, answers under a text, and
then answers the first one twice. -/
def doubleAnswer : List Step :=
  [.await 1, .route (request 1 "client/registerCapability" none), .await 2,
    .route (answer (.str "2") "result" .null), .route (answer (.ofNat 1) "error" .null),
    .route (answer (.ofNat 1) "result" .null)]

/-- The first request gets the first of its two answers, and the second one still waits. -/
theorem given_first_of_double_answer :
    let c := (ofRouter ⟨⟨1⟩, [], .empty, []⟩).run doubleAnswer
    (awaited doubleAnswer).Nodup ∧
      (c.given 1 = [answer (.ofNat 1) "error" .null] ∧ 1 ∉ c.waiting) ∧
      c.given 2 = [] ∧ 2 ∈ c.waiting := by
  intro c
  have hdistinct : (awaited doubleAnswer).Nodup := by decide
  obtain ⟨-, -, -, -, hgiven⟩ := given_first_answer ⟨⟨1⟩, [], .empty, []⟩ hdistinct
  obtain ⟨hfirst, hends⟩ := hgiven [] 1 (doubleAnswer.drop 1) rfl
  obtain ⟨hsecond, hwaits⟩ := hgiven (doubleAnswer.take 2) 2 (doubleAnswer.drop 3) rfl
  have hone : firstAnswer? 1 (doubleAnswer.drop 1) = some (answer (.ofNat 1) "error" .null) := by
    rfl
  have htwo : firstAnswer? 2 (doubleAnswer.drop 3) = none := by rfl
  rw [hone] at hfirst hends
  rw [htwo] at hsecond hwaits
  exact ⟨hdistinct, ⟨hfirst, fun h => Option.some_ne_none _ (hends.1 h)⟩, hsecond, hwaits.2 rfl⟩

end LintWatch.Server.Connection
