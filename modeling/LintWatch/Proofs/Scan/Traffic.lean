import LintWatch.Proofs.Scan.Progress
import Mathlib.Logic.Function.Basic

/-!
# Many calls on one scanner

Any number of callers ask a scanner for scans, while others change its settings and its executable,
clear its findings or dispose of it. What a scanner knows is in separate cells, so a call is a series
of small moves, and the moves of all calls and of everybody else come in any order:
`Traffic.Reaches`. A call may be given up whenever it waits for a check.

At most one call is past the guard at any time, and the flag says whether one is
(`Traffic.Reaches.guarded`). Each operation of a `Scanner` is a few of these moves with no others
between them (`Traffic.reaches_begin` and what follows it).
-/

namespace LintWatch.Scan

open LintWatch.Execution (Invocation)

/-- How far a call for a scan has come: it has passed the guard, it has taken the settings, it is
between two checks, it waits for a check, all its roots have been checked and it may still have to
publish, it has returned, it has been given up. -/
inductive Phase where
  | entered (roots : List Path)
  | informed (settings : Settings) (roots : List Path)
  | ready (run : Run)
  | checking (run : Run)
  | closing (run : Run) (publishes : Bool)
  | returned (outcome : Outcome)
  | cancelled

/-- A call is past the guard until it returns or is given up. -/
def Phase.isInFlight : Phase → Bool
  | .returned _ | .cancelled => false
  | _ => true

/-- The cells of a scanner, and how far each call has come that has been made. -/
structure Traffic where
  settings : Settings
  executable : Option Path
  isDisposed : Bool
  isScanning : Bool
  calls : Nat → Option Phase

/-- Something that a call does, or that somebody else does with the scanner. -/
inductive Move where
  | accept (c : Nat) (roots : List Path)
  | refuse (c : Nat)
  | takeSettings (c : Nat)
  | takeExecutable (c : Nat)
  | launch (c : Nat) (i : Invocation)
  | result (c : Nat) (env : Environment) (result : Except CheckError CheckOutput)
  | findSink (c : Nat)
  | publish (c : Nat) (found : List Diagnostic)
  | finish (c : Nat) (outcome : Outcome)
  | cancel (c : Nat)
  | setSettings (settings : Settings)
  | setExecutable (executable : Option Path)
  | clear (reachesSink : Bool)
  | dispose

/-- The call that makes a move. -/
def Move.caller? : Move → Option Nat
  | .accept c _ | .refuse c | .takeSettings c | .takeExecutable c | .launch c _ | .result c _ _
  | .findSink c | .publish c _ | .finish c _ | .cancel c => some c
  | .setSettings _ | .setExecutable _ | .clear _ | .dispose => none

/-- The moves with which a scan begins. -/
def opening (c : Nat) (roots : List Path) : List Move :=
  [.accept c roots, .takeSettings c, .takeExecutable c]

namespace Traffic

/-- A new scanner. -/
def new (settings : Settings) : Traffic :=
  ⟨settings, none, false, false, fun _ => none⟩

variable (s : Traffic)

/-- A call comes to another phase. -/
def put (c : Nat) (p : Phase) : Traffic :=
  { s with calls := Function.update s.calls c (some p) }

/-- A call passes the guard, which sets the flag. -/
def enter (c : Nat) (p : Phase) : Traffic :=
  { s.put c p with isScanning := true }

/-- A call is no longer past the guard, which clears the flag. -/
def leave (c : Nat) (p : Phase) : Traffic :=
  { s.put c p with isScanning := false }

/-- A call is past the guard. -/
def IsInFlight (c : Nat) : Prop :=
  ∃ p, s.calls c = some p ∧ p.isInFlight = true

/-- What a move does, and when it can be made. -/
inductive Step (s : Traffic) : Move → Traffic → Prop where
  | accept {c : Nat} (roots : List Path) (hnew : s.calls c = none) (hfree : s.isScanning = false) :
      Step s (.accept c roots) (s.enter c (.entered roots))
  | refuse {c : Nat} (hnew : s.calls c = none) (hbusy : s.isScanning = true) :
      Step s (.refuse c) (s.put c (.returned .alreadyRunning))
  | takeSettings {c : Nat} {roots : List Path} (h : s.calls c = some (.entered roots)) :
      Step s (.takeSettings c) (s.put c (.informed s.settings roots))
  | takeExecutable {c : Nat} {settings : Settings} {roots : List Path}
      (h : s.calls c = some (.informed settings roots)) :
      Step s (.takeExecutable c) (s.put c (.ready (.start settings s.executable roots)))
  | launch {c : Nat} {r : Run} {env : Environment} {i : Invocation}
      (h : s.calls c = some (.ready r)) (hnext : r.next? env = some i) :
      Step s (.launch c i) (s.put c (.checking r))
  | result {c : Nat} {r : Run} (h : s.calls c = some (.checking r)) (env : Environment)
      (result : Except CheckError CheckOutput) :
      Step s (.result c env result) (s.put c (.ready (r.feed env result)))
  | findSink {c : Nat} {r : Run} (h : s.calls c = some (.ready r)) (hdone : r.waiting = []) :
      Step s (.findSink c) (s.put c (.closing r !s.isDisposed))
  | publish {c : Nat} {r : Run} (h : s.calls c = some (.closing r true)) :
      Step s (.publish c r.found) (s.put c (.closing r false))
  | finish {c : Nat} {r : Run} (h : s.calls c = some (.closing r false)) :
      Step s (.finish c (.completed r.used r.found.length))
        (s.leave c (.returned (.completed r.used r.found.length)))
  | cancel {c : Nat} {r : Run} (h : s.calls c = some (.checking r)) :
      Step s (.cancel c) (s.leave c .cancelled)
  | setSettings (settings : Settings) : Step s (.setSettings settings) { s with settings }
  | setExecutable (executable : Option Path) :
      Step s (.setExecutable executable) { s with executable }
  | clear : Step s (.clear !s.isDisposed) s
  | dispose : Step s .dispose { s with isDisposed := true }

/-- The states that moves lead to. -/
inductive Reaches (first : Traffic) : List Move → Traffic → Prop where
  | start : Reaches first [] first
  | move {moves : List Move} {m : Move} {s s' : Traffic} :
      Reaches first moves s → Step s m s' → Reaches first (moves ++ [m]) s'

variable {s} {s' : Traffic} {c d : Nat} {p : Phase} {m : Move} {roots : List Path}

/-- The call that has come to another phase is in it. -/
@[simp] theorem put_calls_self : (s.put c p).calls c = some p := by
  simp [put]

/-- The other calls stay where they are. -/
theorem put_calls_of_ne (h : d ≠ c) : (s.put c p).calls d = s.calls d := by
  simp [put, h]

/-! ## The guard -/

/-- The guard does its work: no two calls are past it, and the flag says whether one is. -/
structure Guarded (s : Traffic) : Prop where
  alone : ∀ c d, s.IsInFlight c → s.IsInFlight d → c = d
  flag : s.isScanning = true ↔ ∃ c, s.IsInFlight c

/-- Whether the call is past the guard that has come to another phase. -/
theorem in_flight_put_self : (s.put c p).IsInFlight c ↔ p.isInFlight = true := by
  simp [IsInFlight]

/-- The other calls are past the guard as they were. -/
theorem in_flight_put_of_ne (h : d ≠ c) : (s.put c p).IsInFlight d ↔ s.IsInFlight d := by
  unfold IsInFlight
  rw [put_calls_of_ne h]

/-- A call that is unheard of is not past the guard. -/
theorem not_in_flight_of_new (h : s.calls c = none) : ¬ s.IsInFlight c := by
  rintro ⟨p, hp, -⟩
  simp [h] at hp

/-- A scanner with the same calls and the same flag is as guarded. -/
theorem Guarded.congr (h : s.Guarded) (hcalls : s'.calls = s.calls)
    (hflag : s'.isScanning = s.isScanning) : s'.Guarded := by
  have hflight : ∀ d, s'.IsInFlight d ↔ s.IsInFlight d := fun d => by
    unfold IsInFlight
    rw [hcalls]
  refine ⟨fun c d hc hd => h.alone c d ((hflight c).1 hc) ((hflight d).1 hd), ?_⟩
  simp only [hflag, hflight]
  exact h.flag

/-- A call that stays on its side of the guard leaves everything guarded. -/
theorem Guarded.put (h : s.Guarded) (hside : p.isInFlight = true ↔ s.IsInFlight c) :
    (s.put c p).Guarded := by
  have hflight : ∀ d, (s.put c p).IsInFlight d ↔ s.IsInFlight d := by
    intro d
    by_cases hd : d = c
    · subst hd
      rw [in_flight_put_self, hside]
    · exact in_flight_put_of_ne hd
  refine ⟨fun c d hc hd => h.alone c d ((hflight c).1 hc) ((hflight d).1 hd), ?_⟩
  simp only [hflight]
  exact h.flag

/-- A call that passes the guard while the flag is clear is the only one. -/
theorem Guarded.enter (h : s.Guarded) (hfree : s.isScanning = false) (hp : p.isInFlight = true) :
    (s.enter c p).Guarded := by
  have honly : ∀ d, (s.enter c p).IsInFlight d → d = c := by
    intro d hd
    by_contra hne
    have hbusy := h.flag.2 ⟨d, (in_flight_put_of_ne hne).1 hd⟩
    simp [hfree] at hbusy
  exact ⟨fun a b ha hb => (honly a ha).trans (honly b hb).symm,
    fun _ => ⟨c, in_flight_put_self.2 hp⟩, fun _ => rfl⟩

/-- When the call leaves that is past the guard, none is. -/
theorem Guarded.leave (h : s.Guarded) (hc : s.IsInFlight c) (hp : p.isInFlight = false) :
    (s.leave c p).Guarded := by
  have hnone : ∀ d, ¬ (s.leave c p).IsInFlight d := by
    intro d hd
    by_cases hdc : d = c
    · subst hdc
      simp [in_flight_put_self.1 hd] at hp
    · exact hdc (h.alone d c ((in_flight_put_of_ne hdc).1 hd) hc)
  exact ⟨fun a _ ha => absurd ha (hnone a), fun hset => (by cases hset),
    fun ⟨a, ha⟩ => absurd ha (hnone a)⟩

/-- Every move leaves the scanner guarded. -/
theorem Guarded.step (h : s.Guarded) (hstep : s.Step m s') : s'.Guarded := by
  cases hstep with
  | accept roots _ hfree => exact h.enter hfree rfl
  | refuse hnew _ =>
      exact h.put ⟨fun hover => (by cases hover), fun hin => absurd hin (not_in_flight_of_new hnew)⟩
  | takeSettings hc | takeExecutable hc | launch hc _ | result hc _ _ | findSink hc _ | publish hc =>
      exact h.put (iff_of_true rfl ⟨_, hc, rfl⟩)
  | finish hc | cancel hc => exact h.leave ⟨_, hc, rfl⟩ rfl
  | setSettings _ | setExecutable _ | clear | dispose => exact h.congr rfl rfl

/-- A scanner is guarded whatever moves are made. -/
theorem Reaches.guarded {settings : Settings} {moves : List Move}
    (h : (new settings).Reaches moves s) : s.Guarded := by
  induction h with
  | start =>
      have hnone : ∀ c, ¬ (new settings).IsInFlight c := fun c => not_in_flight_of_new rfl
      exact ⟨fun c _ hc => absurd hc (hnone c), fun hset => (by cases hset),
        fun ⟨c, hc⟩ => absurd hc (hnone c)⟩
  | move _ hstep ih => exact ih.step hstep

/-- The flag is clear as long as no call is past the guard. -/
theorem Guarded.free_iff (h : s.Guarded) : s.isScanning = false ↔ ∀ d, ¬ s.IsInFlight d := by
  rw [← Bool.not_eq_true, h.flag, not_exists]

/-- A new call is accepted if no other is past the guard. -/
theorem Guarded.accepts (h : s.Guarded) (hnew : s.calls c = none) (hnone : ∀ d, ¬ s.IsInFlight d)
    (roots : List Path) :
    (∃ s', s.Step (.accept c roots) s') ∧ ∀ s', ¬ s.Step (.refuse c) s' := by
  have hfree := h.free_iff.2 hnone
  refine ⟨⟨_, .accept roots hnew hfree⟩, fun s' hstep => ?_⟩
  cases hstep with
  | refuse _ hbusy => simp [hfree] at hbusy

/-- A new call can only be refused if another is past the guard. -/
theorem Guarded.refuses (h : s.Guarded) (hnew : s.calls c = none) (hflight : ∃ d, s.IsInFlight d) :
    (∃ s', s.Step (.refuse c) s') ∧
      ∀ m s', m.caller? = some c → s.Step m s' → m = .refuse c := by
  have hbusy := h.flag.2 hflight
  refine ⟨⟨_, .refuse hnew hbusy⟩, fun m s' hm hstep => ?_⟩
  cases hstep with
  | refuse _ _ => exact congrArg Move.refuse (Option.some.inj hm)
  | accept _ _ hfree => simp [hfree] at hbusy
  | takeSettings hc | takeExecutable hc | launch hc _ | result hc _ _ | findSink hc _
  | publish hc | finish hc | cancel hc =>
      cases hm
      simp [hnew] at hc
  | setSettings _ | setExecutable _ | clear | dispose => cases hm

/-! ## Undisturbed moves -/

/-- What a scanner is between two moves, with the scan that is under way. -/
def scanner (s : Traffic) (current : Option Run) : Scanner :=
  ⟨s.settings, s.executable, s.isDisposed, current⟩

variable {r : Run} {env : Environment} {i : Invocation}

/-- A scanner begins a scan by passing the guard and taking what it works with. -/
theorem reaches_begin (hnew : s.calls c = none) (hfree : s.isScanning = false)
    (roots : List Path) : ∃ s' r, s.Reaches (opening c roots) s' ∧ s'.calls c = some (.ready r) ∧
      (s.scanner none).begin? roots = some (s'.scanner (some r)) :=
  ⟨_, _, .move (.move (.move .start (.accept roots hnew hfree))
    (.takeSettings put_calls_self)) (.takeExecutable put_calls_self), put_calls_self, rfl⟩

/-- A scanner hands a scan the result of the check that it waits for. -/
theorem reaches_feed (hc : s.calls c = some (.ready r))
    (hnext : (s.scanner (some r)).next? env = some i)
    (result : Except CheckError CheckOutput) : ∃ s' r',
      s.Reaches [.launch c i, .result c env result] s' ∧ s'.calls c = some (.ready r') ∧
      (s.scanner (some r)).feed env result = s'.scanner (some r') :=
  ⟨_, _, .move (.move .start (.launch hc hnext)) (.result put_calls_self env result),
    put_calls_self, rfl⟩

/-- A scanner ends a scan by asking for its sink and publishing if there is one. -/
theorem reaches_finish (hc : s.calls c = some (.ready r)) (hdone : r.waiting = []) :
    ∃ s' published outcome, s.Reaches
        (.findSink c :: ((published.map (Move.publish c)).toList ++ [.finish c outcome])) s' ∧
      s'.calls c = some (.returned outcome) ∧
      (s.scanner (some r)).finish r = (s'.scanner none, published, outcome) := by
  have hsink := Reaches.start.move (.findSink hc hdone)
  have hfinish : (s.scanner (some r)).finish r = ((s.scanner (some r)).cancel,
      if s.isDisposed then none else some r.found, .completed r.used r.found.length) := rfl
  cases hdisposed : s.isDisposed with
  | true =>
      rw [hdisposed] at hsink hfinish
      exact ⟨_, none, _, hsink.move (.finish put_calls_self), put_calls_self, hfinish⟩
  | false =>
      rw [hdisposed] at hsink hfinish
      exact ⟨_, some r.found, _, (hsink.move (.publish put_calls_self)).move (.finish put_calls_self),
        put_calls_self, hfinish⟩

/-- A scanner gives up the scan that waits for a check. -/
theorem step_cancel (hc : s.calls c = some (.checking r)) :
    ∃ s', s.Step (.cancel c) s' ∧ (s.scanner (some r)).cancel = s'.scanner none :=
  ⟨_, .cancel hc, rfl⟩

end Traffic

end LintWatch.Scan
