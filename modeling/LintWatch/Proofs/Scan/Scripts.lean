import LintWatch.Proofs.Files.Above
import LintWatch.Proofs.Scan.Roots
import LintWatch.Proofs.Scan.Traffic

/-!
# What the calls on a scanner do

Whatever moves are made on a scanner, the moves of each call follow a `Script`. A call that finds
another past the guard does nothing else. A scan runs the checks of its roots in order, all with the
settings and the executable that it took at its beginning; if it is given up it publishes nothing,
and if it ends it has checked all its roots and has published what it found once, unless the scanner
had been disposed of: `Traffic.scans_apart`.

What a scan takes is in force when it takes it. But it takes the settings and the executable one
after the other, and others may change both in between. Then it works with what has never been in
force together: `Traffic.mixed_at_no_moment`.
-/

namespace LintWatch.Scan

/-! ## Moves so far -/

namespace Move

/-- The settings that a move puts in force. -/
def settings? : Move → Option Settings
  | .setSettings settings => some settings
  | _ => none

/-- The executable that a move puts in force. -/
def executable? : Move → Option (Option Path)
  | .setExecutable executable => some executable
  | _ => none

/-- The phase in which a call is when it has ended with a move. -/
def end? : Move → Option Phase
  | .refuse _ => some (.returned .alreadyRunning)
  | .finish _ outcome => some (.returned outcome)
  | .cancel _ => some .cancelled
  | _ => none

/-- Whether a call takes something with a move that others may change. -/
def isTaking : Move → Bool
  | .takeSettings _ | .takeExecutable _ | .findSink _ => true
  | _ => false

end Move

/-- What has been set last, or was there at first. -/
def latest {α : Type} (set? : Move → Option α) (first : α) (moves : List Move) : α :=
  moves.foldl (fun a m => (set? m).getD a) first

/-- The moves that a call has made. -/
def own (c : Nat) (moves : List Move) : List Move :=
  moves.filter fun m => m.caller? = some c

/-- Whenever the move was made, the moves before it were as `P` says. -/
def Before (x : Move) (P : List Move → Prop) (moves : List Move) : Prop :=
  ∀ early late, moves = early ++ x :: late → P early

section

variable {c : Nat} {m x : Move} {moves early mid : List Move} {P : List Move → Prop} {α : Type}

/-- With one more move it is that which counts, if it sets anything. -/
theorem latest_concat (set? : Move → Option α) (first : α) :
    latest set? first (moves ++ [m]) = (set? m).getD (latest set? first moves) := by
  simp [latest]

/-- Moves that set nothing do not count. -/
theorem latest_append (set? : Move → Option α) (first : α) (h : ∀ m ∈ mid, set? m = none) :
    latest set? first (early ++ mid) = latest set? first early := by
  induction mid generalizing early with
  | nil => rw [List.append_nil]
  | cons m mid ih =>
      rw [List.append_cons, ih fun m hm => h m (List.mem_cons_of_mem _ hm), latest_concat,
        h m List.mem_cons_self, Option.getD_none]

/-- A call sets nothing for others. -/
theorem Move.sets_nothing_of_caller (h : m.caller? = some c) :
    m.settings? = none ∧ m.executable? = none ∧ m ≠ .dispose := by
  cases m <;> first | (cases h; done) | simp [settings?, executable?]

/-- The moves of a call are among all moves. -/
theorem mem_own : m ∈ own c moves ↔ m ∈ moves ∧ m.caller? = some c := by
  simp [own]

/-- A move of a call is the last of its moves. -/
theorem own_concat_self (h : m.caller? = some c) : own c (moves ++ [m]) = own c moves ++ [m] := by
  simp [own, h]

/-- A move of somebody else is none of the moves of a call. -/
theorem own_concat_other (h : m.caller? ≠ some c) : own c (moves ++ [m]) = own c moves := by
  simp [own, h]

/-- Another move changes nothing before a move. -/
theorem Before.concat_of_ne (h : Before x P moves) (hne : m ≠ x) : Before x P (moves ++ [m]) := by
  intro early late heq
  rcases List.eq_nil_or_concat late with rfl | ⟨late, last, rfl⟩
  · exact absurd (List.head_eq_of_cons_eq (List.append_inj' heq rfl).2) hne
  · rw [List.concat_eq_append, ← List.cons_append, ← List.append_assoc] at heq
    exact h early late (List.append_inj' heq rfl).1

/-- Nothing is said of a move that has not been made. -/
theorem before_of_not_mem (hnew : x ∉ moves) : Before x P moves := by
  rintro early late rfl
  exact absurd (List.mem_append_right early List.mem_cons_self) hnew

/-- A move that is made for the first time has all moves before it. -/
theorem before_concat_self (hnew : x ∉ moves) (h : P moves) : Before x P (moves ++ [x]) := by
  intro early late heq
  rcases List.eq_nil_or_concat late with rfl | ⟨late, last, rfl⟩
  · exact (List.append_inj' heq rfl).1 ▸ h
  · rw [List.concat_eq_append, ← List.cons_append, ← List.append_assoc] at heq
    have hold := before_of_not_mem (P := fun _ => False) hnew early late
    exact (hold (List.append_inj' heq rfl).1).elim

end

/-! ## Scripts -/

/-- The moves of a scan up to the last check that it has run. -/
def Story.moves (t : Story) (c : Nat) : List Move :=
  opening c t.roots ++ t.checks.flatMap fun k => [.launch c k.invocation, .result c k.env k.result]

/-- The moves of a call by the phase that it has come to. `isOpen` says whether a scan finds that
its findings are still wanted. -/
def Script (c : Nat) (t : Story) (isOpen : Bool) (moves : List Move) : Phase → Prop
  | .entered roots => roots = t.roots ∧ moves = [.accept c t.roots]
  | .informed settings roots =>
    settings = t.settings ∧ roots = t.roots ∧ moves = [.accept c t.roots, .takeSettings c]
  | .ready r => t.Leads r ∧ moves = t.moves c
  | .checking r => t.Leads r ∧ ∃ root rest i, r.waiting = root :: rest ∧ t.Checks root i ∧
    moves = t.moves c ++ [.launch c i]
  | .closing r publishes => t.Leads r ∧ r.waiting = [] ∧ (publishes = true → isOpen = true) ∧
    moves = t.moves c ++ .findSink c :: if isOpen && !publishes then [.publish c t.found] else []
  | .returned .alreadyRunning => moves = [.refuse c]
  | .returned (.completed roots findings) => roots = t.used ∧ findings = t.found.length ∧
    (∃ r, t.Leads r ∧ r.waiting = []) ∧
    moves = t.moves c ++ .findSink c ::
      ((if isOpen then [.publish c t.found] else []) ++ [.finish c (.completed roots findings)])
  | .cancelled => ∃ r root rest i, t.Leads r ∧ r.waiting = root :: rest ∧ t.Checks root i ∧
    moves = t.moves c ++ [.launch c i, .cancel c]

/-- What a scan has taken was in force when it took it, and its findings are still wanted if the
scanner had not been disposed of when it asked. -/
structure Story.InForce (t : Story) (first : Settings) (moves : List Move) (c : Nat)
    (isOpen : Bool) : Prop where
  settings : Before (.takeSettings c)
    (fun early => t.settings = latest Move.settings? first early) moves
  executable : Before (.takeExecutable c)
    (fun early => t.executable = latest Move.executable? none early) moves
  sink : Before (.findSink c) (fun early => isOpen = true ↔ Move.dispose ∉ early) moves

/-- The moves of a call follow a script. -/
def Told (first : Settings) (moves : List Move) (c : Nat) (p : Phase) : Prop :=
  ∃ t isOpen, t.InForce first moves c isOpen ∧ Script c t isOpen (own c moves) p

variable {c d : Nat} {m : Move} {moves : List Move} {first : Settings} {t : Story} {isOpen : Bool}
  {p : Phase}

/-- One more check adds its two moves. -/
theorem Story.moves_add (k : Checked) :
    (t.add k).moves c = t.moves c ++ [.launch c k.invocation, .result c k.env k.result] := by
  simp [Story.moves, Story.add, List.flatMap_append]

/-- A scan that has not run all its checks has not asked for the sink. -/
theorem Story.find_sink_not_mem : Move.findSink d ∉ t.moves c := by
  simp [Story.moves, opening]

/-- A scan does not end before it has run its checks. -/
@[simp] theorem Story.ends_moves : (t.moves c).filterMap Move.end? = [] := by
  rw [Story.moves, List.filterMap_append, List.filterMap_flatMap]
  simp [opening, Move.end?]

/-- A call that has made a move with which calls end has ended so. -/
theorem Script.end_of_mem {ms : List Move} {q : Phase} (h : Script c t isOpen ms p) (hm : m ∈ ms)
    (hend : m.end? = some q) : p = q := by
  have hq : q ∈ ms.filterMap Move.end? := List.mem_filterMap.2 ⟨m, hm, hend⟩
  cases p with
  | entered roots =>
      obtain ⟨-, rfl⟩ := h
      simp [Move.end?] at hq
  | informed settings roots =>
      obtain ⟨-, -, rfl⟩ := h
      simp [Move.end?] at hq
  | ready r =>
      obtain ⟨-, rfl⟩ := h
      simp at hq
  | checking r =>
      obtain ⟨-, root, rest, i, -, -, rfl⟩ := h
      simp [Move.end?] at hq
  | closing r publishes =>
      obtain ⟨-, -, -, rfl⟩ := h
      cases isOpen <;> cases publishes <;> simp [Move.end?] at hq
  | returned outcome =>
      cases outcome with
      | completed roots findings =>
          obtain ⟨-, -, -, rfl⟩ := h
          cases isOpen <;> simpa [Move.end?, eq_comm] using hq
      | alreadyRunning =>
          obtain rfl : ms = [.refuse c] := h
          simpa [Move.end?, eq_comm] using hq
  | cancelled =>
      obtain ⟨r, root, rest, i, -, -, -, rfl⟩ := h
      simpa [Move.end?, eq_comm] using hq

/-- A move that takes nothing leaves what is in force. -/
theorem Story.InForce.concat (h : t.InForce first moves c isOpen)
    (hm : m.caller? ≠ some c ∨ m.isTaking = false) : t.InForce first (moves ++ [m]) c isOpen := by
  have hne : ∀ x : Move, x.caller? = some c → x.isTaking = true → m ≠ x := by
    rintro x hcaller htaking rfl
    rcases hm with hm | hm
    · exact hm hcaller
    · simp [htaking] at hm
  exact ⟨h.settings.concat_of_ne (hne _ rfl rfl), h.executable.concat_of_ne (hne _ rfl rfl),
    h.sink.concat_of_ne (hne _ rfl rfl)⟩

/-- A move of somebody else leaves what is told of a call. -/
theorem Told.concat_other (h : Told first moves c p) (hm : m.caller? ≠ some c) :
    Told first (moves ++ [m]) c p := by
  obtain ⟨t, isOpen, hforce, hscript⟩ := h
  exact ⟨t, isOpen, hforce.concat (.inl hm), by rwa [own_concat_other hm]⟩

/-- A move of the call itself that takes nothing goes on with its script. -/
theorem told_concat_self (hforce : t.InForce first moves c isOpen) (hm : m.caller? = some c)
    (htaking : m.isTaking = false) (hscript : Script c t isOpen (own c moves ++ [m]) p) :
    Told first (moves ++ [m]) c p :=
  ⟨t, isOpen, hforce.concat (.inr htaking), by rwa [own_concat_self hm]⟩

/-- What a scan has taken is what was in force before moves that set nothing. -/
theorem Story.InForce.since (h : t.InForce first moves c isOpen) {early mid late : List Move} :
    (moves = early ++ (mid ++ .takeSettings c :: late) → (∀ m ∈ mid, m.settings? = none) →
      t.settings = latest Move.settings? first early) ∧
    (moves = early ++ (mid ++ .takeExecutable c :: late) → (∀ m ∈ mid, m.executable? = none) →
      t.executable = latest Move.executable? none early) := by
  refine ⟨fun hmoves hmid => ?_, fun hmoves hmid => ?_⟩
  · rw [← List.append_assoc] at hmoves
    rw [h.settings _ _ hmoves, latest_append _ _ hmid]
  · rw [← List.append_assoc] at hmoves
    rw [h.executable _ _ hmoves, latest_append _ _ hmid]

/-- A call that has made no moves has taken nothing. -/
theorem Story.in_force_of_silent (h : own c moves = []) (t : Story) (isOpen : Bool) :
    t.InForce first moves c isOpen := by
  have hnew : ∀ x : Move, x.caller? = some c → x ∉ moves := fun x hx hmem =>
    absurd (mem_own.2 ⟨hmem, hx⟩) (by simp [h])
  exact ⟨before_of_not_mem (hnew _ rfl), before_of_not_mem (hnew _ rfl),
    before_of_not_mem (hnew _ rfl)⟩

/-! ## Every call follows its script -/

namespace Traffic

variable {s s' : Traffic}

/-- The cells of a scanner hold what has been set last, and every call follows its script. -/
structure Tracks (first : Settings) (moves : List Move) (s : Traffic) : Prop where
  settings : s.settings = latest Move.settings? first moves
  executable : s.executable = latest Move.executable? none moves
  isDisposed : s.isDisposed = true ↔ .dispose ∈ moves
  told : ∀ c p, s.calls c = some p → Told first moves c p
  silent : ∀ c, s.calls c = none → own c moves = []

/-- A scanner on which nobody has called tracks no moves. -/
theorem tracks_new (first : Settings) : (new first).Tracks first [] :=
  ⟨rfl, rfl, iff_of_false (by simp [new]) List.not_mem_nil, fun _ _ hp => (by cases hp),
    fun _ _ => rfl⟩

/-- A call makes a move, which changes no cell but the flag. -/
theorem Tracks.by_caller (h : s.Tracks first moves) (hm : m.caller? = some c)
    (htold : Told first (moves ++ [m]) c p) : (s.put c p).Tracks first (moves ++ [m]) := by
  obtain ⟨hsettings, hexecutable, hdispose⟩ := Move.sets_nothing_of_caller hm
  refine ⟨?_, ?_, ?_, fun d q hq => ?_, fun d hd => ?_⟩
  · rw [latest_concat, hsettings]
    exact h.settings
  · rw [latest_concat, hexecutable]
    exact h.executable
  · rw [List.mem_append, List.mem_singleton, or_iff_left hdispose.symm]
    exact h.isDisposed
  · by_cases hdc : d = c
    · subst hdc
      rw [put_calls_self] at hq
      exact Option.some.inj hq ▸ htold
    · rw [put_calls_of_ne hdc] at hq
      exact (h.told d q hq).concat_other (by simpa [hm] using Ne.symm hdc)
  · by_cases hdc : d = c
    · subst hdc
      simp at hd
    · rw [put_calls_of_ne hdc] at hd
      rw [own_concat_other (by simpa [hm] using Ne.symm hdc)]
      exact h.silent d hd

/-- Somebody else makes a move, which leaves the calls where they are. -/
theorem Tracks.by_others (h : s.Tracks first moves) (hm : m.caller? = none)
    (hcalls : s'.calls = s.calls)
    (hsettings : s'.settings = (m.settings?).getD s.settings)
    (hexecutable : s'.executable = (m.executable?).getD s.executable)
    (hdisposed : s'.isDisposed = true ↔ s.isDisposed = true ∨ m = .dispose) :
    s'.Tracks first (moves ++ [m]) := by
  refine ⟨?_, ?_, ?_, fun d q hq => ?_, fun d hd => ?_⟩
  · rw [latest_concat, hsettings, h.settings]
  · rw [latest_concat, hexecutable, h.executable]
  · rw [hdisposed, h.isDisposed, List.mem_append, List.mem_singleton, eq_comm]
  · exact (h.told d q (hcalls ▸ hq)).concat_other (by simp [hm])
  · rw [own_concat_other (by simp [hm])]
    exact h.silent d (hcalls ▸ hd)

/-- The flag is none of the cells. -/
theorem Tracks.flag (h : s.Tracks first moves) (isScanning : Bool) :
    { s with isScanning }.Tracks first moves :=
  ⟨h.settings, h.executable, h.isDisposed, h.told, h.silent⟩

/-- Every move goes on with the script of the call that makes it. -/
theorem Tracks.step (h : s.Tracks first moves) (hstep : s.Step m s') :
    s'.Tracks first (moves ++ [m]) := by
  cases hstep with
  | @accept c roots hnew hfree =>
      have hown := h.silent c hnew
      refine (h.by_caller rfl ?_).flag true
      exact told_concat_self (Story.in_force_of_silent hown ⟨roots, first, none, []⟩ true) rfl rfl
        ⟨rfl, by rw [hown]; rfl⟩
  | @refuse c hnew hbusy =>
      have hown := h.silent c hnew
      refine h.by_caller rfl ?_
      exact told_concat_self (Story.in_force_of_silent hown ⟨[], first, none, []⟩ true) rfl rfl
        (by rw [hown]; rfl)
  | @takeSettings c roots hc =>
      obtain ⟨t, isOpen, hforce, rfl, hown⟩ := h.told c _ hc
      have hnew : Move.takeSettings c ∉ moves := fun hmem => by
        simpa [hown] using mem_own.2 ⟨hmem, rfl⟩
      refine h.by_caller rfl ⟨{ t with settings := s.settings }, isOpen, ⟨?_, ?_, ?_⟩, rfl, rfl, ?_⟩
      · exact before_concat_self hnew h.settings
      · exact hforce.executable.concat_of_ne nofun
      · exact hforce.sink.concat_of_ne nofun
      · rw [own_concat_self rfl, hown]
        rfl
  | @takeExecutable c settings roots hc =>
      obtain ⟨t, isOpen, hforce, rfl, rfl, hown⟩ := h.told c _ hc
      have hnew : Move.takeExecutable c ∉ moves := fun hmem => by
        simpa [hown] using mem_own.2 ⟨hmem, rfl⟩
      refine h.by_caller rfl ⟨⟨t.roots, t.settings, s.executable, []⟩, isOpen, ⟨?_, ?_, ?_⟩,
        Story.leads_start .., ?_⟩
      · exact hforce.settings.concat_of_ne nofun
      · exact before_concat_self hnew h.executable
      · exact hforce.sink.concat_of_ne nofun
      · rw [own_concat_self rfl, hown]
        rfl
  | @launch c r env i hc hnext =>
      obtain ⟨t, isOpen, hforce, hleads, hown⟩ := h.told c _ hc
      obtain ⟨root, rest, hwaiting, hi⟩ := hleads.next hnext
      refine h.by_caller rfl (told_concat_self hforce rfl rfl ?_)
      exact ⟨hleads, root, rest, i, hwaiting, hi, by rw [hown]⟩
  | @result c r hc env result =>
      obtain ⟨t, isOpen, hforce, hleads, root, rest, i, hwaiting, hi, hown⟩ := h.told c _ hc
      have hforce' : (t.add ⟨root, i, env, result⟩).InForce first moves c isOpen :=
        ⟨hforce.settings, hforce.executable, hforce.sink⟩
      refine h.by_caller rfl (told_concat_self hforce' rfl rfl
        ⟨hleads.feed hwaiting hi env result, ?_⟩)
      rw [hown, Story.moves_add, List.append_assoc]
      rfl
  | @findSink c r hc hdone =>
      obtain ⟨t, isOpen, hforce, hleads, hown⟩ := h.told c _ hc
      have hnew : Move.findSink c ∉ moves := fun hmem => by
        simpa [hown, Story.find_sink_not_mem] using mem_own.2 ⟨hmem, rfl⟩
      refine h.by_caller rfl ⟨t, !s.isDisposed, ⟨?_, ?_, ?_⟩, hleads, hdone, id, ?_⟩
      · exact hforce.settings.concat_of_ne nofun
      · exact hforce.executable.concat_of_ne nofun
      · refine before_concat_self hnew ?_
        rw [← h.isDisposed]
        simp
      · rw [own_concat_self rfl, hown]
        simp
  | @publish c r hc =>
      obtain ⟨t, isOpen, hforce, hleads, hdone, hopen, hown⟩ := h.told c _ hc
      obtain rfl : isOpen = true := hopen rfl
      refine h.by_caller rfl (told_concat_self hforce rfl rfl ⟨hleads, hdone, nofun, ?_⟩)
      rw [hown, hleads.found]
      simp
  | @finish c r hc =>
      obtain ⟨t, isOpen, hforce, hleads, hdone, -, hown⟩ := h.told c _ hc
      refine (h.by_caller rfl (told_concat_self hforce rfl rfl ?_)).flag false
      refine ⟨hleads.used, by rw [hleads.found], ⟨r, hleads, hdone⟩, ?_⟩
      rw [hown]
      simp
  | @cancel c r hc =>
      obtain ⟨t, isOpen, hforce, hleads, root, rest, i, hwaiting, hi, hown⟩ := h.told c _ hc
      refine (h.by_caller rfl (told_concat_self hforce rfl rfl ?_)).flag false
      refine ⟨r, root, rest, i, hleads, hwaiting, hi, ?_⟩
      rw [hown, List.append_assoc]
      rfl
  | setSettings settings => exact h.by_others rfl rfl rfl rfl (by simp)
  | setExecutable executable => exact h.by_others rfl rfl rfl rfl (by simp)
  | clear => exact h.by_others rfl rfl rfl rfl (by simp)
  | dispose => exact h.by_others rfl rfl rfl rfl (by simp)

/-- Whatever moves are made, every call follows its script. -/
theorem Reaches.tracks (h : (new first).Reaches moves s) : s.Tracks first moves := by
  induction h with
  | start => exact tracks_new first
  | move _ hstep ih => exact ih.step hstep

/-- A call that has made moves is in some phase. -/
theorem Tracks.told_or_silent (h : s.Tracks first moves) (c : Nat) :
    own c moves = [] ∨ ∃ p, s.calls c = some p ∧ Told first moves c p := by
  cases hc : s.calls c with
  | none => exact .inl (h.silent c hc)
  | some p => exact .inr ⟨p, rfl, h.told c p hc⟩

/-- A call that has made a move with which calls end is over, and follows the script for that. -/
theorem Tracks.ended {q : Phase} (h : s.Tracks first moves) (hm : m.caller? = some c)
    (hend : m.end? = some q) (hmem : m ∈ moves) : s.calls c = some q ∧ Told first moves c q := by
  have hown : m ∈ own c moves := mem_own.2 ⟨hmem, hm⟩
  rcases h.told_or_silent c with hsilent | ⟨p, hp, t, isOpen, hforce, hscript⟩
  · simp [hsilent] at hown
  · obtain rfl := hscript.end_of_mem hown hend
    exact ⟨hp, t, isOpen, hforce, hscript⟩

/-- A call that is past the guard never waits for anything but its checks. -/
theorem Reaches.exists_step (h : (new first).Reaches moves s) (hc : s.IsInFlight c) :
    ∃ m s', m.caller? = some c ∧ s.Step m s' := by
  obtain ⟨p, hp, hflight⟩ := hc
  cases p with
  | entered roots => exact ⟨_, _, rfl, .takeSettings hp⟩
  | informed settings roots => exact ⟨_, _, rfl, .takeExecutable hp⟩
  | ready r =>
      obtain ⟨t, isOpen, -, hleads, -⟩ := h.tracks.told c _ hp
      cases hwaiting : r.waiting with
      | nil => exact ⟨_, _, rfl, .findSink hp hwaiting⟩
      | cons root rest =>
          obtain ⟨i, hnext⟩ := hleads.exists_next hwaiting default
          exact ⟨_, _, rfl, .launch hp hnext⟩
  | checking r => exact ⟨_, _, rfl, .result hp default (.error .badOutput)⟩
  | closing r publishes =>
      cases publishes with
      | true => exact ⟨_, _, rfl, .publish hp⟩
      | false => exact ⟨_, _, rfl, .finish hp⟩
  | returned outcome => cases hflight
  | cancelled => cases hflight

/-! ## What this means -/

/-- What can be said of a scanner after any moves. -/
structure Orderly (first : Settings) (moves : List Move) (s : Traffic) : Prop where
  /-- At most one call is past the guard. -/
  alone : ∀ c d, s.IsInFlight c → s.IsInFlight d → c = d
  /-- The flag is clear as soon as none is. -/
  flag : s.isScanning = false ↔ ∀ c, ¬ s.IsInFlight c
  /-- Then the next call is accepted, whatever it is to check. -/
  accepts : ∀ c roots, s.calls c = none → (∀ d, ¬ s.IsInFlight d) →
    (∃ s', s.Step (.accept c roots) s') ∧ ∀ s', ¬ s.Step (.refuse c) s'
  /-- A call that finds another one past the guard can only return. -/
  refuses : ∀ c, s.calls c = none → (∃ d, s.IsInFlight d) →
    (∃ s', s.Step (.refuse c) s') ∧
      ∀ m s', m.caller? = some c → s.Step m s' → m = .refuse c
  /-- It does nothing else, not even later. -/
  refused : ∀ c, .refuse c ∈ moves →
    s.calls c = some (.returned .alreadyRunning) ∧ own c moves = [.refuse c]
  /-- Every call that has made a move follows its script. -/
  told : ∀ c, own c moves = [] ∨ ∃ p, s.calls c = some p ∧ Told first moves c p
  /-- A scan that has ended has checked all its roots, in order and with what it had taken. It has
  published what was found exactly once, unless the scanner had been disposed of. -/
  completed : ∀ c outcome, .finish c outcome ∈ moves → s.calls c = some (.returned outcome) ∧
    ∃ (t : Story) (isOpen : Bool), t.InForce first moves c isOpen ∧
      t.checks.map Checked.root = t.due ∧
      (∀ k ∈ t.checks, t.Checks k.root k.invocation) ∧
      outcome = .completed t.used t.found.length ∧
      own c moves = t.moves c ++ .findSink c ::
        ((if isOpen then [.publish c t.found] else []) ++ [.finish c outcome])
  /-- A scan that has been given up has published nothing. -/
  cancelled : ∀ c, .cancel c ∈ moves →
    s.calls c = some .cancelled ∧ ∀ found, .publish c found ∉ moves
  /-- What a scan has taken was in force when it was accepted, unless that was changed before the
  scan had taken it. -/
  begins : ∀ c (t : Story) isOpen roots early mid late, t.InForce first moves c isOpen →
    (moves = early ++ .accept c roots :: (mid ++ .takeSettings c :: late) →
      (∀ m ∈ mid, m.settings? = none) → t.settings = latest Move.settings? first early) ∧
    (moves = early ++ .accept c roots :: (mid ++ .takeExecutable c :: late) →
      (∀ m ∈ mid, m.executable? = none) → t.executable = latest Move.executable? none early)

/-- After any moves at most one call is past the guard and each call has followed its script. -/
theorem scans_apart (hreaches : (new first).Reaches moves s) : Orderly first moves s := by
  have hguarded := hreaches.guarded
  have htracks := hreaches.tracks
  refine ⟨hguarded.alone, hguarded.free_iff,
    fun c roots hnew hnone => hguarded.accepts hnew hnone roots,
    fun c hnew hflight => hguarded.refuses hnew hflight, ?_, htracks.told_or_silent, ?_, ?_, ?_⟩
  · intro c hmem
    obtain ⟨hc, t, isOpen, -, hown⟩ := htracks.ended rfl rfl hmem
    exact ⟨hc, hown⟩
  · intro c outcome hmem
    obtain ⟨hc, t, isOpen, hforce, hscript⟩ := htracks.ended rfl rfl hmem
    cases outcome with
    | alreadyRunning =>
        have hown : own c moves = [.refuse c] := hscript
        exact absurd (mem_own.2 ⟨hmem, rfl⟩) (by simp [hown])
    | completed roots findings =>
        obtain ⟨rfl, rfl, ⟨r, hleads, hdone⟩, hown⟩ := hscript
        refine ⟨hc, t, isOpen, hforce, ?_, hleads.checks, rfl, hown⟩
        rw [hleads.roots, hdone, List.append_nil]
  · intro c hmem
    obtain ⟨hc, t, isOpen, -, r, root, rest, i, -, -, -, hown⟩ := htracks.ended rfl rfl hmem
    refine ⟨hc, fun found hpublish => ?_⟩
    have hpublish := mem_own.2 ⟨hpublish, rfl⟩
    simp [hown, Story.moves, opening] at hpublish
  · intro c t isOpen roots early mid late hforce
    exact ⟨fun hmoves hmid => hforce.since.1 hmoves (List.forall_mem_cons.2 ⟨rfl, hmid⟩),
      fun hmoves hmid => hforce.since.2 hmoves (List.forall_mem_cons.2 ⟨rfl, hmid⟩)⟩

/-- The check of the working directory with usual settings and an executable. -/
def usualCheck (executable : Path) : Execution.Invocation :=
  ⟨executable, ["check", "--quiet", "--output-format=json", "."], .ofString "."⟩

/-- A scan with usual settings runs this check first if it begins with the working directory. -/
theorem next?_usual (executable : Path) :
    (Run.start .empty (some executable) [.ofString "."]).next? default
      = some (usualCheck executable) := by
  have hdirectory : (default : Environment).checkDirectory (.ofString ".") = .ofString "." :=
    if_pos (FileTree.isDirectory_iff.2 ⟨_, FileTree.find_dot rfl⟩)
  have harguments : checkArguments Settings.empty.checkFlags (.ofString ".")
      = ["check", "--quiet", "--output-format=json", "."] := by
    decide
  show some (Run.invocation default executable Settings.empty.checkFlags (.ofString ".")) = _
  rw [Run.invocation, hdirectory, harguments]
  rfl

/-- The linter that the runs below use. -/
def usualLinter : Path :=
  .ofString "ruff"

/-- Two calls overlap and the first is given up; a third one is accepted and ends while somebody
changes what it works with and disposes of the scanner. -/
def overlapping : List Move :=
  [.setExecutable (some usualLinter)] ++ opening 0 [.ofString "."] ++
    [.refuse 1, .launch 0 (usualCheck usualLinter), .cancel 0] ++ opening 2 [.ofString "."] ++
    [.setExecutable none, .launch 2 (usualCheck usualLinter),
      .result 2 default (.error .badOutput), .dispose, .findSink 2, .finish 2 (.completed 0 0)]

/-- After overlapping calls no scan is under way, and the one that has ended published nothing. -/
theorem overlapping_scans_apart : ∃ s, (new .empty).Reaches overlapping s ∧ s.isScanning = false ∧
    s.calls 0 = some .cancelled ∧ s.calls 1 = some (.returned .alreadyRunning) ∧
    Orderly .empty overlapping s := by
  have hset := Reaches.start.move (Step.setExecutable (s := new .empty) (some usualLinter))
  have hfirst := ((hset.move (.accept (c := 0) [.ofString "."] rfl rfl)).move
    (.takeSettings (c := 0) rfl)).move (.takeExecutable (c := 0) rfl)
  have hgiven := ((hfirst.move (.refuse (c := 1) rfl rfl)).move
    (@Step.launch _ 0 _ default _ rfl (next?_usual usualLinter))).move (.cancel (c := 0) rfl)
  have hthird := ((hgiven.move (.accept (c := 2) [.ofString "."] rfl rfl)).move
    (.takeSettings (c := 2) rfl)).move (.takeExecutable (c := 2) rfl)
  have hchecked := ((hthird.move (.setExecutable none)).move
    (@Step.launch _ 2 _ default _ rfl (next?_usual usualLinter))).move
    (.result (c := 2) rfl default (.error .badOutput))
  have hended := ((hchecked.move .dispose).move (.findSink (c := 2) rfl rfl)).move
    (.finish (c := 2) rfl)
  exact ⟨_, hended, rfl, rfl, rfl, scans_apart hended⟩

/-- Another linter. -/
def otherLinter : Path :=
  .ofString "/opt/ruff"

/-- Settings with a flag. -/
def otherSettings : Settings :=
  { Settings.empty with lineLength := some 100 }

/-- What a check comes to that prints two findings and writes an error. -/
def errorBeside : CheckOutput :=
  ⟨Scanner.twoFindings, [0x21], some 1, false⟩

/-- A scan begins and takes the settings. Before it takes the executable, somebody changes first the
settings and then the executable. -/
def mixing : List Move :=
  [.setExecutable (some usualLinter), .accept 0 [.ofString "."], .takeSettings 0,
    .setSettings otherSettings, .setExecutable (some otherLinter), .takeExecutable 0,
    .launch 0 (usualCheck otherLinter), .result 0 default (.ok errorBeside), .findSink 0,
    .publish 0 [], .finish 0 (.completed 0 0)]

/-- At no moment the new executable is in force with the old settings. -/
theorem in_force_while_mixing {early late : List Move} (h : mixing = early ++ late)
    (hexecutable : latest Move.executable? none early = some otherLinter) :
    latest Move.settings? .empty early = otherSettings := by
  have hcases : ∀ k < 12, latest Move.executable? none (mixing.take k) = some otherLinter →
      latest Move.settings? .empty (mixing.take k) = otherSettings := by
    decide
  have hlength : early.length < 12 := by
    have hall := congrArg List.length h
    rw [List.length_append] at hall
    have hmixing : mixing.length = 11 := rfl
    omega
  have hearly : mixing.take early.length = early := by
    rw [h, List.take_left]
  rw [← hearly] at hexecutable ⊢
  exact hcases _ hlength hexecutable

/-- While a scan begins, the settings and the executable are changed. It runs a check that a scan
cannot run with the settings and the executable of one moment, whichever that is. As the check writes
an error, neither of the findings that it prints is converted. -/
theorem mixed_at_no_moment : ∃ s, (new .empty).Reaches mixing s ∧
    s.calls 0 = some (.returned (.completed 0 0)) ∧
    own 0 mixing = [.accept 0 [.ofString "."], .takeSettings 0, .takeExecutable 0,
      .launch 0 (usualCheck otherLinter), .result 0 default (.ok errorBeside), .findSink 0,
      .publish 0 [], .finish 0 (.completed 0 0)] ∧
    (∀ early late, mixing = early ++ late →
      ¬ Story.Checks ⟨[.ofString "."], latest Move.settings? .empty early,
        latest Move.executable? none early, []⟩ (.ofString ".") (usualCheck otherLinter)) ∧
    (Finding.parse? errorBeside.stdout).map List.length = some 2 := by
  have hset := Reaches.start.move (Step.setExecutable (s := new .empty) (some usualLinter))
  have hbegun := (hset.move (.accept (c := 0) [.ofString "."] rfl rfl)).move
    (.takeSettings (c := 0) rfl)
  have hchanged := (hbegun.move (.setSettings otherSettings)).move
    (.setExecutable (some otherLinter))
  have hchecked := ((hchanged.move (.takeExecutable (c := 0) rfl)).move
    (@Step.launch _ 0 _ default _ rfl (next?_usual otherLinter))).move
    (.result (c := 0) rfl default (.ok errorBeside))
  have hended := ((hchecked.move (.findSink (c := 0) rfl rfl)).move (.publish (c := 0) rfl)).move
    (.finish (c := 0) rfl)
  refine ⟨_, hended, rfl, rfl, ?_, by decide +kernel⟩
  rintro early late hmixing ⟨env, executable, hexecutable, hi⟩
  obtain ⟨hother, harguments, -⟩ := Execution.Invocation.mk.inj hi
  rw [in_force_while_mixing hmixing (hexecutable.trans (congrArg some hother.symm))] at harguments
  have hnew : (usualCheck otherLinter).arguments
      ≠ checkArguments otherSettings.checkFlags (.ofString ".") := by
    decide
  exact hnew harguments

end Traffic

end LintWatch.Scan
