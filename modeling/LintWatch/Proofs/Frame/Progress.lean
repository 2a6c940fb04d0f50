import LintWatch.Proofs.Frame.Header
import Mathlib.Data.List.Infix

/-!
# Reading to the end of a stream

A reader that goes on after every frame and every failure that allows it comes to an end
(`calls_end`): each call takes off the bytes at which the one before it stopped, at least one of them
unless it is the last, and neither the bytes that a call takes nor what it comes to depend on the
pieces in which the stream is delivered.
-/

namespace LintWatch.Frame

open LintWatch.Text

variable {s s' : Stream} {found : Option Nat} {begun : Bool}

/-! ## Streams that differ in their pieces only -/

/-- Two streams have the same bytes and end in the same way. -/
structure Stream.Alike (s s' : Stream) : Prop where
  bytes_eq : s.bytes = s'.bytes
  failure_eq : s.failure = s'.failure

/-- What two readings come to is the same, and so is what they leave. -/
def SameOutcome {α : Type} (x y : α × Stream) : Prop :=
  x.1 = y.1 ∧ x.2.Alike y.2

/-- The first line is the same, and so is what follows it. -/
theorem same_line (h : s.Alike s') : SameOutcome s.line s'.line := by
  have hline : (s.line.1, s.line.2.bytes) = (s'.line.1, s'.line.2.bytes) := by
    rw [s.line_eq, s'.line_eq, h.bytes_eq]
  exact ⟨(Prod.mk.inj hline).1, (Prod.mk.inj hline).2, h.failure_eq⟩

/-- The first bytes are the same, and so are those that follow them. -/
theorem same_take (h : s.Alike s') (n : Nat) : SameOutcome (s.take n) (s'.take n) := by
  have htake : ((s.take n).1, (s.take n).2.bytes) = ((s'.take n).1, (s'.take n).2.bytes) := by
    rw [s.take_eq, s'.take_eq, h.bytes_eq]
  exact ⟨(Prod.mk.inj htake).1, (Prod.mk.inj htake).2, h.failure_eq⟩

/-- The headers come to the same. -/
theorem same_headers (h : s.Alike s') :
    SameOutcome (readHeaders found begun s) (readHeaders found begun s') := by
  induction hlength : s.bytes.length using Nat.strong_induction_on
    generalizing s s' found begun with
  | _ n ih =>
    obtain ⟨hline, hrest⟩ := same_line h
    -- Both streams have the same line, so both are read by the same branch.
    rw [readHeaders.eq_def found begun s, readHeaders.eq_def found begun s']
    dsimp only
    rw [← hline, ← h.failure_eq]
    split
    next =>
      split
      · exact ⟨rfl, hrest⟩
      · split <;> exact ⟨rfl, hrest⟩
    next hne =>
      have hmore (found : Option Nat) :
          SameOutcome (readHeaders found true s.line.2) (readHeaders found true s'.line.2) :=
        ih _ (hlength ▸ s.length_line_lt hne) hrest rfl
      split
      next => exact ⟨rfl, hrest⟩
      next =>
        split
        next => exact ⟨rfl, hrest⟩
        next =>
          split
          next => split <;> exact ⟨rfl, hrest⟩
          next => exact hmore found
          next m _ => exact hmore (some m)
          next => exact ⟨rfl, hrest⟩

/-- The body of a frame comes to the same. -/
theorem same_body (h : s.Alike s') (n : Nat) : SameOutcome (readBody n s) (readBody n s') := by
  obtain ⟨htaken, hrest⟩ := same_take h n
  unfold readBody
  dsimp only
  rw [← htaken, ← h.failure_eq]
  split
  · exact ⟨rfl, hrest⟩
  · split <;> exact ⟨rfl, hrest⟩

/-- A call comes to the same. -/
theorem same_frame (h : s.Alike s') : SameOutcome (readFrame s) (readFrame s') := by
  have hheaders : SameOutcome (readHeaders none false s) (readHeaders none false s') :=
    same_headers h
  unfold readFrame
  generalize readHeaders none false s = x at hheaders
  generalize readHeaders none false s' = y at hheaders
  obtain ⟨headers, rest⟩ := x
  obtain ⟨headers', rest'⟩ := y
  obtain ⟨hsame, hrest⟩ := hheaders
  obtain rfl : headers = headers' := hsame
  cases headers with
  | ended => exact ⟨rfl, hrest⟩
  | failed e => exact ⟨rfl, hrest⟩
  | length n =>
      dsimp only
      split
      · exact ⟨rfl, hrest⟩
      · exact same_body hrest n

/-! ## What is left of a stream -/

/-- Behind the body of a frame stand the last bytes of the stream. -/
theorem body_suffix (n : Nat) (s : Stream) : (readBody n s).2.bytes <:+ s.bytes := by
  unfold readBody
  dsimp only
  split
  · exact take_suffix n s
  · split <;> exact take_suffix n s

/-- Behind a frame stand the last bytes of the stream. -/
theorem frame_suffix (s : Stream) : (readFrame s).2.bytes <:+ s.bytes := by
  have hheaders := headers_suffix none false s
  unfold readFrame
  generalize readHeaders none false s = x at hheaders
  obtain ⟨headers, rest⟩ := x
  cases headers with
  | ended => exact hheaders
  | failed e => exact hheaders
  | length n =>
      dsimp only
      split
      · exact hheaders
      · exact (body_suffix n rest).trans hheaders

/-! ## Calls of the reader -/

/-- Whether a reading is the last one: the stream has ended, or it cannot be read any more. -/
def Reading.isLast : Reading → Bool
  | .ended => true
  | .failed e => !goesOnAfter e
  | .frame _ => false

/-- A failure of a stream is the last that comes of it. -/
theorem is_last_of_io (e : IoError) : (Reading.failed (.ofIo e)).isLast = true := by
  unfold TransportError.ofIo
  cases e.kind <;> rfl

/-- Where there are no bytes, a reading is the last one. -/
theorem is_last_of_nil (hbytes : s.bytes = []) : (readFrame s).1.isLast = true := by
  have hread : readHeaders none false s
      = ((s.failure.map fun e => Headers.failed (.ofIo e)).getD .ended, s.line.2) := by
    rw [readHeaders.eq_def]
    simp only [dif_pos (s.line_of_nil hbytes)]
    cases s.failure <;> rfl
  rw [readFrame, hread]
  cases s.failure with
  | none => rfl
  | some e => exact is_last_of_io e

/-- After a reading that is not the last one the reader is called again. -/
theorem read_frames_step (limit : Nat) (s : Stream) :
    readFrames (limit + 1) s = (readFrame s).1 ::
      if (readFrame s).1.isLast then [] else readFrames limit (readFrame s).2 := by
  rw [readFrames]
  generalize readFrame s = x
  obtain ⟨reading, rest⟩ := x
  cases reading with
  | ended => rfl
  | failed e =>
      show _ :: (if goesOnAfter e then _ else _) = _ :: if !goesOnAfter e then _ else _
      cases goesOnAfter e <;> rfl
  | frame v => rfl

/-- One call of the reader: the bytes that it takes off the stream, and what it comes to. -/
structure Call where
  run : List UInt8
  reading : Reading

/-- The calls of a reader that goes on to the last reading, and the stream that they leave. Each takes
off the bytes that stand in front. -/
inductive Calls : Stream → List Call → Stream → Prop where
  | last {s rest : Stream} {call : Call} : readFrame s = (call.reading, rest) →
      call.run ++ rest.bytes = s.bytes → call.reading.isLast = true → Calls s [call] rest
  | next {s between rest : Stream} {call : Call} {calls : List Call} :
      readFrame s = (call.reading, between) → call.run ++ between.bytes = s.bytes →
      call.reading.isLast = false → Calls between calls rest → Calls s (call :: calls) rest

variable {rest : Stream} {call : Call} {calls : List Call}

/-- A call that is not the last one takes bytes off. -/
theorem run_ne_nil (hread : readFrame s = (call.reading, rest))
    (hbytes : call.run ++ rest.bytes = s.bytes) (hmore : call.reading.isLast = false) :
    call.run ≠ [] := by
  intro hrun
  have hne : s.bytes ≠ [] := by
    intro hnil
    have hlast := is_last_of_nil hnil
    rw [hread, hmore] at hlast
    cases hlast
  have hless := length_readFrame_lt hne
  rw [hread, ← hbytes, hrun] at hless
  exact Nat.lt_irrefl _ hless

/-- There is a last call. -/
theorem exists_calls (s : Stream) : ∃ calls rest, Calls s calls rest := by
  induction hlength : s.bytes.length using Nat.strong_induction_on generalizing s with
  | _ n ih =>
    obtain ⟨run, hrun⟩ := frame_suffix s
    have hcall : readFrame s = (Call.reading ⟨run, (readFrame s).1⟩, (readFrame s).2) := rfl
    cases hlast : (readFrame s).1.isLast with
    | true => exact ⟨_, _, .last hcall hrun hlast⟩
    | false =>
        have hless : (readFrame s).2.bytes.length < n := by
          have hne : run ≠ [] := run_ne_nil hcall hrun hlast
          have hpos := List.length_pos_iff.2 hne
          rw [← hlength, ← hrun, List.length_append]
          omega
        obtain ⟨calls, rest, hcalls⟩ := ih _ hless _ rfl
        exact ⟨_, _, .next hcall hrun hlast hcalls⟩

namespace Calls

/-- The calls take the bytes off one after the other. -/
theorem bytes_eq (h : Calls s calls rest) : calls.flatMap Call.run ++ rest.bytes = s.bytes := by
  induction h with
  | last _ hbytes _ => simpa using hbytes
  | next _ hbytes _ _ ih => rw [List.flatMap_cons, List.append_assoc, ih, hbytes]

/-- Only the last call ends the reading, and only it may take nothing off. -/
theorem exists_last (h : Calls s calls rest) :
    ∃ front call, calls = front ++ [call] ∧ call.reading.isLast = true ∧
      ∀ c ∈ front, c.reading.isLast = false ∧ c.run ≠ [] := by
  induction h with
  | @last s rest call _ _ hlast => exact ⟨[], call, rfl, hlast, nofun⟩
  | @next s between rest call calls hread hbytes hmore _ ih =>
      obtain ⟨front, final, rfl, hlast, hfront⟩ := ih
      exact ⟨call :: front, final, rfl, hlast,
        List.forall_mem_cons.2 ⟨⟨hmore, run_ne_nil hread hbytes hmore⟩, hfront⟩⟩

/-- There is at most one call more than there are bytes. -/
theorem length_le (h : Calls s calls rest) : calls.length ≤ s.bytes.length + 1 := by
  induction h with
  | last => simp
  | next hread hbytes hmore _ ih =>
      have hpos := List.length_pos_iff.2 (run_ne_nil hread hbytes hmore)
      rw [← hbytes, List.length_cons, List.length_append]
      omega

/-- A reader that is called often enough comes to what the calls come to. -/
theorem readFrames_eq (h : Calls s calls rest) {limit : Nat} (hlimit : calls.length ≤ limit) :
    readFrames limit s = calls.map Call.reading := by
  induction h generalizing limit with
  | last hread _ hlast =>
      obtain ⟨limit, rfl⟩ := Nat.exists_eq_add_of_le' hlimit
      rw [List.length_singleton, read_frames_step, hread, hlast]
      rfl
  | @next s between rest call calls hread _ hmore _ ih =>
      obtain ⟨limit, rfl⟩ := Nat.exists_eq_add_of_le' hlimit
      rw [List.length_cons, ← Nat.add_assoc, read_frames_step, hread, hmore,
        List.map_cons, ← ih (Nat.le_add_left calls.length limit)]
      rfl

/-- In other pieces the same bytes are taken off by the same calls. -/
theorem of_alike (h : Calls s calls rest) (hsame : s.Alike s') :
    ∃ rest', Calls s' calls rest' ∧ rest.Alike rest' := by
  induction h generalizing s' with
  | @last s rest call hread hbytes hlast =>
      obtain ⟨hreading, hrest⟩ := hread ▸ same_frame hsame
      have hread' : readFrame s' = (call.reading, (readFrame s').2) := Prod.ext hreading.symm rfl
      have hbytes' : call.run ++ (readFrame s').2.bytes = s'.bytes := by
        rw [← hrest.bytes_eq, hbytes, hsame.bytes_eq]
      exact ⟨_, .last hread' hbytes' hlast, hrest⟩
  | @next s between rest call calls hread hbytes hmore _ ih =>
      obtain ⟨hreading, hbetween⟩ := hread ▸ same_frame hsame
      have hread' : readFrame s' = (call.reading, (readFrame s').2) := Prod.ext hreading.symm rfl
      have hbytes' : call.run ++ (readFrame s').2.bytes = s'.bytes := by
        rw [← hbetween.bytes_eq, hbytes, hsame.bytes_eq]
      obtain ⟨rest', hcalls, hrest⟩ := ih hbetween
      exact ⟨rest', .next hread' hbytes' hmore hcalls, hrest⟩

end Calls

/-- A reader that goes on as long as it can comes to a last reading, at the latest with one call more
than the stream has bytes. The calls take the bytes off one after the other, each but the last at
least one, and the same bytes in other pieces are taken off by the same calls with the same results. -/
theorem calls_end (pieces : List (List UInt8)) (failure : Option IoError) :
    ∃ calls rest, Calls (.ofPieces pieces failure) calls rest ∧
      (∃ front call, calls = front ++ [call] ∧ call.reading.isLast = true ∧
        ∀ c ∈ front, c.reading.isLast = false ∧ c.run ≠ []) ∧
      calls.length ≤ pieces.flatten.length + 1 ∧
      calls.flatMap Call.run ++ rest.bytes = pieces.flatten ∧
      ∀ others : List (List UInt8), others.flatten = pieces.flatten →
        (∃ left, Calls (.ofPieces others failure) calls left ∧ left.bytes = rest.bytes) ∧
          ∀ limit, calls.length ≤ limit →
            readFrames limit (.ofPieces others failure) = calls.map Call.reading := by
  obtain ⟨calls, rest, hcalls⟩ := exists_calls (.ofPieces pieces failure)
  refine ⟨calls, rest, hcalls, hcalls.exists_last, hcalls.length_le, hcalls.bytes_eq,
    fun others hothers => ?_⟩
  have hsame : (Stream.ofPieces pieces failure).Alike (.ofPieces others failure) :=
    ⟨hothers.symm, rfl⟩
  obtain ⟨left, hleft, hrest⟩ := hcalls.of_alike hsame
  exact ⟨⟨left, hleft, hrest.bytes_eq.symm⟩, fun limit hlimit => hleft.readFrames_eq hlimit⟩

end LintWatch.Frame
