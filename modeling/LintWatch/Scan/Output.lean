import LintWatch.Frame.Stream

/-!
# Reading an output to its end

An output is read until it ends or fails, so that its writer never has to wait, and as much of it is
kept as there is room for. What is kept does not depend on the pieces in which the output arrives
(`drained_to_end`), so `capture` says it for the bytes alone (`capture_eq`).
-/

namespace LintWatch

/-- A stream whose pieces all bring something, as those that are read from a pipe do. -/
def Frame.Stream.Flowing (s : Stream) : Prop :=
  ∀ piece ∈ s.pieces, piece ≠ []

namespace Scan

open LintWatch.Frame (Stream)

variable {s : Stream}

/-- A stream that flows brings some of its bytes, or it has come to its end and stays there. -/
theorem read_cases (size : Nat) (hs : s.Flowing) (hsize : 0 < size) :
    (∃ b piece rest, s.read size = (.ok (b :: piece), rest) ∧ rest.Flowing ∧
        rest.failure = s.failure) ∨
      s = ⟨[], [], s.failure⟩ ∧
        s.read size = ((s.failure.map Except.error).getD (.ok []), s) := by
  obtain ⟨size, rfl⟩ := Nat.exists_eq_add_of_lt hsize
  obtain ⟨ahead, pieces, failure⟩ := s
  cases ahead with
  | cons b ahead => exact Or.inl ⟨b, ahead.take (0 + size), _, rfl, hs, rfl⟩
  | nil =>
      cases pieces with
      | nil => exact Or.inr ⟨rfl, rfl⟩
      | cons piece pieces =>
          obtain ⟨hpiece, hpieces⟩ := List.forall_mem_cons.1 hs
          obtain ⟨b, piece, rfl⟩ := List.exists_cons_of_ne_nil hpiece
          exact Or.inl ⟨b, piece.take (0 + size), _, rfl, hpieces, rfl⟩

/-- The most bytes that one reading brings. -/
def readingSize : Nat := 8192

/-- Reads a stream until nothing comes of it and keeps what there is room for. `kept` has been kept
before, and `isCut` says whether something else has been read. -/
def drain (limit : Nat) (kept : List UInt8) (isCut : Bool) (s : Stream) :
    (List UInt8 × Bool) × Stream :=
  match h : s.read readingSize with
  | (.ok (b :: piece), rest) =>
    have : rest.bytes.length < s.bytes.length := by
      rw [s.bytes_eq_of_read h, List.length_append, List.length_cons]
      omega
    let taken := min (limit - kept.length) (b :: piece).length
    drain limit (kept ++ (b :: piece).take taken) (isCut || taken < (b :: piece).length) rest
  | (_, rest) => ((kept, isCut), rest)
termination_by s.bytes.length

/-- A stream is read to its end, and of its bytes the first are kept that there is room for. -/
theorem drain_eq (limit : Nat) (kept : List UInt8) (isCut : Bool) (hs : s.Flowing) :
    drain limit kept isCut s =
      ((kept ++ s.bytes.take (limit - kept.length),
        isCut || decide (limit - kept.length < s.bytes.length)), ⟨[], [], s.failure⟩) := by
  fun_induction drain limit kept isCut s with
  | case1 kept isCut s b piece rest h hless taken ih =>
      rcases read_cases readingSize hs (by decide) with
        ⟨c, others, next, hread, hflowing, hfailure⟩ | ⟨-, hread⟩
      · obtain ⟨-, rfl⟩ := Prod.mk.inj (hread.symm.trans h)
        have hkept : (b :: piece).take taken = (b :: piece).take (limit - kept.length) :=
          List.take_eq_take_min.symm
        -- Less room is left for what comes next, by what has just been read.
        have hroom : limit - (kept ++ (b :: piece).take taken).length
            = limit - kept.length - (b :: piece).length := by
          rw [List.length_append, List.length_take]
          omega
        have hcut : (decide (taken < (b :: piece).length)
              || decide (limit - kept.length - (b :: piece).length < next.bytes.length))
            = decide (limit - kept.length < (b :: piece ++ next.bytes).length) := by
          rw [← Bool.decide_or, decide_eq_decide, List.length_append]
          omega
        rw [ih hflowing, hroom, hkept, hfailure, s.bytes_eq_of_read h, List.append_assoc,
          ← List.take_append, Bool.or_assoc, hcut]
      · rw [hread] at h
        cases hfailure : s.failure <;> rw [hfailure] at h <;> cases h
  | case2 kept isCut s result rest hnone h =>
      rcases read_cases readingSize hs (by decide) with
        ⟨b, piece, next, hread, -, -⟩ | ⟨hend, hread⟩
      · rw [hread] at h
        exact absurd (Prod.mk.inj h).1.symm (hnone b piece)
      · obtain ⟨-, rfl⟩ := Prod.mk.inj (hread.symm.trans h)
        have hbytes : s.bytes = [] := by
          rw [hend]
          rfl
        rw [hbytes, ← hend]
        simp

/-- What is kept of an output that arrives in pieces, and whether something of it is not. A piece
without bytes counts for nothing. -/
def capture (room : Nat) (pieces : List (List UInt8)) : List UInt8 × Bool :=
  (drain room [] false (.ofPieces (pieces.filter (· ≠ [])) none)).1

/-- The first bytes of an output are kept, as many as there is room for. -/
theorem capture_eq (room : Nat) (pieces : List (List UInt8)) :
    capture room pieces = (pieces.flatten.take room, decide (room < pieces.flatten.length)) := by
  have hflowing : (Stream.ofPieces (pieces.filter (· ≠ [])) none).Flowing := fun piece hpiece =>
    of_decide_eq_true (List.mem_filter.1 hpiece).2
  have hbytes : (Stream.ofPieces (pieces.filter (· ≠ [])) none).bytes = pieces.flatten := by
    show [] ++ (pieces.filter (· ≠ [])).flatten = _
    rw [List.nil_append]
    exact List.flatten_filter_ne_nil
  rw [capture, drain_eq room [] false hflowing, hbytes]
  simp

/-- An output is read to its end, also if it ends in a failure. What is kept of it are the first of
its bytes, as many as there is room for, and it counts as cut exactly if it has more of them. Other
pieces with the same bytes come to the same, and to what is kept for a check. -/
theorem drained_to_end (limit : Nat) {pieces : List (List UInt8)}
    (hpieces : ∀ piece ∈ pieces, piece ≠ []) (failure : Option IoError) :
    drain limit [] false (.ofPieces pieces failure)
        = ((pieces.flatten.take (min limit pieces.flatten.length),
          decide (limit < pieces.flatten.length)), .ofPieces [] failure) ∧
      (drain limit [] false (.ofPieces pieces failure)).1 = capture limit pieces ∧
      ∀ (others : List (List UInt8)) (ending : Option IoError), (∀ piece ∈ others, piece ≠ []) →
        others.flatten = pieces.flatten →
        (drain limit [] false (.ofPieces others ending)).1
          = (drain limit [] false (.ofPieces pieces failure)).1 := by
  have hdrain : ∀ (parts : List (List UInt8)) (ending : Option IoError),
      (∀ piece ∈ parts, piece ≠ []) → drain limit [] false (.ofPieces parts ending)
        = ((parts.flatten.take limit, decide (limit < parts.flatten.length)),
          .ofPieces [] ending) := by
    intro parts ending hparts
    exact drain_eq limit [] false hparts
  refine ⟨?_, ?_, fun others ending hothers hsame => ?_⟩
  · rw [hdrain pieces failure hpieces, ← List.take_eq_take_min]
  · rw [hdrain pieces failure hpieces, capture_eq]
  · rw [hdrain others ending hothers, hdrain pieces failure hpieces, hsame]

/-- The second of three pieces goes past the limit, and then the stream fails: the third has been
read as well. -/
theorem drained_past_limit :
    drain 3 [] false (.ofPieces [[1, 2], [3, 4], [5]] (some (.bare .brokenPipe)))
      = (([1, 2, 3], true), .ofPieces [] (some (.bare .brokenPipe))) :=
  (drained_to_end 3 (by decide) (some (.bare .brokenPipe))).1

end Scan

end LintWatch
