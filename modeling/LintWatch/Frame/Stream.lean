import LintWatch.IoError

/-!
# Byte streams

A stream delivers its bytes in pieces of any size, and then it ends or fails. `Stream.line` takes
off a line and `Stream.take` a number of bytes. What they give and what they leave depends on the
bytes and not on the pieces: `Stream.line_eq` and `Stream.take_eq`. `Stream.read` gives what a single
reading does, which does depend on the pieces.
-/

namespace LintWatch.Frame

/-- The byte that ends a line. -/
def lineEnd : UInt8 := 0x0A

/-- The bytes up to the end of the first line, that included, and those after it. -/
def splitLine (bytes : List UInt8) : List UInt8 × List UInt8 :=
  (bytes.takeWhile (· ≠ lineEnd) ++ (bytes.dropWhile (· ≠ lineEnd)).take 1,
    (bytes.dropWhile (· ≠ lineEnd)).drop 1)

/-- A line and what follows it are all there was. -/
theorem splitLine_append (bytes : List UInt8) :
    (splitLine bytes).1 ++ (splitLine bytes).2 = bytes := by
  rw [splitLine, List.append_assoc, List.take_append_drop, List.takeWhile_append_dropWhile]

/-- The first line of a stream that has bytes is not empty. -/
theorem length_splitLine_lt {bytes : List UInt8} (h : bytes ≠ []) :
    (splitLine bytes).2.length < bytes.length := by
  cases bytes with
  | nil => exact absurd rfl h
  | cons b rest =>
    by_cases hb : b = lineEnd
    · simp [splitLine, hb]
    · have := (List.dropWhile_suffix (· ≠ lineEnd) (l := rest)).length_le
      simp [splitLine, hb] at this ⊢
      omega

/-- A line is found within the bytes that have been delivered, if its end is among them. -/
theorem splitLine_append_of_mem {front : List UInt8} (h : lineEnd ∈ front) (rest : List UInt8) :
    splitLine (front ++ rest) = ((splitLine front).1, (splitLine front).2 ++ rest) := by
  induction front with
  | nil => simp at h
  | cons b front ih =>
    by_cases hb : b = lineEnd
    · simp [splitLine, hb]
    · have := ih (by simpa [Ne.symm hb] using h)
      simp_all [splitLine]

/-- A line goes on behind bytes that do not end it. -/
theorem splitLine_append_of_not_mem {front : List UInt8} (h : lineEnd ∉ front)
    (rest : List UInt8) :
    splitLine (front ++ rest) = (front ++ (splitLine rest).1, (splitLine rest).2) := by
  induction front with
  | nil => simp
  | cons b front ih =>
    have hb : b ≠ lineEnd := fun hb => h (by simp [hb])
    have := ih fun hm => h (by simp [hm])
    simp_all [splitLine]

/-- A stream of bytes. -/
structure Stream where
  /-- What has been delivered and not been taken. -/
  ahead : List UInt8
  /-- What is still to be delivered. -/
  pieces : List (List UInt8)
  /-- The failure in which the stream ends, if it does not just end. -/
  failure : Option IoError
  deriving DecidableEq, Repr

namespace Stream

/-- A stream of which nothing has been delivered. -/
def ofPieces (pieces : List (List UInt8)) (failure : Option IoError) : Stream :=
  ⟨[], pieces, failure⟩

variable (s : Stream)

/-- All bytes that a stream still has. -/
def bytes : List UInt8 :=
  s.ahead ++ s.pieces.flatten

/-- The first line when `ahead` has been delivered and the pieces have not, with what is left of
both. -/
def lineOf : (ahead : List UInt8) → (pieces : List (List UInt8)) →
    List UInt8 × List UInt8 × List (List UInt8)
  | ahead, [] => ((splitLine ahead).1, (splitLine ahead).2, [])
  | ahead, piece :: pieces =>
    if lineEnd ∈ ahead then ((splitLine ahead).1, (splitLine ahead).2, piece :: pieces)
    else
      let (line, rest, pieces) := lineOf piece pieces
      (ahead ++ line, rest, pieces)

/-- The first `n` bytes when `ahead` has been delivered and the pieces have not, with what is left
of both. -/
def takeOf : (n : Nat) → (ahead : List UInt8) → (pieces : List (List UInt8)) →
    List UInt8 × List UInt8 × List (List UInt8)
  | n, ahead, [] => (ahead.take n, ahead.drop n, [])
  | n, ahead, piece :: pieces =>
    if n ≤ ahead.length then (ahead.take n, ahead.drop n, piece :: pieces)
    else
      let (taken, rest, pieces) := takeOf (n - ahead.length) piece pieces
      (ahead ++ taken, rest, pieces)

/-- Takes off the first line, with its end if it has one. -/
def line : List UInt8 × Stream :=
  let (line, ahead, pieces) := lineOf s.ahead s.pieces
  (line, { s with ahead, pieces })

/-- Takes off the first `n` bytes, or all if there are not so many. -/
def take (n : Nat) : List UInt8 × Stream :=
  let (taken, ahead, pieces) := takeOf n s.ahead s.pieces
  (taken, { s with ahead, pieces })

/-- One reading of at most `size` bytes, of what has been delivered or else of the next piece. At the
end of a stream nothing is read, or the failure. -/
def read (size : Nat) : Except IoError (List UInt8) × Stream :=
  match s.ahead, s.pieces with
  | [], [] => ((s.failure.map Except.error).getD (.ok []), s)
  | [], piece :: pieces => (.ok (piece.take size), { s with ahead := piece.drop size, pieces })
  | b :: ahead, _ =>
    (.ok ((b :: ahead).take size), { s with ahead := (b :: ahead).drop size })

/-- The pieces do not matter for the first line. -/
theorem lineOf_eq (ahead : List UInt8) (pieces : List (List UInt8)) :
    ((lineOf ahead pieces).1, (lineOf ahead pieces).2.1 ++ (lineOf ahead pieces).2.2.flatten)
      = splitLine (ahead ++ pieces.flatten) := by
  induction pieces generalizing ahead with
  | nil => simp [lineOf]
  | cons piece pieces ih =>
    rw [lineOf]
    split
    · rename_i h
      rw [splitLine_append_of_mem h]
    · rename_i h
      rw [splitLine_append_of_not_mem h, List.flatten_cons, ← ih piece]

/-- The line that is taken off and what is left are those of all the bytes. -/
theorem line_eq : (s.line.1, s.line.2.bytes) = splitLine s.bytes :=
  lineOf_eq s.ahead s.pieces

/-- The pieces do not matter for the first bytes. -/
theorem takeOf_eq (n : Nat) (ahead : List UInt8) (pieces : List (List UInt8)) :
    ((takeOf n ahead pieces).1, (takeOf n ahead pieces).2.1 ++ (takeOf n ahead pieces).2.2.flatten)
      = ((ahead ++ pieces.flatten).take n, (ahead ++ pieces.flatten).drop n) := by
  induction pieces generalizing n ahead with
  | nil => simp [takeOf]
  | cons piece pieces ih =>
    rw [takeOf]
    split
    · rename_i h
      simp [List.take_append_of_le_length h, List.drop_append_of_le_length h]
    · rename_i h
      have := ih (n - ahead.length) piece
      simp only [Prod.mk.injEq] at this
      simp [List.take_append, List.drop_append, this.1, this.2, List.take_of_length_le,
        List.drop_eq_nil_of_le, Nat.le_of_lt (Nat.lt_of_not_le h)]

/-- The bytes that are taken off and what is left are those of all the bytes. -/
theorem take_eq (n : Nat) : ((s.take n).1, (s.take n).2.bytes) = (s.bytes.take n, s.bytes.drop n) :=
  takeOf_eq n s.ahead s.pieces

/-- What is read is the first of the bytes, and the others are left. -/
theorem bytes_eq_of_read {size : Nat} {piece : List UInt8} {rest : Stream}
    (h : s.read size = (.ok piece, rest)) : s.bytes = piece ++ rest.bytes := by
  obtain ⟨ahead, pieces, failure⟩ := s
  cases ahead with
  | cons b ahead =>
      obtain ⟨hread, rfl⟩ := Prod.mk.inj h
      obtain rfl := Except.ok.inj hread
      show b :: ahead ++ pieces.flatten = _ ++ ((b :: ahead).drop size ++ pieces.flatten)
      rw [← List.append_assoc, List.take_append_drop]
  | nil =>
      cases pieces with
      | cons next pieces =>
          obtain ⟨hread, rfl⟩ := Prod.mk.inj h
          obtain rfl := Except.ok.inj hread
          show next ++ pieces.flatten = _ ++ (next.drop size ++ pieces.flatten)
          rw [← List.append_assoc, List.take_append_drop]
      | nil =>
          obtain ⟨hread, rfl⟩ := Prod.mk.inj h
          cases failure with
          | none =>
              obtain rfl := Except.ok.inj hread
              rfl
          | some e => cases hread

/-- As long as a line is taken off, bytes are. -/
theorem length_line_lt (h : s.line.1 ≠ []) : s.line.2.bytes.length < s.bytes.length := by
  have he := s.line_eq
  have ha := splitLine_append s.bytes
  rw [← he] at ha
  have := List.length_pos_iff.2 h
  simp [← ha]
  omega

end Stream

end LintWatch.Frame
