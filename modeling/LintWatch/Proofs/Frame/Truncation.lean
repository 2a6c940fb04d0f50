import LintWatch.Proofs.Frame.Sequence

/-!
# Frames that are cut

A stream may end anywhere in a frame. If it ends before the frame it has just ended, if it ends
within the line with the length of the body the frame is malformed, and from the blank line on the
stream was closed too early; no value is read. `read_frames_of_cut` says so for every number of
bytes that have arrived.
-/

namespace LintWatch.Frame

open LintWatch.Text
open LintWatch.Text.Utf8 (encode)

variable {s : Stream} {n arrived : Nat}

/-! ## The line with the length -/

/-- The characters of the line with the length of a body are one byte each. -/
theorem lt_of_mem_length_line {c : Char} (h : c ∈ lengthLine n ++ ['\n']) : c.toNat < 0x80 := by
  have hall : (lengthName ++ [':', ' ', '\r', '\n']).all (·.toNat < 0x80) = true := by decide
  have hends : ∀ c ∈ lengthName ++ [':', ' ', '\r', '\n'], c.toNat < 0x80 := fun c hc =>
    of_decide_eq_true (List.all_eq_true.1 hall c hc)
  simp only [lengthLine, List.append_assoc, List.cons_append, List.mem_append, List.mem_cons,
    List.not_mem_nil, or_false, List.nil_append] at h hends
  rcases h with h | rfl | rfl | h | rfl | rfl
  · exact hends c (Or.inl h)
  · decide
  · decide
  · have := Json.bounds_of_mem_to_digits h
    omega
  · decide
  · decide

/-- The bytes of the first line that have arrived are those of its first characters. -/
theorem take_first_line (n arrived : Nat) :
    (firstLine n).take arrived
      = encode (String.ofList ((lengthLine n ++ ['\n']).take arrived)) := by
  rw [first_line_eq, Utf8.take_encode_of_lt fun _ => lt_of_mem_length_line]

/-- The first line has as many bytes as characters. -/
theorem length_first_line (n : Nat) : (firstLine n).length = (lengthLine n).length + 1 := by
  rw [first_line_eq, Utf8.encode_of_list_of_lt fun _ => lt_of_mem_length_line, List.length_map,
    List.length_append, List.length_singleton]

/-- Digits stand for no less than the first ones among them. -/
theorem number_of_take_le (ds : List Char) (k : Nat) : numberOf (ds.take k) ≤ numberOf ds := by
  have hle := Json.le_foldl_digits (fun d : Char => d.toNat - 0x30) (ds.drop k)
    (numberOf (ds.take k))
  unfold numberOf at hle ⊢
  rwa [← List.foldl_append, List.take_append_drop] at hle

/-- What a reader makes of the first line when it ends before the digits: with the colon it is the
length header without a number, and without the colon it means nothing. -/
theorem of_line_take_name : ∀ k < lengthName.length + 3, 0 < k →
    Header.ofLine ((lengthName ++ [':', ' ']).take k)
      = if k ≤ lengthName.length then .other else .badLength "" := by
  decide

/-- With a digit the first line gives some length, however many of its digits are missing. -/
theorem of_line_take_digits (h : n < 2 ^ 64) {k : Nat} (hk : lengthName.length + 3 ≤ k) :
    ∃ m, Header.ofLine ((lengthLine n ++ ['\n']).take k) = .length m := by
  have hends : ∀ c ∈ ['\r', '\n'], isBlank c = true := List.all_eq_true.1 (by decide)
  obtain ⟨more, rfl⟩ := Nat.exists_eq_add_of_le hk
  have hline : (lengthLine n ++ ['\n']).take (lengthName.length + 3 + more)
      = lengthName ++ ':' :: ' ' :: (Nat.toDigits 10 n).take (more + 1)
        ++ ['\r', '\n'].take (more + 1 - (Nat.toDigits 10 n).length) := by
    have hcount : lengthName.length + 3 + more = lengthName.length + (more + 1 + 1 + 1) := by omega
    simp only [lengthLine, hcount, List.append_assoc, List.cons_append, List.nil_append]
    rw [List.take_length_add_append, List.take_succ_cons, List.take_succ_cons, List.take_append]
  have hne : (Nat.toDigits 10 n).take (more + 1) ≠ [] := by
    simp [Nat.toDigits_ne_nil]
  have hdigits : ∀ c ∈ (Nat.toDigits 10 n).take (more + 1), c.isDigit = true := fun c hc =>
    Nat.isDigit_of_mem_toDigits (by decide) (by decide) (List.mem_of_mem_take hc)
  have hvalue : numberOf ((Nat.toDigits 10 n).take (more + 1)) < 2 ^ 64 := by
    have hnumber : numberOf (Nat.toDigits 10 n) = n := Json.foldl_to_digits n
    have := number_of_take_le (Nat.toDigits 10 n) (more + 1)
    omega
  rw [hline]
  exact ⟨_, of_line_of_digits hne hdigits hvalue fun c hc => hends c (List.mem_of_mem_take hc)⟩

/-- The failure that reading comes to when a stream ends within the first line: behind the colon
and before the digits it is the length that is refused, elsewhere the end of the stream. -/
def headerFailure (arrived : Nat) : TransportError :=
  .malformed (if arrived = lengthName.length + 1 ∨ arrived = lengthName.length + 2 then
    "invalid Content-Length value: " else "unexpected EOF while reading headers")

/-- A first line that is cut is read as the header that is left of it, and then nothing is left. -/
theorem read_headers_of_cut_line (hpos : 0 < arrived) (hle : arrived ≤ (firstLine n).length)
    (hbytes : s.bytes = (firstLine n).take arrived) (hfailure : s.failure = none) :
    readHeaders none false s
        = readHeader none s.line.2 (Header.ofLine ((lengthLine n ++ ['\n']).take arrived)) ∧
      s.line.2.bytes = [] := by
  rw [length_first_line] at hle
  rcases Nat.lt_or_ge (lengthLine n).length arrived with hwhole | hcut
  · -- The line has arrived as a whole.
    have hall : (lengthLine n ++ ['\n']).take arrived = lengthLine n ++ ['\n'] :=
      List.take_of_length_le (by rw [List.length_append]; exact hwhole)
    rw [take_first_line, hall, ← List.append_nil (encode _)] at hbytes
    rw [hall]
    exact ⟨read_headers_of_line none false hbytes (newline_not_mem_length_line n),
      (Stream.line_of_bytes hbytes (newline_not_mem_length_line n)).2⟩
  · have hne : s.bytes ≠ [] := by
      have hlength : s.bytes.length = arrived := by
        rw [hbytes, List.length_take_of_le (by rw [length_first_line]; exact hle)]
      exact List.ne_nil_of_length_pos (by omega)
    rw [take_first_line, List.take_append_of_le_length hcut] at hbytes
    rw [List.take_append_of_le_length hcut]
    exact read_headers_of_last_line none false hbytes
      (fun hmem => newline_not_mem_length_line n (List.mem_of_mem_take hmem)) hne hfailure

/-- A frame that is cut within its first line is malformed, and nothing is left of it. -/
theorem read_frame_of_cut_line (h : n < 2 ^ 64) (hpos : 0 < arrived)
    (hle : arrived ≤ (firstLine n).length) (hbytes : s.bytes = (firstLine n).take arrived)
    (hfailure : s.failure = none) :
    ∃ after, readFrame s = (.failed (headerFailure arrived), after) ∧ after.bytes = [] ∧
      after.failure = none := by
  obtain ⟨hread, hrest⟩ := read_headers_of_cut_line hpos hle hbytes hfailure
  have hnone : s.line.2.line.2.bytes = [] := by
    have hsplit := s.line.2.line_eq
    rw [hrest] at hsplit
    exact (Prod.mk.inj hsplit).2
  -- Whatever the first line says, there is no line behind it.
  have hend (found : Option Nat) := read_headers_of_nil found hrest hfailure
  rcases Nat.lt_or_ge arrived (lengthName.length + 3) with hname | hdigits
  · have hline := of_line_take_name arrived hname hpos
    have htake : (lengthLine n ++ ['\n']).take arrived
        = (lengthName ++ [':', ' ']).take arrived := by
      have hfront : lengthLine n ++ ['\n']
          = (lengthName ++ [':', ' ']) ++ (Nat.toDigits 10 n ++ ['\r', '\n']) := by
        simp [lengthLine]
      rw [hfront, List.take_append_of_le_length (by simp; omega)]
    rw [htake, hline] at hread
    split at hread
    next hshort =>
      have hfail : headerFailure arrived = .malformed "unexpected EOF while reading headers" := by
        rw [headerFailure, if_neg (by omega)]
      refine ⟨s.line.2.line.2, ?_, hnone, hfailure⟩
      rw [readFrame, hread, readHeader, hend, hfail]
    next hlong =>
      have hfail : headerFailure arrived = .malformed "invalid Content-Length value: " := by
        rw [headerFailure, if_pos (by omega)]
      refine ⟨s.line.2, ?_, hrest, hfailure⟩
      rw [readFrame, hread, hfail]
      rfl
  · obtain ⟨m, hline⟩ := of_line_take_digits h hdigits
    have hfail : headerFailure arrived = .malformed "unexpected EOF while reading headers" := by
      rw [headerFailure, if_neg (by omega)]
    refine ⟨s.line.2.line.2, ?_, hnone, hfailure⟩
    rw [readFrame, hread, hline, readHeader, hend, hfail]

/-! ## The blank line and the body -/

/-- The failure that reading comes to when a stream ends within a body. -/
def bodyFailure : TransportError :=
  .streamClosed (.bare .unexpectedEof)

/-- Of a body that has not arrived as a whole nothing is read. -/
theorem read_frame_of_short_body {after : Stream}
    (hheaders : readHeaders none false s = (.length n, after)) (hle : n ≤ maxLength)
    (hshort : after.bytes.length < n) (hfailure : after.failure = none) :
    readFrame s = (.failed bodyFailure, (after.take n).2) := by
  have htake : (after.take n).1.length < n := by
    rw [(Prod.mk.inj (after.take_eq n)).1]
    exact Nat.lt_of_le_of_lt (List.length_take_le' _ _) hshort
  simp only [readFrame, hheaders, if_neg (Nat.not_lt_of_le hle), readBody, if_pos htake]
  show (Reading.failed (.ofIo (after.failure.getD _)), _) = _
  rw [hfailure]
  rfl

/-- The blank line counts as soon as its first byte has arrived. -/
theorem read_headers_of_cut_blank (h : n < 2 ^ 64) (hbytes : s.bytes = firstLine n ++ [0x0D])
    (hfailure : s.failure = none) :
    ∃ after, readHeaders none false s = (.length n, after) ∧ after.bytes = [] ∧
      after.failure = none := by
  obtain ⟨hread, hblank⟩ := read_headers_first_line h hbytes
  have hreturn : s.line.2.bytes = encode (String.ofList ['\r']) := hblank
  have hne : s.line.2.bytes ≠ [] := by simp [hblank]
  obtain ⟨hlast, hrest⟩ := read_headers_of_last_line (some n) true hreturn (by decide) hne hfailure
  refine ⟨s.line.2.line.2, ?_, hrest, hfailure⟩
  rw [hread, hlast]
  rfl

/-- A frame is its first line, the blank line and the body. -/
theorem frame_eq (body : List UInt8) :
    frame body = firstLine body.length ++ 0x0D :: 0x0A :: body := by
  rw [frame, header_eq, List.append_assoc]
  rfl

/-- A frame that is cut behind its first line is closed too early. -/
theorem read_frame_of_cut_body {body : List UInt8} (hne : body ≠ [])
    (hlength : body.length ≤ maxLength) (hlow : (firstLine body.length).length < arrived)
    (hhigh : arrived < (frame body).length) (hbytes : s.bytes = (frame body).take arrived)
    (hfailure : s.failure = none) :
    ∃ after, readFrame s = (.failed bodyFailure, after) := by
  have hfits : body.length < 2 ^ 64 := Nat.lt_of_le_of_lt hlength (by decide)
  have hpos : 0 < body.length := List.length_pos_iff.2 hne
  obtain ⟨more, rfl⟩ := Nat.exists_eq_add_of_lt hlow
  rw [frame_eq, Nat.add_assoc, List.take_length_add_append, List.take_succ_cons] at hbytes
  cases more with
  | zero =>
      -- Only the first byte of the blank line has arrived.
      obtain ⟨after, hheaders, hafter, hsame⟩ := read_headers_of_cut_blank hfits hbytes hfailure
      exact ⟨_, read_frame_of_short_body hheaders hlength (by rw [hafter]; exact hpos) hsame⟩
  | succ more =>
      have hheader : s.bytes = header body.length ++ body.take more := by
        rw [hbytes, header_eq, List.append_assoc]
        rfl
      obtain ⟨after, hheaders, hafter, hsame⟩ := read_headers_header hfits hheader
      have hshort : after.bytes.length < body.length := by
        rw [frame_eq] at hhigh
        simp only [List.length_append, List.length_cons] at hhigh
        rw [hafter, List.length_take]
        omega
      exact ⟨_, read_frame_of_short_body hheaders hlength hshort (hsame.trans hfailure)⟩

/-! ## A frame -/

/-- What reading comes to at the end of a stream, when `arrived` bytes of a frame with a body of
`length` bytes stand in front of it, and not the whole frame. -/
def cutReadings (length arrived : Nat) : List Reading :=
  if arrived = 0 then [.ended]
  else if arrived ≤ (firstLine length).length then [.failed (headerFailure arrived), .ended]
  else [.failed bodyFailure]

/-- A frame that is cut comes to its end or a failure, and no value is read. -/
theorem read_frames_of_cut {body : List UInt8} (hne : body ≠ [])
    (hlength : body.length ≤ maxLength) (hlt : arrived < (frame body).length)
    (hbytes : s.bytes = (frame body).take arrived) (hfailure : s.failure = none) (limit : Nat) :
    readFrames (limit + 2) s = cutReadings body.length arrived := by
  have hfits : body.length < 2 ^ 64 := Nat.lt_of_le_of_lt hlength (by decide)
  rcases Nat.eq_zero_or_pos arrived with rfl | hpos
  · rw [List.take_zero] at hbytes
    rw [read_frames_of_nil hbytes hfailure, cutReadings, if_pos rfl]
  rw [cutReadings, if_neg (Nat.ne_of_gt hpos)]
  split
  next hline =>
    have hfirst : s.bytes = (firstLine body.length).take arrived := by
      rw [hbytes, frame_eq, List.take_append_of_le_length hline]
    obtain ⟨after, hread, hafter, hsame⟩ :=
      read_frame_of_cut_line hfits hpos hline hfirst hfailure
    rw [readFrames, hread]
    show _ :: readFrames (limit + 1) after = _
    rw [read_frames_of_nil hafter hsame]
  next hbody =>
    obtain ⟨after, hread⟩ :=
      read_frame_of_cut_body hne hlength (Nat.lt_of_not_le hbody) hlt hbytes hfailure
    rw [readFrames, hread]
    rfl

end LintWatch.Frame
