import LintWatch.Frame.Reader
import LintWatch.Frame.Writer
import LintWatch.Proofs.Json.Numeral
import LintWatch.Proofs.Text.Blank
import Mathlib.Data.List.TakeWhile

/-!
# Header lines

What the reader makes of a line of a header block: `read_headers_of_line` says it for every line of
text, `of_line_length` for the line that gives the length of a body.
-/

namespace LintWatch.Frame

open LintWatch.Text
open LintWatch.Text.Utf8 (encode encodeChar)

/-! ## Lines of text -/

/-- The end of a line is the byte of one character only. -/
theorem line_end_not_mem_encode {cs : List Char} (h : '\n' ∉ cs) :
    lineEnd ∉ encode (String.ofList cs) := by
  rw [Utf8.encode_of_list]
  intro hmem
  obtain ⟨c, hc, hbyte⟩ := List.mem_flatMap.1 hmem
  rcases Nat.lt_or_ge c.toNat 0x80 with hascii | hwide
  · rw [Utf8.encode_char_of_lt hascii, List.mem_singleton] at hbyte
    have hvalue : lineEnd.toNat = c.toNat := by
      rw [hbyte]
      exact UInt8.toNat_ofNat_of_lt' (Nat.lt_trans hascii (by decide))
    have hnewline : c = '\n' := Char.toNat_inj.1 hvalue.symm
    exact h (hnewline ▸ hc)
  · exact absurd (Utf8.le_of_mem_encode_char hwide hbyte) (by decide)

/-- A line that stands in front of a stream is taken off. -/
theorem Stream.line_of_bytes {s : Stream} {cs : List Char} {rest : List UInt8}
    (hbytes : s.bytes = encode (String.ofList (cs ++ ['\n'])) ++ rest) (hcs : '\n' ∉ cs) :
    s.line.1 = encode (String.ofList (cs ++ ['\n'])) ∧ s.line.2.bytes = rest := by
  have hencode : encode (String.ofList (cs ++ ['\n']))
      = encode (String.ofList cs) ++ [lineEnd] := by
    rw [Utf8.encode_of_list, Utf8.encode_of_list, List.flatMap_append]
    rfl
  have hsplit : splitLine s.bytes = (encode (String.ofList cs) ++ [lineEnd], rest) := by
    rw [hbytes, hencode, List.append_assoc,
      splitLine_append_of_not_mem (line_end_not_mem_encode hcs)]
    simp [splitLine]
  rw [← s.line_eq] at hsplit
  rw [hencode]
  exact Prod.mk.inj hsplit

/-- What is left of a stream without the end of a line is taken off as a line. -/
theorem Stream.line_of_last_bytes {s : Stream} {cs : List Char}
    (hbytes : s.bytes = encode (String.ofList cs)) (hcs : '\n' ∉ cs) :
    s.line.1 = encode (String.ofList cs) ∧ s.line.2.bytes = [] := by
  have hsplit : splitLine s.bytes = (encode (String.ofList cs), []) := by
    have happend := splitLine_append_of_not_mem (line_end_not_mem_encode hcs) []
    rw [List.append_nil] at happend
    rw [hbytes, happend]
    simp [splitLine]
  rw [← s.line_eq] at hsplit
  exact Prod.mk.inj hsplit

/-- A stream without bytes has no line. -/
theorem Stream.line_of_nil (s : Stream) (hbytes : s.bytes = []) : s.line.1 = [] := by
  have hsplit := s.line_eq
  rw [hbytes] at hsplit
  exact (Prod.mk.inj hsplit).1

/-- What comes of a header line, `rest` being the stream behind it. -/
def readHeader (found : Option Nat) (rest : Stream) : Header → Headers × Stream
  | .blank =>
    match found with
    | some n => (.length n, rest)
    | none => (.failed (.malformed "missing Content-Length header"), rest)
  | .other => readHeaders found true rest
  | .length n => readHeaders (some n) true rest
  | .badLength text => (.failed (.malformed ("invalid Content-Length value: " ++ text)), rest)

/-- A line that is read as a whole, and is text, is read as the header that it is. -/
theorem read_headers_of_text (found : Option Nat) (begun : Bool) {s : Stream} {cs : List Char}
    (hline : s.line.1 = encode (String.ofList cs)) (hne : s.line.1 ≠ [])
    (hcut : cutShort s.failure s.line.1 = none) :
    readHeaders found begun s = readHeader found s.line.2 (Header.ofLine cs) := by
  have htext : Utf8.decode? s.line.1 = some (String.ofList cs) := by
    rw [hline, Utf8.decode?_encode]
  rw [readHeaders.eq_def]
  simp only [dif_neg hne, hcut, htext, String.toList_ofList]
  cases Header.ofLine cs <;> rfl

/-- A line of text in front of a stream is read as the header that it is. -/
theorem read_headers_of_line (found : Option Nat) (begun : Bool) {s : Stream} {cs : List Char}
    {rest : List UInt8} (hbytes : s.bytes = encode (String.ofList (cs ++ ['\n'])) ++ rest)
    (hcs : '\n' ∉ cs) :
    readHeaders found begun s
      = readHeader found s.line.2 (Header.ofLine (cs ++ ['\n'])) := by
  obtain ⟨hline, -⟩ := Stream.line_of_bytes hbytes hcs
  have hlast : s.line.1.getLast? = some lineEnd := by
    rw [hline, Utf8.encode_of_list, List.flatMap_append]
    exact List.getLast?_concat
  have hne : s.line.1 ≠ [] := by
    intro hnil
    rw [hnil] at hlast
    cases hlast
  exact read_headers_of_text found begun hline hne (by rw [cutShort, if_pos hlast])

/-- The last line of a stream that just ends is read as the header that it is, though nothing ends
the line. -/
theorem read_headers_of_last_line (found : Option Nat) (begun : Bool) {s : Stream}
    {cs : List Char} (hbytes : s.bytes = encode (String.ofList cs)) (hcs : '\n' ∉ cs)
    (hne : s.bytes ≠ []) (hfailure : s.failure = none) :
    readHeaders found begun s = readHeader found s.line.2 (Header.ofLine cs) ∧
      s.line.2.bytes = [] := by
  obtain ⟨hline, hrest⟩ := Stream.line_of_last_bytes hbytes hcs
  have hcut : cutShort s.failure s.line.1 = none := by
    rw [cutShort, hfailure, ite_self]
  exact ⟨read_headers_of_text found begun hline (line_ne_nil hne) hcut, hrest⟩

/-- A stream that ends behind header lines is reported. -/
theorem read_headers_of_nil (found : Option Nat) {s : Stream} (hbytes : s.bytes = [])
    (hfailure : s.failure = none) :
    readHeaders found true s
      = (.failed (.malformed "unexpected EOF while reading headers"), s.line.2) := by
  rw [readHeaders.eq_def]
  simp [s.line_of_nil hbytes, hfailure]

/-! ## The length of a body -/

/-- The name of the header that gives the length of a body. -/
def lengthName : List Char :=
  "Content-Length".toList

/-- The line that gives the length of a body, without the end of the line. -/
def lengthLine (n : Nat) : List Char :=
  lengthName ++ ':' :: ' ' :: Nat.toDigits 10 n ++ ['\r']

/-- The bytes of the line that gives the length of a body, with the end of the line. -/
def firstLine (n : Nat) : List UInt8 :=
  encode ("Content-Length: " ++ toString n ++ "\r\n")

/-- The line that gives the length of a body as characters. -/
theorem first_line_eq (n : Nat) :
    firstLine n = encode (String.ofList (lengthLine n ++ ['\n'])) := by
  have hname : "Content-Length: " = String.ofList (lengthName ++ [':', ' ']) := rfl
  have hend : "\r\n" = String.ofList ['\r', '\n'] := rfl
  rw [firstLine, hname, hend, Nat.toString_eq_ofList_toDigits, ← String.ofList_append,
    ← String.ofList_append, lengthLine]
  simp only [List.append_assoc, List.cons_append, List.nil_append]

/-- A header block is the line with the length of the body and a blank line. -/
theorem header_eq (n : Nat) :
    header n = firstLine n ++ encode (String.ofList (['\r'] ++ ['\n'])) := by
  have hends : "\r\n\r\n" = "\r\n" ++ String.ofList (['\r'] ++ ['\n']) := rfl
  rw [header, hends, ← String.append_assoc, Utf8.encode_append, firstLine]

/-- The number that a sequence of digits stands for. -/
def numberOf (digits : List Char) : Nat :=
  digits.foldl (fun n d => n * 10 + (d.toNat - 0x30)) 0

/-- Digits whose number fits into 64 bits are the length that they say. -/
theorem parse_length_of_digits {ds : List Char} (hne : ds ≠ [])
    (hdigits : ∀ c ∈ ds, c.isDigit = true) (hvalue : numberOf ds < 2 ^ 64) :
    parseLength? ds = some (numberOf ds) := by
  obtain ⟨d, ds, rfl⟩ := List.exists_cons_of_ne_nil hne
  have hsign : d ≠ '+' := by
    rintro rfl
    exact absurd (hdigits '+' List.mem_cons_self) (by decide)
  have hall : (d :: ds).all Char.isDigit = true := List.all_eq_true.2 hdigits
  unfold parseLength?
  split
  next hplus => exact absurd (List.head_eq_of_cons_eq hplus) hsign
  next => exact (if_neg (by simp [hall])).trans (if_pos hvalue)

/-- A digit is not blank. -/
theorem not_blank_of_is_digit {c : Char} (h : c.isDigit = true) : isBlank c = false := by
  obtain ⟨hlow, hhigh⟩ := Json.bounds_of_is_digit h
  have hall : ∀ m : Fin 10, isBlank (Char.ofNat (0x30 + m.val)) = false := by decide
  have := hall ⟨c.toNat - 0x30, by omega⟩
  rwa [Nat.add_sub_cancel' hlow, Char.ofNat_toNat] at this

/-- Digits behind a blank. -/
theorem trim_digits {ds : List Char} (hdigits : ∀ c ∈ ds, c.isDigit = true) :
    trim (' ' :: ds) = ds := by
  have hspace : ∀ c ∈ [' '], isBlank c = true := List.all_eq_true.1 (by decide)
  have htrim : trim ([' '] ++ ds ++ []) = ds := by
    refine trim_append hspace (by simp) ?_ ?_
    · exact fun c hc => not_blank_of_is_digit (hdigits c (List.mem_of_head? hc))
    · exact fun c hc => not_blank_of_is_digit (hdigits c (List.mem_of_getLast? hc))
  rwa [List.append_nil] at htrim

/-- The line with the length of a body without the blanks at its end. -/
theorem trim_length_line {ds ends : List Char} (hne : ds ≠ [])
    (hdigits : ∀ c ∈ ds, c.isDigit = true) (hends : ∀ c ∈ ends, isBlank c = true) :
    trim (lengthName ++ ':' :: ' ' :: ds ++ ends) = lengthName ++ ':' :: ' ' :: ds := by
  have htrim : trim ([] ++ (lengthName ++ [':', ' '] ++ ds) ++ ends)
      = lengthName ++ [':', ' '] ++ ds := by
    refine trim_append (by simp) hends ?_ ?_
    · intro c hc
      obtain rfl : 'C' = c := Option.some.inj hc
      decide
    · intro c hc
      rw [List.getLast?_append_of_ne_nil _ hne] at hc
      exact not_blank_of_is_digit (hdigits c (List.mem_of_getLast? hc))
  simpa only [List.nil_append, List.append_assoc, List.cons_append] using htrim

/-- A text without a colon ends at the first colon behind it. -/
theorem split_colon {name : List Char} (hcolon : ':' ∉ name) (value : List Char) :
    (name ++ ':' :: value).takeWhile (· ≠ ':') = name ∧
      (name ++ ':' :: value).dropWhile (· ≠ ':') = ':' :: value := by
  have hkeep : ∀ c ∈ name, decide (c ≠ ':') = true := by
    intro c hc
    refine decide_eq_true ?_
    rintro rfl
    exact hcolon hc
  rw [List.takeWhile_append_of_pos hkeep, List.dropWhile_append_of_pos hkeep]
  simp

/-- A line with the name of the length header gives what stands behind the colon, if that is a
length. -/
theorem of_line_of_trim {line name value : List Char}
    (htrim : trim line = name ++ ':' :: value) (hcolon : ':' ∉ name)
    (hname : name.map Char.toLower = "content-length".toList) :
    Header.ofLine line = match parseLength? (trim value) with
      | some n => .length n
      | none => .badLength (String.ofList value) := by
  obtain ⟨hfront, hback⟩ := split_colon hcolon value
  have hne : name ++ ':' :: value ≠ [] := by simp
  cases hlength : parseLength? (trim value) <;>
    simp only [Header.ofLine, htrim, if_neg hne, hfront, hback, hname, if_true, hlength]

/-- A line with the name of the length header and digits gives the number of the digits. -/
theorem of_line_of_digits {ds ends : List Char} (hne : ds ≠ [])
    (hdigits : ∀ c ∈ ds, c.isDigit = true) (hvalue : numberOf ds < 2 ^ 64)
    (hends : ∀ c ∈ ends, isBlank c = true) :
    Header.ofLine (lengthName ++ ':' :: ' ' :: ds ++ ends) = .length (numberOf ds) := by
  have hparse : parseLength? (trim (' ' :: ds)) = some (numberOf ds) := by
    rw [trim_digits hdigits]
    exact parse_length_of_digits hne hdigits hvalue
  rw [of_line_of_trim (trim_length_line hne hdigits hends) (by decide) (by decide), hparse]

/-- The line with the length of a body gives the length, with blanks at its end or without. -/
theorem of_line_length {n : Nat} (h : n < 2 ^ 64) {ends : List Char}
    (hends : ∀ c ∈ ends, isBlank c = true) :
    Header.ofLine (lengthName ++ ':' :: ' ' :: Nat.toDigits 10 n ++ ends) = .length n := by
  have hvalue : numberOf (Nat.toDigits 10 n) = n := Json.foldl_to_digits n
  have hdigits : ∀ c ∈ Nat.toDigits 10 n, c.isDigit = true := fun c =>
    Nat.isDigit_of_mem_toDigits (by decide) (by decide)
  rw [of_line_of_digits Nat.toDigits_ne_nil hdigits (hvalue.symm ▸ h) hends, hvalue]

/-- The line with the length of a body does not end before its end. -/
theorem newline_not_mem_length_line (n : Nat) : '\n' ∉ lengthLine n := by
  intro hmem
  rw [lengthLine, List.append_assoc, List.mem_append] at hmem
  rcases hmem with hmem | hmem
  · exact absurd hmem (by decide)
  · simp only [List.cons_append, List.mem_cons, List.mem_append, List.not_mem_nil,
      or_false] at hmem
    rcases hmem with hmem | hmem | hmem | hmem
    · cases hmem
    · cases hmem
    · exact absurd (Json.bounds_of_mem_to_digits hmem) (by decide)
    · cases hmem

/-- The first line gives the length that it was written for, and leaves what follows it. -/
theorem read_headers_first_line {s : Stream} {n : Nat} {rest : List UInt8} (h : n < 2 ^ 64)
    (hbytes : s.bytes = firstLine n ++ rest) :
    readHeaders none false s = readHeaders (some n) true s.line.2 ∧ s.line.2.bytes = rest := by
  have hnewline : '\n' ∉ lengthLine n := newline_not_mem_length_line n
  have hline : Header.ofLine (lengthLine n ++ ['\n']) = .length n := by
    have hends : ∀ c ∈ ['\r', '\n'], isBlank c = true := List.all_eq_true.1 (by decide)
    rw [lengthLine, List.append_assoc]
    exact of_line_length h hends
  rw [first_line_eq] at hbytes
  rw [read_headers_of_line none false hbytes hnewline, hline]
  exact ⟨rfl, (Stream.line_of_bytes hbytes hnewline).2⟩

/-- A header block gives the length that it was written for, and leaves what follows it. -/
theorem read_headers_header {s : Stream} {n : Nat} {rest : List UInt8} (h : n < 2 ^ 64)
    (hbytes : s.bytes = header n ++ rest) :
    ∃ after, readHeaders none false s = (.length n, after) ∧ after.bytes = rest ∧
      after.failure = s.failure := by
  rw [header_eq, List.append_assoc] at hbytes
  obtain ⟨hread, hblank⟩ := read_headers_first_line h hbytes
  obtain ⟨-, hrest⟩ := Stream.line_of_bytes hblank (by decide)
  refine ⟨s.line.2.line.2, ?_, hrest, rfl⟩
  -- What is left is the blank line, with the length found.
  rw [hread, read_headers_of_line (some n) true hblank (by decide)]
  rfl

end LintWatch.Frame
