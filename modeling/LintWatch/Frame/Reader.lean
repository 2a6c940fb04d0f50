import LintWatch.Frame.Error
import LintWatch.Frame.Stream
import LintWatch.Json.Reader
import LintWatch.Text.Blank

/-!
# Reading frames

A frame is a block of header lines ended by a blank one, and a JSON text of as many bytes as the
header `Content-Length` says. `readHeaders` takes the block off a stream and gives the length,
`readFrame` takes off one frame. The main statement is `length_readFrame_lt`: as long as there are
bytes, each reading takes some.
-/

namespace LintWatch.Frame

open LintWatch.Text

/-- The longest body that is read. -/
def maxLength : Nat := 16 * 1024 * 1024

/-- A header line means nothing, ends the block, or gives the length of the body. -/
inductive Header where
  | blank
  | other
  | length (value : Nat)
  | badLength (text : String)
  deriving DecidableEq, Repr

/-- The number a text of decimal digits stands for, a plus sign allowed in front, when it fits
into 64 bits. -/
def parseLength? (cs : List Char) : Option Nat :=
  let digits := match cs with
    | '+' :: ds => ds
    | ds => ds
  if digits = [] ∨ !digits.all Char.isDigit then none
  else
    let n := digits.foldl (fun n d => n * 10 + (d.toNat - 0x30)) 0
    if n < UInt64.size then some n else none

/-- What a header line says. -/
def Header.ofLine (line : List Char) : Header :=
  let trimmed := trim line
  if trimmed = [] then .blank
  else
    let name := trimmed.takeWhile (· ≠ ':')
    match trimmed.dropWhile (· ≠ ':') with
    | [] => .other
    | _ :: value =>
      if name.map Char.toLower = "content-length".toList then
        match parseLength? (trim value) with
        | some n => .length n
        | none => .badLength (String.ofList value)
      else .other

/-- What reading a header block comes to. -/
inductive Headers where
  | ended
  | failed (error : TransportError)
  | length (value : Nat)
  deriving DecidableEq, Repr

/-- The failure that kept a line from being read to its end. -/
def cutShort (failure : Option IoError) (line : List UInt8) : Option IoError :=
  if line.getLast? = some lineEnd then none else failure

/-- Reads header lines up to the blank one. `found` is the length so far, and `begun` says
whether a line has been read. -/
def readHeaders (found : Option Nat) (begun : Bool) (s : Stream) : Headers × Stream :=
  let line := s.line.1
  let rest := s.line.2
  if h : line = [] then
    match s.failure with
    | some e => (.failed (.ofIo e), rest)
    | none =>
      if begun then (.failed (.malformed "unexpected EOF while reading headers"), rest)
      else (.ended, rest)
  else
    have : rest.bytes.length < s.bytes.length := s.length_line_lt h
    match cutShort s.failure line with
    | some e => (.failed (.ofIo e), rest)
    | none =>
      match Utf8.decode? line with
      | none => (.failed (.ofIo .notText), rest)
      | some text =>
        match Header.ofLine text.toList with
        | .blank =>
          match found with
          | some n => (.length n, rest)
          | none => (.failed (.malformed "missing Content-Length header"), rest)
        | .other => readHeaders found true rest
        | .length n => readHeaders (some n) true rest
        | .badLength text =>
          (.failed (.malformed ("invalid Content-Length value: " ++ text)), rest)
termination_by s.bytes.length
decreasing_by
  · exact this
  · exact this

/-- What a reading comes to. -/
inductive Reading where
  | ended
  | failed (error : TransportError)
  | frame (value : Json)
  deriving Repr

/-- Reads the body of a frame of `length` bytes. -/
def readBody (length : Nat) (s : Stream) : Reading × Stream :=
  let (body, rest) := s.take length
  if body.length < length then
    (.failed (.ofIo (s.failure.getD (.bare .unexpectedEof))), rest)
  else
    match Json.ofBytes? body with
    | some v => (.frame v, rest)
    | none => (.failed .json, rest)

/-- Reads one frame. -/
def readFrame (s : Stream) : Reading × Stream :=
  match readHeaders none false s with
  | (.ended, rest) => (.ended, rest)
  | (.failed e, rest) => (.failed e, rest)
  | (.length n, rest) =>
    if maxLength < n then (.failed (.oversized n maxLength), rest)
    else readBody n rest

/-- Behind a line stand the last bytes of the stream. -/
theorem line_suffix (s : Stream) : s.line.2.bytes <:+ s.bytes := by
  have happend := splitLine_append s.bytes
  rw [← s.line_eq] at happend
  exact ⟨s.line.1, happend⟩

/-- Behind its first bytes stand the last bytes of the stream. -/
theorem take_suffix (n : Nat) (s : Stream) : (s.take n).2.bytes <:+ s.bytes := by
  rw [(Prod.mk.inj (s.take_eq n)).2]
  exact List.drop_suffix n s.bytes

/-- Behind the headers stand the last bytes of the stream. -/
theorem headers_suffix (found : Option Nat) (begun : Bool) (s : Stream) :
    (readHeaders found begun s).2.bytes <:+ s.bytes := by
  fun_induction readHeaders found begun s with
  | case8 found begun s line rest hline hless hcut text htext hother ih =>
      exact ih.trans (line_suffix s)
  | case9 found begun s line rest hline hless hcut text htext n hlength ih =>
      exact ih.trans (line_suffix s)
  | _ => exact line_suffix _

/-- Where there are bytes there is a line. -/
theorem line_ne_nil {s : Stream} (h : s.bytes ≠ []) : s.line.1 ≠ [] := by
  have he := s.line_eq
  have ha := splitLine_append s.bytes
  have hl := length_splitLine_lt h
  rw [← he] at ha hl
  intro h0
  rw [h0, List.nil_append] at ha
  change s.line.2.bytes = s.bytes at ha
  rw [ha] at hl
  exact Nat.lt_irrefl _ hl

/-- Reading headers takes bytes if there are any. -/
theorem length_readHeaders_lt (found : Option Nat) (begun : Bool) {s : Stream}
    (h : s.bytes ≠ []) : (readHeaders found begun s).2.bytes.length < s.bytes.length := by
  have hline := line_ne_nil h
  have hrest := s.length_line_lt hline
  have hmore (n : Option Nat) := (headers_suffix n true s.line.2).length_le
  rw [readHeaders.eq_def]
  grind

/-- Reading a frame takes bytes if there are any. -/
theorem length_readFrame_lt {s : Stream} (h : s.bytes ≠ []) :
    (readFrame s).2.bytes.length < s.bytes.length := by
  have := length_readHeaders_lt none false h
  have htake (n : Nat) (t : Stream) : (t.take n).2.bytes.length ≤ t.bytes.length :=
    (take_suffix n t).length_le
  unfold readFrame readBody
  grind

/-- Whether reading can go on after an error. -/
def goesOnAfter : TransportError → Bool
  | .streamClosed _ | .io _ => false
  | .malformed _ | .oversized _ _ | .json => true

/-- What at most `limit` readings come to, until the stream has ended or can no longer be read. -/
def readFrames : (limit : Nat) → Stream → List Reading
  | 0, _ => []
  | limit + 1, s =>
    match readFrame s with
    | (.ended, _) => [.ended]
    | (.frame v, rest) => .frame v :: readFrames limit rest
    | (.failed e, rest) => .failed e :: if goesOnAfter e then readFrames limit rest else []

end LintWatch.Frame
