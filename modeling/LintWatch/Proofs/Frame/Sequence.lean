import LintWatch.Proofs.Frame.Header

/-!
# Frames one after the other

A frame says how long its body is, so a reader finds the next frame whatever stands in this one: a
text that is no value, bytes that are no text, or what looks like another header. Frames in front
of a stream give one reading each and leave what follows them (`read_frames_of_bodies`); a stream
that holds nothing else has then ended (`readings_of_bodies`).
-/

namespace LintWatch.Frame

open LintWatch.Text

variable {s : Stream} {body rest : List UInt8}

/-! ## One frame -/

/-- Bytes that stand in front of a stream are taken off. -/
theorem Stream.take_of_bytes (hbytes : s.bytes = body ++ rest) :
    (s.take body.length).1 = body ∧ (s.take body.length).2.bytes = rest := by
  have htake := s.take_eq body.length
  rw [hbytes, List.take_left', List.drop_left'] at htake
  · exact Prod.mk.inj htake
  · rfl
  · rfl

/-- What reading the body of a frame comes to. -/
def readingOf (body : List UInt8) : Reading :=
  match Json.ofBytes? body with
  | some v => .frame v
  | none => .failed .json

/-- A frame in front of a stream is taken off as a whole, whether or not its body is a value. -/
theorem read_frame_of_bytes (hlength : body.length ≤ maxLength)
    (hbytes : s.bytes = frame body ++ rest) :
    ∃ after, readFrame s = (readingOf body, after) ∧ after.bytes = rest ∧
      after.failure = s.failure := by
  have hfits : body.length < 2 ^ 64 := Nat.lt_of_le_of_lt hlength (by decide)
  rw [frame, List.append_assoc] at hbytes
  obtain ⟨behind, hheaders, hbehind, hfailure⟩ := read_headers_header hfits hbytes
  obtain ⟨htaken, hrest⟩ := Stream.take_of_bytes hbehind
  refine ⟨(behind.take body.length).2, ?_, hrest, hfailure⟩
  simp only [readFrame, hheaders, if_neg (Nat.not_lt_of_le hlength), readBody, htaken,
    Nat.lt_irrefl, if_false, readingOf]
  cases Json.ofBytes? body <;> rfl

/-- A stream without bytes that does not fail has ended. -/
theorem read_frame_of_nil (hbytes : s.bytes = []) (hfailure : s.failure = none) :
    readFrame s = (.ended, s.line.2) := by
  have hheaders : readHeaders none false s = (.ended, s.line.2) := by
    rw [readHeaders.eq_def]
    simp [s.line_of_nil hbytes, hfailure]
  rw [readFrame, hheaders]

/-! ## Several frames -/

/-- Reading goes on behind a frame, whether or not its body is a value. -/
theorem read_frames_succ {after : Stream} (hread : readFrame s = (readingOf body, after))
    (limit : Nat) : readFrames (limit + 1) s = readingOf body :: readFrames limit after := by
  rw [readFrames, hread]
  unfold readingOf
  cases Json.ofBytes? body <;> rfl

/-- Of a stream without bytes that does not fail nothing is read but its end. -/
theorem read_frames_of_nil (hbytes : s.bytes = []) (hfailure : s.failure = none) (limit : Nat) :
    readFrames (limit + 1) s = [.ended] := by
  rw [readFrames, read_frame_of_nil hbytes hfailure]

/-- Frames in front of a stream give one reading each, whatever their bodies are, and leave what
follows them. -/
theorem read_frames_of_bodies {bodies : List (List UInt8)}
    (hbodies : ∀ body ∈ bodies, body.length ≤ maxLength)
    (hbytes : s.bytes = bodies.flatMap frame ++ rest) :
    ∃ after, after.bytes = rest ∧ after.failure = s.failure ∧
      ∀ limit, readFrames (bodies.length + limit) s
        = bodies.map readingOf ++ readFrames limit after := by
  -- Each frame is taken off as a whole, so the other frames are in front of what it leaves.
  induction bodies generalizing s with
  | nil => exact ⟨s, hbytes, rfl, fun limit => by simp⟩
  | cons body bodies ih =>
      rw [List.flatMap_cons, List.append_assoc] at hbytes
      obtain ⟨next, hread, hnext, hnextFailure⟩ :=
        read_frame_of_bytes (hbodies body List.mem_cons_self) hbytes
      obtain ⟨after, hafter, hafterFailure, hrest⟩ :=
        ih (fun b hb => hbodies b (List.mem_cons_of_mem body hb)) hnext
      refine ⟨after, hafter, hafterFailure.trans hnextFailure, fun limit => ?_⟩
      rw [List.length_cons, Nat.add_right_comm, read_frames_succ hread, hrest]
      rfl

/-- Whatever the bodies of frames are, a stream of the frames, in whatever pieces it is delivered,
is read as one value or failure for each body, which depends on no other body, and then it has
ended. -/
theorem readings_of_bodies {bodies : List (List UInt8)}
    (hbodies : ∀ body ∈ bodies, body.length ≤ maxLength) {pieces : List (List UInt8)}
    (hpieces : pieces.flatten = bodies.flatMap frame) {limit : Nat}
    (hlimit : bodies.length < limit) :
    readFrames limit (.ofPieces pieces none) = bodies.map readingOf ++ [.ended] := by
  have hbytes : (Stream.ofPieces pieces none).bytes = bodies.flatMap frame ++ [] := by
    rw [List.append_nil, ← hpieces]
    rfl
  obtain ⟨after, hafter, hfailure, hread⟩ := read_frames_of_bodies hbodies hbytes
  obtain ⟨more, rfl⟩ := Nat.exists_eq_add_of_lt hlimit
  rw [Nat.add_assoc, hread, read_frames_of_nil hafter hfailure]

/-- An object in a text with blanks. -/
def spacedObject : List UInt8 :=
  Utf8.encode "\x7b\"a\": [1]\x7d\r\n"

/-- Bodies of which only the last one is a value: a frame within a frame, nothing, and a byte that
is no text stand in front of it. -/
def oddBodies : List (List UInt8) :=
  [frame (Utf8.encode "null"), [], [0xFF], spacedObject]

/-- A value is read though no body in front of it is one. -/
theorem readings_of_odd_bodies :
    readFrames 5 (.ofPieces [oddBodies.flatMap frame] none)
      = [.failed .json, .failed .json, .failed .json,
          .frame (.obj [("a", .arr [.num (.int 1)])]), .ended] := by
  have hbodies : ∀ body ∈ oddBodies, body.length ≤ maxLength := by decide
  have hpieces : [oddBodies.flatMap frame].flatten = oddBodies.flatMap frame := by simp
  have htokens : Json.tokens? spacedObject = some [.objectStart, .scalar (.text (some "a")), .colon,
      .arrayStart, .scalar (.number (some (.int 1))), .arrayEnd, .objectEnd] := by
    decide +kernel
  have hobject : readingOf spacedObject = .frame (.obj [("a", .arr [.num (.int 1)])]) := by
    simp only [readingOf, Json.ofBytes?, Json.Tree.ofBytes?, htokens]
    rfl
  have hreadings : oddBodies.map readingOf = [.failed .json, .failed .json, .failed .json,
      .frame (.obj [("a", .arr [.num (.int 1)])])] := by
    have hothers : ∀ body ∈ oddBodies.take 3, Json.ofBytes? body = none := by decide +kernel
    have hfailed : ∀ body ∈ oddBodies.take 3, readingOf body = .failed .json := fun body hbody => by
      rw [readingOf, hothers body hbody]
    rw [← hobject]
    simpa [oddBodies] using hfailed
  rw [readings_of_bodies hbodies hpieces (by decide), hreadings]
  rfl

end LintWatch.Frame
