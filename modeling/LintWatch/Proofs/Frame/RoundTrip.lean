import LintWatch.Frame.Writer
import LintWatch.Proofs.Frame.Sequence
import LintWatch.Proofs.Json.RoundTrip

/-!
# Frames that are written read back

The body of a written frame reads as the value that it was written for, so the frames of values in
front of a stream read as the values: `read_frames_of_values`. The frames that a pipe takes
therefore read back as the values that were written, and then the stream ends:
`read_frames_write_frames`.
-/

namespace LintWatch.Frame

/-- A value that can be sent as a frame: members stand in order, as they do in every value that is
put together (`Json.canonical_object`) or read (`Json.canonical_of_bytes?`), numbers are integers,
and it is neither too deep nor too long for the reader. -/
structure Transmissible (v : Json) : Prop where
  canonical : v.Canonical
  integral : v.Integral
  depth_le : v.depth ≤ Json.depthLimit
  length_le : v.toBytes.length ≤ maxLength

variable {s : Stream}

/-! ## Reading -/

/-- The body of a written frame reads as the value. -/
theorem reading_of_to_bytes {v : Json} (hv : Transmissible v) : readingOf v.toBytes = .frame v := by
  rw [readingOf, Json.of_bytes_to_bytes hv.canonical hv.integral hv.depth_le]

/-- The frames of values in front of a stream read as the values, and leave what follows them. -/
theorem read_frames_of_values {vs : List Json} (hvs : ∀ v ∈ vs, Transmissible v)
    {rest : List UInt8} (hbytes : s.bytes = vs.flatMap ofJson ++ rest) :
    ∃ after, after.bytes = rest ∧ after.failure = s.failure ∧
      ∀ limit, readFrames (vs.length + limit) s = vs.map .frame ++ readFrames limit after := by
  have hbodies : ∀ body ∈ vs.map Json.toBytes, body.length ≤ maxLength := by
    intro body hbody
    obtain ⟨v, hv, rfl⟩ := List.mem_map.1 hbody
    exact (hvs v hv).length_le
  have hreadings : (vs.map Json.toBytes).map readingOf = vs.map .frame := by
    rw [List.map_map]
    exact List.map_congr_left fun v hv => reading_of_to_bytes (hvs v hv)
  have hframes : s.bytes = (vs.map Json.toBytes).flatMap frame ++ rest := by
    rw [hbytes, List.flatMap_map]
    rfl
  obtain ⟨after, hafter, hfailure, hread⟩ := read_frames_of_bodies hbodies hframes
  rw [hreadings, List.length_map] at hread
  exact ⟨after, hafter, hfailure, hread⟩

/-- The frames of values, one after the other, read back as the values, and then the stream ends. -/
theorem read_frames_of_bytes {vs : List Json} (hvs : ∀ v ∈ vs, Transmissible v)
    (hbytes : s.bytes = vs.flatMap ofJson) (hfailure : s.failure = none) {limit : Nat}
    (hlimit : vs.length < limit) : readFrames limit s = vs.map .frame ++ [.ended] := by
  rw [← List.append_nil (vs.flatMap ofJson)] at hbytes
  obtain ⟨after, hafter, hsame, hread⟩ := read_frames_of_values hvs hbytes
  obtain ⟨more, rfl⟩ := Nat.exists_eq_add_of_lt hlimit
  rw [Nat.add_assoc, hread, read_frames_of_nil hafter (hsame.trans hfailure)]

/-! ## Writing -/

/-- A pipe that takes everything, and that nothing has been written into. -/
def Pipe.unbounded (failure : IoError) : Pipe :=
  ⟨[], none, failure, false⟩

/-- A pipe that takes everything takes the frames of values. -/
theorem write_frames_of_no_room {p : Pipe} (hroom : p.room = none)
    (hflush : p.failsAtFlush = false) (vs : List Json) :
    (p.writeFrames vs).1.written = p.written ++ vs.flatMap ofJson ∧
      (p.writeFrames vs).2 = vs.map fun _ => none := by
  induction vs generalizing p with
  | nil => simp [Pipe.writeFrames]
  | cons v vs ih =>
      have hwrite : p.writeFrame v = ({ p with written := p.written ++ ofJson v }, none) := by
        simp [Pipe.writeFrame, Pipe.write, hroom, hflush, ofJson, frame]
      obtain ⟨hwritten, hresults⟩ :=
        ih (p := { p with written := p.written ++ ofJson v }) hroom hflush
      simp only [Pipe.writeFrames, hwrite]
      exact ⟨by simp [hwritten], by simp [hresults]⟩

/-- Values that are written as frames are all taken, and in whatever pieces the bytes are delivered,
they read back as the same values in the same order, and then the stream ends. -/
theorem read_frames_write_frames {vs : List Json} (hvs : ∀ v ∈ vs, Transmissible v)
    (failure : IoError) {pieces : List (List UInt8)}
    (hpieces : pieces.flatten = ((Pipe.unbounded failure).writeFrames vs).1.written) {limit : Nat}
    (hlimit : vs.length < limit) :
    ((Pipe.unbounded failure).writeFrames vs).2 = vs.map (fun _ => none) ∧
      readFrames limit (.ofPieces pieces none) = vs.map .frame ++ [.ended] := by
  obtain ⟨hwritten, hresults⟩ := write_frames_of_no_room (p := .unbounded failure) rfl rfl vs
  refine ⟨hresults, read_frames_of_bytes hvs ?_ rfl hlimit⟩
  show [] ++ pieces.flatten = _
  rw [List.nil_append, hpieces, hwritten]
  rfl

/-- The members of an object, with names and a text that are longer in bytes than in characters. -/
def exchangedMembers : Json.Members :=
  [("\u00e9", .arr [.num (.int (-1)), .str "\u00e9\n"]), ("\u00ea", .bool true)]

/-- Two values to be exchanged. -/
def exchanged : List Json :=
  [.obj exchangedMembers, .null]

/-- What is written when two values are. -/
def exchange : List UInt8 :=
  ((Pipe.unbounded (.bare .brokenPipe)).writeFrames exchanged).1.written

/-- Two values read back when their frames come in two pieces, of which the first one ends within
a frame. -/
theorem read_frames_exchange :
    readFrames 3 (.ofPieces [exchange.take 30, exchange.drop 30] none)
      = exchanged.map .frame ++ [.ended] := by
  have hincreasing : Json.Increasing exchangedMembers := by
    refine List.pairwise_cons.2 ⟨fun m hm => ?_, List.pairwise_singleton _ _⟩
    obtain rfl := List.mem_singleton.1 hm
    decide
  have hobject : Transmissible (.obj exchangedMembers) := by
    refine ⟨⟨hincreasing, ?_⟩, ?_, ?_, ?_⟩
    · simp [exchangedMembers, Json.Everywhere, Json.EverywhereItems, Json.EverywhereMembers,
        Json.Sorted]
    · simp [exchangedMembers, Json.Integral, Json.Everywhere, Json.EverywhereItems,
        Json.EverywhereMembers, Json.IsInteger64]
    · decide
    · decide +kernel
  have hnull : Transmissible .null := ⟨trivial, trivial, Nat.zero_le _, by decide +kernel⟩
  have hvs : ∀ v ∈ exchanged, Transmissible v := by
    intro v hv
    rcases List.mem_cons.1 hv with rfl | hv
    · exact hobject
    · obtain rfl := List.mem_singleton.1 hv
      exact hnull
  have hpieces : [exchange.take 30, exchange.drop 30].flatten = exchange := by simp
  exact (read_frames_write_frames hvs (.bare .brokenPipe) hpieces (by decide)).2

end LintWatch.Frame
