import LintWatch.Frame.Writer
import LintWatch.Proofs.Frame.RoundTrip
import LintWatch.Proofs.Frame.Truncation

/-!
# Pipes that break

A pipe takes a number of bytes and then fails, wherever in a frame that may be. Values are written
one after the other until one cannot be written as a whole. From what has arrived exactly the
values are read that could be written, and the way in which reading ends says where in the next
frame the pipe broke: `read_frames_of_broken_pipe`.
-/

namespace LintWatch.Frame

variable {p : Pipe} {room : Nat} {v : Json} {vs sent rest : List Json}

/-! ## Values that fit -/

/-- `sent` are the leading ones of the values `vs` whose frames fit into `room` bytes: together they
fit, and with the frame of the next one they do not. -/
structure Fitting (room : Nat) (vs sent rest : List Json) : Prop where
  append_eq : sent ++ rest = vs
  length_le : (sent.flatMap ofJson).length ≤ room
  lt_length : ∀ v ∈ rest.head?, room < (sent.flatMap ofJson).length + (ofJson v).length

/-- Behind a frame that fits, the other frames have what room it leaves. -/
theorem fitting_cons : Fitting room (v :: vs) (v :: sent) rest
    ↔ (ofJson v).length ≤ room ∧ Fitting (room - (ofJson v).length) vs sent rest := by
  constructor
  · rintro ⟨happend, hle, hlt⟩
    rw [List.flatMap_cons, List.length_append] at hle hlt
    refine ⟨by omega, List.tail_eq_of_cons_eq happend, by omega, fun w hw => ?_⟩
    have := hlt w hw
    omega
  · rintro ⟨hfits, happend, hle, hlt⟩
    refine ⟨congrArg (v :: ·) happend, ?_, fun w hw => ?_⟩
    · rw [List.flatMap_cons, List.length_append]
      omega
    · have := hlt w hw
      rw [List.flatMap_cons, List.length_append]
      omega

/-- Among all values there are leading ones that fit. -/
theorem exists_fitting (room : Nat) (vs : List Json) : ∃ sent rest, Fitting room vs sent rest := by
  induction vs generalizing room with
  | nil => exact ⟨[], [], rfl, Nat.zero_le room, by simp⟩
  | cons v vs ih =>
      rcases Nat.lt_or_ge room (ofJson v).length with hlong | hfits
      · exact ⟨[], v :: vs, rfl, Nat.zero_le room, by simpa using hlong⟩
      · obtain ⟨sent, rest, hrest⟩ := ih (room - (ofJson v).length)
        exact ⟨v :: sent, rest, fitting_cons.2 ⟨hfits, hrest⟩⟩

/-- Which values fit is determined. -/
theorem Fitting.unique {sent' rest' : List Json} (h : Fitting room vs sent rest)
    (h' : Fitting room vs sent' rest') : sent = sent' ∧ rest = rest' := by
  induction sent generalizing room vs sent' with
  | nil =>
      obtain rfl : rest = vs := h.append_eq
      cases sent' with
      | nil => exact ⟨rfl, h'.append_eq.symm⟩
      | cons v sent' =>
          obtain rfl : v :: (sent' ++ rest') = rest := h'.append_eq
          have hlong : room < (ofJson v).length := by simpa using h.lt_length v rfl
          exact absurd (fitting_cons.1 h').1 (Nat.not_le_of_lt hlong)
  | cons v sent ih =>
      obtain rfl : v :: (sent ++ rest) = vs := h.append_eq
      obtain ⟨hfits, hrest⟩ := fitting_cons.1 h
      cases sent' with
      | nil =>
          obtain rfl : rest' = v :: (sent ++ rest) := h'.append_eq
          have hlong : room < (ofJson v).length := by simpa using h'.lt_length v rfl
          exact absurd hfits (Nat.not_le_of_lt hlong)
      | cons w sent' =>
          obtain rfl : w = v := List.head_eq_of_cons_eq h'.append_eq
          obtain ⟨rfl, hsame⟩ := ih hrest (fitting_cons.1 h').2
          exact ⟨rfl, hsame⟩

/-- The bytes that there is room for are the frames that fit and the first bytes of the next. -/
theorem Fitting.take_eq (h : Fitting room vs sent rest) :
    (vs.flatMap ofJson).take room
      = sent.flatMap ofJson
        ++ (rest.head?.elim [] ofJson).take (room - (sent.flatMap ofJson).length) := by
  rw [← h.append_eq, List.flatMap_append, List.take_append, List.take_of_length_le h.length_le]
  cases rest with
  | nil => rfl
  | cons v rest =>
      have hlt := h.lt_length v rfl
      rw [List.flatMap_cons, List.take_append_of_le_length (by omega)]
      rfl

/-! ## Writing -/

namespace Pipe

/-- A pipe that takes `room` bytes and then fails, and that nothing has been written into. -/
def bounded (room : Nat) (failure : IoError) : Pipe :=
  ⟨[], some room, failure, false⟩

/-- Writes values one after the other until one cannot be written. -/
def writeUntilFailure (p : Pipe) : List Json → Pipe × List (Option TransportError)
  | [] => (p, [])
  | v :: vs =>
    match p.writeFrame v with
    | (p, none) =>
      let (p, results) := p.writeUntilFailure vs
      (p, none :: results)
    | (p, some e) => (p, [some e])

/-- The pipe after bytes that it took as far as there was room. -/
def after (p : Pipe) (room : Nat) (bytes : List UInt8) : Pipe :=
  { p with written := p.written ++ bytes.take room, room := some (room - bytes.length) }

/-- Bytes are taken as far as there is room for them. -/
theorem write_of_room (hroom : p.room = some room) (bytes : List UInt8) :
    p.write bytes = (p.after room bytes, decide (bytes.length ≤ room)) := by
  rw [write, hroom]
  rfl

/-- Taking bytes in two parts is taking them all. -/
theorem after_after (p : Pipe) (room : Nat) (first second : List UInt8) :
    (p.after room first).after (room - first.length) second = p.after room (first ++ second) := by
  simp only [after, List.append_assoc, List.take_append, List.length_append, Nat.sub_sub]

/-- Of bytes behind those that do not fit nothing is taken. -/
theorem after_append_of_lt {first : List UInt8} (h : room < first.length) (second : List UInt8) :
    p.after room (first ++ second) = p.after room first := by
  have hnone : room - first.length = 0 := by omega
  rw [← after_after, hnone]
  simp [after, hnone]

/-- A frame is taken as far as there is room for it, and refused if there is not enough. -/
theorem write_frame_of_room (hroom : p.room = some room) (hflush : p.failsAtFlush = false)
    (v : Json) :
    p.writeFrame v = (p.after room (ofJson v),
      if (ofJson v).length ≤ room then none else some (.ofIo p.failure)) := by
  have hframe : ofJson v = header v.toBytes.length ++ v.toBytes := rfl
  have hlength : (ofJson v).length = (header v.toBytes.length).length + v.toBytes.length :=
    List.length_append
  rw [writeFrame, write_of_room hroom]
  rcases Nat.lt_or_ge room (header v.toBytes.length).length with hshort | hlong
  · rw [if_neg (by omega), hframe, after_append_of_lt hshort]
    simp [Nat.not_le_of_lt hshort, after]
  · have hbody := write_of_room (p := p.after room (header v.toBytes.length)) rfl v.toBytes
    rw [after_after, ← hframe] at hbody
    have hfits : v.toBytes.length ≤ room - (header v.toBytes.length).length
        ↔ (ofJson v).length ≤ room := by omega
    simp only [hlong, decide_true, if_true, hbody, hfits]
    by_cases h : (ofJson v).length ≤ room <;> simp [h, after, hflush]

/-- The values whose frames fit are written, the next one fails, and as many bytes have arrived as
there was room for. -/
theorem write_until_failure_of_fitting (hroom : p.room = some room)
    (hflush : p.failsAtFlush = false) (h : Fitting room vs sent rest) :
    (p.writeUntilFailure vs).1.written = p.written ++ (vs.flatMap ofJson).take room ∧
      (p.writeUntilFailure vs).2
        = sent.map (fun _ => none) ++ rest.head?.toList.map fun _ => some (.ofIo p.failure) := by
  induction sent generalizing p room vs with
  | nil =>
      obtain rfl : rest = vs := h.append_eq
      cases rest with
      | nil => simp [writeUntilFailure]
      | cons v rest =>
          have hlong : room < (ofJson v).length := by simpa using h.lt_length v rfl
          have hwrite := write_frame_of_room hroom hflush v
          rw [if_neg (Nat.not_le_of_lt hlong)] at hwrite
          rw [writeUntilFailure, hwrite, List.flatMap_cons,
            List.take_append_of_le_length (Nat.le_of_lt hlong)]
          exact ⟨rfl, rfl⟩
  | cons v sent ih =>
      obtain rfl : v :: (sent ++ rest) = vs := h.append_eq
      obtain ⟨hfits, hrest⟩ := fitting_cons.1 h
      have hwrite := write_frame_of_room hroom hflush v
      rw [if_pos hfits] at hwrite
      obtain ⟨hwritten, hresults⟩ := ih (p := p.after room (ofJson v)) rfl hflush hrest
      rw [writeUntilFailure, hwrite]
      refine ⟨hwritten.trans ?_, congrArg (none :: ·) hresults⟩
      rw [after, List.append_assoc, List.flatMap_cons, List.take_append]

end Pipe

/-! ## Reading what has arrived -/

/-- A value that can be sent is written in some bytes. -/
theorem Transmissible.to_bytes_ne_nil (hv : Transmissible v) : v.toBytes ≠ [] := by
  intro hnil
  have hread := reading_of_to_bytes hv
  have hnone : readingOf [] = .failed .json := by
    have hempty : Json.ofBytes? [] = none := by decide +kernel
    rw [readingOf, hempty]
  rw [hnil, hnone] at hread
  cases hread

/-- What reading comes to behind whole frames, when `arrived` bytes follow of the frame of the next
value, if there is one. -/
def lastReadings : (next : Option Json) → (arrived : Nat) → List Reading
  | none, _ => [.ended]
  | some v, arrived => cutReadings v.toBytes.length arrived

/-- Values are written to a pipe that breaks after `room` bytes. Then exactly the values whose
frames fit are written and, in whatever pieces the bytes are delivered, they are read in the same
order. Reading ends as the place says where the pipe broke. -/
theorem read_frames_of_broken_pipe (hvs : ∀ v ∈ vs, Transmissible v) (room : Nat)
    (failure : IoError) {pieces : List (List UInt8)}
    (hpieces : pieces.flatten = ((Pipe.bounded room failure).writeUntilFailure vs).1.written)
    {limit : Nat} (hlimit : vs.length < limit) :
    ((Pipe.bounded room failure).writeUntilFailure vs).1.written = (vs.flatMap ofJson).take room ∧
      ∃ sent rest, Fitting room vs sent rest ∧
        ((Pipe.bounded room failure).writeUntilFailure vs).2
          = sent.map (fun _ => none) ++ rest.head?.toList.map (fun _ => some (.ofIo failure)) ∧
        readFrames limit (.ofPieces pieces none)
          = sent.map .frame ++ lastReadings rest.head? (room - (sent.flatMap ofJson).length) := by
  obtain ⟨sent, rest, hfitting⟩ := exists_fitting room vs
  obtain ⟨hwritten, hresults⟩ :=
    Pipe.write_until_failure_of_fitting (p := .bounded room failure) rfl rfl hfitting
  refine ⟨hwritten, sent, rest, hfitting, hresults, ?_⟩
  have hbytes : (Stream.ofPieces pieces none).bytes = sent.flatMap ofJson
      ++ (rest.head?.elim [] ofJson).take (room - (sent.flatMap ofJson).length) := by
    rw [← hfitting.take_eq]
    exact hpieces.trans hwritten
  have hsent : ∀ v ∈ sent, Transmissible v := fun v hv =>
    hvs v (hfitting.append_eq ▸ List.mem_append_left rest hv)
  obtain ⟨after, hafter, hfailure, hread⟩ := read_frames_of_values hsent hbytes
  have hlength := congrArg List.length hfitting.append_eq
  rw [List.length_append] at hlength
  cases rest with
  | nil =>
      obtain ⟨more, rfl⟩ := Nat.exists_eq_add_of_lt hlimit
      rw [← hlength, Nat.add_assoc, List.length_nil, Nat.add_zero, hread,
        read_frames_of_nil (hafter.trans List.take_nil) hfailure]
      rfl
  | cons v rest =>
      -- Besides the values that fit there is one more, so at least two readings are left.
      obtain ⟨more, rfl⟩ : ∃ more, limit = sent.length + (more + 2) := by
        rw [List.length_cons] at hlength
        exact ⟨limit - (sent.length + 2), by omega⟩
      have hv := hvs v (hfitting.append_eq ▸ List.mem_append_right sent List.mem_cons_self)
      have hlt : room - (sent.flatMap ofJson).length < (ofJson v).length := by
        have := hfitting.lt_length v rfl
        have := hfitting.length_le
        omega
      rw [hread, read_frames_of_cut hv.to_bytes_ne_nil hv.length_le hlt hafter hfailure]
      rfl

/-- Two values, the second one with a body of thirteen bytes. -/
def nullAndText : List Json :=
  [.null, .str "broken pipe"]

/-- What comes of writing them to a pipe that breaks behind the first digit of the second length. -/
def brokenWithinDigits : Pipe × List (Option TransportError) :=
  (Pipe.bounded 42 (.bare .brokenPipe)).writeUntilFailure nullAndText

/-- A pipe breaks within the digits of a length. What is left of the digits is a length as well, but
no body of that length is read. -/
theorem read_frames_of_pipe_broken_within_digits :
    brokenWithinDigits.2 = [none, some (.streamClosed (.bare .brokenPipe))] ∧
      readFrames 3 (.ofPieces [brokenWithinDigits.1.written] none)
        = [.frame .null, .failed (.malformed "unexpected EOF while reading headers"), .ended] := by
  have hnull : Transmissible .null := ⟨trivial, trivial, Nat.zero_le _, by decide +kernel⟩
  have htext : Transmissible (.str "broken pipe") :=
    ⟨trivial, trivial, Nat.zero_le _, by decide +kernel⟩
  have hvs : ∀ v ∈ nullAndText, Transmissible v := by
    intro v hv
    rcases List.mem_cons.1 hv with rfl | hv
    · exact hnull
    · obtain rfl := List.mem_singleton.1 hv
      exact htext
  have hfits : ([Json.null].flatMap ofJson).length = 25 := by decide +kernel
  have hlong : (ofJson (.str "broken pipe")).length = 35 := by decide +kernel
  have hfitting : Fitting 42 nullAndText [.null] [.str "broken pipe"] := by
    refine ⟨rfl, by omega, fun v hv => ?_⟩
    obtain rfl : Json.str "broken pipe" = v := Option.some.inj hv
    omega
  have hpieces : [brokenWithinDigits.1.written].flatten = brokenWithinDigits.1.written := by simp
  have hlimit : nullAndText.length < 3 := by decide
  obtain ⟨-, sent, rest, hsplit, hresults, hreadings⟩ :=
    read_frames_of_broken_pipe hvs 42 (.bare .brokenPipe) hpieces hlimit
  obtain ⟨rfl, rfl⟩ := hsplit.unique hfitting
  rw [hfits] at hreadings
  have hline : (firstLine (Json.str "broken pipe").toBytes.length).length = 20 := by decide +kernel
  have hcut : cutReadings (Json.str "broken pipe").toBytes.length 17
      = [.failed (.malformed "unexpected EOF while reading headers"), .ended] := by
    rw [cutReadings, if_neg (by decide), hline, if_pos (by decide)]
    rfl
  exact ⟨hresults, hreadings.trans (congrArg (_ :: ·) hcut)⟩

end LintWatch.Frame
