import LintWatch.Frame.Error
import LintWatch.Json.Printer

/-!
# Writing frames

A value is written as its header, a blank line and its compact text. `Pipe` takes a bounded
number of bytes and then fails; what it took before that has been written.
-/

namespace LintWatch.Frame

open LintWatch.Text

/-- The header block of a body of `length` bytes. -/
def header (length : Nat) : List UInt8 :=
  Utf8.encode ("Content-Length: " ++ toString length ++ "\r\n\r\n")

/-- The bytes of a frame with this body. -/
def frame (body : List UInt8) : List UInt8 :=
  header body.length ++ body

/-- The bytes of the frame of a value. -/
def ofJson (v : Json) : List UInt8 :=
  frame v.toBytes

/-- Where frames are written: what has arrived, how much more is taken, and the error after
that. -/
structure Pipe where
  written : List UInt8
  /-- The bytes that are still taken; without a number all are. -/
  room : Option Nat
  failure : IoError
  failsAtFlush : Bool
  deriving DecidableEq, Repr

namespace Pipe

/-- Writes bytes as far as there is room for them, and says whether that was all. -/
def write (p : Pipe) (bytes : List UInt8) : Pipe × Bool :=
  match p.room with
  | none => ({ p with written := p.written ++ bytes }, true)
  | some room =>
    ({ p with written := p.written ++ bytes.take room, room := some (room - bytes.length) },
      decide (bytes.length ≤ room))

/-- Writes a value as a frame. -/
def writeFrame (p : Pipe) (v : Json) : Pipe × Option TransportError :=
  let (p, done) := p.write (header v.toBytes.length)
  if done then
    let (p, done) := p.write v.toBytes
    if done && !p.failsAtFlush then (p, none) else (p, some (.ofIo p.failure))
  else (p, some (.ofIo p.failure))

/-- Writes values one after the other, each whatever became of those before it. -/
def writeFrames (p : Pipe) : List Json → Pipe × List (Option TransportError)
  | [] => (p, [])
  | v :: vs =>
    let (p, result) := p.writeFrame v
    let (p, results) := p.writeFrames vs
    (p, result :: results)

end Pipe

end LintWatch.Frame
