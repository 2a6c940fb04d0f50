import LintWatch.Rehearsal.Linter
import LintWatch.Server.Connection
import LintWatch.Server.Monitor

/-!
# A scripted server at work

A server that plays a script, with the host's end of its connection and its monitor. Handing it a
message lets both ends work until neither has anything left to do.
-/

namespace LintWatch.Rehearsal

open Server (Event Connection Monitor)

/-- A server on the site, with both ends of its connection. -/
structure Running where
  /-- How many linters were started as servers before, if this is one of them. -/
  before : Option Nat
  player : Player
  connection : Connection
  monitor : Monitor

namespace Running

/-- Hands a message to a server. The way to it is closed once a message has found it so. -/
def push (r : Running) (message : Json) : Running :=
  if !r.connection.isWriting then r
  else
    match r.player.deliver? message with
    | some player => { r with player }
    | none => { r with connection := { r.connection with isWriting := false } }

/-- Whether nothing more will come from a server. -/
def isSilent (r : Running) : Bool :=
  r.player.outcome.isSome || !r.player.hasOutput

/-- Lets a server and its connection work until neither has anything left to do, for at most
`fuel` rounds, and gives the events that come of it. -/
def settle : (fuel : Nat) → Running → Running × List Event
  | 0, r => (r, [])
  | fuel + 1, r =>
    let player := r.player.readAll r.player.inbox
    let (connection, result) :=
      r.connection.receive player.written ({ r with player }.isSilent)
    let r := result.replies.foldl push
      { r with player := { player with written := [] }, connection }
    if result.replies = [] then (r, result.events)
    else
      let (r, events) := settle fuel r
      (r, result.events ++ events)

/-- How many rounds a server and its connection may take over one message. -/
def rounds : Nat := 1000

/-- Lets the monitor of a server notice its end. -/
def watch (r : Running) : Running :=
  match r.player.outcome with
  | some o => { r with monitor := r.monitor.step (.ended o) }
  | none => r

/-- The event of the end of a server, if it has just been noticed. -/
def endEvent (before after : Running) : List Event :=
  match before.monitor.ending?, after.monitor.ending? with
  | none, some e => [.exited after.connection.router.server e]
  | _, _ => []

/-- Hands a message to a server and lets it react, and says what events come of it. -/
def tell (r : Running) (message : Json) : Running × List Event :=
  let (told, events) := (r.push message).settle rounds
  let watched := told.watch
  (watched, events ++ r.endEvent watched)

/-- Ends a server: nothing more is written to it, it may still come to its end by itself, and else
it is killed. -/
def finish (r : Running) : Running × List Event :=
  let stopped := { r with
    monitor := r.monitor.step .stop
    player := { r.player with isInputOver := true } }
  let (ended, events) := stopped.settle rounds
  let killed := if ended.player.outcome.isSome then ended
    else { ended with player := { ended.player with outcome := some (.signal 9) } }
  let watched := killed.watch
  (watched, events ++ r.endEvent watched)

/-- Kills a server that nobody waits for any more. -/
def kill (r : Running) : Running × List Event :=
  let killed := { r with
    monitor := r.monitor.step .stop
    player := { r.player with outcome := some (r.player.outcome.getD (.signal 9)) } }.watch
  (killed, r.endEvent killed)

end Running

end LintWatch.Rehearsal
