import MlatBench.Core.Metrics
import MlatBench.Library.Runs

/-!
# The Heartbeat Anchor

A replay feeds the clients of a capture to a server, each client with a task of its
own. The tasks read what the server sends and share one anchor: the heartbeat with
the least delay, as the time it was read and the time the server gave. The scorer
turns it into the time of the scenario's start on the server's clock.

What a task logs and what it sends is left out. A server message is what the reader
looks at: a result, a heartbeat with its time if it has one, or anything else. The
tasks take turns; a turn reads one line and updates the anchor under its lock.

## Main definitions

* `ServerMsg`: What the reader distinguishes.
* `Shared`, `Shared.readLine`: The state the tasks share, and one line read.
* `feed`: Any number of clients, in any order.
* `RunJson`, `replay`: The record of a run.
* `effectiveWallT0`: The start of the scenario for the scorer.
-/

namespace MlatBench

open Library F64

namespace Anchor

/-- A message of the server, as far as the reader looks. -/
inductive ServerMsg (F : Type) where
  | result
  | heartbeat (serverTime : Option F)
  | other

/-- What the tasks of a replay share. -/
structure Shared (F : Type) where
  resultCount : Nat
  hbAnchor : Option (F × F)

/-- The record of a run, as far as the time is concerned. -/
structure RunJson (F : Type) where
  wallT0 : Option F
  speed : Option F
  hbAnchor : Option (F × F)
deriving DecidableEq

section

variable {F : Type} [F64 F]

/-- Whether a heartbeat read at a time had less delay than the anchor. -/
def better (speed : F) (hbAnchor : Option (F × F)) (now st : F) : Bool :=
  match hbAnchor with
  | none => true
  | some (pa, ph) => decide (ph - speed * pa < st - speed * now)

/-- A line of the server, read at a time. -/
def Shared.readLine (speed : F) (s : Shared F) (line : F × ServerMsg F) : Shared F :=
  match line.2 with
  | .result => { s with resultCount := s.resultCount + 1 }
  | .heartbeat (some st) =>
    if better speed s.hbAnchor line.1 st then { s with hbAnchor := some (line.1, st) } else s
  | _ => s

/-- The clients' readers take turns, each with the lines it still has to read. -/
def feed (speed : F) (streams : List (List (F × ServerMsg F))) (turns : List Nat) :
    Shared F × List (List (F × ServerMsg F)) :=
  exec (turn (Shared.readLine speed)) ({ resultCount := 0, hbAnchor := none }, streams) turns

/-- A replay at a speed, from a start on the wall clock. -/
def replay (speed wallT0 : F) (streams : List (List (F × ServerMsg F))) (turns : List Nat) :
    Except String (RunJson F) :=
  if lit 1 ≤ speed ∧ speed ≤ lit 100 then
    .ok { wallT0 := some wallT0, speed := some speed
          hbAnchor := (feed speed streams turns).1.hbAnchor }
  else .error "speed must be in 1..=100"

/-- The start of the scenario on the clock of the results. -/
def effectiveWallT0 (run : RunJson F) : Except String F :=
  match run.wallT0 with
  | none => .error "run.json lacks wall_t0 (pre-M4 run?)"
  | some wallT0 =>
    let speed := run.speed.getD (lit 1)
    match run.hbAnchor with
    | some (now, st) => .ok (st - (now - wallT0) * speed)
    | none =>
      if lit 1 < speed then .error "accelerated run but no heartbeat anchor in run.json"
      else .ok wallT0

end

end Anchor

end MlatBench
