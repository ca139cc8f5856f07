import Mathlib.Algebra.Group.Nat.Defs
import MlatBench.Core.Uplink

/-!
# The Idle Deadline

The message loop of `handle_client` with its clock. Each turn of the loop makes
a new timeout around its read, and a timeout's deadline is fixed when it is
made. The turn ends when a tick or the read wins the selection, and the timeout
with it; what the branch then does takes its own time, and no deadline stands
over it. Neither does one over the rest of a frame whose length has been read.

A deadline that passes ends the loop at once. Time is in nanoseconds since the
loop was entered.

## Main definitions

* `Watched`: The loop, its clock and its deadline.
* `Watched.step`: Everything that can happen.
-/

namespace MlatBench

namespace Server

open Library

/-- Five minutes. -/
def idle : Nat := 300 * 10 ^ 9

/-- The loop with the deadline of the timeout in the selection. `handling` is
    when a branch runs, `lastInput` the time of the last line or frame. -/
structure Watched where
  uplink : Uplink
  now : Nat
  armed : Option Nat
  handling : Bool
  lastInput : Nat

namespace Watched

/-- The loop is entered. -/
def start (framed wantsStats : Bool) : Watched :=
  { uplink := Uplink.start framed wantsStats, now := 0, armed := some idle, handling := false
    lastInput := 0 }

inductive Event where
  | arrive (chunk : List UInt8)
  | close
  | poll
  | tick (push : Push)
  -- The branch is done, and the next turn starts.
  | resume
  -- The deadline is there.
  | expire
  | passes (nanos : Nat)

/-- The timeout elapses: idle for 5 minutes. -/
def elapse (s : Watched) : Watched :=
  { s with uplink := { s.uplink with ended := some .idle } }

def step (accepts : List (List UInt8) → List UInt8 → Bool) (s : Watched) (e : Event) : Watched :=
  if s.uplink.ended.isSome then s
  else
    match e with
    | .arrive chunk => { s with uplink := s.uplink.step accepts (.arrive chunk) }
    | .close => { s with uplink := s.uplink.step accepts .close }
    | .poll =>
      let u := s.uplink.step accepts .poll
      if s.handling then s
      -- A line or a frame is complete.
      else if u.processed.length ≠ s.uplink.processed.length then
        { s with uplink := u, armed := none, handling := true, lastInput := s.now }
      -- The length of a frame is.
      else if u.selecting = false then { s with uplink := u, armed := none }
      else { s with uplink := u }
    | .tick push =>
      let u := s.uplink.step accepts (.tick push)
      if s.handling ∨ u.pushed.length = s.uplink.pushed.length then s
      else { s with uplink := u, armed := none, handling := true }
    | .resume =>
      if s.handling then { s with armed := some (s.now + idle), handling := false } else s
    | .expire =>
      match s.armed with
      | some d => if d ≤ s.now then s.elapse else s
      | none => s
    | .passes nanos =>
      match s.armed with
      | some d =>
        if d < s.now + nanos then { s.elapse with now := s.now + nanos }
        else { s with now := s.now + nanos }
      | none => { s with now := s.now + nanos }

end Watched

end Server

end MlatBench
