import MlatBench.Library.Runs

/-!
# The Uplink Reader

The message loop of `mlatd`'s `handle_client`, from the socket to the lines or
frames it processes.

Each turn of the loop starts a read and waits for it together with the
heartbeat and stats ticks. In plain mode the read is `read_until` into a new
line buffer, through a limit of 256 KiB; in the framed modes it is `read_exact`
into a new length prefix, and once that is filled the payload is read outside
the selection. A read that has to wait keeps the bytes it has taken in its
buffer; a tick that wins the selection drops the read and its buffer.

A poll is what happens when the task runs: the read takes what has arrived,
until its unit is complete. The ticks' lines for the client are recorded in
`pushed`. The decompressor is a parameter, its verdict on a frame after the
frames before it.

## Main definitions

* `Uplink`: The loop's state, with what has arrived.
* `readUntil`, `readExact`: The two reads.
* `Uplink.pollPlain`, `Uplink.pollFramed`: The read runs.
* `Uplink.Event`, `Uplink.step`: Everything that can happen.
-/

namespace MlatBench

namespace Server

open Library

/-- What a tick sends to the client. -/
inductive Push where
  | heartbeat
  | stats
deriving DecidableEq

/-- Why the loop ended. -/
inductive Ending where
  | eof
  | lineTooLong
  | badFrame
  | idle
deriving DecidableEq

/-- The message loop: `avail` has arrived and is not taken, `taken` is in the
    buffer of the read in progress, `stream` is everything that arrived. -/
structure Uplink where
  framed : Bool
  wantsStats : Bool
  stream : List UInt8
  avail : List UInt8
  eof : Bool
  taken : List UInt8
  processed : List (List UInt8)
  pushed : List Push
  ended : Option Ending

def newline : UInt8 := 10

/-- The longest line, with its newline. -/
def lineLimit : Nat := 256 * 1024

/-- The read takes bytes until a newline, the limit or the end of what is
    there; it is ready at a newline, at the limit and at the end of the stream. -/
def readUntil (eof : Bool) : List UInt8 → List UInt8 → List UInt8 × List UInt8 × Bool
  | line, [] => (line, [], eof || line.length == lineLimit)
  | line, b :: rest =>
      if line.length = lineLimit then (line, b :: rest, true)
      else if b = newline then (line ++ [b], rest, true)
      else readUntil eof (line ++ [b]) rest

/-- The read takes bytes until its buffer holds `n`. -/
def readExact (n : Nat) (buf avail : List UInt8) : List UInt8 × List UInt8 :=
  (buf ++ avail.take (n - buf.length), avail.drop (n - buf.length))

/-- The big-endian length in front of a frame. -/
def frameLen (p : List UInt8) : Nat :=
  256 * (p.getD 0 0).toNat + (p.getD 1 0).toNat

namespace Uplink

/-- The loop at its start. -/
def start (framed wantsStats : Bool) : Uplink :=
  { framed := framed, wantsStats := wantsStats, stream := [], avail := [], eof := false,
    taken := [], processed := [], pushed := [], ended := none }

/-- `read_until` runs. A complete line is processed. -/
def pollPlain (u : Uplink) : Uplink :=
  let (line, rest, ready) := readUntil u.eof u.taken u.avail
  let u := { u with taken := line, avail := rest }
  if ready = false then u
  else if line = [] then { u with ended := some .eof }
  else if line.getLast? ≠ some newline then
    -- Also where the stream ends inside a line, under the same message.
    { u with ended := some (if line.length = lineLimit then .lineTooLong else .eof) }
  else { u with taken := [], processed := u.processed ++ [line] }

/-- `read_exact` runs, on the length prefix and then on the payload. A complete
    frame is processed if the decompressor takes it. -/
def pollFramed (accepts : List (List UInt8) → List UInt8 → Bool) (u : Uplink) : Uplink :=
  let (lenb, rest) := readExact 2 u.taken u.avail
  if lenb.length < 2 then
    { u with taken := lenb, avail := rest, ended := if u.eof then some .eof else none }
  else
    let (payload, rest) := readExact (2 + frameLen lenb) lenb rest
    let u := { u with taken := payload, avail := rest }
    if payload.length < 2 + frameLen payload then
      { u with ended := if u.eof then some .eof else none }
    else if accepts u.processed payload then
      { u with taken := [], processed := u.processed ++ [payload] }
    else { u with ended := some .badFrame }

/-- The read in progress is part of the selection. The payload's is not. -/
def selecting (u : Uplink) : Bool :=
  !u.framed || u.taken.length < 2

/-- Everything that can happen to the loop. -/
inductive Event where
  | arrive (chunk : List UInt8)
  | close
  | poll
  | tick (push : Push)
  | idle

def step (accepts : List (List UInt8) → List UInt8 → Bool) (u : Uplink) : Event → Uplink
  | .arrive chunk =>
      if u.eof then u else { u with stream := u.stream ++ chunk, avail := u.avail ++ chunk }
  | .close => { u with eof := true }
  | .poll =>
      if u.ended.isSome then u
      else if u.framed then u.pollFramed accepts
      else u.pollPlain
  | .tick push =>
      if u.ended.isSome ∨ u.selecting = false ∨ (push = .stats ∧ u.wantsStats = false) then u
      else { u with taken := [], pushed := u.pushed ++ [push] }
  | .idle =>
      if u.ended.isSome ∨ u.selecting = false then u
      else { u with ended := some .idle }

end Uplink

end Server

end MlatBench
