import MlatBench.Core.Capture

/-!
# Recording and Replaying

`record` puts a tap between a client and a server. The client's first line is
read through a buffer, becomes the connect record and goes upstream; then two
pumps copy what either side sends, each piece recorded before it is passed on.
The server's pieces are recorded between the client's.

`feedClient` writes a recorded stream to a server again: the connect record's
payload, and once the server has accepted, the payloads of the client's records.

What the client sends, how much a read gives and when each pump runs are events.
Writing the file does not fail. A read takes at least a byte when there is one.
`Tap.sent` is history, read by nothing.

## Main definitions

* `Tap`, `Tap.step`: One tapped connection.
* `RecordIter.items`: What the iteration over a stream gives.
* `feedClient`: A replay.
-/

namespace MlatBench

namespace Capture

open Library

/-- How far the pump from the client is. -/
inductive TapPhase where
  -- The first line is read.
  | greeting
  -- It is recorded and goes upstream.
  | greeted
  | pumping
  -- The client has closed.
  | ended
  -- There was no first line, or the server took no more.
  | failed
deriving DecidableEq

/-- One tapped connection: what the client has sent and is not read, the buffer of
    the reader, the first line so far, the piece that goes upstream, the file and
    what went upstream. -/
structure Tap where
  phase : TapPhase
  socket : List UInt8
  closed : Bool
  rbuf : List UInt8
  handshake : List UInt8
  inFlight : List UInt8
  file : List Record
  upstream : List UInt8
  sent : List UInt8

inductive TapEvent where
  | clientSends (bytes : List UInt8)
  | clientCloses
  -- The client's pump reads, at some time, and may get so many bytes.
  | read (t : UInt64) (n : Nat)
  -- What it read is written upstream, or that fails.
  | forward (ok : Bool)
  -- The server's pump reads, and takes what its buffer has room for.
  | serverSends (t : UInt64) (bytes : List UInt8)
  -- Both pumps have ended.
  | disconnect (t : UInt64)

namespace Tap

def start : Tap :=
  { phase := .greeting, socket := [], closed := false, rbuf := [], handshake := []
    inFlight := [], file := [], upstream := [], sent := [] }

/-- The capacity of the reader's buffer. -/
def readerCapacity : Nat := 8 * 1024

/-- The pump's own buffer. -/
def pumpCapacity : Nat := 16 * 1024

/-- So many bytes of the socket, at least one and at most the capacity. -/
def available (s : Tap) (n capacity : Nat) : List UInt8 :=
  s.socket.take (max 1 (min n capacity))

def record (s : Tap) (t : UInt64) (kind : UInt8) (payload : List UInt8) : Tap :=
  { s with file := s.file ++ [{ tNanos := t, kind := kind, payload := payload }] }

/-- The first line is complete: it is the connect record, and goes upstream. -/
def greet (s : Tap) (t : UInt64) (line : List UInt8) : Tap :=
  { s.record t recConnect line with phase := .greeted, handshake := line, inFlight := line }

/-- The reader's buffer is filled once while the first line is read. What is
    behind the newline stays in the buffer. -/
def readGreeting (s : Tap) (t : UInt64) (n : Nat) : Tap :=
  let filled := s.available n readerCapacity
  if filled = [] then
    if s.closed = false then s
    else if s.handshake = [] then { s with phase := .failed }
    else s.greet t s.handshake
  else
    let s := { s with socket := s.socket.drop filled.length }
    if newline ∈ filled then
      let line := filled.takeWhile (· ≠ newline)
      { s with rbuf := filled.drop (line.length + 1) }.greet t
        (s.handshake ++ (line ++ [newline]))
    else { s with handshake := s.handshake ++ filled }

/-- One piece from the client: what the reader's buffer holds comes first, and
    when it is empty the read goes past it. -/
def readPiece (s : Tap) (t : UInt64) (n : Nat) : Tap :=
  if s.rbuf ≠ [] then
    { s with
      rbuf := s.rbuf.drop pumpCapacity
      inFlight := s.rbuf.take pumpCapacity }.record t recC2s (s.rbuf.take pumpCapacity)
  else
    let piece := s.available n pumpCapacity
    if piece = [] then if s.closed then { s with phase := .ended } else s
    else
      { s with
        socket := s.socket.drop piece.length
        inFlight := piece }.record t recC2s piece

def step (s : Tap) : TapEvent → Tap
  | .clientSends bytes =>
    if s.closed then s else { s with socket := s.socket ++ bytes, sent := s.sent ++ bytes }
  | .clientCloses => { s with closed := true }
  | .read t n =>
    match s.phase with
    | .greeting => s.readGreeting t n
    | .pumping => if s.inFlight = [] then s.readPiece t n else s
    | _ => s
  | .forward ok =>
    if s.phase = .greeted ∨ s.phase = .pumping then
      if ok then
        { s with phase := .pumping, upstream := s.upstream ++ s.inFlight, inFlight := [] }
      else { s with phase := .failed }
    else s
  | .serverSends t bytes =>
    if s.phase = .greeting ∨ s.phase = .greeted ∨ s.file = [] ∨ bytes = [] then s
    else s.record t recS2c (bytes.take pumpCapacity)
  | .disconnect t =>
    if (s.phase = .ended ∨ s.phase = .failed) ∧ s.file ≠ [] then s.record t recDisconnect [] else s

end Tap

/-- What the iteration over a stream gives, up to its end. -/
def RecordIter.items : Nat → List UInt8 → List (Except CaptureError Record)
  | 0, _ => []
  | n + 1, z =>
    match RecordIter.next z with
    | (none, _) => []
    | (some r, z) => r :: RecordIter.items n z

/-- The payloads of the client's records, up to an error. -/
def replay : List (Except CaptureError Record) → List UInt8
  | [] => []
  | .error _ :: _ => []
  | .ok r :: rest => if r.kind ≠ recC2s then replay rest else r.payload ++ replay rest

/-- The server's answer to a handshake. -/
inductive Reply where
  | accept (compress : String)
  | deny
deriving DecidableEq

/-- The server negotiated what the stream is framed as. -/
def Reply.matches (entryCompress : String) : Reply → Bool
  | .accept compress => decide (entryCompress ∈ ["none", "zlib", "zlib2"] ∧ compress = entryCompress)
  | .deny => false

/-- What a replay writes to the server. -/
def feedClient (entryCompress : String) (reply : Reply) :
    List (Except CaptureError Record) → List UInt8
  | .ok first :: rest =>
    if first.kind ≠ recConnect then []
    else if reply.matches entryCompress then first.payload ++ replay rest
    else first.payload
  | _ => []

end Capture

end MlatBench
