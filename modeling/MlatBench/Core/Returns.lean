import MlatBench.Core.Batch
import MlatBench.Core.Beast
import MlatBench.Core.Output

/-!
# Results on Their Way Back

One connection that asked for results, from the output task to the client's loop.

A task listens to what is sent and passes each fix on to the connection's channel,
as a line; heartbeats, stats and requests go into the same channel. One writer
takes the lines. In plain mode it writes each; with `zlib2` it gathers them in a
batch, which goes out as a frame when it has 32 KiB and when the second is over.
A write may fail behind any of its bytes, which ends the writer. What was written
arrives in pieces of any length at the loop of `server_session`.

An encoder that fails ends the writer, which then tries the batch once more with
the encoder as the failure left it; that second try is left out. Lines of less than
31 KiB never come to it.

The writes that were begun and the lines taken are history.

## Main definitions

* `ServerLine`, `DownLine`: Lines for a client.
* `Link`: The server's side of the connection.
* `Returns`, `Returns.step`: The server, the connection and the client's loop.
* `ResultPos.fromJson`, `resultOf`: What the client makes of a result.
-/

namespace MlatBench

namespace Server

open Library F64 F64Fn Framing

/-- Slots of a connection's channel. -/
def lineSlots : Nat := 256

/-- A line, without its newline, that is not blank. -/
structure ServerLine where
  bytes : List UInt8
  oneLine : newline ∉ bytes
  notBlank : bytes.all Client.isAsciiWhitespace = false

/-- What a connection's channel carries. -/
inductive DownLine (F : Type) where
  | result (row : OutRow F)
  | other (l : ServerLine)

/-- A line as bytes, without its newline. -/
def DownLine.bytes {F : Type} (num : Numbers F) : DownLine F → List UInt8
  | .result row => asciiBytes (resultText num row)
  | .other l => l.bytes

/-- The server's side of a connection: the task that listens and the fix in its
    hand, the channel, whether the message loop still sends, and the writer. -/
structure Link (F τ : Type) where
  framed : Bool
  listener : Listener (OutRow F)
  hand : Option (OutRow F)
  queue : List (DownLine F)
  sending : Bool
  enc : τ
  batch : List UInt8
  wire : List UInt8
  done : Bool
  meant : List UInt8
  taken : List (DownLine F)

namespace Link

variable {F τ : Type} [F64 F]

/-- A connection starts to listen. -/
def start (z : Calls UInt8 UInt8 τ) (framed : Bool) (sent : List (OutRow F)) : Link F τ :=
  { framed := framed, listener := Listener.join sent, hand := none, queue := [], sending := true
    enc := z.start, batch := [], wire := [], done := false, meant := [], taken := [] }

/-- The writer writes; `cut` says behind how many bytes that fails. What is in the
    channel of a writer that has ended is lost. -/
def write (s : Link F τ) (bytes : List UInt8) (cut : Option Nat) : Link F τ :=
  match cut with
  | none => { s with wire := s.wire ++ bytes, meant := s.meant ++ bytes }
  | some k =>
    { s with
      wire := s.wire ++ bytes.take k, meant := s.meant ++ bytes, done := true, queue := [] }

/-- The batch goes out. -/
def writeBatch (z : Calls UInt8 UInt8 τ) (fuel : Nat) (s : Link F τ) (cut : Option Nat) :
    Link F τ :=
  match encodeFrame z fuel s.enc s.batch with
  | .ok frame enc => ({ s with enc := enc, batch := [] }).write frame cut
  | _ => { s with done := true, queue := [] }

/-- The writer takes a line. -/
def take (num : Numbers F) (z : Calls UInt8 UInt8 τ) (fuel : Nat) (s : Link F τ)
    (cut : Option Nat) : Link F τ :=
  match s.queue with
  | [] => s
  | l :: queue =>
    let s := { s with queue := queue, taken := s.taken ++ [l] }
    let bytes := l.bytes num ++ [newline]
    if s.framed then
      let s := { s with batch := s.batch ++ bytes }
      if s.batch.length < 32 * 1024 then s else s.writeBatch z fuel cut
    else s.write bytes cut

/-- The second is over. -/
def flush (z : Calls UInt8 UInt8 τ) (fuel : Nat) (s : Link F τ) (cut : Option Nat) : Link F τ :=
  if s.done ∨ s.framed = false ∨ s.batch = [] then s else s.writeBatch z fuel cut

/-- Nobody sends any more: the writer flushes what is left and ends. -/
def finish (z : Calls UInt8 UInt8 τ) (fuel : Nat) (s : Link F τ) (cut : Option Nat) : Link F τ :=
  if s.sending ∨ s.listener.ended = false ∨ s.hand.isSome ∨ s.queue ≠ [] then s
  else { s.flush z fuel cut with done := true, queue := [] }

/-- The listening task takes its next fix in hand. -/
def recv (s : Link F τ) (sent : List (OutRow F)) : Link F τ :=
  if s.hand.isSome then s
  else
    let listener := s.listener.recv publishSlots sent
    { s with listener := listener, hand := listener.got[s.listener.got.length]? }

/-- It passes the fix on when there is a slot, and ends with the writer. -/
def pass (s : Link F τ) : Link F τ :=
  match s.hand with
  | none => s
  | some row =>
    if s.done then { s with hand := none, listener := { s.listener with ended := true } }
    else if s.queue.length < lineSlots then
      { s with hand := none, queue := s.queue ++ [.result row] }
    else s

/-- The message loop sends a line when there is a slot. -/
def say (s : Link F τ) (l : ServerLine) : Link F τ :=
  if s.done ∨ s.sending = false ∨ lineSlots ≤ s.queue.length then s
  else { s with queue := s.queue ++ [.other l] }

end Link

/-- The server, a connection, and the client's loop. -/
structure Returns (F τ : Type) where
  mlatd : Mlatd F
  link : Link F τ
  client : Client.SelectLoop

namespace Returns

variable {F τ σ : Type} [F64Fn F]

/-- A connection starts to listen. -/
def start (z : Calls UInt8 UInt8 τ) (framed : Bool) (m : Mlatd F) : Returns F τ :=
  { mlatd := m, link := Link.start z framed m.output.sent, client := Client.SelectLoop.start framed }

/-- What can happen. -/
inductive Event (F : Type) where
  | server (e : Mlatd.Event F)
  | recv
  | pass
  | say (l : ServerLine)
  /-- The message loop drops its end of the channel. -/
  | leave
  | take (cut : Option Nat)
  | flush (cut : Option Nat)
  | finish (cut : Option Nat)
  /-- So many of the bytes written arrive. -/
  | arrive (n : Nat)
  /-- The client's loop runs, or loses the connection. -/
  | client (e : Client.SelectLoop.Event)

/-- The last of some frames in a row as bytes. -/
def decodeNext (inflate : Calls UInt8 UInt8 σ) (fuel : Nat) (before : List (List UInt8))
    (f : List UInt8) : Option (List UInt8) :=
  (decodeFrames inflate fuel inflate.start (before ++ [f])).getLast?.join

/-- One event. -/
def step (num : Numbers F) (solver : Solver F) (z : Calls UInt8 UInt8 τ)
    (inflate : Calls UInt8 UInt8 σ) (fuel : Nat) (r : Returns F τ) : Event F → Returns F τ
  | .server e => { r with mlatd := r.mlatd.step num solver e }
  | .recv => { r with link := r.link.recv r.mlatd.output.sent }
  | .pass => { r with link := r.link.pass }
  | .say l => { r with link := r.link.say l }
  | .leave => { r with link := { r.link with sending := false } }
  | .take cut => { r with link := r.link.take num z fuel cut }
  | .flush cut => { r with link := r.link.flush z fuel cut }
  | .finish cut => { r with link := r.link.finish z fuel cut }
  | .arrive n =>
    let chunk := (r.link.wire.drop r.client.stream.length).take n
    { r with client := r.client.step (decodeNext inflate fuel) (.arrive chunk) }
  -- Nothing else arrives.
  | .client (.arrive _) => r
  | .client e => { r with client := r.client.step (decodeNext inflate fuel) e }

end Returns

end Server

namespace Client

open Library F64 Proto

/-- A result as a position; the altitude is cut to 32 bits. -/
def ResultPos.fromJson {F : Type} [F64 F] (r : Json) : Option (ResultPos F) :=
  match ((r.get "addr").bind Json.asStr).bind fromStrRadix16, (r.get "lat").bind Json.asNum,
      (r.get "lon").bind Json.asNum with
  | some addr, some lat, some lon =>
    some { addr := addr, lat := lit lat, lon := lit lon
           altFt := toInt (-2 ^ 31) (2 ^ 31 - 1)
             (lit (((r.get "alt").bind Json.asNum).getD 0) : F) }
  | _, _, _ => none

/-- What the loop gives on of a line. -/
def resultOf {F : Type} [F64 F] (parse : List UInt8 → Option Json) (line : List UInt8) :
    Option (ResultPos F) :=
  (parse line).bind fun v =>
    match ServerMsg.parseLine v with
    | .result r => ResultPos.fromJson r
    | _ => none

end Client

end MlatBench
