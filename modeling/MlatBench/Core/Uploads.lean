import MlatBench.Core.Batch
import MlatBench.Core.Link

/-!
# Messages on Their Way Up

One session of a client, in bytes, from its engine to the shard of the connection.

The engine task tries to queue what its engine has for the server, one message after
the other, and drops a message that finds the queue full. The session takes messages
from the queue, and heartbeats come from its timer. In plain mode it writes each as a
line; else it gathers them in a batch, which goes out as a frame. A session may end
at any write, behind any of its bytes.

What was written arrives in pieces of any length at the message loop, which reads
lines or frames and gives `process_line_tx` the lines one by one, before it reads on.
What a line has the shard do is done at once. Calls of other connections and sweeps
come in between.

What was queued and what the lines parsed to are history.

## Main definitions

* `Writer`, `Writer.step`: The session's side.
* `linesOut`: The lines of what the message loop has read.
* `Uploads`, `Uploads.step`: The engine, the session, the connection and the shard.
-/

namespace MlatBench

namespace Client

open Library Server Proto

/-- Slots of a session's queue. -/
def upSlots : Nat := 4096

/-- The session's side: what its loop means to write, and what was written. -/
structure Writer (τ : Type) where
  framed : Bool
  loop : Batching τ
  sent : List UInt8
  finished : Bool

namespace Writer

variable {τ : Type} (toVec : Json → List UInt8) (z : Calls UInt8 UInt8 τ) (fuel : Nat)

def start (framed : Bool) : Writer τ :=
  { framed := framed, loop := Batching.start z, sent := [], finished := false }

/-- The loop without compression: every line is written. -/
def plainStep (s : Batching τ) : Batching.Event → Batching τ
  | .message m => { s with taken := s.taken ++ [m], wire := s.wire ++ toLine toVec m }
  | .heartbeat =>
    { s with taken := s.taken ++ [.heartbeat], wire := s.wire ++ toLine toVec .heartbeat }
  | .flush => s

def loopStep (s : Writer τ) (e : Batching.Event) : Batching τ :=
  if s.framed then s.loop.step toVec z fuel e else plainStep toVec s.loop e

/-- A turn of the loop; `cut` says that the session ends here, behind how many of
    the bytes that are to be written. -/
def step (s : Writer τ) (e : Batching.Event) (cut : Option Nat) : Writer τ :=
  if s.finished then s
  else
    let loop := s.loopStep toVec z fuel e
    let bytes := loop.wire.drop s.loop.wire.length
    let written := match cut with
      | none => bytes
      | some k => bytes.take k
    { s with
      loop := loop, sent := s.sent ++ written, finished := cut.isSome || loop.halted.isSome }

end Writer

end Client

namespace Server

open Library

/-- The lines of what the message loop has read. -/
def linesOut {σ : Type} (inflate : Calls UInt8 UInt8 σ) (fuel : Nat) (framed : Bool)
    (processed : List (List UInt8)) : List (List UInt8) :=
  if framed then linesSeen inflate fuel processed else processed

end Server

open Library F64 F64Fn Proto Client Server

/-- An engine, a session with one of its servers, the connection there, and the
    shard behind it. `offers` is what the engine task still has to queue, `lines`
    what the message loop has read and not looked at. -/
structure Uploads (F τ : Type) where
  engine : Engine
  server : Nat
  offers : List ClientMsg
  queue : List ClientMsg
  writer : Writer τ
  uplink : Uplink
  lines : List (List UInt8)
  requested : List String
  receiver : RxRef
  state : State F
  queued : List ClientMsg
  heard : List (Option Json)

namespace Uploads

variable {F τ σ : Type} [F64Fn F]

/-- The receiver has just joined a shard. -/
def new (z : Library.Calls UInt8 UInt8 τ) (framed wantsStats : Bool) (user : String)
    (now : Instant) (nServers server : Nat) (s : State F) (info : ReceiverInfo F) :
    Uploads F τ :=
  { engine := Engine.new user now nServers, server := server, offers := [], queue := []
    writer := Writer.start z framed, uplink := Uplink.start framed wantsStats, lines := []
    requested := [], receiver := (s.addReceiver info).2, state := (s.addReceiver info).1
    queued := [], heard := [] }

/-- What can happen. -/
inductive Event (F : Type) where
  /-- The engine task's timer fires, or it takes an event. -/
  | tick (now : Instant) (order : List UInt32)
  | take (now : Instant) (ev : Ev)
  /-- It tries to queue a message. -/
  | offer
  /-- The session takes a message, its flush timer fires, or its heartbeat timer. -/
  | message (cut : Option Nat)
  | flush (cut : Option Nat)
  | heartbeat (cut : Option Nat)
  /-- So many of the bytes written arrive, and the stream ends. -/
  | arrive (n : Nat)
  | close
  /-- The message loop's read runs, its timers fire, or it gives up. -/
  | poll
  | push (p : Push)
  | idle
  /-- `process_line_tx` takes the next line. -/
  | serve (now : Nat) (atScaled : F)
  /-- The shard takes a call of another connection, or sweeps. -/
  | other (e : State.Event F)

/-- What the engine has for this server is to be queued. -/
def emit (u : Uploads F τ) (out : Engine × List Outbound) : Uploads F τ :=
  { u with engine := out.1, offers := Engine.messagesTo u.server out.2 }

/-- The queue takes a message, or the message is dropped. -/
def offer (u : Uploads F τ) : Uploads F τ :=
  match u.offers with
  | [] => u
  | m :: offers =>
    if u.queue.length < upSlots then
      { u with offers := offers, queue := u.queue ++ [m], queued := u.queued ++ [m] }
    else { u with offers := offers }

/-- The session takes a message from its queue. -/
def message (toVec : Json → List UInt8) (z : Library.Calls UInt8 UInt8 τ) (fuel : Nat)
    (u : Uploads F τ) (cut : Option Nat) : Uploads F τ :=
  match u.queue with
  | [] => u
  | m :: queue =>
    if u.writer.finished then u
    else { u with queue := queue, writer := u.writer.step toVec z fuel (.message m) cut }

/-- The message loop's read runs, when there is no line to look at. -/
def poll (inflate : Library.Calls UInt8 UInt8 σ) (fuel : Nat) (u : Uploads F τ) : Uploads F τ :=
  if u.lines ≠ [] then u
  else
    let uplink := u.uplink.step (decodes inflate fuel) .poll
    { u with
      uplink := uplink
      lines := (linesOut inflate fuel uplink.framed uplink.processed).drop
        (linesOut inflate fuel u.uplink.framed u.uplink.processed).length }

/-- What a value has the shard do is done. -/
def process (solver : Solver F) (u : Uploads F τ) (now : Nat) (atScaled : F) (v : Json) :
    Uploads F τ :=
  let (requested, _, up) := processLine u.requested v atScaled
  let u := { u with requested := requested }
  match up with
  | none => u
  | some up => { u with state := u.state.step solver ((up.toShard u.receiver).event now) }

/-- A line that does not parse is passed over. -/
def serve (parse : List UInt8 → Option Json) (solver : Solver F) (u : Uploads F τ) (now : Nat)
    (atScaled : F) : Uploads F τ :=
  match u.lines with
  | [] => u
  | line :: lines =>
    let u := { u with lines := lines, heard := u.heard ++ [parse line] }
    match parse line with
    | none => u
    | some v => u.process solver now atScaled v

section

variable (toVec : Json → List UInt8) (z : Library.Calls UInt8 UInt8 τ)
  (inflate : Library.Calls UInt8 UInt8 σ) (fuel : Nat) (parse : List UInt8 → Option Json)
  (solver : Solver F)

/-- What the reader of the message loop is in for. -/
def read (u : Uploads F τ) (e : Uplink.Event) : Uploads F τ :=
  { u with uplink := u.uplink.step (decodes inflate fuel) e }

def step (u : Uploads F τ) : Event F → Uploads F τ
  | .tick now order => if u.offers ≠ [] then u else u.emit (u.engine.tick now order)
  | .take now ev => if u.offers ≠ [] then u else u.emit (u.engine.onEv now ev)
  | .offer => u.offer
  | .message cut => u.message toVec z fuel cut
  | .flush cut => { u with writer := u.writer.step toVec z fuel .flush cut }
  | .heartbeat cut => { u with writer := u.writer.step toVec z fuel .heartbeat cut }
  | .arrive n =>
    u.read inflate fuel (.arrive ((u.writer.sent.drop u.uplink.stream.length).take n))
  | .close => u.read inflate fuel .close
  | .poll => u.poll inflate fuel
  -- A timer is looked at when the lines are done.
  | .push p => if u.lines ≠ [] then u else u.read inflate fuel (.tick p)
  | .idle => if u.lines ≠ [] then u else u.read inflate fuel .idle
  | .serve now atScaled => u.serve parse solver now atScaled
  | .other e => if Link.foreign u.receiver e then { u with state := u.state.step solver e } else u

end

end Uploads

end MlatBench
