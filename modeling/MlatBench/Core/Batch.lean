import MlatBench.Core.Downlink
import MlatBench.Core.Framing
import MlatBench.Core.Proto

/-!
# Batches

The uplink of a compressing session. `server_session` gathers lines in a batch:
the messages it takes and the heartbeats of its timer. A batch goes out as one
frame, when the flush timer fires and when the next message would make it longer
than 32 KiB; a heartbeat does not look at the length. At the other end the frames
that `handle_client` has read are decompressed and split into lines.

The writer's text level is `serde_json`'s business and a parameter, as are the
compressor and the decompressor.

## Main definitions

* `toLine`: A message as it is sent.
* `Batching`, `Batching.step`, `Batching.run`: The loop, as far as the uplink goes.
* `readFrames`: The loop at the other end.
* `linesSeen`: The lines in the frames it has read.
-/

namespace MlatBench

namespace Client

open Library Server Framing Proto

/-- A message as text. -/
def lineOf (toVec : Json → List UInt8) (m : ClientMsg) : List UInt8 := toVec m.toJson

/-- A message as it is sent. -/
def toLine (toVec : Json → List UInt8) (m : ClientMsg) : List UInt8 := lineOf toVec m ++ [newline]

/-- Why nothing is sent any more. -/
inductive Halt where
  | failed (e : FramingError)
  -- The compressor is called over and over.
  | running
deriving DecidableEq

/-- The loop of `server_session`: the compressor, the batch, the messages taken,
    and the bytes written. -/
structure Batching (τ : Type) where
  enc : τ
  batch : List UInt8
  taken : List ClientMsg
  wire : List UInt8
  halted : Option Halt

namespace Batching

variable {τ : Type} (toVec : Json → List UInt8) (z : Calls UInt8 UInt8 τ) (fuel : Nat)

def start : Batching τ :=
  { enc := z.start, batch := [], taken := [], wire := [], halted := none }

/-- The batch goes out, if there is one. An error ends the session. -/
def sendBatch (s : Batching τ) : Batching τ :=
  if s.batch = [] then s
  else
    match encodeFrame z fuel s.enc s.batch with
    | .ok frame enc => { s with enc := enc, batch := [], wire := s.wire ++ frame }
    | .error e => { s with halted := some (.failed e) }
    | .running => { s with halted := some .running }

inductive Event where
  | message (m : ClientMsg)
  | flush
  | heartbeat

def step (s : Batching τ) : Event → Batching τ
  | .message m =>
    if s.halted.isSome then s
    else
      let line := toLine toVec m
      let s := { s with taken := s.taken ++ [m] }
      if 32 * 1024 < s.batch.length + line.length then
        let s := s.sendBatch z fuel
        if s.halted.isSome then s else { s with batch := s.batch ++ line }
      else { s with batch := s.batch ++ line }
  | .flush => if s.halted.isSome then s else s.sendBatch z fuel
  | .heartbeat =>
    if s.halted.isSome then s
    else { s with
      batch := s.batch ++ toLine toVec .heartbeat, taken := s.taken ++ [.heartbeat] }

/-- A session. -/
def run (es : List Event) : Batching τ := exec (step toVec z fuel) (start z) es

end Batching

end Client

namespace Server

open Library Framing

variable {σ : Type} (z : Calls UInt8 UInt8 σ) (fuel : Nat)

/-- The decompressor takes a frame behind those before it. -/
def decodes (before : List (List UInt8)) (f : List UInt8) : Bool :=
  (decodeFrames z fuel z.start (before ++ [f])).all Option.isSome

/-- The lines that `process_line_tx` sees of the frames that were read. -/
def linesSeen (frames : List (List UInt8)) : List (List UInt8) :=
  (decodeFrames z fuel z.start frames).flatMap fun chunk =>
    Client.Downlink.frameLines (chunk.getD [])

/-- The loop of `handle_client` on frames. -/
def readFrames (wantsStats : Bool) (es : List Uplink.Event) : Uplink :=
  exec (Uplink.step (decodes z fuel)) (Uplink.start true wantsStats) es

end Server

end MlatBench
