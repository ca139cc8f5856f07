import MlatBench.Core.Framing
import MlatBench.Core.Gen

/-!
# Records

What `frame_lines` writes. A line is a text and a newline. Without compression a
record is its line; with it, it is the frame of its lines, made by one compressor
that is never reset. An error of the compressor is the end of it.

## Main definitions

* `WireRecord`: Bytes that are sent at a time.
* `SendRecord.bytes`: The lines of a record.
* `encodeFrames`: Frames in a row, made by one compressor.
* `frameBytes`: Lines into records, with the bytes that are sent.
* `decodedBytes`: What a decoder gets of them.
-/

namespace MlatBench

namespace Sim

open Library F64Ln Server Framing

/-- Bytes that are sent at a time. -/
structure WireRecord where
  t : Nat
  bytes : List UInt8

section

variable {F R σ τ : Type} (text : Line F → List UInt8) (z : Calls UInt8 UInt8 τ) (fuelZ : Nat)

/-- A line with its newline. -/
def Line.bytes (l : Line F) : List UInt8 := text l ++ [newline]

/-- The lines of a record. -/
def SendRecord.bytes (r : SendRecord F) : List UInt8 := r.lines.flatMap (Line.bytes text)

/-- Frames in a row, made by one compressor. -/
def encodeFrames : τ → List (List UInt8) → Option (List (List UInt8))
  | _, [] => some []
  | s, chunk :: chunks =>
    match encodeFrame z fuelZ s chunk with
    | .ok frame s => (encodeFrames s chunks).map (frame :: ·)
    | _ => none

/-- Lines into records, by the compression the client asks for. -/
def frameBytes [F64Ln F] (rand : Rand F R) (fuel : Nat) (compress : String)
    (latencyS jitterS : F) (lines : List (Line F)) (rng : R) : Option (List WireRecord) :=
  match frameLines rand fuel compress latencyS jitterS lines rng with
  | none => none
  | some rs =>
    let chunks := rs.map (SendRecord.bytes text)
    let wires := if compress = "none" then some chunks else encodeFrames z fuelZ z.start chunks
    wires.map fun ws => (rs.zip ws).map fun (r, w) => { t := r.t, bytes := w }

/-- What is read of records, with one decoder if they are compressed. -/
def decodedBytes (y : Calls UInt8 UInt8 σ) (fuelY : Nat) (compress : String)
    (ws : List WireRecord) : List (Option (List UInt8)) :=
  if compress = "none" then ws.map fun w => some w.bytes
  else decodeFrames y fuelY y.start (ws.map WireRecord.bytes)

end

end Sim

end MlatBench
