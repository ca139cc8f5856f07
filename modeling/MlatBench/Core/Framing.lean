import MlatBench.Core.Uplink
import MlatBench.Library.Calls
import MlatBench.Library.Words

/-!
# Framing

The frames of `mb-proto`: a big-endian length and a payload, which is what a
compressor that is never reset makes of some lines, up to a sync flush, without
the flush's trailer.

The compressor and the decompressor are parameters that work in calls on a
buffer with so much room. Both loops go on until a test on the call just made
says that the frame is done; they run on fuel.

## Main definitions

* `encodeFrame`: Lines to a frame.
* `decodeFrame`: A frame to lines.
* `decodeFrames`: Frames in a row.
-/

namespace MlatBench

namespace Framing

open Library Server

/-- The trailer of a sync flush. -/
def syncTrailer : List UInt8 := [0x00, 0x00, 0xff, 0xff]

inductive FramingError where
  | zlib
  | trailerMissing
  | tooLarge (bytes : Nat)
  | shortFrame
  | lengthHeader (want bytes : Nat)
  | inflate
deriving DecidableEq

/-- What a loop comes to; it may still be running. -/
inductive Coded (σ : Type) where
  | ok (bytes : List UInt8) (s : σ)
  | error (e : FramingError)
  | running

variable {σ τ : Type}

def endsWithSync (b : List UInt8) : Bool := syncTrailer.isSuffixOf b

/-- The compressor is called until it has taken the lines and what it gave ends
    with the trailer; `len` is the buffer's length. -/
def deflateLoop (z : Calls UInt8 UInt8 τ) : Nat → τ → List UInt8 → List UInt8 → Nat → Coded τ
  | 0, _, _, _, _ => .running
  | fuel + 1, s, rest, out, len =>
    match z.call s rest (len - out.length) with
    | none => .error .zlib
    | some (n, ys, ended, s) =>
      let out := out ++ ys
      if ended then .ok out s
      else if rest.drop n = [] ∧ endsWithSync out then .ok out s
      else deflateLoop z fuel s (rest.drop n) out (len + 4096)

/-- Lines, each with its newline, to a frame. -/
def encodeFrame (z : Calls UInt8 UInt8 τ) (fuel : Nat) (s : τ) (lines : List UInt8) : Coded τ :=
  match deflateLoop z fuel s lines [] (lines.length + 1024) with
  | .ok out s =>
    if endsWithSync out = false then .error .trailerMissing
    else
      let payload := out.take (out.length - 4)
      if 65535 < payload.length then .error (.tooLarge payload.length)
      else .ok (beBytes 2 payload.length ++ payload) s
  | .error e => .error e
  | .running => .running

/-- The decompressor is called until it has taken the payload and the trailer;
    `len` is the buffer's length. -/
def inflateLoop (z : Calls UInt8 UInt8 σ) : Nat → σ → List UInt8 → List UInt8 → Nat → Coded σ
  | 0, _, _, _, _ => .running
  | fuel + 1, s, rest, out, len =>
    match z.call s rest (len - out.length) with
    | none => .error .inflate
    | some (n, ys, ended, s) =>
      let out := out ++ ys
      if ended then .ok out s
      else if rest.drop n = [] then .ok out s
      else inflateLoop z fuel s (rest.drop n) out (len + 64 * 1024)

/-- A frame to lines. -/
def decodeFrame (z : Calls UInt8 UInt8 σ) (fuel : Nat) (s : σ) (frame : List UInt8) : Coded σ :=
  if frame.length < 2 then .error .shortFrame
  else
    let payload := frame.drop 2
    if payload.length ≠ frameLen frame then .error (.lengthHeader (frameLen frame) payload.length)
    else inflateLoop z fuel s (payload ++ syncTrailer) [] (64 * 1024)

/-- Frames in a row, up to one that fails. -/
def decodeFrames (z : Calls UInt8 UInt8 σ) (fuel : Nat) :
    σ → List (List UInt8) → List (Option (List UInt8))
  | _, [] => []
  | s, f :: fs =>
    match decodeFrame z fuel s f with
    | .ok bytes s => some bytes :: decodeFrames z fuel s fs
    | _ => [none]

end Framing

end MlatBench
