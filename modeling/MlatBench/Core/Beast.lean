import MlatBench.Core.Engine
import MlatBench.Core.Frames
import MlatBench.Library.Incremental
import MlatBench.Library.Words

/-!
# The Beast Format

The receiver's byte stream. A message is an escape byte, a type, six bytes of
counter, a signal byte and the frame; an escape byte inside is doubled. Mode A/C
messages are read and dropped, bytes outside a message are skipped, and a
message cut short by the start of another is given up.

Messages are written for a recorded stream that is served again, and for the
positions that go to other programs, as a pair of frames each.

## Main definitions

* `Beast.readPayload`: The loop that undoes the doubling.
* `Beast.parseAt`: One message.
* `Beast.decoder`: One turn of the loop over the buffer.
* `BeastDecoder`, `BeastDecoder.feed`: The decoder and a piece of the stream.
* `BeastDecoder.feedAll`: The pieces one by one.
* `Beast.escaped`, `Beast.encode`: A message is written.
* `beastServe`, `ResultPos.beastBytes`: What is written.

## Theorems

* `Beast.readPayload_stop`, `Beast.parseAt_consumes`: What a message takes.
-/

namespace MlatBench

namespace Client

open Library

namespace Beast

/-- The escape byte. -/
def escape : UInt8 := 0x1a

/-- How the reading of a payload ends. -/
inductive Payload where
  | needMore
  /-- An escape byte that is not doubled stands at the index. -/
  | truncated (i : Nat)
  | complete (i : Nat) (payload : List UInt8)

/-- Read until the payload has the length wanted. The bytes left start at index
    `i` of the message. -/
def readPayload (want : Nat) : List UInt8 → Nat → List UInt8 → Payload
  | payload, i, [] => if want ≤ payload.length then .complete i payload else .needMore
  | payload, i, c :: rest =>
    if want ≤ payload.length then .complete i payload
    else if c = escape then
      match rest with
      | [] => .needMore
      | d :: rest =>
        if d = escape then readPayload want (payload ++ [escape]) (i + 2) rest else .truncated i
    else readPayload want (payload ++ [c]) (i + 1) rest

/-- The frame length of a message type. -/
def frameLen (type : UInt8) : Option Nat :=
  if type = 0x31 then some 2
  else if type = 0x32 then some 7
  else if type = 0x33 then some 14
  else none

/-- Six bytes, the first the most significant. -/
def beCounts (b : List UInt8) : Nat :=
  b.foldl (fun n c => n * 256 + c.toNat) 0

/-- The message at the front, which starts with an escape byte: how many bytes
    it takes and the reception it is. -/
def parseAt (b : List UInt8) : Option (Nat × Option Reception) :=
  match b with
  | [] => none
  | [_] => none
  | _ :: type :: rest =>
    match frameLen type with
    -- A stray escape, or noise.
    | none => some (1, none)
    | some len =>
      match readPayload (6 + 1 + len) [] 2 rest with
      | .needMore => none
      | .truncated i => some (i, none)
      | .complete i payload =>
        if len = 2 then some (i, none)
        else some (i, some
          { counts12mhz := beCounts (payload.take 6), frame := payload.drop 7 })

/-- Where the reading of a payload ends, if it does. -/
def Payload.stop : Payload → Option Nat
  | .needMore => none
  | .truncated i => some i
  | .complete i _ => some i

/-- Reading stays within the bytes that are there. -/
theorem readPayload_stop (want : Nat) (payload : List UInt8) (i : Nat) (rest : List UInt8)
    (j : Nat) (h : (readPayload want payload i rest).stop = some j) :
    i ≤ j ∧ j ≤ i + rest.length := by
  fun_induction readPayload want payload i rest with
  | case1 payload i hfull =>
      have hj : i = j := Option.some.inj h
      omega
  | case2 payload i hfull => exact absurd h (by simp only [Payload.stop, reduceCtorEq,
      not_false_eq_true])
  | case3 payload i c rest hfull =>
      have hj : i = j := Option.some.inj h
      omega
  | case4 payload i hfull => exact absurd h (by simp only [Payload.stop, reduceCtorEq,
      not_false_eq_true])
  | case5 payload i hfull rest ih =>
      have hrest := ih h
      simp only [List.length_cons]
      omega
  | case6 payload i hfull d rest hd =>
      have hj : i = j := Option.some.inj h
      omega
  | case7 payload i c rest hfull hc ih =>
      have hrest := ih h
      simp only [List.length_cons]
      omega

/-- A message takes at least one byte, and no more than there are. -/
theorem parseAt_consumes (b : List UInt8) (n : Nat) (r : Option Reception)
    (h : parseAt b = some (n, r)) : 0 < n ∧ n ≤ b.length := by
  unfold parseAt at h
  split at h
  · exact absurd h (by simp only [reduceCtorEq, not_false_eq_true])
  · exact absurd h (by simp only [reduceCtorEq, not_false_eq_true])
  · rename_i c type rest
    simp only [List.length_cons]
    cases hlen : frameLen type with
    | none =>
        simp only [hlen, Option.some.injEq, Prod.mk.injEq] at h
        omega
    | some len =>
        simp only [hlen] at h
        have hstop := readPayload_stop (6 + 1 + len) [] 2 rest
        cases hread : readPayload (6 + 1 + len) [] 2 rest with
        | needMore =>
            simp only [hread, reduceCtorEq] at h
        | truncated i =>
            simp only [hread, Option.some.injEq, Prod.mk.injEq] at h
            have hi := hstop i (by rw [hread]; rfl)
            omega
        | complete i payload =>
            have hi := hstop i (by rw [hread]; rfl)
            simp only [hread] at h
            split_ifs at h
            · simp only [Option.some.injEq, Prod.mk.injEq] at h
              omega
            · simp only [Option.some.injEq, Prod.mk.injEq] at h
              omega

/-- One turn of the loop over the buffer: a byte outside a message is skipped,
    and a message that is not all there stops the loop. -/
def decoder : Decoder UInt8 Reception where
  next b :=
    match b with
    | [] => none
    | c :: _ => if c ≠ escape then some (1, none) else parseAt b
  consumes := by
    intro b n r h
    cases b with
    | nil => exact absurd h (by simp only [reduceCtorEq, not_false_eq_true])
    | cons c rest =>
        by_cases hc : c ≠ escape
        · simp only [if_pos hc, Option.some.injEq, Prod.mk.injEq] at h
          simp only [List.length_cons]
          omega
        · simp only [if_neg hc] at h
          exact parseAt_consumes (c :: rest) n r h

end Beast

/-- What waits for the rest of its message. -/
structure BeastDecoder where
  buf : List UInt8 := []

namespace BeastDecoder

/-- A piece of the stream: the receptions it completes. -/
def feed (d : BeastDecoder) (bytes : List UInt8) : BeastDecoder × List Reception :=
  let (out, rest) := Beast.decoder.scan (d.buf ++ bytes)
  (⟨rest⟩, out)

/-- The pieces one by one: all receptions they complete. -/
def feedAll (d : BeastDecoder) (chunks : List (List UInt8)) : BeastDecoder × List Reception :=
  chunks.foldl (fun (acc : BeastDecoder × List Reception) bytes =>
    let (d, out) := acc.1.feed bytes
    (d, acc.2 ++ out)) (d, [])

end BeastDecoder

namespace Beast

/-- Every escape byte is doubled. -/
def escaped (payload : List UInt8) : List UInt8 :=
  payload.flatMap fun b => if b = escape then [escape, escape] else [b]

/-- One message. Of the counter the six lowest bytes are written. -/
def encode (counts12mhz : UInt64) (signal : UInt8) (frame : List UInt8) : List UInt8 :=
  [escape, if frame.length = 7 then 0x32 else 0x33] ++
    escaped ((beBytes 8 counts12mhz.toNat).drop 2 ++ ([signal] ++ frame))

end Beast

/-- A reception of a recorded stream is served. -/
def beastServe (counts12mhz : UInt64) (frame : List UInt8) : List UInt8 :=
  Beast.encode counts12mhz 0xA0 frame

/-- A position that was computed. -/
structure ResultPos (F : Type) where
  addr : UInt32
  lat : F
  lon : F
  altFt : Int

/-- The position as a pair of frames, each with a counter that says where it is
    from. -/
def ResultPos.beastBytes {F : Type} [F64Fn F] (p : ResultPos F) : Option (List UInt8) :=
  (Modes.df18PositionPair ⟨p.addr⟩ p.altFt p.lat p.lon).map fun (even, odd) =>
    [even, odd].flatMap fun f =>
      [0x1a, 0x33, 0xff, 0x00, 0x4d, 0x4c, 0x41, 0x54, 0x00] ++ Beast.escaped f

end Client

end MlatBench
