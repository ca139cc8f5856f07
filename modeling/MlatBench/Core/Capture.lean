import MlatBench.Core.Proto
import MlatBench.Library.Words

/-!
# Capture Files

The record stream of one client in a capture, below the compression: a magic, a
header line of JSON, and records of a time, a type, a length and a payload.
Numbers are little-endian.

The writer's text level is `serde_json`'s business and a parameter. The reader
takes bytes off what is left of the stream; what it reads short is gone.

## Main definitions

* `Record`, `Record.bytes`: A record and how it is written.
* `clientWriter`, `clientFile`: The start of a stream, and a stream.
* `readExact`, `readLine`: The reads of the standard library.
* `clientRecords`: The start is read.
* `RecordIter.next`, `RecordIter.calls`: Records are read.
-/

namespace MlatBench

namespace Capture

open Library

def recC2s : UInt8 := 0x01

def recS2c : UInt8 := 0x02

def recConnect : UInt8 := 0x03

def recDisconnect : UInt8 := 0x04

structure Record where
  tNanos : UInt64
  kind : UInt8
  payload : List UInt8
deriving DecidableEq

/-- What reading may fail with. -/
inductive CaptureError where
  | unexpectedEof
  | invalidData
  | format (text : String)
deriving DecidableEq

def mbcMagic : List UInt8 := [0x4d, 0x42, 0x43, 0x31]

def newline : UInt8 := 0x0a

/-- The bytes of a text. -/
def utf8 (s : String) : List UInt8 :=
  s.toByteArray.data.toList

/-- The start of a client's stream. -/
def clientWriter (json : Json → String) (id : String) : List UInt8 :=
  mbcMagic ++ utf8 (json (.obj [("id", .str id)])) ++ [newline]

/-- A record as it is written; the length is cast to 32 bits. -/
def Record.bytes (r : Record) : List UInt8 :=
  leBytes 8 r.tNanos.toNat ++ ([r.kind] ++ (leBytes 4 (r.payload.length % 2 ^ 32) ++ r.payload))

/-- Records one after the other. -/
def serialise (rs : List Record) : List UInt8 :=
  rs.flatMap Record.bytes

/-- A client's stream. -/
def clientFile (json : Json → String) (id : String) (rs : List Record) : List UInt8 :=
  clientWriter json id ++ serialise rs

/-- So many bytes, or nothing if there are fewer. -/
def readExact (n : Nat) (z : List UInt8) : Option (List UInt8 × List UInt8) :=
  if n ≤ z.length then some (z.take n, z.drop n) else none

/-- Bytes up to a newline and with it, or all of them; they must be text. -/
def readLine (z : List UInt8) : Except CaptureError (List UInt8 × List UInt8) :=
  let body := z.takeWhile (· ≠ newline)
  let rest := z.dropWhile (· ≠ newline)
  let line := body ++ rest.take 1
  if (ByteArray.mk line.toArray).IsValidUTF8 then .ok (line, rest.drop 1) else .error .invalidData

/-- The start of a stream is read; what is left are the records. -/
def clientRecords (file : List UInt8) : Except CaptureError (List UInt8) :=
  match readExact 4 file with
  | none => .error .unexpectedEof
  | some (magic, z) =>
    if magic ≠ mbcMagic then .error (.format "bad MBC magic")
    else
      match readLine z with
      | .error e => .error e
      | .ok (_, z) => .ok z

namespace RecordIter

/-- The next record, and what is left. The end of the stream is looked for at
    the time only. -/
def next (z : List UInt8) : Option (Except CaptureError Record) × List UInt8 :=
  match readExact 8 z with
  | none => (none, [])
  | some (t, z) =>
    match readExact 1 z with
    | none => (some (.error .unexpectedEof), [])
    | some (kind, z) =>
      match readExact 4 z with
      | none => (some (.error .unexpectedEof), [])
      | some (len, z) =>
        match readExact (leValue len) z with
        | none => (some (.error .unexpectedEof), [])
        | some (payload, z) =>
          (some (.ok { tNanos := UInt64.ofNat (leValue t), kind := kind.headD 0
                       payload := payload }), z)

/-- What so many calls in a row give. -/
def calls : Nat → List UInt8 → List (Option (Except CaptureError Record))
  | 0, _ => []
  | n + 1, z => (next z).1 :: calls n (next z).2

end RecordIter

end Capture

end MlatBench
