import MlatBench.Core.Handshake
import MlatBench.Core.Records
import MlatBench.Core.Tap
import MlatBench.Core.Uploads

/-!
# Generated Captures

What the simulator has made goes to a server by way of a file. `gen` writes a file
for each client: its handshake is the connect record, and each record of lines, as
it is framed, one of the client's. `feed_client` reads the file, sends the handshake,
compares the compression that the server names with that of the manifest, and sends
the rest.

A handshake gives its position as numbers of JSON, which `number` makes of floating
point; a number that is not finite has none. The server is asked by its answer.

## Main definitions

* `Sim.Handshake.message`: What a generated client says of itself.
* `Sim.wireRecords`, `Sim.clientCapture`: What `gen` writes.
* `Capture.replayFile`: What `feed_client` sends.
* `Server.reply`: What it makes of the server's answer.
-/

namespace MlatBench

open Library F64 Framing Server

namespace Sim

section

variable {F R τ : Type}

def ClockSpec.clockType : ClockSpec F → Proto.ClockType
  | .dump1090 .. => .dump1090
  | .radarcapeGps .. => .radarcapeGps

/-- What a generated client says of itself. -/
def Handshake.message (number : F → Option ℚ) (version : String) (compress : Client.Compress)
    (clock : ClockSpec F) (h : Handshake F) : Proto.ClientHandshake :=
  { version := 3, user := h.user, uuid := none, compress := [compress], lat := number h.lat
    lon := number h.lon, alt := number h.alt, clockType := clock.clockType
    returnResults := some false, returnResultFormat := none
    clientVersion := some ("mlat-bench " ++ version), selectiveTraffic := none
    heartbeat := none, returnStats := none }

/-- The handshake of a client, if its compression is known. -/
def ClientStream.message (number : F → Option ℚ) (version : String) (clock : ClockSpec F)
    (client : ClientStream F) : Option Proto.ClientHandshake :=
  (Client.compressOf client.compress).map fun c => client.handshake.message number version c clock

/-- Records as they are sent. -/
def wireRecords (text : Line F → List UInt8) (z : Library.Calls UInt8 UInt8 τ) (fuelZ : Nat)
    (compress : String) (rs : List (SendRecord F)) : Option (List WireRecord) :=
  let chunks := rs.map (SendRecord.bytes text)
  let wires := if compress = "none" then some chunks else encodeFrames z fuelZ z.start chunks
  wires.map fun ws => (rs.zip ws).map fun (r, w) => { t := r.t, bytes := w }

/-- The records of a client's file. -/
def captureRecords (handshake : List UInt8) (ws : List WireRecord) : List Capture.Record :=
  { tNanos := 0, kind := Capture.recConnect, payload := handshake } ::
    ws.map fun w =>
      { tNanos := UInt64.ofNat w.t, kind := Capture.recC2s, payload := w.bytes }

/-- A client's file. -/
def clientCapture (json : Json → String) (id : String) (handshake : List UInt8)
    (ws : List WireRecord) : List UInt8 :=
  Capture.clientFile json id (captureRecords handshake ws)

end

end Sim

namespace Capture

/-- What a replay sends of a file to a server that answers a line. -/
def replayFile (entryCompress : String) (ask : List UInt8 → Reply) (file : List UInt8) :
    Except CaptureError (List UInt8) :=
  match clientRecords file with
  | .error e => .error e
  | .ok z =>
    let items := RecordIter.items (z.length + 1) z
    let reply := match items with
      | .ok first :: _ => ask first.payload
      | _ => .deny
    .ok (feedClient entryCompress reply items)

end Capture

namespace Server

open Capture Proto

/-- What a replay makes of an answer. -/
def replyOf (v : Json) : Reply :=
  match Client.parseHandshakeReply v with
  | .ok (.accept c) => .accept (compressName c)
  | _ => .deny

/-- What it makes of the server's answer to a line. -/
def reply (F : Type) [F64Fn F] (parse : List UInt8 → Except String Json) (line : List UInt8) :
    Reply :=
  match (greet parse line : Except String (Answer F × List UInt8)) with
  | .ok (a, _) => replyOf a.json
  | .error _ => .deny

end Server

end MlatBench
