import MlatBench.Core.Backoff
import MlatBench.Core.Daemon
import MlatBench.Core.Returns

/-!
# The Handshake

How a connection starts, for both sides. The client sends one line that says what
it is and which compressions it knows. The server looks for the one it prefers and
for a position, and answers in one line, which accepts or denies. Both lines are
plain; what comes behind them travels as was agreed.

`serde_json` reads and writes lines, and is a parameter where it does. The server
writes its answer as text itself; `Answer.json` is the value of that text. A
position that is not finite is written as `null`.

## Main definitions

* `Proto.ClockType`, `Proto.ClientHandshake`: What a client says of itself.
* `Client.mlatcHandshake`: What `mlatc` says.
* `Server.Answer`, `Server.answer`: What the server makes of it.
* `Answer.text`, `Answer.json`: The answer as it is written, and as it is read.
* `Server.greet`: The server up to its message loop.
* `Client.greeted`: The client up to its loop.
* `Client.framedUp`, `Client.framedDown`, `Server.framedUp`, `Server.framedDown`: How
  lines travel for each side.
-/

namespace MlatBench

open Library F64 F64Fn

def Json.asBool : Json → Option Bool
  | .bool b => some b
  | _ => none

/-- A line with its newline, or what there is of it, and what is behind. -/
def firstLine (stream : List UInt8) : List UInt8 × List UInt8 :=
  let body := stream.takeWhile (· ≠ Server.newline)
  let rest := stream.dropWhile (· ≠ Server.newline)
  (body ++ rest.take 1, rest.drop 1)

namespace Proto

/-- Clock types. -/
inductive ClockType where
  | radarcapeGps
  | beast
  | radarcape12mhz
  | sbs
  | dump1090
  | unknown
deriving DecidableEq

/-- The name on the wire. -/
def ClockType.name : ClockType → String
  | .radarcapeGps => "radarcape_gps"
  | .beast => "beast"
  | .radarcape12mhz => "radarcape_12mhz"
  | .sbs => "sbs"
  | .dump1090 => "dump1090"
  | .unknown => "unknown"

/-- Counter frequency in Hz. -/
def ClockType.freqHz {F : Type} [F64 F] : ClockType → F
  | .radarcapeGps => lit 1000000000
  | .beast => lit 12000000
  | .radarcape12mhz => lit 12000000
  | .sbs => lit 20000000
  | .dump1090 => lit 12000000
  | .unknown => lit 12000000

/-- The name on the wire. -/
def compressName : Client.Compress → String
  | .none => "none"
  | .zlib => "zlib"
  | .zlib2 => "zlib2"

/-- The handshake line. -/
structure ClientHandshake where
  version : Nat
  user : String
  uuid : Option String
  compress : List Client.Compress
  lat : Option ℚ
  lon : Option ℚ
  alt : Option ℚ
  clockType : ClockType
  returnResults : Option Bool
  returnResultFormat : Option String
  clientVersion : Option String
  selectiveTraffic : Option Bool
  heartbeat : Option Bool
  returnStats : Option Bool

/-- A number, if it is finite. -/
def jsonNumber (x : Option ℚ) : Json :=
  match x with
  | some q => .num q
  | none => .null

/-- A field that is left out when it is not set. -/
def optional (key : String) (v : Option Json) : List (String × Json) :=
  (v.map fun v => (key, v)).toList

/-- The value of the line, its keys in order. -/
def ClientHandshake.toJson (h : ClientHandshake) : Json :=
  .obj ([("alt", jsonNumber h.alt)] ++ optional "client_version" (h.clientVersion.map .str) ++
    [("clock_type", .str h.clockType.name),
      ("compress", .arr (h.compress.map fun c => .str (compressName c)))] ++
    optional "heartbeat" (h.heartbeat.map .bool) ++
    [("lat", jsonNumber h.lat), ("lon", jsonNumber h.lon)] ++
    optional "return_result_format" (h.returnResultFormat.map .str) ++
    optional "return_results" (h.returnResults.map .bool) ++
    optional "return_stats" (h.returnStats.map .bool) ++
    optional "selective_traffic" (h.selectiveTraffic.map .bool) ++ [("user", .str h.user)] ++
    optional "uuid" (h.uuid.map .str) ++ [("version", .num h.version)])

/-- The line as bytes. -/
def ClientHandshake.toLine (toVec : Json → List UInt8) (h : ClientHandshake) : List UInt8 :=
  toVec h.toJson ++ [Server.newline]

end Proto

namespace Server

open Proto

variable {F : Type} [F64Fn F]

/-- A connection that is accepted. -/
structure Accepted (F : Type) where
  info : ReceiverInfo F
  negotiated : String
  wantsResults : Bool
  wantsStats : Bool

/-- Why a connection is denied. -/
inductive Denial where
  | noCompression
  | missingPosition
deriving DecidableEq

inductive Answer (F : Type) where
  | accept (a : Accepted F)
  | deny (d : Denial)

/-- The fields that decide. -/
def readHandshake (v : Json) : Handshake F :=
  { compress := (((v.get "compress").bind Json.asArray).getD []).filterMap Json.asStr
    lat := ((v.get "lat").bind Json.asNum).map lit
    lon := ((v.get "lon").bind Json.asNum).map lit
    alt := ((v.get "alt").bind Json.asNum).map lit
    clockType := (v.get "clock_type").bind Json.asStr
    user := (v.get "user").bind Json.asStr }

/-- What the server makes of a handshake: a compression is looked for first. -/
def answer (v : Json) : Answer F :=
  let hs : Handshake F := readHandshake v
  match negotiated hs.compress with
  | none => .deny .noCompression
  | some m =>
    match hs.info with
    | none => .deny .missingPosition
    | some info =>
      .accept { info := info, negotiated := m
                wantsResults := ((v.get "return_results").bind Json.asBool).getD false
                wantsStats := ((v.get "return_stats").bind Json.asBool).getD false }

def Denial.text : Denial → String
  | .noCompression => "no supported compression offered"
  | .missingPosition => "missing position"

/-- The answer as it is written. -/
def Answer.text {F : Type} : Answer F → String
  | .deny d => "\x7b\"deny\":[\"" ++ d.text ++ "\"],\"reconnect_in\":300\x7d\n"
  | .accept a =>
    "\x7b\"compress\":\"" ++ a.negotiated ++ "\",\"reconnect_in\":300,\"selective_traffic\":true," ++
      "\"heartbeat\":true,\"return_results\":" ++ toString a.wantsResults ++
      ",\"rate_reports\":true,\"return_stats\":" ++ toString a.wantsStats ++
      ",\"motd\":\"mlat-bench candidate mlatd\"\x7d\n"

/-- The value of that text, its keys in order. -/
def Answer.json {F : Type} : Answer F → Json
  | .deny d => .obj [("deny", .arr [.str d.text]), ("reconnect_in", .num 300)]
  | .accept a =>
    .obj [("compress", .str a.negotiated), ("heartbeat", .bool true),
      ("motd", .str "mlat-bench candidate mlatd"), ("rate_reports", .bool true),
      ("reconnect_in", .num 300), ("return_results", .bool a.wantsResults),
      ("return_stats", .bool a.wantsStats), ("selective_traffic", .bool true)]

/-- The handshake line is at most this long. -/
def handshakeLimit : Nat := 64 * 1024

/-- The server up to its message loop: its answer, and the bytes left for the loop,
    or why there is no answer. -/
def greet (parse : List UInt8 → Except String Json) (stream : List UInt8) :
    Except String (Answer F × List UInt8) :=
  let line := (firstLine (stream.take handshakeLimit)).1
  if line = [] then .error "closed before handshake"
  else if line.getLast? ≠ some newline then .error "handshake line over 64 KiB"
  else
    match parse line with
    | .error e => .error ("handshake not JSON: " ++ e)
    | .ok v => .ok (answer v, stream.drop line.length)

/-- Lines of the client come in frames. -/
def framedUp (negotiated : String) : Bool := negotiated ≠ "none"

/-- Lines of the server go in frames. -/
def framedDown (negotiated : String) : Bool := negotiated = "zlib2"

end Server

namespace Client

open Proto Server

/-- What `mlatc` says of itself. -/
def mlatcHandshake (user : String) (uuid : Option String) (lat lon alt : Option ℚ)
    (clockType : ClockType) (wantResults : Bool) (statsPath : Option String) (version : String) :
    ClientHandshake :=
  { version := 3, user := user, uuid := uuid, compress := [.zlib2, .none], lat := lat, lon := lon
    alt := alt, clockType := clockType, returnResults := some wantResults
    returnResultFormat := none, clientVersion := some ("mlatc " ++ version)
    selectiveTraffic := some true, heartbeat := some true
    returnStats := statsPath.map fun _ => true }

/-- The client up to its loop: how lines travel, and the bytes left for it. -/
def greeted (parse : List UInt8 → Except String Json) (addr : String) (stream : List UInt8) :
    Except SessionError (Compress × List UInt8) :=
  let first := firstLine stream
  (handshake parse addr { connect := .ok (), nodelay := .ok (), greeted := .ok ()
                          reply := some (.ok first.1), turns := [] }).map fun c => (c, first.2)

/-- Lines of the client go in frames. -/
def framedUp (c : Compress) : Bool := c ≠ .none

/-- Lines of the server come in frames. -/
def framedDown (c : Compress) : Bool := c = .zlib2

end Client

end MlatBench
