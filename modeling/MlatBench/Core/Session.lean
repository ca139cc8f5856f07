import MlatBench.Core.Daemon
import MlatBench.Core.Engine

/-!
# One Session

The engine of a client and the connection of a server that serves it, with the
two channels between them.

On the server side `process_line_tx` reads one line: it answers aircraft it has
not asked for on this connection with one `start_sending`, and passes syncs,
mlats and clock resets on to the shard. On the client side a `start_sending`
marks the entries of the table it names.

Lines are the JSON values they parse to. Both channels of a session keep their
order and lose nothing: a full queue, which drops a line in either program, is
not part of it. Lower-casing is that of ASCII text, which all text the engine
sends is.

`Requests` is the requesting side of a connection on its own: any lines of any
client, with the bounded channel to its writer, which refuses a `start_sending`
when it is full. Lower-casing is an argument there.

## Main definitions

* `offered`: The aircraft a line offers.
* `request`: What is asked for that was not asked for before.
* `uploadOf`: What a line has the shard do.
* `processLine`: One line.
* `Requests`, `Requests.step`: A connection's requests and its writer's channel.
* `Session`, `Session.step`: The two parties and their channels.
-/

namespace MlatBench

namespace Server

open Library F64

/-- The aircraft a line offers: those seen, and those rated. -/
def offered (v : Json) : List String :=
  (((v.get "seen").bind Json.asArray).getD []).filterMap Json.asStr ++
    (((v.get "rate_report").bind Json.asObject).getD []).map Prod.fst

def toLowercase (s : String) : String :=
  String.ofList (s.toList.map Char.toLower)

/-- The set of those asked for, and those asked for now. -/
def request (requested : List String) (offers : List String) : List String × List String :=
  offers.foldl (fun (acc : List String × List String) h =>
    let (requested, fresh) := acc
    let h := toLowercase h
    if h ∈ requested then acc else (h :: requested, fresh ++ [h])) (requested, [])

section

variable {F : Type} [F64Fn F]

/-- What a line has the shard do. A sync or an mlat with a field missing does
    nothing. -/
def uploadOf (v : Json) (atScaled : F) : Option (Upload F) :=
  match v.get "sync" with
  | some sy =>
    match (sy.get "et").bind Json.asNum, (sy.get "ot").bind Json.asNum,
        (sy.get "em").bind Json.asStr, (sy.get "om").bind Json.asStr with
    | some et, some ot, some em, some om => some (.sync (lit et) (lit ot) em om atScaled)
    | _, _, _, _ => none
  | none =>
    match v.get "mlat" with
    | some ml =>
      match (ml.get "t").bind Json.asNum, (ml.get "m").bind Json.asStr with
      | some t, some m => some (.mlat (lit t) m atScaled)
      | _, _ => none
    | none =>
      if (v.get "clock_reset").isSome ∨ (v.get "clock_jump").isSome then some .clockReset else none

/-- One line: the set of those asked for, the line for the client, and the
    message for the shard. -/
def processLine (requested : List String) (v : Json) (atScaled : F) :
    List String × Option Json × Option (Upload F) :=
  let (requested, fresh) := request requested (offered v)
  let reply := if fresh = [] then none
    else some (.obj [("start_sending", .arr (fresh.map .str))])
  (requested, reply, uploadOf v atScaled)

end

/-- What is asked for, under any lower-casing. -/
def requestWith (lower : String → String) (requested : List String) (offers : List String) :
    List String × List String :=
  offers.foldl (fun (acc : List String × List String) h =>
    let (requested, fresh) := acc
    let h := lower h
    if h ∈ requested then acc else (h :: requested, fresh ++ [h])) (requested, [])

/-- Slots of the channel to a connection's writer. -/
def writerSlots : Nat := 256

/-- The line that asks for aircraft. -/
def startSending (addrs : List String) : Json :=
  .obj [("start_sending", .arr (addrs.map .str))]

/-- What a connection asked for, and the channel to its writer. `accepted` is
    history: the requests the channel took. -/
structure Requests where
  requested : List String
  channel : List Json
  accepted : List Json

namespace Requests

def new : Requests := ⟨[], [], []⟩

/-- What can happen: a line of the client, none if it does not parse; another
    line for the writer, which waits for a slot; the writer takes a line. -/
inductive Event where
  | line (v : Option Json)
  | other (m : Json)
  | written

/-- The channel takes a request or refuses it. -/
def trySend (s : Requests) (m : Json) : Requests :=
  if s.channel.length < writerSlots then
    { s with channel := s.channel ++ [m], accepted := s.accepted ++ [m] }
  else s

def step (lower : String → String) (s : Requests) : Event → Requests
  | .line none => s
  | .line (some v) =>
    let (requested, fresh) := requestWith lower s.requested (offered v)
    let s := { s with requested := requested }
    -- A refused request is not looked at again.
    if fresh = [] then s else s.trySend (startSending fresh)
  | .other m =>
    if s.channel.length < writerSlots then { s with channel := s.channel ++ [m] } else s
  | .written => { s with channel := s.channel.drop 1 }

end Requests

end Server

open Library Proto Client

/-- A client's engine, the connection of one of its servers, and the channels
    between them. -/
structure Session where
  engine : Engine
  server : Nat
  uplink : List Json
  downlink : List Json
  requested : List String

namespace Session

/-- A session that has just been set up. -/
def new (user : String) (now : Instant) (nServers server : Nat) : Session :=
  { engine := Engine.new user now nServers, server := server
    uplink := [], downlink := [], requested := [] }

/-- What can happen. -/
inductive Event where
  | reception (r : Reception) (now : Instant)
  | tick (now : Instant) (order : List UInt32)
  /-- The server takes its next line. -/
  | serve (atScaled : ℚ)
  /-- The client takes its next line. -/
  | obey

/-- What the engine has for this server goes up. -/
def send (s : Session) (out : Engine × List Outbound) : Session :=
  { s with
    engine := out.1
    uplink := s.uplink ++ (out.2.filter fun m => m.1 = s.server).map fun m => m.2.toJson }

/-- A line of the server changes the engine. -/
def obeyLine (e : Engine) (server : Nat) (v : Json) : Engine :=
  match ServerMsg.parseLine v with
  | .startSending addrs => e.startSending server addrs
  | .stopSending addrs => e.stopSending server addrs
  | _ => e

def step (s : Session) : Event → Session
  | .reception r now => s.send (s.engine.onReception r now)
  | .tick now order => s.send (s.engine.tick now order)
  | .serve atScaled =>
    match s.uplink with
    | [] => s
    | v :: rest =>
      let (requested, reply, _) := Server.processLine s.requested v atScaled
      { s with uplink := rest, requested := requested, downlink := s.downlink ++ reply.toList }
  | .obey =>
    match s.downlink with
    | [] => s
    | v :: rest => { s with downlink := rest, engine := obeyLine s.engine s.server v }

end Session

end MlatBench
