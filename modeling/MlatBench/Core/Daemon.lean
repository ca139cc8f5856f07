import MlatBench.Core.Group
import MlatBench.Core.Router

/-!
# Connections and Shards

The server as a whole: any number of `handle_client` activations, the shard tasks
they send to, and the router they share.

An activation claims a shard, sends `AddReceiver`, waits for the reference, writes
the handshake reply and enters its message loop; then it sends `RemoveReceiver`
and gives the claim back. Every wait of it is a phase, and an event says which
activation or task runs next, so all interleavings are runs. A send to a task that
has ended fails, and so does the wait for a reply such a task owed; the write of
the handshake reply fails where the event says so. What the message loop reads is
the events' choice here, its reading is in `Core.Uplink`.

Channels have room: a full one only delays a send, which any order of events
allows. The router's load counters are those of its shards. The last four fields
are history: claims and their returns by connection and shard, references given
out, and removals sent.

## Main definitions

* `Handshake.info`: What a handshake says of a receiver, if it is accepted.
* `Phase`: Where an activation stands.
* `ShardMsg`, `ShardTask`: A shard, its state and its queue.
* `Daemon`, `Daemon.new`: The server.
* `Daemon.step`: Everything that can happen.
-/

namespace MlatBench

namespace Server

open Library F64 F64Fn

variable {F : Type} [F64Fn F]

/-- The fields of a handshake that decide the claim. -/
structure Handshake (F : Type) where
  compress : List String
  lat : Option F
  lon : Option F
  alt : Option F
  clockType : Option String
  user : Option String

/-- The compression the server prefers among those offered. -/
def negotiated (offered : List String) : Option String :=
  ["zlib2", "zlib", "none"].find? fun m => decide (m ∈ offered)

def clockFreqHz (clockType : String) : F :=
  if clockType = "radarcape_gps" ∨ clockType = "radarcape" then lit 1000000000
  else if clockType = "sbs" then lit 20000000
  else lit 12000000

/-- The receiver a handshake describes. Without a compression in common or a
    position it is denied. -/
def Handshake.info (hs : Handshake F) : Option (ReceiverInfo F) :=
  match negotiated hs.compress, hs.lat, hs.lon, hs.alt with
  | some _, some lat, some lon, some alt =>
    let clockType := hs.clockType.getD "unknown"
    let gps := "radarcape_gps".toList.isPrefixOf clockType.toList
    let geo : Geodetic F := ⟨lat, lon, alt⟩
    some { user := hs.user.getD "anon", geo := geo, ecef := geo.toEcef
           freqHz := clockFreqHz clockType, gps := gps
           jitterS := if gps then lit (30 / 1000000000) else lit (150 / 1000000000) }
  | _, _, _, _ => none

/-- Where an activation stands. -/
inductive Phase (F : Type) where
  /-- Reading and checking the handshake. -/
  | handshake
  /-- Sending `AddReceiver`. -/
  | claimed (shard : Nat) (info : ReceiverInfo F)
  /-- Waiting for the reference, or about to find it. -/
  | waiting (shard : Nat) (reply : Option RxRef)
  /-- Writing the handshake reply. -/
  | replying (shard : Nat) (rx : RxRef)
  /-- In the message loop. -/
  | looping (shard : Nat) (rx : RxRef)
  /-- Sending `RemoveReceiver`. -/
  | leaving (shard : Nat) (rx : RxRef)
  /-- About to give the claim back. -/
  | releasing (shard : Nat) (rx : RxRef)
  | returned

/-- What a shard is sent. Of `AddReceiver` the connection that waits for the
    reply is kept; requests that only read the state are left out. -/
inductive ShardMsg (F : Type) where
  | addReceiver (info : ReceiverInfo F) (conn : Nat)
  | removeReceiver (r : RxRef)
  | sync (r : RxRef) (et ot : F) (emHex omHex : String) (atScaled : F)
  | mlat (r : RxRef) (t : F) (mHex : String) (atScaled : F)
  | clockReset (r : RxRef)
  | receiverStats (r : RxRef)

/-- What a line of the client has the loop send. -/
inductive Upload (F : Type) where
  | sync (et ot : F) (emHex omHex : String) (atScaled : F)
  | mlat (t : F) (mHex : String) (atScaled : F)
  | clockReset
  | stats

def Upload.toShard (r : RxRef) : Upload F → ShardMsg F
  | .sync et ot emHex omHex atScaled => .sync r et ot emHex omHex atScaled
  | .mlat t mHex atScaled => .mlat r t mHex atScaled
  | .clockReset => .clockReset r
  | .stats => .receiverStats r

/-- A shard task; one that is gone has dropped its state and its queue. -/
structure ShardTask (F : Type) where
  state : State F
  queue : List (ShardMsg F)
  gone : Bool

/-- The call a message makes. -/
def ShardMsg.event (now : Nat) : ShardMsg F → State.Event F
  | .addReceiver info _ => .add info
  | .removeReceiver r => .remove r
  | .sync r et ot emHex omHex atScaled => .sync now r et ot emHex omHex atScaled
  | .mlat r t mHex atScaled => .mlat now r t mHex atScaled
  | .clockReset r => .reset r
  | .receiverStats r => .stats r

/-- A send succeeds unless the task is gone. -/
def ShardTask.send (t : ShardTask F) (m : ShardMsg F) : ShardTask F :=
  if t.gone then t else { t with queue := t.queue ++ [m] }

/-- History: a connection counted, or no longer counted, by a shard. -/
structure Claim where
  conn : Nat
  shard : Nat
deriving DecidableEq

/-- History: a reference a shard gave a connection. -/
structure Grant where
  conn : Nat
  shard : Nat
  rx : RxRef

/-- The server. -/
structure Daemon (F : Type) where
  router : Router F
  shards : Nat → ShardTask F
  conns : List (Phase F)
  claims : List Claim
  releases : List Claim
  adds : List Grant
  removes : List (Nat × RxRef)

namespace Daemon

/-- A server that has just started. -/
def new (nShards : Nat) (hpos : 0 < nShards) (baseDeg : F) (cap : Nat)
    (mlatAdsb emitFiltered : Bool) : Daemon F :=
  { router := Router.new nShards hpos (fun _ => ⟨0, 0⟩) baseDeg cap
    shards := fun i => ⟨State.new i mlatAdsb emitFiltered, [], false⟩
    conns := [], claims := [], releases := [], adds := [], removes := [] }

/-- What can happen: a connection or a task runs. -/
inductive Event (F : Type) where
  /-- A client connects. -/
  | accept
  /-- The handshake is read, if it comes and is JSON. -/
  | handshake (c : Nat) (hs : Option (Handshake F)) (order : List Nat)
  | sendAdd (c : Nat)
  | recvReply (c : Nat)
  | writeReply (c : Nat) (ok : Bool)
  /-- The loop sends what a line or a tick asks for. -/
  | say (c : Nat) (m : Upload F)
  /-- The loop ends. -/
  | finish (c : Nat)
  | sendRemove (c : Nat)
  | release (c : Nat)
  /-- The stats task stores the rates. -/
  | rates (rate : Nat → Nat)
  /-- A shard takes its next message. -/
  | work (i : Nat) (now : Nat)
  | sweep (i : Nat) (now window : Nat) (order : List String) (clock : String → Nat → F)
  /-- A shard task ends. -/
  | die (i : Nat)

def setConn (w : Daemon F) (c : Nat) (p : Phase F) : Daemon F :=
  { w with conns := w.conns.set c p }

def setShard (w : Daemon F) (i : Nat) (t : ShardTask F) : Daemon F :=
  { w with shards := Function.update w.shards i t }

/-- The router counts the receiver at claim time. -/
def claim (w : Daemon F) (c : Nat) (info : ReceiverInfo F) (order : List Nat) : Daemon F :=
  let (i, router) := w.router.shardFor order info.geo.latDeg info.geo.lonDeg
  { w with
    router := router
    conns := w.conns.set c (.claimed i info)
    claims := w.claims ++ [⟨c, i⟩] }

/-- The teardown's decrement. -/
def giveBack (w : Daemon F) (c i : Nat) : Daemon F :=
  let load := w.router.shards i
  { w with
    router := { w.router with
      shards := Function.update w.router.shards i { load with receivers := load.receivers - 1 } }
    conns := w.conns.set c .returned
    releases := w.releases ++ [⟨c, i⟩] }

/-- A shard runs one call of its state. -/
def call (solver : Solver F) (w : Daemon F) (i : Nat) (e : State.Event F) : Daemon F :=
  let t := w.shards i
  w.setShard i { t with state := t.state.step solver e }

/-- A shard answers the connection that waits for its reference. -/
def answer (w : Daemon F) (i : Nat) (conn : Nat) (r : RxRef) : Daemon F :=
  match w.conns[conn]? with
  | some (.waiting shard none) =>
    { w with
      conns := w.conns.set conn (.waiting shard (some r))
      adds := w.adds ++ [⟨conn, i, r⟩] }
  | _ => w

/-- A shard takes its next message, unless it is gone or caught in a cut that
    does not end. -/
def work (solver : Solver F) (w : Daemon F) (i now : Nat) : Daemon F :=
  let t := w.shards i
  if t.gone ∨ t.state.hung then w
  else
    match t.queue with
    | [] => w
    | m :: queue =>
      let w := (w.setShard i { t with queue := queue }).call solver i (m.event now)
      match m with
      | .addReceiver info conn => w.answer i conn (t.state.addReceiver info).2
      | _ => w

/-- One event. An event that does not fit where its connection stands changes
    nothing. -/
def step (solver : Solver F) (w : Daemon F) : Event F → Daemon F
  | .accept => { w with conns := w.conns ++ [.handshake] }
  | .handshake c hs order =>
    match w.conns[c]? with
    | some .handshake =>
      match hs.bind Handshake.info with
      | none => w.setConn c .returned
      | some info => w.claim c info order
    | _ => w
  | .sendAdd c =>
    match w.conns[c]? with
    | some (.claimed i info) =>
      if (w.shards i).gone then w.setConn c .returned
      else (w.setShard i ((w.shards i).send (.addReceiver info c))).setConn c (.waiting i none)
    | _ => w
  | .recvReply c =>
    match w.conns[c]? with
    | some (.waiting i (some r)) => w.setConn c (.replying i r)
    | some (.waiting i none) => if (w.shards i).gone then w.setConn c .returned else w
    | _ => w
  | .writeReply c ok =>
    match w.conns[c]? with
    | some (.replying i r) => w.setConn c (if ok then .looping i r else .returned)
    | _ => w
  | .say c m =>
    match w.conns[c]? with
    | some (.looping i r) => w.setShard i ((w.shards i).send (m.toShard r))
    | _ => w
  | .finish c =>
    match w.conns[c]? with
    | some (.looping i r) => w.setConn c (.leaving i r)
    | _ => w
  | .sendRemove c =>
    match w.conns[c]? with
    | some (.leaving i r) =>
      let sent := if (w.shards i).gone then [] else [(i, r)]
      let w := (w.setShard i ((w.shards i).send (.removeReceiver r))).setConn c (.releasing i r)
      { w with removes := w.removes ++ sent }
    | _ => w
  | .release c =>
    match w.conns[c]? with
    | some (.releasing i _) => w.giveBack c i
    | _ => w
  | .rates rate =>
    { w with router := { w.router with
        shards := fun i => { w.router.shards i with rate := rate i } } }
  | .work i now => w.work solver i now
  | .sweep i now window order clock =>
    if (w.shards i).gone then w else w.call solver i (.sweep now window order clock)
  | .die i =>
    let s := (w.shards i).state
    w.setShard i ⟨State.new s.shardId s.mlatAdsb s.emitFiltered, [], true⟩

end Daemon

end Server

end MlatBench
