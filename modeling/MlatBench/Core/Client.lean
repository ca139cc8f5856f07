import MlatBench.Core.Engine

/-!
# The Client

The tasks of `mlatc`: the input task, which owns the connection to the receiver;
the engine task, which owns the engine; and one session loop per server. The
input task and the sessions send events to the engine through one channel, the
engine sends messages to each session through a queue of that server's own.

A session that ends sends its `ServerReset` to the engine and then empties its
queue, one message after the other, before it waits for the next connection. The
engine runs meanwhile.

An action is one turn of one task. Channels keep their order and are never full.
The last two fields are history, read by no action: what the engine emitted for a
server since it took that server's last reset, and what a session received since
the last drain.

## Main definitions

* `Ev`: The events for the engine task.
* `Engine.onReceptions`, `Engine.onEv`: The engine task's turn.
* `Phase`: Where a session loop is.
* `Client`, `Client.step`: The tasks and their channels.
-/

namespace MlatBench

namespace Client

open Library Modes Proto

/-- What the engine task is told. -/
inductive Ev where
  | receptions (rs : List Reception)
  | inputUp
  | inputDown
  | start (server : Nat) (hexes : List String)
  | stop (server : Nat) (hexes : List String)
  | serverReset (server : Nat)
deriving DecidableEq

/-- A batch of receptions, one after the other. -/
def Engine.onReceptions (e : Engine) (now : Instant) : List Reception → Engine × List Outbound
  | [] => (e, [])
  | r :: rs =>
    let (e, out) := e.onReception r now
    let (e, more) := e.onReceptions now rs
    (e, out ++ more)

/-- The engine task takes an event. -/
def Engine.onEv (e : Engine) (now : Instant) : Ev → Engine × List Outbound
  | .receptions rs => e.onReceptions now rs
  | .inputUp => (e.inputReset, (List.range e.nServers).map fun s =>
      (s, .inputConnected "input connected"))
  | .inputDown => (e.inputReset, (List.range e.nServers).map fun s =>
      (s, .inputDisconnected "input disconnected"))
  | .start server hexes => (e.startSending server hexes, [])
  | .stop server hexes => (e.stopSending server hexes, [])
  | .serverReset server => (e.serverReset server, [])

/-- Where a session loop is. -/
inductive Phase where
  /-- In `server_session`. -/
  | session
  /-- The session is over, its reset is not sent yet. -/
  | ended
  /-- The reset is sent, the queue is being emptied. -/
  | draining
  /-- Waiting for the next connection. -/
  | backoff
deriving DecidableEq

end Client

open Library Proto Client

/-- The tasks of a client and their channels. -/
structure Client where
  engine : Engine
  connected : Bool
  events : List Ev
  queues : Nat → List ClientMsg
  phases : Nat → Phase
  emitted : Nat → List ClientMsg
  received : Nat → List ClientMsg

namespace Client

/-- All loops start with a session. -/
def new (user : String) (now : Instant) (nServers : Nat) : Client :=
  { engine := Engine.new user now nServers, connected := false, events := []
    queues := fun _ => [], phases := fun _ => .session
    emitted := fun _ => [], received := fun _ => [] }

/-- One turn of one task. -/
inductive Action where
  /-- The input task connects, reads, or loses the connection. -/
  | connect
  | read (rs : List Reception)
  | disconnect
  /-- The engine task's timer fires, or it takes an event. -/
  | tick (now : Instant) (order : List UInt32)
  | take (now : Instant)
  /-- A session takes a message from its queue, or hears a request. -/
  | receive (server : Nat)
  | start (server : Nat) (hexes : List String)
  | stop (server : Nat) (hexes : List String)
  /-- A session ends, for whatever reason. -/
  | finish (server : Nat)
  /-- The session loop sends the reset, takes one message off the queue, and
      goes on to the next session. -/
  | sendReset (server : Nat)
  | drain (server : Nat)
  | reconnect (server : Nat)

/-- What the engine emits is queued for the sessions. -/
def emit (c : Client) (out : Engine × List Outbound) : Client :=
  { c with
    engine := out.1
    queues := fun s => c.queues s ++ Engine.messagesTo s out.2
    emitted := fun s => c.emitted s ++ Engine.messagesTo s out.2 }

/-- An event joins the channel. -/
def tell (c : Client) (ev : Ev) : Client :=
  { c with events := c.events ++ [ev] }

/-- A session loop goes on. -/
def enter (c : Client) (server : Nat) (p : Phase) : Client :=
  { c with phases := Function.update c.phases server p }

/-- History: what was emitted before a reset belongs to the session before. -/
def forget (c : Client) : Ev → Client
  | .serverReset server => { c with emitted := Function.update c.emitted server [] }
  | _ => c

/-- One turn. A task that cannot take the turn waits. -/
def step (c : Client) : Action → Client
  | .connect => if c.connected then c else { c.tell .inputUp with connected := true }
  | .read rs => if c.connected = true ∧ rs ≠ [] then c.tell (.receptions rs) else c
  | .disconnect => if c.connected then { c.tell .inputDown with connected := false } else c
  | .tick now order => c.emit (c.engine.tick now order)
  | .take now =>
    match c.events with
    | [] => c
    | ev :: events => ({ c with events := events }.emit (c.engine.onEv now ev)).forget ev
  | .receive server =>
    match c.phases server, c.queues server with
    | .session, m :: queue =>
      { c with
        queues := Function.update c.queues server queue
        received := Function.update c.received server (c.received server ++ [m]) }
    | _, _ => c
  | .start server hexes => if c.phases server = .session then c.tell (.start server hexes) else c
  | .stop server hexes => if c.phases server = .session then c.tell (.stop server hexes) else c
  | .finish server => if c.phases server = .session then c.enter server .ended else c
  | .sendReset server =>
    if c.phases server = .ended then (c.tell (.serverReset server)).enter server .draining else c
  | .drain server =>
    if c.phases server = .draining then
      match c.queues server with
      | _ :: queue => { c with queues := Function.update c.queues server queue }
      | [] => { c.enter server .backoff with received := Function.update c.received server [] }
    else c
  | .reconnect server => if c.phases server = .backoff then c.enter server .session else c

end Client

end MlatBench
