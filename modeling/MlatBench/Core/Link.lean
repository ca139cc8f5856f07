import MlatBench.Core.Client
import MlatBench.Core.Session

/-!
# Client And Shard

The engine task of a client, the connection that serves it, and the shard the
connection feeds, over channels that keep their order and lose nothing.

The engine task takes events of its input and requests of the server, in any
order. The server takes the client's lines one by one: `process_line_tx` makes of
a line what the shard is to do, under the handle of the receiver. Calls of other
connections and sweeps come in between. The run is over when the receiver is no
longer in the shard, or the shard hangs.

Lines in flight carry the number of the input connection during which they were
emitted. That and the last three fields are history: the number of the input
connection, the connection of what was stamped since the last clock reset the
engine sent, and under which clock the shard took what was stamped when.

## Main definitions

* `isStamped`, `isReset`: Messages with counter readings, and clock resets.
* `restamp`: The connection of what was stamped since the last reset.
* `Link`, `Link.step`: The parties and the channel between them.
-/

namespace MlatBench

namespace Client

open Proto

/-- The message carries counter readings. -/
def isStamped : ClientMsg → Bool
  | .sync .. => true
  | .mlat .. => true
  | _ => false

/-- The message says that the clock was reset. -/
def isReset : ClientMsg → Bool
  | .clockReset _ => true
  | .clockJump _ => true
  | _ => false

/-- History: the input connection of what was stamped since the last reset. -/
def restamp (last : Option Nat) (m : Nat × ClientMsg) : Option Nat :=
  if isStamped m.2 then some m.1 else if isReset m.2 then none else last

end Client

open Library F64 F64Fn Proto Client Server

/-- An engine, its connection to a server, and the shard behind it. -/
structure Link (F : Type) where
  engine : Engine
  server : Nat
  uplink : List (Nat × ClientMsg)
  requested : List String
  receiver : RxRef
  state : State F
  connection : Nat
  sent : Option Nat
  stamped : List (Nat × Nat)

namespace Link

variable {F : Type} [F64Fn F]

/-- The receiver has just joined a shard. -/
def new (user : String) (now : Instant) (nServers server : Nat) (s : State F)
    (info : ReceiverInfo F) : Link F :=
  { engine := Engine.new user now nServers, server := server, uplink := [], requested := []
    receiver := (s.addReceiver info).2, state := (s.addReceiver info).1
    connection := 0, sent := none, stamped := [] }

/-- What can happen. -/
inductive Action (F : Type) where
  /-- The engine task's timer fires, or it takes an event. -/
  | tick (now : Instant) (order : List UInt32)
  | take (now : Instant) (ev : Ev)
  /-- The server takes its next line. -/
  | serve (now : Nat) (atScaled : F)
  /-- The shard takes a call of another connection, or sweeps. -/
  | other (e : State.Event F)

/-- The receiver is in the shard, and the shard runs. -/
def Active (l : Link F) : Prop :=
  l.state.hung = false ∧ l.state.live l.receiver = true

instance (l : Link F) : Decidable l.Active :=
  inferInstanceAs (Decidable (_ ∧ _))

/-- Reports and resets under the receiver's handle come from its connection. -/
def foreign (r : RxRef) : State.Event F → Bool
  | .sync _ q _ _ _ _ _ => q ≠ r
  | .mlat _ q _ _ _ => q ≠ r
  | .reset q => q ≠ r
  | _ => true

/-- What a turn of the engine task emits for the server, and during which input
    connection. -/
def emission (l : Link F) : Action F → List (Nat × ClientMsg)
  | .tick now order =>
    (Engine.messagesTo l.server (l.engine.tick now order).2).map fun m => (l.connection, m)
  | .take now ev =>
    let connection := if ev = .inputUp then l.connection + 1 else l.connection
    (Engine.messagesTo l.server (l.engine.onEv now ev).2).map fun m => (connection, m)
  | _ => []

/-- What is emitted goes up. -/
def send (l : Link F) (ms : List (Nat × ClientMsg)) : Link F :=
  { l with uplink := l.uplink ++ ms, sent := ms.foldl restamp l.sent }

/-- What a line has the shard do is done. -/
def upload (solver : Solver F) (l : Link F) (now connection : Nat) (up : Upload F) : Link F :=
  let stamp := (l.state.resets l.receiver, connection)
  { l with
    state := l.state.step solver ((up.toShard l.receiver).event now)
    stamped := match up with
      | .sync .. => l.stamped ++ [stamp]
      | .mlat .. => l.stamped ++ [stamp]
      | _ => l.stamped }

def step (solver : Solver F) (l : Link F) (a : Action F) : Link F :=
  if l.Active then
    match a with
    | .tick now order => { l.send (l.emission a) with engine := (l.engine.tick now order).1 }
    | .take now ev =>
      { l.send (l.emission a) with
        engine := (l.engine.onEv now ev).1
        connection := if ev = .inputUp then l.connection + 1 else l.connection }
    | .serve now atScaled =>
      match l.uplink with
      | [] => l
      | (connection, m) :: rest =>
        let (requested, _, up) := processLine l.requested m.toJson atScaled
        let l := { l with uplink := rest, requested := requested }
        match up with
        | none => l
        | some up => l.upload solver now connection up
    | .other e => if foreign l.receiver e then { l with state := l.state.step solver e } else l
  else l

end Link

end MlatBench
