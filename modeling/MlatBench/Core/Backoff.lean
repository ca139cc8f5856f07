import Mathlib.Algebra.Order.Ring.Unbundled.Rat
import MlatBench.Core.Batch

/-!
# The Session Loop

`mlatc` runs one loop per server: a session, a wait, the next session. The wait
grows with each turn, up to a minute, and a session that returns `Ok` takes it
back to five seconds.

An attempt is what `server_session` meets: how the connection, the handshake and
its reply turn out, and which branches of its selection win, with what comes of
them. An attempt whose turns run out has not returned. `serde_json`'s reader and
writer are parameters. The statistics file and the events for the engine, which
cannot end a session, are left out.

Waits are seconds, all of them whole numbers.

## Main definitions

* `parseHandshakeReply`: The first line of the server.
* `handshake`: `server_session` up to its loop.
* `selection`: The loop.
* `serverSession`: What it returns, if it does.
* `Ended`: An attempt that has returned.
* `SessionLoop`, `SessionLoop.step`: The wait that comes next, and those made.
-/

namespace MlatBench

namespace Client

open Library Server Proto

/-- How a session's lines travel. -/
inductive Compress where
  | none
  | zlib
  | zlib2
deriving DecidableEq

/-- Why a session ended. -/
inductive SessionError where
  -- What the system or a library had to tell, alone or in a context.
  | system (text : String)
  | context (text cause : String)
  | bail (text : String)
  | badHandshakeReply (v : Json)
  | denied (v : Json)

/-- The first line the server sends. -/
inductive HandshakeReply where
  | accept (compress : Compress)
  | deny (v : Json)

def compressOf (s : String) : Option Compress :=
  if s = "none" then some .none
  else if s = "zlib" then some .zlib
  else if s = "zlib2" then some .zlib2
  else Option.none

/-- The refusal is looked at first. -/
def parseHandshakeReply (v : Json) : Except SessionError HandshakeReply :=
  if (v.get "deny").isSome then .ok (.deny v)
  else
    match ((v.get "compress").bind Json.asStr).bind compressOf with
    | some compress => .ok (.accept compress)
    | Option.none => .error (.badHandshakeReply v)

/-- A branch of the selection that wins, and what comes of it: how a write went,
    if there is one, or what the reader of the downlink returned. -/
inductive Turn where
  | statsTick
  -- The queue of the engine gives a message, or is gone.
  | message (m : Option ClientMsg) (sent : Except String Unit)
  | flush (sent : Except String Unit)
  | heartbeat (sent : Except String Unit)
  | line (l : Except String (Option (List UInt8)))

/-- What `server_session` meets. No reply is one that is not there in time. -/
structure Attempt where
  connect : Except String Unit
  nodelay : Except String Unit
  greeted : Except String Unit
  reply : Option (Except String (List UInt8))
  turns : List Turn

section

variable (parse : List UInt8 → Except String Json) (toVec : Json → List UInt8)

/-- An error as it is. -/
def orSystem {α : Type} (r : Except String α) : Except SessionError α :=
  r.mapError .system

/-- Up to the loop: what the session found out is how lines travel. -/
def handshake (addr : String) (a : Attempt) : Except SessionError Compress := do
  a.connect.mapError (.context ("connect " ++ addr))
  orSystem a.nodelay
  orSystem a.greeted
  match a.reply with
  | Option.none => .error (.context "no handshake reply within 15 s" "deadline has elapsed")
  | some reply =>
    let first ← orSystem reply
    if first = [] then .error (.bail "server closed before replying")
    else
      match ← parseHandshakeReply (← orSystem (parse first)) with
      | .accept compress => pure compress
      | .deny v => .error (.denied v)

/-- The batch goes out, if there is one. -/
def sendBatch (batch : List UInt8) (sent : Except String Unit) :
    Except SessionError (List UInt8) :=
  if batch = [] then pure [] else do
    orSystem sent
    pure []

/-- One turn of the loop: the batch after it. -/
def turn (framed : Bool) (batch : List UInt8) : Turn → Except SessionError (List UInt8)
  | .statsTick => pure batch
  | .message Option.none _ => .error (.bail "engine gone")
  | .message (some m) sent => do
    let line := toLine toVec m
    if framed then
      let batch ← if 32 * 1024 < batch.length + line.length then sendBatch batch sent
        else pure batch
      pure (batch ++ line)
    else
      orSystem sent
      pure batch
  | .flush sent => if framed then sendBatch batch sent else pure batch
  | .heartbeat sent => do
    if framed then pure (batch ++ toLine toVec .heartbeat)
    else
      orSystem sent
      pure batch
  | .line l => do
    match ← orSystem l with
    | Option.none => .error (.bail "server closed the connection")
    | some l =>
      -- Requests, results and statistics go elsewhere.
      let _ ← orSystem (parse l)
      pure batch

/-- The loop. It has no other end than an error. -/
def selection (framed : Bool) : List UInt8 → List Turn → Option (Except SessionError Unit)
  | _, [] => Option.none
  | batch, t :: ts =>
    match turn parse toVec framed batch t with
    | .error e => some (.error e)
    | .ok batch => selection framed batch ts

/-- What the session returns, if it has. -/
def serverSession (addr : String) (a : Attempt) : Option (Except SessionError Unit) :=
  match handshake parse addr a with
  | .error e => some (.error e)
  | .ok compress => selection parse toVec (compress != .none) [] a.turns

/-- The session completed its handshake. -/
def Completed (addr : String) (a : Attempt) : Bool :=
  (handshake parse addr a).isOk

/-- A session that has returned. -/
structure Ended (addr : String) where
  attempt : Attempt
  result : Except SessionError Unit
  returned : serverSession parse toVec addr attempt = some result

end

/-- The loop between its waits: how long the next one is, and those made. -/
structure SessionLoop where
  backoff : ℚ
  waits : List ℚ

namespace SessionLoop

def start : SessionLoop := ⟨5, []⟩

/-- A session returns, and the loop waits. -/
def step (s : SessionLoop) (result : Except SessionError Unit) : SessionLoop :=
  let backoff := match result with
    | .ok () => 5
    | .error _ => s.backoff
  { backoff := min (backoff * 2) 60, waits := s.waits ++ [backoff] }

end SessionLoop

end Client

end MlatBench
