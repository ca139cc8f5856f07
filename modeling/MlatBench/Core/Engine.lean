import Mathlib.Data.List.Sort
import Mathlib.Algebra.Order.Round
import Mathlib.Data.Rat.Floor
import MlatBench.Core.Proto

/-!
# The Traffic Engine

The `mlatc` engine: receptions in, per-server protocol messages out. One
aircraft table is shared by all servers; what is kept per server is whether it
asked for an aircraft, whether the aircraft was announced to it, and when it
last got a sync message.

The table is a function from addresses to entries. The source iterates over a
hash map in `tick`, in an order that map chooses; that order is an argument
here, a list of the table's addresses. Instants are nanoseconds of a monotonic
clock. The source compares durations and counter differences as floating point
seconds; the comparisons are with whole seconds and exact at these sizes, so
they are written on the integers.

## Main definitions

* `PerServer`: One server's view of one aircraft.
* `Aircraft`: One entry of the table.
* `Reception`: A timestamped frame from the receiver.
* `Engine`: The engine's state.
* `Engine.setRequested`: Selective traffic, both directions.
* `Engine.startSending`, `Engine.stopSending`: The two requests.
* `Engine.serverReset`: One server's connection restarted.
* `Engine.inputReset`: The receiver's input restarted.
* `Engine.touch`: An aircraft was heard.
* `Engine.pairSync`: A DF17 position joins its opposite parity.
* `Engine.checkReset`: The backward-counter test.
* `Engine.onReception`: One reception.
* `Engine.tick`: Periodic bookkeeping.
* `Engine.Call`, `Engine.call`: The operations as calls of one kind.
* `Engine.messagesTo`: What is emitted to one server.
-/

namespace MlatBench

namespace Client

open Library Modes Proto

/-- Nanoseconds of a monotonic clock. -/
abbrev Instant := Nat

/-- Nanoseconds in a second. -/
def nanos : Nat := 1000000000

/-- Counts per second of the receiver's clock. -/
def freq12Mhz : Nat := 12000000

/-- The longest span between the two halves of a sync, seconds. -/
def maxPairS : Nat := 4

/-- Minimum spacing between syncs of one aircraft to one server, seconds. -/
def syncIntervalS : Nat := 0

def lostAfterS : Nat := 60

def rateReportS : Nat := 30

/-- A counter that moves backward by more than this is a reset. -/
def resetBackwardS : Nat := 1

def wrapMargin : Nat := 2 ^ 46

/-- One server's view of one aircraft. -/
structure PerServer where
  requested : Bool := false
  announced : Bool := false
  lastSync : Option Instant := none
deriving DecidableEq

/-- One entry of the aircraft table. -/
structure Aircraft where
  lastSeen : Instant
  msgsInWindow : Nat
  even : Option (Nat × String)
  odd : Option (Nat × String)
  servers : Nat → PerServer

/-- A fresh entry. -/
def Aircraft.new (now : Instant) : Aircraft :=
  { lastSeen := now, msgsInWindow := 0, even := none, odd := none, servers := fun _ => {} }

/-- A frame with the receiver's counter at its arrival. -/
structure Reception where
  counts12mhz : Nat
  frame : List UInt8
deriving DecidableEq

/-- A message bound for one server. -/
abbrev Outbound := Nat × ClientMsg

/-- The engine's state. -/
structure Engine where
  aircraft : UInt32 → Option Aircraft
  nServers : Nat
  lastCounter : Option Nat
  lastRateReport : Instant
  user : String

namespace Engine

/-- A new engine knows no aircraft. -/
def new (user : String) (now : Instant) (nServers : Nat) : Engine :=
  { aircraft := fun _ => none, nServers := nServers, lastCounter := none,
    lastRateReport := now, user := user }

/-- The server's request flag of the addressed entries is set to `v`. Text
    that is no address and addresses without an entry are skipped. -/
def setRequested (e : Engine) (server : Nat) (hexes : List String) (v : Bool) : Engine :=
  hexes.foldl (fun e h =>
    match fromStrRadix16 h with
    | none => e
    | some addr =>
      match e.aircraft addr with
      | none => e
      | some a =>
        let ps := { a.servers server with requested := v }
        let a := { a with servers := Function.update a.servers server ps }
        { e with aircraft := Function.update e.aircraft addr (some a) }) e

def startSending (e : Engine) (server : Nat) (hexes : List String) : Engine :=
  e.setRequested server hexes true

def stopSending (e : Engine) (server : Nat) (hexes : List String) : Engine :=
  e.setRequested server hexes false

/-- One server's connection restarted: it has requested nothing and knows
    none of the aircraft. -/
def serverReset (e : Engine) (server : Nat) : Engine :=
  { e with aircraft := fun addr => (e.aircraft addr).map fun a =>
      { a with servers := Function.update a.servers server {} } }

/-- The input restarted: pairing and counter state are dropped. -/
def inputReset (e : Engine) : Engine :=
  { e with
    lastCounter := none
    aircraft := fun addr => (e.aircraft addr).map fun a => { a with even := none, odd := none } }

/-- An aircraft was heard. Only a validated frame creates an entry. -/
def touch (e : Engine) (addr : UInt32) (now : Instant) (validated : Bool) : Engine :=
  match e.aircraft addr with
  | some a =>
    let a := { a with lastSeen := now, msgsInWindow := a.msgsInWindow + 1 }
    { e with aircraft := Function.update e.aircraft addr (some a) }
  | none =>
    if validated then
      let a := { Aircraft.new now with msgsInWindow := 1 }
      { e with aircraft := Function.update e.aircraft addr (some a) }
    else e

/-- Whether a server that asked for the aircraft gets this sync. -/
def syncDue (now : Instant) (ps : PerServer) : Bool :=
  ps.requested &&
    match ps.lastSync with
    | some t => ¬ (now - t < syncIntervalS * nanos)
    | none => true

/-- A DF17 position is stored and, if its opposite parity is close enough,
    sent to every server that asked for the aircraft. -/
def pairSync (e : Engine) (addr : UInt32) (odd : Bool) (r : Reception) (now : Instant) :
    Engine × List Outbound :=
  match e.aircraft addr with
  | none => (e, [])
  | some a =>
    let this := some (r.counts12mhz, hexEncode r.frame)
    let a := if odd then { a with odd := this } else { a with even := this }
    let stored := { e with aircraft := Function.update e.aircraft addr (some a) }
    match a.even, a.odd with
    | some ev, some od =>
      let span := (ev.1 - od.1) + (od.1 - ev.1)
      if maxPairS * freq12Mhz < span then (stored, [])
      else
        let due := (List.range e.nServers).filter fun s => syncDue now (a.servers s)
        let servers := fun s =>
          if s ∈ due then { a.servers s with lastSync := some now } else a.servers s
        let a := { a with servers := servers }
        ({ e with aircraft := Function.update e.aircraft addr (some a) },
          due.map fun s => (s, .sync ev.1 od.1 ev.2 od.2))
    | _, _ => (stored, [])

/-- A counter far enough behind the last one, but not as far as a wrap, resets
    the input and tells every server. -/
def checkReset (e : Engine) (r : Reception) : Engine × List Outbound :=
  let (e, out) :=
    match e.lastCounter with
    | some last =>
      let backward := last - r.counts12mhz
      if resetBackwardS * freq12Mhz < backward ∧ backward < wrapMargin then
        (e.inputReset, (List.range e.nServers).map fun s => (s, ClientMsg.clockReset e.user))
      else (e, [])
    | none => (e, [])
  ({ e with lastCounter := some r.counts12mhz }, out)

/-- The frame goes to every server that asked for the aircraft. -/
def forward (e : Engine) (addr : UInt32) (r : Reception) : List Outbound :=
  match e.aircraft addr with
  | none => []
  | some a => ((List.range e.nServers).filter fun s => (a.servers s).requested).map fun s =>
      (s, .mlat r.counts12mhz (hexEncode r.frame))

/-- The address a frame with overlaid parity was sent from. -/
def apAddress (f : List UInt8) : UInt32 :=
  (crc24 (f.take (f.length - 3)) ^^^ be24 (f.drop (f.length - 3))) &&& 0xFFFFFF

/-- One reception. DF17 contributes syncs, DF11 and the surveillance replies
    are forwarded; DF11 and DF17 alone can introduce an aircraft. -/
def onReception (e : Engine) (r : Reception) (now : Instant) : Engine × List Outbound :=
  let (e, out) := e.checkReset r
  let f := r.frame
  match dfOf f with
  | none => (e, out)
  | some df =>
    if df = 17 then
      if crc24 f ≠ 0 then (e, out)
      else
        let e := e.touch (be24 (f.drop 1)) now true
        match parseDf17Airborne f with
        | some d =>
          let (e, syncs) := e.pairSync d.icao.val d.odd r now
          (e, out ++ syncs)
        | none => (e, out)
    else if df = 11 then
      if 80 ≤ crc24 f then (e, out)
      else
        let addr := be24 (f.drop 1)
        let e := e.touch addr now true
        (e, out ++ e.forward addr r)
    else if df ∈ ([0, 4, 5, 16, 20, 21] : List UInt8) then
      let addr := apAddress f
      if (e.aircraft addr).isNone then (e, out)
      else
        let e := e.touch addr now false
        (e, out ++ e.forward addr r)
    else (e, out)

/-- An aircraft not heard for a minute is dropped. -/
def expired (now : Instant) (a : Aircraft) : Bool :=
  lostAfterS * nanos < now - a.lastSeen

/-- Announce new aircraft, expire silent ones, report rates. `order` is the
    order in which the table is visited. -/
def tick (e : Engine) (now : Instant) (order : List UInt32) : Engine × List Outbound :=
  let visit := fun (p : Aircraft → Bool) => order.filter fun addr => (e.aircraft addr).any p
  let lost := fun s => (visit fun a => expired now a && (a.servers s).announced).map hex06
  let seen := fun s => (visit fun a => !expired now a && !(a.servers s).announced).map hex06
  let aircraft := fun addr => match e.aircraft addr with
    | none => none
    | some a => if expired now a then none
        else some { a with servers := fun s => { a.servers s with announced := true } }
  let announcements := (List.range e.nServers).flatMap fun s =>
    (if seen s = [] then [] else [(s, ClientMsg.seen (seen s))]) ++
    (if lost s = [] then [] else [(s, ClientMsg.lost (lost s))])
  let elapsed := now - e.lastRateReport
  if rateReportS * nanos ≤ elapsed then
    let rate := fun (a : Aircraft) =>
      (round ((a.msgsInWindow : ℚ) * nanos / elapsed * 100) : ℚ) / 100
    let rates := (order.filterMap fun addr => (aircraft addr).map fun a => (hex06 addr, rate a))
      |>.insertionSort fun x y => x.1 ≤ y.1
    ({ e with
        aircraft := fun addr => (aircraft addr).map fun a => { a with msgsInWindow := 0 }
        lastRateReport := now },
      announcements ++
        if rates = [] then [] else (List.range e.nServers).map fun s => (s, .rateReport rates))
  else ({ e with aircraft := aircraft }, announcements)

/-- A call of one of the engine's operations. -/
inductive Call where
  | reception (r : Reception) (now : Instant)
  | tick (now : Instant) (order : List UInt32)
  | startSending (server : Nat) (hexes : List String)
  | stopSending (server : Nat) (hexes : List String)
  | serverReset (server : Nat)
  | inputReset

/-- What a call does and what it emits. -/
def call (e : Engine) : Call → Engine × List Outbound
  | .reception r now => e.onReception r now
  | .tick now order => e.tick now order
  | .startSending server hexes => (e.startSending server hexes, [])
  | .stopSending server hexes => (e.stopSending server hexes, [])
  | .serverReset server => (e.serverReset server, [])
  | .inputReset => (e.inputReset, [])

def after (e : Engine) (c : Call) : Engine := (e.call c).1

/-- The messages for one server, in order. -/
def messagesTo (server : Nat) (out : List Outbound) : List ClientMsg :=
  (out.filter fun m => m.1 = server).map Prod.snd

end Engine

end Client

end MlatBench
