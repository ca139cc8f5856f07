import Mathlib.Data.List.Sort
import Mathlib.Logic.Function.Basic
import MlatBench.Core.Clock
import MlatBench.Core.Frames
import MlatBench.Core.Proto

/-!
# Generating a Capture

From a scenario to what each receiver's client sends. Every aircraft transmits
on a schedule of its own; the transmissions of all are put in order of emission
and pass every receiver in that order. One that is audible and not lost is
stamped with the receiver's clock at its arrival and becomes a line, or waits
for its partner. The lines are put in order of arrival and sent.

A line is the message it says; framing is how lines are put together into
records. The loops of the source that run up to a time may not end on a scenario
that makes no progress. They get a number of turns here, and without an end
there is no capture.

`Line.about` and `Loop.stamps` are history, read by nothing.

## Main definitions

* `Broadcast`, `emissions`, `broadcasts`: The transmissions.
* `audible`: Horizon and range.
* `Loop`, `Loop.turn`: One receiver's loop over the transmissions.
* `frameLines`: Records.
* `buildClient`, `generate`: The capture.
-/

namespace MlatBench

namespace Sim

open Library F64 F64Fn F64Ln Modes Proto

inductive BroadcastKind where
  | df17 (odd : Bool)
  | df11
  | df4
deriving DecidableEq

/-- One transmission. -/
structure Broadcast (F : Type) where
  tS : F
  icao : Icao
  kind : BroadcastKind
  bytes : List UInt8
  pos : Geodetic F

/-- Where an aircraft truly was, nanoseconds after the start. -/
structure TruthPoint (F : Type) where
  t : Nat
  icao : Icao
  pos : Geodetic F
  gsMps : F
  vrateMps : F

structure AudibilityRow where
  tS : Nat
  icao : Icao
  receivers : List String

/-- A line before framing. A sync or mlat line is about an aircraft. -/
structure Line (F : Type) where
  t : F
  msg : ClientMsg
  about : Option Icao

/-- The lines that are sent at a time. -/
structure SendRecord (F : Type) where
  t : Nat
  lines : List (Line F)

/-- What a client says of itself. -/
structure Handshake (F : Type) where
  user : String
  compress : String
  lat : F
  lon : F
  alt : F
  clockType : String

structure ClientStream (F : Type) where
  id : String
  handshake : Handshake F
  compress : String
  clockType : String
  records : List (SendRecord F)
  messageCount : Nat
  syncCount : Nat
  mlatCount : Nat

structure GeneratedCapture (F : Type) where
  truth : List (TruthPoint F)
  audibility : List AudibilityRow
  clients : List (ClientStream F)

/-- A position report that waits for its partner. -/
structure PendingHalf (F : Type) where
  odd : Bool
  tArrive : F
  count : Nat
  bytes : List UInt8

/-- History: a reception and the count it was stamped with. -/
structure Stamp (F : Type) where
  b : Broadcast F
  t : F
  count : Nat

/-- One receiver's loop. Maps are functions. -/
structure Loop (F R : Type) where
  clock : ClockModel F R
  mpRng : R
  jitterRngs : Icao → Option R
  lossRngs : Icao → Option R
  lines : List (Line F)
  seen : List Icao
  pending : Icao → Option (PendingHalf F)
  messageCount : Nat
  syncCount : Nat
  mlatCount : Nat
  nextHb : F
  hung : Bool
  stamps : List (Stamp F)

def ClockSpec.wireClockType {F : Type} : ClockSpec F → String
  | .dump1090 .. => "dump1090"
  | .radarcapeGps .. => "radarcape_gps"

section Emission

variable {F R : Type} [F64Ln F] (rand : Rand F R)

def tau : F := lit 2 * pi

def expGap (rateHz : F) (rng : R) : F × R :=
  let (u, rng) := rand.genRange epsilon (lit 1) rng
  (-(ln u) / rateHz, rng)

/-- The error of an aircraft's navigation, in degrees of a meridian. -/
def navOffset (navErrorM : F) (rng : R) : (F × F) × R :=
  if lit 0 < navErrorM then
    let (th, rng) := rand.genRange (lit 0) tau rng
    ((navErrorM * sin th / lit 111320, navErrorM * cos th / lit 111320), rng)
  else ((lit 0, lit 0), rng)

/-- The position report of an aircraft at a time, with its navigation error. -/
def positionReport (icao : Icao) (traj : Trajectory F) (navOff : F × F) (odd : Bool) (t : F) :
    Option (Broadcast F) :=
  let pos := traj.positionAt t
  let lat := pos.latDeg + navOff.1
  let lon := pos.lonDeg + navOff.2 / F64.max (cos (toRadians pos.latDeg)) (lit (2 / 10))
  let altFt := quantize25ft (pos.altM / lit (3048 / 10000))
  (df17AirbornePosition icao 5 11 altFt lat lon odd).map fun f =>
    { tS := t, icao := icao, kind := .df17 odd, bytes := f, pos := pos }

def squitter (icao : Icao) (traj : Trajectory F) (t : F) : Option (Broadcast F) :=
  some { tS := t, icao := icao, kind := .df11, bytes := Modes.df11 icao 5, pos := traj.positionAt t }

def altitudeReply (icao : Icao) (traj : Trajectory F) (t : F) : Option (Broadcast F) :=
  let pos := traj.positionAt t
  (Modes.df4 icao 0 (quantize25ft (pos.altM / lit (3048 / 10000)))).map fun f =>
    { tS := t, icao := icao, kind := .df4, bytes := f, pos := pos }

/-- Even and odd reports in turn, each a little off its time. -/
def adsbLoop (report : Bool → F → Option (Broadcast F)) (period durS : F) :
    Nat → R → F → Bool → Option (List (Broadcast F))
  | 0, _, t, _ => if t < durS then none else some []
  | fuel + 1, rng, t, odd =>
    if t < durS then
      let (j, rng) := rand.genRange (lit (-2 / 100)) (lit (2 / 100)) rng
      let jt := t + j
      let sent := if lit 0 ≤ jt ∧ jt < durS then (report odd jt).toList else []
      (adsbLoop report period durS fuel rng (t + period) (!odd)).map (sent ++ ·)
    else some []

/-- Replies at random times. -/
def poissonLoop (reply : F → Option (Broadcast F)) (rateHz durS : F) :
    Nat → R → F → Option (List (Broadcast F) × R)
  | 0, rng, t => if t < durS then none else some ([], rng)
  | fuel + 1, rng, t =>
    if t < durS then
      let (gap, rng) := expGap rand rateHz rng
      (poissonLoop reply rateHz durS fuel rng (t + gap)).map fun (bs, rng) =>
        ((reply t).toList ++ bs, rng)
    else some ([], rng)

/-- The transmissions of one aircraft. -/
def emissions (fuel seed : Nat) (durS : F) (ac : AircraftSpec F) : Option (List (Broadcast F)) :=
  let icao := (Icao.fromHex ac.icao).getD ⟨0⟩
  let rng := rand.rngFor seed ("emit/" ++ ac.icao)
  let (navOff, rng) := navOffset rand ac.navErrorM rng
  match ac.kind with
  | .adsb =>
    let period := lit 1 / ac.posRateHz
    let (phase, rng) := rand.genRange (lit 0) period rng
    adsbLoop rand (positionReport icao ac.traj navOff) period durS fuel rng phase false
  | .modesOnly =>
    let (t, rng) := expGap rand ac.df11RateHz rng
    match poissonLoop rand (squitter icao ac.traj) ac.df11RateHz durS fuel rng t with
    | none => none
    | some (squitters, rng) =>
      let (t, rng) := expGap rand ac.df4RateHz rng
      (poissonLoop rand (altitudeReply icao ac.traj) ac.df4RateHz durS fuel rng t).map
        fun (replies, _) => squitters ++ replies

/-- The transmissions of all aircraft, in order of emission. -/
def broadcasts (fuel : Nat) (sc : Scenario F) : Option (List (Broadcast F)) :=
  (sc.aircraft.mapM (emissions rand fuel sc.seed (lit sc.durationS))).map fun bs =>
    bs.flatten.insertionSort fun a b => totalLe a.tS b.tS

end Emission

section Reception

variable {F R : Type} [F64Ln F]

/-- Radio horizon in kilometres. -/
def horizonKm (hRxM hAcM : F) : F :=
  lit (412 / 100) * (sqrt (F64.max hRxM (lit 0)) + sqrt (F64.max hAcM (lit 0)))

def audible (rx : ReceiverSpec F) (pos : Geodetic F) : Bool :=
  let surfaceKm := rx.pos.haversine pos / lit 1000
  if horizonKm rx.altM pos.altM < surfaceKm then false
  else
    match rx.maxRangeKm with
    | none => true
    | some cap => decide ¬ cap < surfaceKm

/-- The straight distance of two positions. -/
def slantRange (p q : Geodetic F) : F :=
  p.toEcef.dist q.toEcef

def heartbeats : Nat → F → F → List (Line F) × F × Bool
  | 0, nextHb, t => ([], nextHb, decide ¬ nextHb < t)
  | fuel + 1, nextHb, t =>
    if nextHb < t then
      let (ls, last, ended) := heartbeats fuel (nextHb + lit 30) t
      ({ t := nextHb, msg := .heartbeat, about := none } :: ls, last, ended)
    else ([], nextHb, true)

namespace Loop

def push (s : Loop F R) (t : F) (about : Option Icao) (msg : ClientMsg) : Loop F R :=
  { s with
    lines := s.lines ++ [{ t := t, msg := msg, about := about }]
    messageCount := s.messageCount + 1 }

/-- The loss draw of a transmission, from the stream of the aircraft. -/
def drawLoss (rand : Rand F R) (seed : Nat) (rx : ReceiverSpec F) (s : Loop F R)
    (b : Broadcast F) : F × R :=
  rand.genRange (lit 0) (lit 1) ((s.lossRngs b.icao).getD
    (rand.rngFor seed ("loss/" ++ rx.id ++ "/" ++ b.icao.toHex)))

/-- When a transmission arrives, over a reflection now and then. -/
def arrive (rand : Rand F R) (rx : ReceiverSpec F) (s : Loop F R) (b : Broadcast F) : F × R :=
  let t := b.tS + slantRange rx.pos b.pos / cMps
  if lit 0 < rx.multipathProb then
    let (u, mp) := rand.genRange (lit 0) (lit 1) s.mpRng
    if u < rx.multipathProb then
      let (echo, mp) := rand.genRange (lit (5 / 10 ^ 7)) (lit (3 / 10 ^ 6)) mp
      (t + echo, mp)
    else (t, mp)
  else (t, s.mpRng)

/-- The heartbeats due before an arrival. -/
def beat (fuel : Nat) (s : Loop F R) (t : F) : Loop F R :=
  let (ls, nextHb, ended) := heartbeats fuel s.nextHb t
  { s with
    lines := s.lines ++ ls, messageCount := s.messageCount + ls.length
    nextHb := nextHb, hung := s.hung || !ended }

/-- The jitter stream of an aircraft at the receiver. -/
def jitterRng (rand : Rand F R) (seed : Nat) (rx : ReceiverSpec F) (s : Loop F R) (icao : Icao) : R :=
  (s.jitterRngs icao).getD (rand.rngFor seed ("clkjit/" ++ rx.id ++ "/" ++ icao.toHex))

/-- A reception is stamped. -/
def stamp (rand : Rand F R) (seed : Nat) (rx : ReceiverSpec F) (s : Loop F R) (b : Broadcast F)
    (t : F) : Loop F R × Nat × Bool :=
  let (clock, jit, count, jumped) :=
    s.clock.countAtHostile rand t (s.jitterRng rand seed rx b.icao)
  ({ s with
      clock := clock, jitterRngs := Function.update s.jitterRngs b.icao (some jit)
      stamps := s.stamps ++ [{ b := b, t := t, count := count }] }, count, jumped)

/-- An aircraft is announced once. -/
def announce (s : Loop F R) (icao : Icao) (t : F) : Loop F R :=
  if icao ∈ s.seen then s
  else ({ s with seen := icao :: s.seen }).push t none (.seen [icao.toHex])

/-- A position report makes a sync message with its partner, or waits. -/
def pair (s : Loop F R) (b : Broadcast F) (odd : Bool) (t : F) (count : Nat) : Loop F R :=
  let wait := { s with
    pending := Function.update s.pending b.icao
      (some { odd := odd, tArrive := t, count := count, bytes := b.bytes }) }
  match s.pending b.icao with
  | none => wait
  | some p =>
    if p.odd ≠ odd ∧ t - p.tArrive < lit 2 then
      let s := { s with
        pending := Function.update s.pending b.icao none, syncCount := s.syncCount + 1 }
      if odd then
        s.push t (some b.icao) (.sync p.count count (hexEncode p.bytes) (hexEncode b.bytes))
      else s.push t (some b.icao) (.sync count p.count (hexEncode b.bytes) (hexEncode p.bytes))
    else wait

/-- What a stamped reception becomes. -/
def report (s : Loop F R) (b : Broadcast F) (t : F) (count : Nat) : Loop F R :=
  match b.kind with
  | .df17 odd => s.pair b odd t count
  | _ => ({ s with mlatCount := s.mlatCount + 1 }).push t (some b.icao)
      (.mlat count (hexEncode b.bytes))

/-- A transmission that is heard. -/
def hear (rand : Rand F R) (fuel seed : Nat) (rx : ReceiverSpec F) (s : Loop F R)
    (b : Broadcast F) : Loop F R :=
  let (t, mp) := s.arrive rand rx b
  let s := { s with mpRng := mp }
  let s := s.beat fuel t
  let (s, count, jumped) := s.stamp rand seed rx b t
  let s := if jumped then s.push t none (.clockJump "jump") else s
  let s := s.announce b.icao t
  s.report b t count

/-- One transmission. -/
def turn (rand : Rand F R) (fuel seed : Nat) (rx : ReceiverSpec F) (s : Loop F R)
    (b : Broadcast F) : Loop F R :=
  if audible rx b.pos = false then s
  else
    let (u, loss) := s.drawLoss rand seed rx b
    let s := { s with lossRngs := Function.update s.lossRngs b.icao (some loss) }
    if u < rx.lossProb then s else s.hear rand fuel seed rx b

/-- Before the first transmission: the input is announced. -/
def init (rand : Rand F R) (seed : Nat) (rx : ReceiverSpec F) : Loop F R :=
  let clock := ClockModel.new rx.clock
  let clock := if clock.isHostile then
    { clock with hostileRng := some (rand.rngFor seed ("hostile/" ++ rx.id)) } else clock
  { clock := clock
    mpRng := rand.rngFor seed ("mp/" ++ rx.id)
    jitterRngs := fun _ => none
    lossRngs := fun _ => none
    lines := [{ t := lit (1 / 10), msg := .inputConnected "connected", about := none }]
    seen := []
    pending := fun _ => none
    messageCount := 1
    syncCount := 0
    mlatCount := 0
    nextHb := lit 30
    hung := false
    stamps := [] }

/-- All transmissions, in order of emission. -/
def run (rand : Rand F R) (fuel seed : Nat) (rx : ReceiverSpec F) (bs : List (Broadcast F)) :
    Loop F R :=
  bs.foldl (turn rand fuel seed rx) (init rand seed rx)

/-- The lines in order of arrival. -/
def sorted (s : Loop F R) : List (Line F) :=
  s.lines.insertionSort fun a b => totalLe a.t b.t

end Loop

/-- The nanosecond a line sent at a time reaches the server. -/
def toNanos (rand : Rand F R) (latencyS jitterS t : F) (rng : R) : Nat × R :=
  let (j, rng) :=
    if lit 0 < jitterS then
      let (g, rng) := gaussian rand rng
      (F64.max (g * jitterS) (-latencyS * lit (9 / 10)), rng)
    else (lit 0, rng)
  ((toInt 0 (2 ^ 64 - 1) (F64.max (round ((t + latencyS + j) * lit (10 ^ 9))) (lit 0))).toNat, rng)

/-- One record for each line. -/
def recordEach (rand : Rand F R) (latencyS jitterS : F) : List (Line F) → R → List (SendRecord F)
  | [], _ => []
  | l :: ls, rng =>
    let (t, rng) := toNanos rand latencyS jitterS l.t rng
    { t := t, lines := [l] } :: recordEach rand latencyS jitterS ls rng

/-- Windows of a second go by; the batch goes out at the end of the first. -/
def closeWindows (rand : Rand F R) (latencyS jitterS t : F) :
    Nat → F → List (Line F) → R → Option (List (SendRecord F) × F × List (Line F) × R)
  | 0, windowEnd, batch, rng => if windowEnd ≤ t then none else some ([], windowEnd, batch, rng)
  | fuel + 1, windowEnd, batch, rng =>
    if windowEnd ≤ t then
      if batch = [] then closeWindows rand latencyS jitterS t fuel (windowEnd + lit 1) batch rng
      else
        let (n, rng) := toNanos rand latencyS jitterS windowEnd rng
        (closeWindows rand latencyS jitterS t fuel (windowEnd + lit 1) [] rng).map
          fun (rs, w, left, rng) => ({ t := n, lines := batch } :: rs, w, left, rng)
    else some ([], windowEnd, batch, rng)

/-- One record for each second with lines in it. -/
def recordBatches (rand : Rand F R) (fuel : Nat) (latencyS jitterS : F) :
    List (Line F) → F → List (Line F) → R → Option (List (SendRecord F))
  | [], windowEnd, batch, rng =>
    if batch = [] then some []
    else some [{ t := (toNanos rand latencyS jitterS windowEnd rng).1, lines := batch }]
  | l :: ls, windowEnd, batch, rng =>
    match closeWindows rand latencyS jitterS l.t fuel windowEnd batch rng with
    | none => none
    | some (rs, windowEnd, batch, rng) =>
      (recordBatches rand fuel latencyS jitterS ls windowEnd (batch ++ [l]) rng).map (rs ++ ·)

/-- Lines into records, by the compression the client asks for. -/
def frameLines (rand : Rand F R) (fuel : Nat) (compress : String) (latencyS jitterS : F)
    (lines : List (Line F)) (rng : R) : Option (List (SendRecord F)) :=
  if compress = "zlib2" then
    match lines with
    | [] => some []
    | l :: ls => recordBatches rand fuel latencyS jitterS (l :: ls) (floor l.t + lit 1) [] rng
  else some (recordEach rand latencyS jitterS lines rng)

/-- The position a client reports. -/
def reportedPos (rand : Rand F R) (rx : ReceiverSpec F) (rng : R) : (F × F) × R :=
  if lit 0 < rx.reportedPosErrorM then
    let (th, rng) := rand.genRange (lit 0) tau rng
    ((rx.lat + rx.reportedPosErrorM * sin th / lit 111320,
      rx.lon + rx.reportedPosErrorM * cos th /
        (lit 111320 * F64.max (cos (toRadians rx.lat)) (lit (2 / 10)))), rng)
  else ((rx.lat, rx.lon), rng)

/-- What one receiver's client sends. -/
def buildClient (rand : Rand F R) (fuel : Nat) (sc : Scenario F) (rx : ReceiverSpec F)
    (bs : List (Broadcast F)) : Option (ClientStream F) :=
  let net := rand.rngFor sc.seed ("net/" ++ rx.id)
  let (latencyMs, net) :=
    rand.genRangeInclusive sc.network.latencyMsMin sc.network.latencyMsMax net
  let (rep, net) := reportedPos rand rx net
  let loop := Loop.run rand fuel sc.seed rx bs
  if loop.hung then none
  else
    (frameLines rand fuel rx.compress (latencyMs / lit 1000) (sc.network.jitterMs / lit 1000)
      loop.sorted net).map fun records =>
      { id := rx.id
        handshake := { user := rx.id, compress := rx.compress, lat := rep.1, lon := rep.2
                       alt := rx.altM, clockType := rx.clock.wireClockType }
        compress := rx.compress
        clockType := rx.clock.wireClockType
        records := records
        messageCount := loop.messageCount
        syncCount := loop.syncCount
        mlatCount := loop.mlatCount }

/-- The true track of an aircraft, once a second. -/
def truthOf (sc : Scenario F) (ac : AircraftSpec F) : List (TruthPoint F) :=
  (List.range sc.durationS).map fun t : Nat =>
    { t := t * 10 ^ 9, icao := (Icao.fromHex ac.icao).getD ⟨0⟩, pos := ac.traj.positionAt (lit t)
      gsMps := ac.traj.gsMps, vrateMps := ac.traj.vrateMps (lit t) }

/-- Which receivers can hear an aircraft, once a second. -/
def audibilityOf (sc : Scenario F) (ac : AircraftSpec F) : List AudibilityRow :=
  (List.range sc.durationS).filterMap fun t : Nat =>
    let rxs := (sc.receivers.filter fun r => audible r (ac.traj.positionAt (lit t))).map
      ReceiverSpec.id
    if rxs = [] then none
    else some { tS := t, icao := (Icao.fromHex ac.icao).getD ⟨0⟩, receivers := rxs }

/-- The capture of a scenario; none if a loop did not end in the turns given. -/
def generate (rand : Rand F R) (fuel : Nat) (sc : Scenario F) :
    Option (Except (ScenarioError F) (GeneratedCapture F)) :=
  match sc.validate with
  | .error e => some (.error e)
  | .ok () =>
    match broadcasts rand fuel sc with
    | none => none
    | some bs =>
      (sc.receivers.mapM fun rx => buildClient rand fuel sc rx bs).map fun clients =>
        .ok { truth := sc.aircraft.flatMap (truthOf sc)
              audibility := sc.aircraft.flatMap (audibilityOf sc)
              clients := clients }

end Reception

end Sim

end MlatBench
