import Mathlib.Data.List.Sort
import MlatBench.Core.Modes
import MlatBench.Core.PairModel
import MlatBench.Core.Solve
import MlatBench.Library.Hex

/-!
# The Shard State

The estimation state of one `mlatd` shard: receiver slots, pairwise clocks,
pending sync points and message groups, and tracks.

Vectors indexed by slot are lists, hash maps are functions. The instant of a
call is an argument. Rows for the output task are kept as data, not as text.
The solve of a group is in `Core.Group`.

The last four fields are history, read by no operation. Every report carries an
`Origin`: under which reference it came and how often that receiver's clock had
been reset. `trained` and `offsetOrigin` say the same of pair models and stamp
offsets, and `uses` records where the operations take such data in.

## Main definitions

* `RxRef`, `ReceiverInfo`, `RxBias`, `Track`: Receivers and aircraft.
* `SyncPoint`, `Group`: Pending reports.
* `State`: The state.
* `State.addReceiver`, `State.removeReceiver`, `State.clockReset`: Slots.
* `State.onSync`, `State.onMlat`: Reports.
* `State.receiverStats`: The stats of one receiver.
-/

namespace MlatBench

namespace Server

open Library F64 F64Fn Modes

/-- A slot and the generation it was issued with. -/
structure RxRef where
  idx : Nat
  gen : Nat
deriving DecidableEq

/-- What is known of a receiver. -/
structure ReceiverInfo (F : Type) where
  user : String
  geo : Geodetic F
  ecef : Ecef F
  freqHz : F
  gps : Bool
  jitterS : F
deriving DecidableEq

/-- Learned timing bias and scatter of a receiver. -/
structure RxBias (F : Type) where
  biasS : F
  madS : F
  n : Nat
deriving DecidableEq

/-- Publication state of an aircraft. -/
structure Track (F : Type) where
  lastPos : Option (Geodetic F)
  lastTimeScaled : F
  lastAttemptScaled : F
  speedRejects : Nat

/-- Smoothed position and velocity of an aircraft. -/
structure TrackFilter (F : Type) where
  lat : F
  lon : F
  vlat : F
  vlon : F
  lastT : F
  n : Nat

/-- History: where a report came from. -/
structure Origin where
  ref : RxRef
  epoch : Nat
deriving DecidableEq

/-- One receiver's corrected transmit times of a sync pair. -/
structure Reporter (F : Type) where
  rx : Nat
  te : F
  tO : F
  origin : Origin

structure SyncPoint (F : Type) where
  created : Nat
  reporters : List (Reporter F)

/-- One receiver's arrival time of a message. -/
structure Entry (F : Type) where
  rx : Nat
  tS : F
  atScaled : F
  origin : Origin

structure Group (F : Type) where
  created : Nat
  icao : Icao
  df17 : Bool
  entries : List (Entry F)

/-- An entry in the reference's clock. -/
structure Conv (F : Type) where
  rx : Nat
  t : F
  sigma : F
  atScaled : F
  origin : Origin

/-- An observation, with what is known beside it. -/
structure Observed (F : Type) where
  obs : Observation F
  user : String
  rx : Nat
  atScaled : F
  origin : Origin

/-- One accepted fix. -/
structure OutRow (F : Type) where
  shard : Nat
  pos : Geodetic F
  icao : Icao
  stamp : F
  altFt : Int
  errM : F
  n : Nat
  users : List String
  filtered : Option (Geodetic F)

/-- Traffic to the output task. -/
inductive OutMsg (F : Type) where
  | fix (row : OutRow F)
  | selfTruth (stamp : F) (icao : Icao) (err errEst : F) (n : Nat)

/-- History: what an operation took in. -/
inductive UseKind where
  | push
  | train
  | convert
  | observe
  | stamp
deriving DecidableEq

/-- History: a slot's datum was used; `live` if it was reported under the
    reference then live in the slot, `fresh` if under the clock then running. -/
structure Use where
  kind : UseKind
  slot : Nat
  origin : Origin
  live : Bool
  fresh : Bool

/-- The state of a shard. -/
structure State (F : Type) where
  shardId : Nat
  mlatAdsb : Bool
  emitFiltered : Bool
  receivers : List (ReceiverInfo F)
  rxBias : List (RxBias F)
  rxSync : List (F × F)
  gens : List Nat
  alive : List Bool
  freeSlots : List Nat
  byUser : String → Option Nat
  reference : Option Nat
  pairs : Nat × Nat → Option (PairModel F)
  syncpoints : String × String → Option (SyncPoint F)
  groups : String → Option (Group F)
  adsbPos : Icao → Option (Geodetic F × F)
  altsFt : Icao → Option Int
  tracks : Icao → Option (Track F)
  filters : Icao → Option (TrackFilter F)
  stampOffset : Nat → Option F
  statsSolved : Nat
  statsRejected : Nat
  statsSyncObs : Nat
  out : List (OutMsg F)
  hung : Bool
  resets : RxRef → Nat
  trained : Nat × Nat → List Origin
  offsetOrigin : Nat → Option Origin
  uses : List Use

section

variable {F : Type} [F64Fn F]

def quarantineMadS : F := lit (15 / 10000000)

def quarantineMinN : Nat := 30

def RxBias.default : RxBias F := ⟨lit 0, lit 0, 0⟩

/-- The scatter says the receiver is not to be trusted. -/
def RxBias.quarantined (b : RxBias F) : Bool :=
  quarantineMinN ≤ b.n ∧ quarantineMadS < b.madS

/-- The bias follows a residual; so does the scatter on the published path. -/
def RxBias.learn (b : RxBias F) (scatter : Bool) (r : F) : RxBias F :=
  let k : F := if b.n < 50 then lit (1 / 10) else lit (2 / 100)
  let bias := b.biasS + k * r
  let mad := if scatter then b.madS + k * (F64.abs (r - bias) - b.madS) else b.madS
  ⟨bias, mad, b.n + 1⟩

def Track.default : Track F := ⟨none, lit 0, lit 0, 0⟩

def TrackFilter.new (first : Geodetic F) (t : F) : TrackFilter F :=
  ⟨first.latDeg, first.lonDeg, lit 0, lit 0, t, 1⟩

/-- An accepted fix moves the filter; the smoothed position. -/
def TrackFilter.update (f : TrackFilter F) (fix : Geodetic F) (t errEstM : F) :
    TrackFilter F × Geodetic F :=
  let dt := clamp (lit 0) (lit 30) (t - f.lastT)
  let plat := f.lat + f.vlat * dt
  let plon := f.lon + f.vlon * dt
  let quality := clamp (lit (15 / 100)) (lit (8 / 10)) (lit 40 / F64.max errEstM (lit 30))
  let alpha := if f.n < 5 then F64.max quality (lit (1 / 2)) else quality
  let beta := alpha * alpha / (lit 2 - alpha)
  let rlat := fix.latDeg - plat
  let rlon := fix.lonDeg - plon
  let lat := plat + alpha * rlat
  let lon := plon + alpha * rlon
  let moving := decide (lit (5 / 100) < dt)
  ({ lat := lat, lon := lon
     vlat := if moving then f.vlat + beta * rlat / dt else f.vlat
     vlon := if moving then f.vlon + beta * rlon / dt else f.vlon
     lastT := t, n := f.n + 1 },
    ⟨lat, lon, fix.altM⟩)

namespace State

def new (shardId : Nat) (mlatAdsb emitFiltered : Bool) : State F :=
  { shardId := shardId, mlatAdsb := mlatAdsb, emitFiltered := emitFiltered
    receivers := [], rxBias := [], rxSync := [], gens := [], alive := [], freeSlots := []
    byUser := fun _ => none, reference := none, pairs := fun _ => none
    syncpoints := fun _ => none, groups := fun _ => none, adsbPos := fun _ => none
    altsFt := fun _ => none, tracks := fun _ => none, filters := fun _ => none
    stampOffset := fun _ => none, statsSolved := 0, statsRejected := 0, statsSyncObs := 0
    out := [], hung := false
    resets := fun _ => 0, trained := fun _ => [], offsetOrigin := fun _ => none, uses := [] }

def isAlive (s : State F) (i : Nat) : Bool := s.alive.getD i false

def genOf (s : State F) (i : Nat) : Nat := s.gens.getD i 0

def biasOf (s : State F) (i : Nat) : RxBias F := s.rxBias.getD i RxBias.default

def zeroGeo : Geodetic F := ⟨lit 0, lit 0, lit 0⟩

/-- The receiver of a slot; slots in use are in range. -/
def receiver (s : State F) (i : Nat) : ReceiverInfo F :=
  s.receivers.getD i ⟨"", zeroGeo, ⟨lit 0, lit 0, lit 0⟩, lit 1, false, lit 0⟩

def live (s : State F) (r : RxRef) : Bool :=
  r.idx < s.receivers.length ∧ s.isAlive r.idx = true ∧ s.genOf r.idx = r.gen

/-- History: the origin of a report made now. -/
def originOf (s : State F) (r : RxRef) : Origin := ⟨r, s.resets r⟩

/-- History: the origin of what a slot's clock shows now. -/
def originAt (s : State F) (i : Nat) : Origin := s.originOf ⟨i, s.genOf i⟩

/-- History: a use made now. -/
def use (s : State F) (kind : UseKind) (slot : Nat) (o : Origin) : Use :=
  { kind := kind, slot := slot, origin := o
    live := s.live o.ref && o.ref.idx == slot
    fresh := o.epoch == s.resets o.ref }

/-- History: uses of what pair models were trained with. -/
def trainUses (s : State F) (keys : List (Nat × Nat)) : List Use :=
  keys.flatMap fun k => (s.trained k).map fun o => s.use .train o.ref.idx o

/-- The pair models of a slot are dropped. -/
def dropPairs (s : State F) (rx : Nat) : State F :=
  { s with
    pairs := fun k => if k.1 ≠ rx ∧ k.2 ≠ rx then s.pairs k else none
    trained := fun k => if k.1 ≠ rx ∧ k.2 ≠ rx then s.trained k else [] }

def removeReceiver (s : State F) (r : RxRef) : State F :=
  if s.live r = false then s
  else
    let rx := r.idx
    let user := (s.receiver rx).user
    let s := s.dropPairs rx
    { s with
      alive := s.alive.set rx false
      stampOffset := Function.update s.stampOffset rx none
      offsetOrigin := Function.update s.offsetOrigin rx none
      byUser := if s.byUser user = some rx then Function.update s.byUser user none else s.byUser
      freeSlots := rx :: s.freeSlots }

/-- A slot for a new connection: the last one freed, else one more. -/
def takeSlot (s : State F) (info : ReceiverInfo F) : State F × Nat :=
  match s.freeSlots with
  | i :: free =>
    ({ s with
      freeSlots := free
      receivers := s.receivers.set i info
      rxBias := s.rxBias.set i RxBias.default
      rxSync := s.rxSync.set i (lit 0, lit 0)
      gens := s.gens.set i ((s.genOf i + 1) % 2 ^ 32)
      alive := s.alive.set i true }, i)
  | [] =>
    ({ s with
      receivers := s.receivers ++ [info]
      rxBias := s.rxBias ++ [RxBias.default]
      rxSync := s.rxSync ++ [(lit 0, lit 0)]
      gens := s.gens ++ [0]
      alive := s.alive ++ [true] }, s.receivers.length)

/-- A receiver connects. One of the same user is removed first. -/
def addReceiver (s : State F) (info : ReceiverInfo F) : State F × RxRef :=
  let s := match s.byUser info.user with
    | some old => s.removeReceiver ⟨old, s.genOf old⟩
    | none => s
  let (s, idx) := s.takeSlot info
  let reference := match s.reference with
    | none => some idx
    | some r => if info.gps = true ∧ (s.receiver r).gps = false then some idx else some r
  ({ s with byUser := Function.update s.byUser info.user (some idx), reference := reference },
    ⟨idx, s.genOf idx⟩)

def clockReset (s : State F) (r : RxRef) : State F :=
  if s.live r = false then s
  else
    let s := s.dropPairs r.idx
    { s with resets := Function.update s.resets r (s.resets r + 1) }

/-- A message joins the group of its text. -/
def onMlat (s : State F) (now : Nat) (r : RxRef) (tCounts : F) (mHex : String) (atScaled : F) :
    State F :=
  if s.live r = false then s
  else
    match hexDecode mHex with
    | none => s
    | some m =>
      let known : Option (Icao × State F) :=
        match dfOf m with
        | some 17 =>
          if s.mlatAdsb = false then none else (parseDf17Airborne m).map fun d => (d.icao, s)
        | some 4 =>
          match parseDf4 m with
          | none => none
          | some (icao, some alt) =>
            some (icao, { s with altsFt := Function.update s.altsFt icao (some alt) })
          | some (icao, none) => some (icao, s)
        | some 11 => (parseDf11 m).map fun icao => (icao, s)
        | _ => none
      match known with
      | none => s
      | some (icao, s) =>
        let g := (s.groups mHex).getD
          { created := now, icao := icao, df17 := decide ((m.getD 0 0) >>> 3 = 17), entries := [] }
        let entry : Entry F :=
          { rx := r.idx, tS := tCounts / (s.receiver r.idx).freqHz, atScaled := atScaled
            origin := s.originOf r }
        let g := { g with entries := g.entries ++ [entry] }
        { s with groups := Function.update s.groups mHex (some g) }

/-- The decoded pair of a sync message: the even report and the positions of
    both. -/
def syncEvent (emHex omHex : String) : Option (Df17Airborne × (F × F) × (F × F)) :=
  match hexDecode emHex, hexDecode omHex with
  | some em, some om =>
    match parseDf17Airborne em, parseDf17Airborne om with
    | some de, some d =>
      if de.icao ≠ d.icao ∨ de.odd = true ∨ d.odd = false then none
      else
        let even := (de.cprLat, de.cprLon)
        let odd := (d.cprLat, d.cprLon)
        match Cpr.globalDecodeAirborne even odd false, Cpr.globalDecodeAirborne even odd true with
        | some pe, some po => some (de, pe, po)
        | _, _ => none
    | _, _ => none
  | _, _ => none

/-- One shared event trains the models of two slots in both directions. -/
def trainPair (s : State F) (a b : Nat) (ta tb : F) : State F :=
  let (ab, ok) := ((s.pairs (a, b)).getD PairModel.default).push ta tb
  let pairs := Function.update s.pairs (a, b) (some ab)
  let (ba, _) := ((pairs (b, a)).getD PairModel.default).push tb ta
  let (acc, rej) := s.rxSync.getD a (lit 0, lit 0)
  { s with
    pairs := Function.update pairs (b, a) (some ba)
    rxSync := s.rxSync.set a (if ok then (acc + lit 1, rej) else (acc, rej + lit 1))
    statsSyncObs := s.statsSyncObs + 1 }

/-- A report trains the models with one earlier report of the event. -/
def trainWith (s : State F) (me other : Reporter F) : State F :=
  if other.rx = me.rx ∨ s.isAlive other.rx = false then s
  else
    let keys := [(me.rx, other.rx), (other.rx, me.rx)]
    let uses := s.trainUses keys ++ [s.use .push me.rx me.origin, s.use .push other.rx other.origin]
    let s := (s.trainPair me.rx other.rx me.te other.te).trainPair me.rx other.rx me.tO other.tO
    { s with
      trained := fun k => if k ∈ keys then s.trained k ++ [me.origin, other.origin] else s.trained k
      uses := s.uses ++ uses }

/-- A receiver joins a sync point and trains its clock against every other that
    reported the same pair, up to fifteen. -/
def joinSync (s : State F) (now : Nat) (r : RxRef) (te tO : F) (key : String × String) : State F :=
  let sp := (s.syncpoints key).getD { created := now, reporters := [] }
  if 15 ≤ sp.reporters.length then
    { s with syncpoints := Function.update s.syncpoints key (some sp) }
  else
    let me : Reporter F := { rx := r.idx, te := te, tO := tO, origin := s.originOf r }
    let joined := { sp with reporters := sp.reporters ++ [me] }
    let s := { s with syncpoints := Function.update s.syncpoints key (some joined) }
    sp.reporters.foldl (fun s other => s.trainWith me other) s

/-- What an aircraft says of itself is noted. -/
def noteAdsb (s : State F) (de : Df17Airborne) (geo : Geodetic F) (atScaled : F) : State F :=
  { s with
    altsFt := match de.altFt with
      | some alt => Function.update s.altsFt de.icao (some alt)
      | none => s.altsFt
    adsbPos := Function.update s.adsbPos de.icao (some (geo, atScaled)) }

/-- A sync message: transmit times are computed from the positions the pair
    claims. -/
def onSync (s : State F) (now : Nat) (r : RxRef) (et ot : F) (emHex omHex : String)
    (atScaled : F) : State F :=
  if s.live r = false then s
  else
    match syncEvent emHex omHex with
    | none => s
    | some (de, pe, po) =>
      let altM : F := lit (de.altFt.getD 0) * lit (3048 / 10000)
      let geoE : Geodetic F := ⟨pe.1, pe.2, altM⟩
      let geoO : Geodetic F := ⟨po.1, po.2, altM⟩
      let info := s.receiver r.idx
      let te := et / info.freqHz - info.ecef.dist geoE.toEcef / cMps
      let tO := ot / info.freqHz - info.ecef.dist geoO.toEcef / cMps
      let s := s.noteAdsb de geoE atScaled
      let s := if s.mlatAdsb then s.onMlat now r et emHex atScaled else s
      s.joinSync now r te tO (emHex, omHex)

/-- Peers, outlier percentage and quarantine of a receiver; its counters decay. -/
def receiverStats (s : State F) (r : RxRef) : State F × Option (Nat × F × Bool) :=
  if s.live r = false then (s, none)
  else
    let rx := r.idx
    let peers := (List.range s.alive.length).countP fun b =>
      (s.pairs (rx, b)).isSome && s.isAlive b
    let (acc, rej) := s.rxSync.getD rx (lit 0, lit 0)
    let outlier := if lit 0 < acc + rej then lit 100 * rej / (acc + rej) else lit 0
    ({ s with rxSync := s.rxSync.set rx (acc * lit (1 / 4), rej * lit (1 / 4)) },
      some (peers, outlier, (s.biasOf rx).quarantined))

def liveReceivers (s : State F) : Nat :=
  s.alive.countP id

end State

end

end Server

end MlatBench
