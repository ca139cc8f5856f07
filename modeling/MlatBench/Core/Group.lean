import Mathlib.Data.List.MinMax
import MlatBench.Core.State

/-!
# Solving a Group

What a sweep does: groups older than the window are removed and solved, sync
points older than four seconds expire.

The times of a group are carried over to the clock of one member, sorted, and
cut into clusters; each cluster gives one observation a receiver, a stamp, and
if the gates let it pass a fix. `solver` is the position solve, which is
`Solve.solveRobust` in the source. The order in which the groups are visited and
the readings of the output clock, one for each cluster, are arguments.

Cutting does not end at a time that is no number. The state is `hung` then and
does nothing more.

## Main definitions

* `State.localRef`: The member elected as reference.
* `State.toRef`: A time in the reference's clock.
* `clusters`: The cut.
* `State.observe`: The observations of a cluster.
* `capObs`: The sixteen most precise.
* `State.solveCluster`, `State.solveGroup`, `State.sweep`: The solve.
* `State.Event`, `State.step`: The calls of the shard's loop.
-/

namespace MlatBench

namespace Server

open Library F64 F64Fn Modes

variable {F : Type} [F64Fn F]

/-- The position solve. -/
abbrev Solver (F : Type) := List (Observation F) → F → Geodetic F → Option (Solution F)

def clusterSpanS : F := lit (25 / 10000)

def resolveBackoffS : F := lit (4 / 10)

def maxErrM : F := lit 10000

def throttleScaleM : F := lit 1500

/-- The distinct slots of a group, in order of first appearance. -/
def Group.members (g : Group F) : List Nat :=
  g.entries.foldl (fun ms e => if e.rx ∈ ms then ms else ms ++ [e.rx]) []

/-- The times within the span of the first one form a cluster; the rest is cut
    on. The answer is whether the cut ended. -/
def clusters : Nat → List (Conv F) → List (List (Conv F)) × Bool
  | _, [] => ([], true)
  | 0, _ :: _ => ([], false)
  | fuel + 1, c :: rest =>
      let near := (c :: rest).takeWhile fun d => decide (d.t - c.t ≤ clusterSpanS)
      if near = [] then ([], false)
      else
        let (cs, ended) := clusters fuel ((c :: rest).drop near.length)
        (near :: cs, ended)

/-- The sixteen most precise observations, in their order. -/
def capObs (obs : List (Observed F)) : List (Observed F) :=
  if obs.length ≤ 16 then obs
  else
    let errAt := fun i => (obs[i]?.map fun o => o.obs.errS).getD (lit 0)
    let idx := (List.range obs.length).insertionSort fun a b => totalLe (errAt a) (errAt b)
    ((idx.take 16).insertionSort (· ≤ ·)).filterMap fun i => obs[i]?

namespace State

/-- The member with the most usable direct models from the others; of several
    the last. -/
def localRef (s : State F) (members : List Nat) : Option Nat :=
  members.reverse.argmax fun cand =>
    members.countP fun other =>
      other != cand && ((s.pairs (other, cand)).any PairModel.usable)

/-- A time carried over by a pair model. -/
def hop (s : State F) (a b : Nat) (t : F) : Option (F × F) :=
  (s.pairs (a, b)).bind fun p => p.convert t

/-- A time in the reference's clock: read there, carried over, or carried over
    through the member that keeps the sigma least. -/
def toRef (s : State F) (members : List Nat) (ref rx : Nat) (t : F) : Option (F × F) :=
  if rx = ref then some (t, (s.receiver rx).jitterS)
  else
    match s.hop rx ref t with
    | some direct => some direct
    | none =>
      (members.filter fun h => h ≠ rx ∧ h ≠ ref).foldl (fun best h =>
        match s.hop rx h t with
        | none => best
        | some (t1, s1) =>
          match s.hop h ref t1 with
          | none => best
          | some (t2, s2) =>
            let sig := sqrt (s1 * s1 + s2 * s2)
            match best with
            | none => some (t2, sig)
            | some (t0, s0) => if sig < s0 then some (t2, sig) else some (t0, s0)) none

/-- History: the models a conversion may consult. -/
def hopKeys (members : List Nat) (ref rx : Nat) : List (Nat × Nat) :=
  if rx = ref then []
  else (rx, ref) :: members.flatMap fun h => [(rx, h), (h, ref)]

def convertEntry (s : State F) (members : List Nat) (ref : Nat) (e : Entry F) :
    Option (Conv F) :=
  (s.toRef members ref e.rx e.tS).map fun (t, sigma) =>
    { rx := e.rx, t := t, sigma := F64.max sigma (s.receiver e.rx).jitterS
      atScaled := e.atScaled, origin := e.origin }

/-- One observation a receiver, the earliest. Dead and quarantined ones are
    left out. -/
def observe (s : State F) (cluster : List (Conv F)) : List (Observed F) :=
  (cluster.foldl (fun (acc : List Nat × List (Observed F)) c =>
    let (seen, obs) := acc
    if c.rx ∈ seen then acc
    else if s.isAlive c.rx = false ∨ (s.biasOf c.rx).quarantined = true then (c.rx :: seen, obs)
    else
      let info := s.receiver c.rx
      (c.rx :: seen, obs ++ [{
        obs := { rx := info.ecef, tS := c.t + (s.biasOf c.rx).biasS, errS := c.sigma }
        user := info.user, rx := c.rx, atScaled := c.atScaled, origin := c.origin }])) ([], [])).2

/-- The stamp offset of a reference follows a new difference: down at once, up
    slowly. -/
def nextOffset (old : Option F) (delta : F) : F :=
  match old with
  | none => delta
  | some o => if delta < o then delta else o + lit (1 / 1000) * (delta - o)

/-- Where the solve starts: at a fresh track, else at the mean of the receivers
    looked up by user. -/
def initialPos (s : State F) (track : Track F) (nowScaled altM : F) (users : List String) (n : Nat) :
    Geodetic F :=
  let found := users.filterMap fun u => s.receivers.find? fun r => r.user == u
  let mean : Geodetic F :=
    { latDeg := sum (found.map fun r => r.geo.latDeg) / lit n
      lonDeg := sum (found.map fun r => r.geo.lonDeg) / lit n
      altM := altM }
  match track.lastPos with
  | some p => if nowScaled - track.lastTimeScaled < lit 60 then { p with altM := altM } else mean
  | none => mean

/-- The receivers of a well-observed full-set solve learn from their residuals. -/
def learn (s : State F) (scatter : Bool) (rxIds : List Nat) (sol : Solution F) : State F :=
  if sol.residualsS.length = rxIds.length ∧ 5 ≤ rxIds.length ∧ sol.errEstM < lit 500 then
    { s with rxBias := (rxIds.zip sol.residualsS).foldl (fun bs (rx, r) =>
        bs.set rx ((bs.getD rx RxBias.default).learn scatter r)) s.rxBias }
  else s

def reject (s : State F) : State F :=
  { s with statsRejected := s.statsRejected + 1 }

def setTrack (s : State F) (icao : Icao) (t : Track F) : State F :=
  { s with tracks := Function.update s.tracks icao (some t) }

/-- A DF17 fix is compared with the position the aircraft claims. -/
def selfTruth (s : State F) (nowScaled stamp : F) (icao : Icao) (sol : Solution F) (n : Nat) :
    State F :=
  match s.adsbPos icao with
  | none => s
  | some (claimed, seenAt) =>
    if F64.abs (nowScaled - seenAt) < lit 5 then
      { s with out := s.out ++ [.selfTruth stamp icao (sol.pos.haversine claimed) sol.errEstM n] }
    else s

/-- A fix passes the output filter and goes to the output task. -/
def publish (s : State F) (stamp : F) (icao : Icao) (altFt : Int) (sol : Solution F)
    (users : List String) (n : Nat) : State F :=
  let (filters, filtered) :=
    if s.emitFiltered = false then (s.filters, none)
    else
      match s.filters icao with
      | some f =>
        let (f, smooth) := f.update sol.pos stamp sol.errEstM
        (Function.update s.filters icao (some f), some smooth)
      | none => (Function.update s.filters icao (some (TrackFilter.new sol.pos stamp)), some sol.pos)
  { s with
    filters := filters
    out := s.out ++ [.fix { shard := s.shardId, pos := sol.pos, icao := icao, stamp := stamp
                            altFt := altFt, errM := sol.errEstM, n := n, users := users
                            filtered := filtered }] }

/-- The gates a solution passes: error ceiling, output rate, speed; then it
    teaches the receivers and is published, or compared if it is a DF17's. -/
def accept (s : State F) (nowScaled stamp : F) (icao : Icao) (df17 : Bool) (track : Track F)
    (altFt : Int) (obs : List (Observed F)) (sol : Solution F) : State F :=
  let rxIds := obs.map Observed.rx
  let users := obs.map Observed.user
  let elapsed := nowScaled - track.lastTimeScaled
  let attempted := { track with lastAttemptScaled := nowScaled }
  if maxErrM < sol.errEstM then s.reject
  else if track.lastPos.isSome = true ∧ elapsed / lit 20 < sol.errEstM / throttleScaleM then s.reject
  else if track.lastPos.any (fun last => decide (elapsed < lit 30 ∧ lit (5 / 100) < elapsed ∧
      lit 400 < sol.pos.haversine last / elapsed)) then
    let rejects := track.speedRejects + 1
    let t := if 5 ≤ rejects then { attempted with lastPos := none, speedRejects := 0 }
      else { attempted with speedRejects := rejects }
    (s.setTrack icao t).reject
  else if df17 then
    -- The ceiling is looked at once more.
    if maxErrM < sol.errEstM then s
    else (s.learn false rxIds sol).selfTruth nowScaled stamp icao sol obs.length
  else
    let s := { s with statsSolved := s.statsSolved + 1 }
    let s := s.learn true rxIds sol
    let t := { attempted with
      lastPos := some sol.pos, lastTimeScaled := nowScaled, speedRejects := 0 }
    (s.setTrack icao t).publish stamp icao altFt sol users obs.length

/-- History: the observations of a cluster are used. -/
def withObserved (s : State F) (cluster : List (Conv F)) : State F :=
  { s with uses := s.uses ++ (s.observe cluster).map fun o => s.use .observe o.rx o.origin }

/-- The reference's stamp offset is used and set. -/
def withOffset (s : State F) (ref : Nat) (off : F) : State F :=
  { s with
    stampOffset := Function.update s.stampOffset ref (some off)
    offsetOrigin := Function.update s.offsetOrigin ref (some (s.originAt ref))
    uses := s.uses ++ (s.offsetOrigin ref).toList.map fun o => s.use .stamp ref o }

/-- History: entries are carried over. -/
def withConverted (s : State F) (members : List Nat) (ref : Nat) (es : List (Entry F)) : State F :=
  { s with
    uses := s.uses ++ es.flatMap fun e =>
      s.trainUses (hopKeys members ref e.rx) ++ [s.use .convert e.rx e.origin] }

/-- The solve of a cluster, if the altitude is known. -/
def attempt (solver : Solver F) (s : State F) (nowScaled stamp : F) (icao : Icao) (df17 : Bool)
    (track : Track F) (obs : List (Observed F)) : State F :=
  match s.altsFt icao with
  | none => s
  | some altFt =>
    let altM := lit altFt * lit (3048 / 10000)
    let s := s.setTrack icao { track with lastAttemptScaled := nowScaled }
    let init := s.initialPos track nowScaled altM (obs.map Observed.user) obs.length
    match solver (obs.map Observed.obs) altM init with
    | none => s.reject
    | some sol => s.accept nowScaled stamp icao df17 track altFt obs sol

/-- One cluster. `nowScaled` is the output clock at the call. -/
def solveCluster (solver : Solver F) (s : State F) (nowScaled : F) (icao : Icao) (df17 : Bool)
    (ref : Nat) (cluster : List (Conv F)) : State F :=
  let obs := s.observe cluster
  let s := s.withObserved cluster
  match obs with
  | [] => s
  | first :: rest =>
    if obs.length < 4 then s
    else
      let tRefMin := least first.obs.tS (rest.map fun o => o.obs.tS)
      let arrival := least first.atScaled (rest.map Observed.atScaled)
      let off := nextOffset (s.stampOffset ref) (arrival - tRefMin)
      let s := s.withOffset ref off
      let stamp := tRefMin + off
      let obs := capObs obs
      let track := (s.tracks icao).getD Track.default
      let s := s.setTrack icao track
      if nowScaled - track.lastAttemptScaled < resolveBackoffS then s
      else if obs.length = 4 ∧ nowScaled - track.lastTimeScaled < lit 30 then s.reject
      else s.attempt solver nowScaled stamp icao df17 track obs

/-- The clusters of a group, in order. -/
def solveClusters (solver : Solver F) (s : State F) (clock : Nat → F) (icao : Icao) (df17 : Bool)
    (ref : Nat) (cs : List (List (Conv F) × Nat)) : State F :=
  cs.foldl (fun s (c, i) => s.solveCluster solver (clock i) icao df17 ref c) s

/-- The entries in the reference's clock, in order of time. -/
def converted (s : State F) (members : List Nat) (ref : Nat) (es : List (Entry F)) :
    List (Conv F) :=
  (es.filterMap (s.convertEntry members ref)).insertionSort fun a b => totalLe a.t b.t

/-- A group: its times carried over, sorted, cut and solved. -/
def solveGroup (solver : Solver F) (s : State F) (clock : Nat → F) (g : Group F) : State F :=
  let members := g.members
  match s.localRef members with
  | none => s
  | some ref =>
    if members.length < 4 then s
    else
      let s := s.withConverted members ref g.entries
      let conv := s.converted members ref g.entries
      if conv.length < 4 then s
      else
        let (cs, ended) := clusters conv.length conv
        let s := s.solveClusters solver clock g.icao g.df17 ref cs.zipIdx
        if ended then s else { s with hung := true }

/-- Sync points expire after four seconds; groups at least as old as the window
    are removed and solved. -/
def sweep (solver : Solver F) (s : State F) (now window : Nat) (order : List String)
    (clock : String → Nat → F) : State F :=
  let fresh := fun (sp : SyncPoint F) => decide (now - sp.created < 4 * 10 ^ 9)
  let s := { s with syncpoints := fun k => (s.syncpoints k).filter fresh }
  let ready := order.filter fun key => (s.groups key).any fun g => decide (window ≤ now - g.created)
  ready.foldl (fun s key =>
    match s.groups key with
    | none => s
    | some g =>
      if s.hung then s
      else ({ s with groups := Function.update s.groups key none }).solveGroup solver (clock key) g) s

/-- The calls a shard's loop makes. -/
inductive Event (F : Type) where
  | add (info : ReceiverInfo F)
  | remove (r : RxRef)
  | reset (r : RxRef)
  | sync (now : Nat) (r : RxRef) (et ot : F) (emHex omHex : String) (atScaled : F)
  | mlat (now : Nat) (r : RxRef) (tCounts : F) (mHex : String) (atScaled : F)
  | stats (r : RxRef)
  | sweep (now window : Nat) (order : List String) (clock : String → Nat → F)

def step (solver : Solver F) (s : State F) (e : Event F) : State F :=
  if s.hung then s
  else
    match e with
    | .add info => (s.addReceiver info).1
    | .remove r => s.removeReceiver r
    | .reset r => s.clockReset r
    | .sync now r et ot emHex omHex atScaled => s.onSync now r et ot emHex omHex atScaled
    | .mlat now r tCounts mHex atScaled => s.onMlat now r tCounts mHex atScaled
    | .stats r => (s.receiverStats r).1
    | .sweep now window order clock => s.sweep solver now window order clock

end State

end Server

end MlatBench
