import MlatBench.Core.Csv
import MlatBench.Core.Daemon
import MlatBench.Core.Sbs
import MlatBench.Library.Feed
import MlatBench.Library.Recency

/-!
# The Output Task

What becomes of the fixes of the shards. They go to one task through a channel that
drops what does not fit. The task lets a fix pass if the place is not another
shard's, and no fix of the same aircraft and tenth of a second passed lately; it
writes it to the files and sends it to all who listen.

A shard emits while it sweeps, so what it emits waits in front of the channel and
enters it one by one, between the steps of the others. A program that connects to the
SBS port has a task that listens and writes rows to its socket, where a write may fail
behind any byte. The log of what was sent and what each shard ever emitted are history.

Files take every line; the source goes on where a write fails.

## Main definitions

* `OutRow.key`: What twins share.
* `filteredLine`, `selfTruthLine`, `sbsLine`, `resultText`: Fixes as text.
* `Output`, `Output.onMsg`: The task.
* `Mlatd`, `Mlatd.step`: The server with its output.
-/

namespace MlatBench

namespace Server

open Library F64 F64Fn

/-- Slots of the channel to the output task. -/
def outSlots : Nat := 4096

/-- How many keys the output task remembers. -/
def recentKeys : Nat := 4096

/-- Fixes kept for those who listen. -/
def publishSlots : Nat := 1024

/-- ASCII text as bytes. -/
def asciiBytes (s : String) : List UInt8 := s.toList.map fun c => UInt8.ofNat c.toNat

section

variable {F : Type} [F64 F]

/-- The aircraft and the tenth of a second. -/
def OutRow.key (row : OutRow F) : UInt32 × Int :=
  (row.icao.val, toInt (-2 ^ 63) (2 ^ 63 - 1) (row.stamp * lit 10))

variable (num : Numbers F)

/-- The smoothed twin of a fix as a line. -/
def filteredLine (row : OutRow F) : Option String :=
  row.filtered.map fun pos => csvLine num { row with pos := pos }

/-- A compared fix as a line. -/
def selfTruthLine (stamp : F) (icao : Icao) (err errEst : F) (n : Nat) : String :=
  num.fixed 3 stamp ++ "," ++ icao.toHex ++ "," ++ num.fixed 1 err ++ "," ++
    num.fixed 1 errEst ++ "," ++ toString n ++ "\n"

/-- A fix as an SBS row. -/
def sbsLine (row : OutRow F) : Option String :=
  (sbsDatetime row.stamp).map fun (d, tm) =>
    "MSG,3,1,1," ++ String.ofList (row.icao.toHex.toList.map Char.toUpper) ++ ",1," ++
      d ++ "," ++ tm ++ "," ++ d ++ "," ++ tm ++ ",," ++ toString row.altFt ++ ",,," ++
      num.fixed 5 row.pos.latDeg ++ "," ++ num.fixed 5 row.pos.lonDeg ++ ",,,,,,0\r\n"

/-- A fix as the bytes of an SBS row. -/
def sbsBytes (row : OutRow F) : Option (List UInt8) :=
  (sbsLine num row).map asciiBytes

/-- A fix as a message to a client, without its newline. -/
def resultText (row : OutRow F) : String :=
  "\x7b\"result\":\x7b\"@\":" ++ num.fixed 3 row.stamp ++ ",\"addr\":\"" ++ row.icao.toHex ++
    "\",\"lat\":" ++ num.fixed 5 row.pos.latDeg ++ ",\"lon\":" ++ num.fixed 5 row.pos.lonDeg ++
    ",\"alt\":" ++ toString row.altFt ++ ",\"callsign\":null,\"squawk\":null,\"hdop\":0.0," ++
    "\"vdop\":0.0,\"tdop\":0.0,\"gdop\":0.0,\"nstations\":" ++ toString row.n ++ "\x7d\x7d"

end

/-- The output task: its memory, the files it was told to write, and what it sent. -/
structure Output (F : Type) where
  recent : Recent (UInt32 × Int)
  csv : Option (List String)
  filtered : Option (List String)
  selfTruth : Option (List String)
  sent : List (OutRow F)

namespace Output

variable {F : Type} [F64 F]

def new (csv filtered selfTruth : Bool) : Output F :=
  { recent := Recent.empty
    csv := if csv then some [] else none
    filtered := if filtered then some [] else none
    selfTruth := if selfTruth then some [] else none
    sent := [] }

/-- The territory gate: the place is another shard's. -/
def foreign (router : Router F) (row : OutRow F) : Bool :=
  match router.ownerOfPoint row.pos.latDeg row.pos.lonDeg with
  | some owner => owner ≠ row.shard
  | none => false

/-- One message. -/
def onMsg (num : Numbers F) (router : Router F) (o : Output F) : OutMsg F → Output F
  | .selfTruth stamp icao err errEst n =>
    { o with selfTruth := o.selfTruth.map (· ++ [selfTruthLine num stamp icao err errEst n]) }
  | .fix row =>
    if foreign router row then o
    else
      match o.recent.offer recentKeys row.key with
      | (_, false) => o
      | (recent, true) =>
        { o with
          recent := recent
          csv := o.csv.map (· ++ [csvLine num row])
          filtered := o.filtered.map (· ++ (filteredLine num row).toList)
          sent := o.sent ++ [row] }

end Output

/-- The server with its output. -/
structure Mlatd (F : Type) where
  daemon : Daemon F
  emitting : Nat → List (OutMsg F)
  channel : List (OutMsg F)
  output : Output F
  consumers : List (Feed (OutRow F) UInt8)
  emitted : Nat → List (OutMsg F)

namespace Mlatd

variable {F : Type} [F64Fn F]

def new (daemon : Daemon F) (output : Output F) : Mlatd F :=
  { daemon := daemon, emitting := fun _ => [], channel := [], output := output
    consumers := [], emitted := fun _ => [] }

/-- What can happen. -/
inductive Event (F : Type) where
  /-- A connection, a shard or the stats task runs. -/
  | daemon (e : Daemon.Event F)
  /-- The next message of a shard enters the channel, or is dropped. -/
  | emit (i : Nat)
  /-- The output task takes its next message. -/
  | output
  /-- A program connects to the SBS port. -/
  | subscribe
  /-- The task of a program runs; `cut` says behind how many bytes its write fails. -/
  | turn (k : Nat) (cut : Option Nat)

/-- The shard that runs. -/
def shardOf : Daemon.Event F → Option Nat
  | .work i _ => some i
  | .sweep i _ _ _ _ => some i
  | _ => none

/-- What a shard emits at a step: what its output has grown by. -/
def newOut (before after : Daemon F) (e : Daemon.Event F) (i : Nat) : List (OutMsg F) :=
  if shardOf e = some i then
    (after.shards i).state.out.drop (before.shards i).state.out.length
  else []

/-- One event. -/
def step (num : Numbers F) (solver : Solver F) (m : Mlatd F) : Event F → Mlatd F
  | .daemon e =>
    let daemon := m.daemon.step solver e
    { m with
      daemon := daemon
      emitting := fun i => m.emitting i ++ newOut m.daemon daemon e i
      emitted := fun i => m.emitted i ++ newOut m.daemon daemon e i }
  | .emit i =>
    match m.emitting i with
    | [] => m
    | msg :: rest =>
      { m with
        emitting := Function.update m.emitting i rest
        channel := if m.channel.length < outSlots then m.channel ++ [msg] else m.channel }
  | .output =>
    match m.channel with
    | [] => m
    | msg :: rest =>
      { m with channel := rest, output := m.output.onMsg num m.daemon.router msg }
  | .subscribe => { m with consumers := m.consumers ++ [Feed.join m.output.sent] }
  | .turn k cut =>
    { m with
      consumers := m.consumers.modify k
        (Feed.turn publishSlots m.output.sent (sbsBytes num) cut) }

end Mlatd

end Server

end MlatBench
