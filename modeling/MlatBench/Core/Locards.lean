import MlatBench.Core.Gen
import MlatBench.Library.Iteration

/-!
# Importing Recorded Transmissions

From a recording of real sensors to what a client for each of them sends. A row
is one transmission with its true position and the stamps of the sensors that
heard it. Some aircraft are held out: they answer with their altitude only. The
others report their position, even and odd in turn, and every client pairs the
reports as the simulated ones do.

A row is what the reader made of it: a field that does not parse is `none`, and
the stamps are those that are a serial number and a time. Serial numbers are
64-bit. Maps are functions; the orders in which they are gone through when the
capture is written are arguments, and so is the checksum of the scenario. The
files are what is handed to their writer, which does not fail.

## Main definitions

* `SensorRow`, `sensorsOf`: The sensors.
* `Row`: One transmission.
* `Told`, `Told.text`: The lines of a client.
* `ClientAcc`, `ClientAcc.hear`: One client.
* `Import`, `Import.take`: One row.
* `importRows`: All rows.
* `scenarioText`, `writeClients`: What is written of the aircraft and the clients.
* `Import.write`: The capture.
-/

namespace MlatBench

namespace Locards

open Library F64 F64Fn Modes Sim

/-- Feet in a metre. -/
def mToFt {F : Type} [F64 F] : F := lit (3280839895 / 10 ^ 9)

structure SensorRow (F : Type) where
  serial : Option Nat
  lat : Option F
  lon : Option F
  height : Option F

structure Sensor (F : Type) where
  geo : Geodetic F
  user : String

/-- One transmission. -/
structure Row (F : Type) where
  tServer : Option F
  acId : Option UInt32
  lat : Option F
  lon : Option F
  baroM : Option F
  meas : List (Nat × F)

/-- What a client says. -/
inductive Told where
  | seen (hex : String)
  | mlat (t : Nat) (m : String)
  | sync (et : Nat) (em : String) (ot : Nat) (om : String)
deriving DecidableEq

/-- The line of a message. -/
def Told.text : Told → String
  | .seen hex => "\x7b\"seen\":[\"" ++ hex ++ "\"]\x7d"
  | .mlat t m => "\x7b\"mlat\":\x7b\"t\":" ++ toString t ++ ",\"m\":\"" ++ m ++ "\"\x7d\x7d"
  | .sync et em ot om =>
    "\x7b\"sync\":\x7b\"et\":" ++ toString et ++ ",\"em\":\"" ++ em ++ "\",\"ot\":" ++ toString ot ++
      ",\"om\":\"" ++ om ++ "\"\x7d\x7d"

/-- A report that waits for its partner. -/
structure Half (F : Type) where
  odd : Bool
  tServer : F
  ns : F
  hex : String

/-- What one client has said so far. -/
structure ClientAcc (F : Type) where
  lines : List (F × Told)
  pending : Icao → Option (Half F)
  seen : List Icao

/-- A transmission as the clients get it: the parity of a position report, none
    of an altitude reply. -/
structure Sent (F : Type) where
  row : Row F
  icao : Icao
  odd : Option Bool
  tServer : F
  hex : String

section

variable {F R : Type} [F64Fn F]

/-- The sensors by serial number. -/
def sensorsOf : List (SensorRow F) → Option (Nat → Option (Sensor F))
  | [] => some fun _ => none
  | r :: rs =>
    match r.serial, r.lat, r.lon with
    | some serial, some lat, some lon =>
      (sensorsOf rs).map fun later n => (later n).or
        (if n = serial then
          some { geo := ⟨lat, lon, F64.clamp (lit (-1000)) (lit 10000) (r.height.getD (lit 0))⟩
                 user := "os-" ++ toString serial }
        else none)
    | _, _, _ => none

/-- Nanoseconds as counts of a 12 MHz clock. -/
def counts (ns : F) : Nat :=
  (toInt 0 (2 ^ 64 - 1) (F64.max (round (ns * lit (12 / 1000))) (lit 0))).toNat

namespace ClientAcc

def empty {G : Type} : ClientAcc G := { lines := [], pending := fun _ => none, seen := [] }

/-- An aircraft is announced once. -/
def announce {G : Type} (acc : ClientAcc G) (icao : Icao) (t : G) : ClientAcc G :=
  if icao ∈ acc.seen then acc
  else { acc with seen := icao :: acc.seen, lines := acc.lines ++ [(t, .seen icao.toHex)] }

/-- A position report makes a sync message with its partner, or waits. -/
def pair (acc : ClientAcc F) (icao : Icao) (odd : Bool) (t ns : F) (hex : String) : ClientAcc F :=
  let wait := { acc with
    pending := Function.update acc.pending icao
      (some { odd := odd, tServer := t, ns := ns, hex := hex }) }
  match acc.pending icao with
  | none => wait
  | some p =>
    if p.odd ≠ odd ∧ t - p.tServer < lit 2 then
      let told : Told :=
        if odd then .sync (counts p.ns) p.hex (counts ns) hex
        else .sync (counts ns) hex (counts p.ns) p.hex
      { acc with
        pending := Function.update acc.pending icao none
        lines := acc.lines ++ [(t, told)] }
    else wait

/-- A client hears a transmission. -/
def hear (acc : ClientAcc F) (s : Sent F) (ns : F) : ClientAcc F :=
  let acc := acc.announce s.icao s.tServer
  match s.odd with
  | none => { acc with lines := acc.lines ++ [(s.tServer, .mlat (counts ns) s.hex)] }
  | some odd => acc.pair s.icao odd s.tServer ns s.hex

/-- The lines in order of time. -/
def sorted (acc : ClientAcc F) : List (F × Told) :=
  acc.lines.insertionSort fun a b => totalLe a.1 b.1

/-- The lines with the nanoseconds they are sent at. -/
def records (latency : F) (acc : ClientAcc F) : List (Nat × String) :=
  acc.sorted.map fun l =>
    ((toInt 0 (2 ^ 64 - 1) (F64.max (round ((l.1 + latency) * lit (10 ^ 9))) (lit 0))).toNat,
      l.2.text ++ "\n")

end ClientAcc

/-- Where the rows have led. -/
structure Import (F R : Type) where
  clients : Nat → Option (ClientAcc F)
  truth : List (TruthPoint F)
  audibility : List AudibilityRow
  holdout : UInt32 → Option Bool
  parity : UInt32 → Bool
  rng : R
  rowsUsed : Nat
  rowsNoTruth : Nat

namespace Import

def init (rng : R) : Import F R :=
  { clients := fun _ => none, truth := [], audibility := [], holdout := fun _ => none
    parity := fun _ => false, rng := rng, rowsUsed := 0, rowsNoTruth := 0 }

/-- Whether an aircraft is held out, drawn when it is first met. -/
def draw (rand : Rand F R) (holdoutFrac : F) (st : Import F R) (acId : UInt32) :
    Bool × Import F R :=
  match st.holdout acId with
  | some held => (held, st)
  | none =>
    let (u, rng) := rand.genRange (lit 0) (lit 1) st.rng
    let held := decide (u < holdoutFrac)
    (held, { st with holdout := Function.update st.holdout acId (some held), rng := rng })

/-- The truth of an aircraft that is held out, and who heard it. -/
def note (st : Import F R) (icao : Icao) (t lat lon baroM : F) (meas : List (Nat × F)) :
    Import F R :=
  { st with
    truth := st.truth ++
      [{ t := (toInt 0 (2 ^ 64 - 1) (t * lit (10 ^ 9))).toNat, icao := icao
         pos := ⟨lat, lon, baroM⟩, gsMps := lit 0, vrateMps := lit 0 }]
    audibility := st.audibility ++
      [{ tS := (toInt 0 (2 ^ 64 - 1) t).toNat, icao := icao
         receivers := meas.map fun m => "os-" ++ toString m.1 }] }

/-- The parity of the next report of an aircraft that is not held out. -/
def turn (st : Import F R) (held : Bool) (acId : UInt32) : Option Bool × Import F R :=
  if held then (none, st)
  else (some (!st.parity acId),
    { st with parity := Function.update st.parity acId (!st.parity acId) })

/-- One stamp of a transmission, passed over if the sensor is not known. -/
def stamp (sensors : Nat → Option (Sensor F)) (s : Sent F) (st : Import F R) (m : Nat × F) :
    Import F R :=
  if (sensors m.1).isSome then
    { st with
      clients := Function.update st.clients m.1
        (some (((st.clients m.1).getD .empty).hear s m.2)) }
  else st

/-- The frame of a transmission, none if the altitude cannot be encoded. -/
def frame (icao : Icao) (odd : Option Bool) (lat lon baroM : F) : Option (List UInt8) :=
  let altFt := quantize25ft (baroM * mToFt)
  match odd with
  | none => df4 icao 0 altFt
  | some odd => df17AirbornePosition icao 5 11 altFt lat lon odd

/-- A row that has its truth and two stamps. -/
def use (rand : Rand F R) (sensors : Nat → Option (Sensor F)) (holdoutFrac : F) (st : Import F R)
    (row : Row F) (t : F) (acId : UInt32) (lat lon baroM : F) : Import F R :=
  let icao : Icao := ⟨0x100000 + acId⟩
  let (held, st) := st.draw rand holdoutFrac acId
  let st := if held then st.note icao t lat lon baroM row.meas else st
  let (odd, st) := st.turn held acId
  match frame icao odd lat lon baroM with
  | none => st
  | some f =>
    row.meas.foldl
      (stamp sensors { row := row, icao := icao, odd := odd, tServer := t, hex := hexEncode f })
      { st with rowsUsed := st.rowsUsed + 1 }

/-- One row. -/
def take (rand : Rand F R) (sensors : Nat → Option (Sensor F)) (holdoutFrac : F) (st : Import F R)
    (row : Row F) (t : F) (acId : UInt32) : Import F R :=
  match row.lat, row.lon, row.baroM with
  | some lat, some lon, some baroM =>
    if row.meas.length < 2 then st
    else st.use rand sensors holdoutFrac row t acId lat lon baroM
  | _, _, _ => { st with rowsNoTruth := st.rowsNoTruth + 1 }

end Import

/-- The rows up to the duration. -/
def rowsFrom (rand : Rand F R) (sensors : Nat → Option (Sensor F)) (durationS : Nat)
    (holdoutFrac : F) : Import F R → List (Row F) → Option (Import F R)
  | st, [] => some st
  | st, row :: rows =>
    match row.tServer with
    | none => none
    | some t =>
      if lit durationS < t then some st
      else
        match row.acId with
        | none => none
        | some acId =>
          rowsFrom rand sensors durationS holdoutFrac
            (st.take rand sensors holdoutFrac row t acId) rows

/-- All rows. -/
def importRows (rand : Rand F R) (seed durationS : Nat) (holdoutFrac : F)
    (sensorRows : List (SensorRow F)) (rows : List (Row F)) : Option (Import F R) :=
  match sensorsOf sensorRows with
  | none => none
  | some sensors =>
    rowsFrom rand sensors durationS holdoutFrac (.init (rand.rngFor seed "locards/holdout")) rows

end

/-- A client in the manifest. -/
structure ClientEntry (F : Type) where
  id : String
  file : String
  clockType : String
  compress : String
  lat : F
  lon : F
  altM : F

/-- A client as it is written: its first record, and the lines after it. -/
structure ClientFile (F : Type) where
  entry : ClientEntry F
  handshake : Handshake F
  records : List (Nat × String)

structure Manifest (F : Type) where
  format : String
  version : Nat
  name : String
  seed : Nat
  durationS : Nat
  scenarioSha256 : String
  clients : List (ClientEntry F)

structure Capture (F : Type) where
  scenario : String
  truth : List (TruthPoint F)
  audibility : List AudibilityRow
  clients : List (ClientFile F)
  manifest : Manifest F

def toUppercase (s : String) : String :=
  String.ofList (s.toList.map Char.toUpper)

/-- An aircraft in the scenario, so that scoring knows its kind. -/
def aircraftText (ac : UInt32) (held : Bool) : String :=
  "[[aircraft]]\nicao = \"" ++ toUppercase (⟨0x100000 + ac⟩ : Icao).toHex ++ "\"\nkind = \"" ++
    (if held then "modes_only" else "adsb") ++
    "\"\ntraj = \x7b type = \"great_circle\", from = [0,0,10000], to = [0,1,10000], gs_kts = 400 \x7d\n"

/-- The scenario up to its aircraft. -/
def scenarioHead (seed durationS : Nat) : String :=
  "# synthesized by import-locards — targets only, no physics\n[meta]\nname = \"locards\"\n" ++
    "seed = " ++ toString seed ++ "\nduration_s = " ++ toString durationS ++ "\n"

/-- The scenario: targets only. -/
def scenarioText (seed durationS : Nat) (holdout : List (UInt32 × Bool)) : String :=
  scenarioHead seed durationS ++ String.join (holdout.map fun h => aircraftText h.1 h.2)

section

variable {F R : Type} [F64Fn F]

/-- A client with the latency it was given. -/
def fileOf (sensor : Sensor F) (latency : F) (acc : ClientAcc F) : ClientFile F where
  entry :=
    { id := sensor.user, file := "clients/" ++ sensor.user ++ ".mbc.zst", clockType := "dump1090"
      compress := "none", lat := sensor.geo.latDeg, lon := sensor.geo.lonDeg
      altM := sensor.geo.altM }
  handshake :=
    { user := sensor.user, compress := "none", lat := sensor.geo.latDeg
      lon := sensor.geo.lonDeg, alt := sensor.geo.altM, clockType := "dump1090" }
  records := acc.records latency

/-- Client after client, each with the next latency of the stream. A client whose
    sensor is not known cannot be. -/
def writeClients (rand : Rand F R) (sensors : Nat → Option (Sensor F)) :
    R → List (Nat × ClientAcc F) → Option (List (ClientFile F))
  | _, [] => some []
  | rng, (serial, acc) :: rest =>
    match sensors serial with
    | none => none
    | some sensor =>
      let (latency, rng) := rand.genRange (lit (1 / 100)) (lit (5 / 100)) rng
      (writeClients rand sensors rng rest).map (fileOf sensor latency acc :: ·)

/-- The capture, from maps gone through in some order. -/
def Import.write (rand : Rand F R) (sha256 : String → String) (seed durationS : Nat)
    (sensors : Nat → Option (Sensor F)) (st : Import F R) (holdout : Iteration st.holdout)
    (clients : Iteration st.clients) : Option (Capture F) :=
  let sc := scenarioText seed durationS holdout.entries
  (writeClients rand sensors (rand.rngFor seed "locards/net") clients.entries).map fun files =>
    { scenario := sc, truth := st.truth, audibility := st.audibility, clients := files
      manifest :=
        { format := "mbc", version := 1, name := "locards", seed := seed, durationS := durationS
          scenarioSha256 := sha256 sc, clients := files.map (·.entry) } }

end

end Locards

end MlatBench
