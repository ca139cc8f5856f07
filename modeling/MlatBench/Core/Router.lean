import Mathlib.Data.Finset.Card
import Mathlib.Data.List.MinMax
import Mathlib.Data.Prod.Lex
import MlatBench.Library.F64

/-!
# The Shard Router

`mlatd` assigns each receiver to a shard by its place. The map is a grid of
cells that split where receivers are dense: a leaf without an owner takes the
shard most of its eight neighbors belong to, among those with capacity, else
the shard of the nearest mapped cell above it, else the lightest shard.

The load counters are shared with other tasks, so they are data of the router
that anyone may change between two calls. The votes are collected in a hash
map; the order in which that map lists the shards is an argument.

`mlatd` starts at least one shard, which is a field here. Levels are plain
numbers: a split needs children of two degrees, so a base size below `2 ^ 33`
degrees keeps them below 32.

## Main definitions

* `CellKey`: Level, latitude index, longitude index.
* `Load`: The counters of one shard.
* `CellMap`: Owners, receiver counts, split cells.
* `Router`: The router.
* `Router.leafAt`: The deepest unsplit cell at a point.
* `Router.ownerAt`: The shard a point belongs to.
* `Router.eligible`: The votes of the neighbor cells.
* `Router.assign`: The shard a new leaf is given.
* `Router.shardFor`: The shard of a receiver, counting it.
-/

namespace MlatBench

namespace Server

open Library F64

/-- Level, latitude index, longitude index. -/
abbrev CellKey := Nat × Int × Int

/-- The counters of one shard: its receivers, and its sync observations in the
    last window. -/
structure Load where
  receivers : Nat
  rate : Nat

/-- Splitting stops at this cell size. -/
def minCellDeg : ℚ := 2

/-- A leaf splits when it has had more receivers than this. -/
def splitAt : Nat := 64

/-- A shard with this many observations a window takes no new ground. -/
def capRatePerWindow : Nat := 50000

/-- The partition. -/
@[ext]
structure CellMap where
  owner : CellKey → Option Nat
  rxCount : CellKey → Nat
  split : Finset CellKey

/-- The router. -/
@[ext]
structure Router (F : Type) where
  nShards : Nat
  nShards_pos : 0 < nShards
  shards : Nat → Load
  baseDeg : F
  cap : Nat
  map : CellMap

namespace Router

variable {F : Type} [F64 F]

/-- A router with an empty map. -/
def new (nShards : Nat) (hpos : 0 < nShards) (shards : Nat → Load) (baseDeg : F) (cap : Nat) :
    Router F :=
  { nShards := nShards, nShards_pos := hpos, shards := shards, baseDeg := baseDeg, cap := cap,
    map := { owner := fun _ => none, rxCount := fun _ => 0, split := ∅ } }

def cellSize (r : Router F) (level : Nat) : F :=
  r.baseDeg / lit (2 ^ level : Nat)

/-- An index is cut to 16 bits. -/
def cellIndex (size x : F) : Int :=
  toInt (-2 ^ 15) (2 ^ 15 - 1) (floor (x / size))

def cellAt (r : Router F) (level : Nat) (lat lon : F) : CellKey :=
  (level, cellIndex (r.cellSize level) lat, cellIndex (r.cellSize level) lon)

def splittable (r : Router F) (level : Nat) : Bool :=
  lit minCellDeg ≤ r.cellSize (level + 1)

/-- The descent from a level. Each split cell on the way is passed once, so as
    many steps as there are split cells are enough. -/
def leafFrom (r : Router F) (lat lon : F) : Nat → Nat → CellKey
  | 0, level => r.cellAt level lat lon
  | fuel + 1, level =>
      if r.cellAt level lat lon ∈ r.map.split then leafFrom r lat lon fuel (level + 1)
      else r.cellAt level lat lon

/-- The deepest unsplit cell at the point. -/
def leafAt (r : Router F) (lat lon : F) : CellKey :=
  r.leafFrom lat lon r.map.split.card 0

/-- The shard that owns the point: the leaf's, else that of the nearest mapped
    cell above it. -/
def ownerAt (r : Router F) (lat lon : F) : Option Nat :=
  (List.range ((r.leafAt lat lon).1 + 1)).reverse.findSome? fun level =>
    r.map.owner (r.cellAt level lat lon)

def hasCapacity (r : Router F) (shard : Nat) : Bool :=
  (r.shards shard).receivers < r.cap && (r.shards shard).rate < capRatePerWindow

def loadOf (r : Router F) (shard : Nat) : Nat ×ₗ Nat :=
  toLex ((r.shards shard).rate, (r.shards shard).receivers)

/-- The eight neighbors of a cell, as steps of latitude and longitude. -/
def neighbors : List (Int × Int) :=
  [(-1, -1), (-1, 0), (-1, 1), (0, -1), (0, 1), (1, -1), (1, 0), (1, 1)]

/-- The owners with capacity of the cells around a cell, one entry a vote. -/
def eligible (r : Router F) (key : CellKey) : List Nat :=
  let size := r.cellSize key.1
  let clat := (lit key.2.1 + lit (1 / 2)) * size
  let clon := (lit key.2.2 + lit (1 / 2)) * size
  neighbors.filterMap fun d =>
    (r.ownerAt (clat + lit d.1 * size) (clon + lit d.2 * size)).filter r.hasCapacity

/-- What the vote compares: votes, then the lower rate, then fewer receivers. -/
def voteKey (r : Router F) (key : CellKey) (shard : Nat) : Nat ×ₗ Nat ×ₗ Nat :=
  let load := r.shards shard
  toLex ((r.eligible key).count shard,
    toLex (2 ^ 64 - 1 - load.rate, 2 ^ 64 - 1 - load.receivers))

/-- The shard a leaf without an owner is given. `order` lists the shards with
    votes; of several maxima the last in that order is taken. -/
def assign (r : Router F) (order : List Nat) (key : CellKey) (lat lon : F) : Nat :=
  match order.reverse.argmax (r.voteKey key) with
  | some shard => shard
  | none =>
    -- A split cell's children go home, whatever the capacity.
    match r.ownerAt lat lon with
    | some shard => shard
    | none => ((List.range r.nShards).argmin r.loadOf).getD 0

/-- The shard of a receiver. The leaf is given an owner if it has none, counts
    the receiver and may split; the shard counts the receiver too. -/
def shardFor (r : Router F) (order : List Nat) (lat lon : F) : Nat × Router F :=
  let key := r.leafAt lat lon
  let idx := (r.map.owner key).getD (r.assign order key lat lon)
  let count := r.map.rxCount key + 1
  let load := r.shards idx
  (idx, { r with
    map := {
      owner := Function.update r.map.owner key (some idx)
      rxCount := Function.update r.map.rxCount key count
      split := if splitAt < count ∧ r.splittable key.1 = true then insert key r.map.split
        else r.map.split }
    shards := Function.update r.shards idx { load with receivers := load.receivers + 1 } })

/-- The shard whose territory holds the point. -/
def ownerOfPoint (r : Router F) (lat lon : F) : Option Nat :=
  r.ownerAt lat lon

end Router

end Server

end MlatBench
