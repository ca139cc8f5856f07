import MlatBench.Core.Router
import MlatBench.Library.Layers

/-!
# The Partition Export

What `mlatd` writes of its router beside `sync.json`: the mapped cells in degrees,
each with the shard that owns it and the receivers that were counted through it.
`plots/partition.py` draws the cells as rectangles, the wide ones first, so that
the children of a split cell are drawn over it.

The router keeps its owners in a hash map; the order in which that lists its cells
is an argument. The colour of a rectangle is here the shard it stands for.

## Main definitions

* `Router.partitionDump`: The rows, sorted.
* `PartitionCell`, `Router.partitionCell`: A cell as it is written.
* `Router.partitionJson`: All of them.
* `drawn`: The shard a point is coloured for.
-/

namespace MlatBench

namespace Server

open Library F64

variable {F : Type} [F64 F]

/-- A cell as it is written. -/
structure PartitionCell (F : Type) where
  level : Nat
  lat0 : F
  lat1 : F
  lon0 : F
  lon1 : F
  shard : Nat
  rx : Nat

namespace Router

/-- Rows are compared field by field. -/
def rowKey (row : CellKey × Nat × Nat) : Nat ×ₗ Int ×ₗ Int ×ₗ Nat ×ₗ Nat :=
  toLex (row.1.1, toLex (row.1.2.1, toLex (row.1.2.2, toLex (row.2.1, row.2.2))))

/-- The mapped cells, each with its owner and the receivers counted through it.
    `order` lists them as the hash map does. -/
def partitionDump (r : Router F) (order : List CellKey) : List (CellKey × Nat × Nat) :=
  (order.filterMap fun k => (r.map.owner k).map fun shard =>
    (k, shard, r.map.rxCount k)).insertionSort fun a b => rowKey a ≤ rowKey b

/-- A row in degrees. -/
def partitionCell (r : Router F) (row : CellKey × Nat × Nat) : PartitionCell F :=
  let size := r.cellSize row.1.1
  { level := row.1.1
    lat0 := lit row.1.2.1 * size
    lat1 := (lit row.1.2.1 + lit 1) * size
    lon0 := lit row.1.2.2 * size
    lon1 := (lit row.1.2.2 + lit 1) * size
    shard := row.2.1
    rx := row.2.2 }

def partitionJson (r : Router F) (order : List CellKey) : List (PartitionCell F) :=
  (r.partitionDump order).map r.partitionCell

end Router

/-- A point lies in the rectangle of a cell. -/
def PartitionCell.covers (p : F × F) (c : PartitionCell F) : Bool :=
  decide ((c.lat0 ≤ p.1 ∧ p.1 < c.lat1) ∧ c.lon0 ≤ p.2 ∧ p.2 < c.lon1)

/-- The shard a point is coloured for: that of the last rectangle drawn over it. -/
def drawn (cells : List (PartitionCell F)) (p : F × F) : Option Nat :=
  (shown (PartitionCell.covers p) (cells.insertionSort fun a b => a.level ≤ b.level)).map
    PartitionCell.shard

end Server

end MlatBench
