import MlatBench.Theory.Cpr

/-!
# Decoded Positions Encode Back

The other way round from `Theory.Cpr`: what the decoder makes of any two reports
lies on the grid of the newer one, and encoding it gives that report back. A point
of the grid is a zone and a cell of it; taking a turn off changes the zone and
leaves the cell. The zone function is any function, and arithmetic is exact.

## Main definitions

* `gridPoint`: A cell of a zone, on a circle of some zones.

## Theorems

* `mark_gridPoint`, `floor_gridPoint`: The cell and the zone of a point.
* `decodeWith_grid`: A decoded position is on the grid.
* `encode_decode`: It encodes to the report it was decoded from.
-/

namespace MlatBench

namespace Cpr

open Library F64

variable {K : Type} [Field K] [LinearOrder K] [IsStrictOrderedRing K] [FloorRing K]

/-- Arithmetic is exact. -/
local instance (priority := low) exactGrid : F64 K := F64.exact K

/-- A cell of a zone, on a circle of `A` zones. -/
def gridPoint (K : Type) [Field K] (A z : ℤ) (cell : UInt32) : K :=
  ((360 : ℤ) : K) / A * (z + (cell.toNat : K) / (131072 : ℤ))

omit [IsStrictOrderedRing K] in
theorem gridPoint_eq (A z : ℤ) (cell : UInt32) :
    gridPoint K A z cell = 360 / (A : K) * (z + (cell.toNat : K) / 131072) := by
  unfold gridPoint
  push_cast
  rfl

omit [IsStrictOrderedRing K] in
theorem gridPoint_div (A z : ℤ) (hA : 0 < A) (cell : UInt32) :
    gridPoint K A z cell / (360 / (A : K)) = z + (cell.toNat : K) / 131072 := by
  have hA' : (A : K) ≠ 0 := by exact_mod_cast hA.ne'
  rw [gridPoint_eq]
  field_simp

/-- The cell of a point. -/
theorem mark_gridPoint (A z : ℤ) (hA : 0 < A) (cell : UInt32) (hcell : cell.toNat < 131072) :
    mark 131072 (gridPoint K A z cell / (360 / (A : K))) % 131072 = cell.toNat := by
  have hmark : mark 131072 (gridPoint K A z cell / (360 / (A : K))) =
      131072 * z + cell.toNat := by
    rw [gridPoint_div A z hA]
    unfold mark roundUp
    have hsplit : ((131072 : ℤ) : K) * (z + (cell.toNat : K) / 131072) + 1 / 2 =
        1 / 2 + ((131072 * z + cell.toNat : ℤ) : K) := by
      push_cast
      field_simp
      ring
    have hhalf : ⌊(1 / 2 : K)⌋ = 0 := by
      rw [Int.floor_eq_zero_iff]
      exact ⟨by norm_num, by norm_num⟩
    rw [hsplit, Int.floor_add_intCast, hhalf, zero_add]
  rw [hmark]
  omega

/-- The zone of a point. -/
theorem floor_gridPoint (A z : ℤ) (hA : 0 < A) (cell : UInt32) (hcell : cell.toNat < 131072) :
    ⌊gridPoint K A z cell / (360 / (A : K))⌋ = z := by
  have hlt : (cell.toNat : K) < 131072 := by exact_mod_cast hcell
  have hpart : ⌊(cell.toNat : K) / 131072⌋ = 0 := by
    rw [Int.floor_eq_zero_iff]
    exact ⟨by positivity, (div_lt_one (by norm_num)).mpr hlt⟩
  rw [gridPoint_div A z hA, add_comm, Int.floor_add_intCast, hpart, zero_add]

omit [IsStrictOrderedRing K] in
/-- A turn less is as many zones less. -/
theorem gridPoint_turn (A z : ℤ) (hA : 0 < A) (cell : UInt32) :
    gridPoint K A z cell - 360 = gridPoint K A (z - A) cell := by
  have hA' : (A : K) ≠ 0 := by exact_mod_cast hA.ne'
  rw [gridPoint_eq, gridPoint_eq]
  push_cast
  field_simp
  ring

theorem gridPoint_mem (A z : ℤ) (hA : 0 < A) (hz : 0 ≤ z) (hz' : z < A) (cell : UInt32)
    (hcell : cell.toNat < 131072) : 0 ≤ gridPoint K A z cell ∧ gridPoint K A z cell < 360 := by
  have hA' : (0 : K) < A := by exact_mod_cast hA
  have hlow : (0 : K) ≤ z := by exact_mod_cast hz
  have hhigh : (z : K) + 1 ≤ A := by exact_mod_cast hz'
  have hlt : (cell.toNat : K) / 131072 < 1 := by
    rw [div_lt_one (by norm_num)]
    exact_mod_cast hcell
  rw [gridPoint_eq]
  refine ⟨by positivity, ?_⟩
  calc 360 / (A : K) * (z + (cell.toNat : K) / 131072)
      < 360 / (A : K) * A := mul_lt_mul_of_pos_left (by linarith) (by positivity)
    _ = 360 := div_mul_cancel₀ _ hA'.ne'

omit [IsStrictOrderedRing K] in
/-- Folding keeps to the grid. -/
theorem exists_fold (A z : ℤ) (hA : 0 < A) (cell : UInt32) (edge : K) :
    ∃ w, (if edge ≤ gridPoint K A z cell then gridPoint K A z cell - 360
      else gridPoint K A z cell) = gridPoint K A w cell := by
  split_ifs
  · exact ⟨z - A, gridPoint_turn A z hA cell⟩
  · exact ⟨z, rfl⟩

/-- The zones of latitude of a format. -/
def latZones (odd : Bool) : ℤ :=
  if odd then 59 else 60

theorem latZones_pos (odd : Bool) : 0 < latZones odd := by
  cases odd <;> decide

omit [IsStrictOrderedRing K] in
theorem width_latZones (odd : Bool) : width K odd = 360 / (latZones odd : K) := by
  cases odd with
  | false =>
      rw [width_even]
      norm_num [latZones]
  | true =>
      rw [width_odd]
      norm_num [latZones]

/-- The report a position is read from. -/
def newer (even odd : UInt32 × UInt32) (recentOdd : Bool) : UInt32 × UInt32 :=
  if recentOdd then odd else even

/-- The latitude of a report, folded. -/
def foldedLat (K : Type) [Field K] [LinearOrder K] (odd : Bool) (j : ℤ) (cell : UInt32) : K :=
  if (270 : ℤ) ≤ gridPoint K (latZones odd) (j % latZones odd) cell then
    gridPoint K (latZones odd) (j % latZones odd) cell - (360 : ℤ)
  else gridPoint K (latZones odd) (j % latZones odd) cell

omit [IsStrictOrderedRing K] in
theorem foldedLat_eq (odd : Bool) (j : ℤ) (cell : UInt32) : foldedLat K odd j cell =
    if 270 ≤ gridPoint K (latZones odd) (j % latZones odd) cell then
      gridPoint K (latZones odd) (j % latZones odd) cell - 360
    else gridPoint K (latZones odd) (j % latZones odd) cell := by
  unfold foldedLat
  push_cast
  rfl

theorem decode_rlat (odd : Bool) (j : ℤ) (cell : UInt32) (n : K) (hn : n = latZones odd) :
    (if lit 270 ≤ (lit 360 / n * (modp (j : K) n + lit (cell.toNat : ℚ) / two17) : K) then
        lit 360 / n * (modp (j : K) n + lit (cell.toNat : ℚ) / two17) - lit 360
      else lit 360 / n * (modp (j : K) n + lit (cell.toNat : ℚ) / two17)) = foldedLat K odd j cell := by
  have hturn : (lit 360 : K) = 360 := (lit_int 360).trans (by norm_num)
  have hedge : (lit 270 : K) = 270 := (lit_int 270).trans (by norm_num)
  have hcell : (lit (cell.toNat : ℚ) : K) = (cell.toNat : K) :=
    (lit_cell cell cell.toNat rfl).trans (Int.cast_natCast _)
  rw [hn, modp_int j _ (latZones_pos odd), hcell, hturn, hedge, two17_exact, foldedLat_eq,
    gridPoint_eq]

/-- A decoded position is on the grid of the newer report. -/
theorem decodeWith_grid (nl : K → ℤ) (even odd : UInt32 × UInt32) (recentOdd : Bool) (lat lon : K)
    (h : decodeWith nl even odd recentOdd = some (lat, lon)) : ∃ j m : ℤ,
      lat = foldedLat K recentOdd j (newer even odd recentOdd).1 ∧ |lat| ≤ 90 ∧
      lon = if 180 ≤ gridPoint K (zones (nl lat) recentOdd) (m % zones (nl lat) recentOdd)
          (newer even odd recentOdd).2 then
          gridPoint K (zones (nl lat) recentOdd) (m % zones (nl lat) recentOdd)
            (newer even odd recentOdd).2 - 360
        else gridPoint K (zones (nl lat) recentOdd) (m % zones (nl lat) recentOdd)
          (newer even odd recentOdd).2 := by
  have hwhole : ∀ x : K, ∃ j : ℤ, floor x = (j : K) := fun x => ⟨⌊x⌋, rfl⟩
  have hturn : (lit 360 : K) = 360 := (lit_int 360).trans (by norm_num)
  have hhalf : (lit 180 : K) = 180 := (lit_int 180).trans (by norm_num)
  unfold decodeWith at h
  simp only [] at h
  rcases hwhole ((lit 59 * lit (even.1.toNat : ℚ) - lit 60 * lit (odd.1.toNat : ℚ)) / two17 +
    lit (1 / 2)) with ⟨j, hj⟩
  have hE := decode_rlat false j even.1 (lit 60 : K) (lit_int 60)
  have hO := decode_rlat true j odd.1 (lit 59 : K) (lit_int 59)
  simp only [hj, hE, hO] at h
  -- Both latitudes passed, or nothing was decoded.
  by_cases hpole : lit 90 < F64.abs (foldedLat K false j even.1) ∨
      lit 90 < F64.abs (foldedLat K true j odd.1)
  · rw [if_pos hpole] at h
    exact absurd h (by simp only [reduceCtorEq, not_false_eq_true])
  by_cases hnl : nl (foldedLat K false j even.1) ≠ nl (foldedLat K true j odd.1)
  · rw [if_neg hpole, if_pos hnl] at h
    exact absurd h (by simp only [reduceCtorEq, not_false_eq_true])
  rw [if_neg hpole, if_neg hnl] at h
  rw [not_or] at hpole
  rw [not_not] at hnl
  rcases hwhole ((lit (even.2.toNat : ℚ) * (lit (nl (foldedLat K false j even.1) : ℚ) - lit 1) -
    lit (odd.2.toNat : ℚ) * lit (nl (foldedLat K false j even.1) : ℚ)) / two17 + lit (1 / 2))
    with ⟨m, hm⟩
  have hlat : (if recentOdd = true then foldedLat K true j odd.1 else foldedLat K false j even.1) =
      foldedLat K recentOdd j (newer even odd recentOdd).1 := by
    cases recentOdd with
    | false => rfl
    | true => rfl
  have hcell : (if recentOdd = true then lit (odd.2.toNat : ℚ) else lit (even.2.toNat : ℚ) : K) =
      ((newer even odd recentOdd).2.toNat : K) := by
    cases recentOdd with
    | false => exact (lit_cell even.2 even.2.toNat rfl).trans (Int.cast_natCast _)
    | true => exact (lit_cell odd.2 odd.2.toNat rfl).trans (Int.cast_natCast _)
  -- The zones are the same at both latitudes.
  have hzones : nl (foldedLat K false j even.1) =
      nl (foldedLat K recentOdd j (newer even odd recentOdd).1) := by
    cases recentOdd with
    | false => rfl
    | true => exact hnl
  simp only [hm] at h
  simp only [decode_zones, hcell, hlat, hturn, hhalf, two17_exact,
    modp_int _ _ (zones_pos _ _), hzones] at h
  rw [Option.some.injEq, Prod.mk.injEq] at h
  rcases h with ⟨rfl, rfl⟩
  refine ⟨j, m, rfl, ?_, ?_⟩
  · cases recentOdd with
    | false => exact (not_past_pole_iff _).mp hpole.1
    | true => exact (not_past_pole_iff _).mp hpole.2
  · simp only [gridPoint_eq]

/-- Whatever two reports decode to is on the earth, and encodes to the newer of
    them. -/
theorem encode_decode (nl : K → ℤ) (even odd : UInt32 × UInt32)
    (heven : even.1.toNat < 131072 ∧ even.2.toNat < 131072)
    (hodd : odd.1.toNat < 131072 ∧ odd.2.toNat < 131072) (recentOdd : Bool) (lat lon : K)
    (h : decodeWith nl even odd recentOdd = some (lat, lon)) :
    |lat| ≤ 90 ∧ -180 ≤ lon ∧ lon < 180 ∧
      encodeWith nl lat lon recentOdd = newer even odd recentOdd := by
  rcases decodeWith_grid nl even odd recentOdd lat lon h with ⟨j, m, hj, hpole, hm⟩
  have hA := latZones_pos recentOdd
  have hn := zones_pos (nl lat) recentOdd
  have hcells : (newer even odd recentOdd).1.toNat < 131072 ∧
      (newer even odd recentOdd).2.toNat < 131072 := by
    cases recentOdd with
    | false => exact heven
    | true => exact hodd
  rcases hcells with ⟨hy, hx⟩
  -- Folded or not, both coordinates are grid points.
  rcases exists_fold (latZones recentOdd) (j % latZones recentOdd) hA
    (newer even odd recentOdd).1 (270 : K) with ⟨z, hz⟩
  rcases exists_fold (zones (nl lat) recentOdd) (m % zones (nl lat) recentOdd) hn
    (newer even odd recentOdd).2 (180 : K) with ⟨w, hw⟩
  rcases encodeWith_exact nl lat lon recentOdd with ⟨hlatMark, hlonMark⟩
  have hlatCell : latMark lat recentOdd % 131072 = (newer even odd recentOdd).1.toNat := by
    unfold latMark
    rw [width_latZones, hj, foldedLat_eq, hz]
    exact mark_gridPoint _ z hA _ hy
  -- The encoder takes its zones at the decoded latitude.
  have hsame : encoderLat lat recentOdd = lat := by
    unfold encoderLat
    rw [hlatCell, width_latZones]
    conv_rhs => rw [hj, foldedLat_eq, hz, gridPoint_eq]
    rw [hj, foldedLat_eq, hz, floor_gridPoint _ z hA _ hy]
    push_cast
    ring
  have hlonCell : lonMark nl lat lon recentOdd % 131072 = (newer even odd recentOdd).2.toNat := by
    unfold lonMark encoderZones
    rw [hsame, hm, hw]
    exact mark_gridPoint _ w hn _ hx
  have hmem := gridPoint_mem (K := K) _ _ hn (Int.emod_nonneg m hn.ne') (Int.emod_lt_of_pos m hn)
    (newer even odd recentOdd).2 hx
  refine ⟨hpole, ?_, ?_, Prod.ext (UInt32.toNat_inj.mp ?_) (UInt32.toNat_inj.mp ?_)⟩
  · rw [hm]
    split_ifs <;> linarith [hmem.1]
  · rw [hm]
    split_ifs <;> linarith [hmem.2]
  · rw [hlatCell] at hlatMark
    exact_mod_cast hlatMark
  · rw [hlonCell] at hlonMark
    exact_mod_cast hlonMark

/-- An odd report of a known pair, with 36 zones. -/
theorem encode_decode_golden :
    decodeWith (fun _ : ℚ => 36) (93000, 51372) (74158, 50194) true =
        some (25261515 / 483328, 225873 / 57344) ∧
      encodeWith (fun _ : ℚ => 36) (25261515 / 483328) (225873 / 57344) true = (74158, 50194) := by
  have hdecode : decodeWith (fun _ : ℚ => 36) (93000, 51372) (74158, 50194) true =
      some (25261515 / 483328, 225873 / 57344) := by decide +kernel
  exact ⟨hdecode, (encode_decode (fun _ : ℚ => 36) (93000, 51372) (74158, 50194) (by decide)
    (by decide) true _ _ hdecode).2.2.2⟩

end Cpr

end MlatBench
