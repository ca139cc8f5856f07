import Mathlib.Tactic.GCongr
import Mathlib.Tactic.NormNum
import MlatBench.Core.Geo
import MlatBench.Library.Reals
import MlatBench.Library.Zones

/-!
# Compact Position Reports

Reports in exact arithmetic, over any ordered field with a floor and for any zone
function. A report is a cell of latitude and a cell of longitude, each within a
zone. The decoder finds the latitude zone from both reports, and always rightly.
It finds the longitude zone from both reports too, rightly if the encoder used the
number of longitude zones the decoder uses.

The encoder takes that number at the latitude it expects the decoder to see. A
latitude just below the upper edge of its zone is rounded up, to the first cell of
the next zone; the cell wraps, but the zone the encoder adds to it is the old one.
There the number is taken a whole zone too low.

## Main definitions

* `width`, `latMark`, `lonMark`: Zones of latitude, and positions in cells.
* `encoderLat`, `decoderLat`: Where the two see the latitude.
* `encoderZones`, `decoderZones`: The longitude zones they use.
* `Near`: Within half a cell, up to whole turns.
* `GivesBack`: Decoding undoes encoding.
* `ZonesAgree`: The zones are the same, as far as they matter.

## Theorems

* `modp_exact`, `quantize_exact`: The operations of the source.
* `encodeWith_exact`, `decode_encode`: The codes, in cells.
* `abs_decoderLat_sub`: Latitude is given back.
* `givesBack_iff`, `givesBack_iff_dvd`: What is left to the drift.
* `roundtrip_iff`: When every longitude is given back.
* `zonesAgree_of_fract`: Away from the zone edges it is.
* `nl_edge`, `nl_pole`: The true zones at the last zone edge and at the pole.
* `zone_edge_misread`: Just below the pole a longitude is not given back.
-/

namespace MlatBench

namespace Cpr

open Library F64

variable {K : Type} [Field K] [LinearOrder K] [IsStrictOrderedRing K] [FloorRing K]

/-- Arithmetic is exact. -/
local instance (priority := low) exactF64 : F64 K := F64.exact K

/-- The remainder is the part of a turn. -/
theorem modp_exact (x d : K) (hd : 0 < d) : modp x d = d * Int.fract (x / d) := by
  have hx : d * (x / d) = x := mul_div_cancel₀ x hd.ne'
  have hfract : d * Int.fract (x / d) = x - d * ⌊x / d⌋ := by
    rw [Int.fract, mul_sub, hx]
  change (if x - d * ((if x / d < 0 then ⌈x / d⌉ else ⌊x / d⌋ : ℤ) : K) < ((0 : ℚ) : K) then
      x - d * ((if x / d < 0 then ⌈x / d⌉ else ⌊x / d⌋ : ℤ) : K) + d
    else x - d * ((if x / d < 0 then ⌈x / d⌉ else ⌊x / d⌋ : ℤ) : K)) = _
  rw [Rat.cast_zero, hfract]
  have hnonneg : 0 ≤ d * Int.fract (x / d) := mul_nonneg hd.le (Int.fract_nonneg _)
  rw [hfract] at hnonneg
  by_cases hneg : x / d < 0
  · rw [if_pos hneg]
    by_cases hwhole : (⌊x / d⌋ : K) = x / d
    · have hceil : ⌈x / d⌉ = ⌊x / d⌋ := by
        rw [← hwhole, Int.ceil_intCast, Int.floor_intCast]
      rw [hceil, if_neg (not_lt.mpr hnonneg)]
    · have hceil : ⌈x / d⌉ = ⌊x / d⌋ + 1 := by
        rw [Int.ceil_eq_iff]
        push_cast
        refine ⟨?_, (Int.lt_floor_add_one (x / d)).le⟩
        have hlt := lt_of_le_of_ne (Int.floor_le (x / d)) hwhole
        linarith
      have hsize : x - d * ⌊x / d⌋ < d := by
        rw [← hfract]
        exact mul_lt_of_lt_one_right hd (Int.fract_lt_one _)
      rw [hceil]
      push_cast
      rw [if_pos (by linarith)]
      ring
  · rw [if_neg hneg, if_neg (not_lt.mpr hnonneg)]

/-- The remainder of whole numbers. -/
theorem modp_int (j n : ℤ) (hn : 0 < n) : modp (j : K) (n : K) = ((j % n : ℤ) : K) := by
  have hn' : (0 : K) < n := by exact_mod_cast hn
  rw [modp_exact (j : K) (n : K) hn']
  have hfract : Int.fract ((j : K) / n) = ((j % n : ℤ) : K) / n := by
    rw [Int.fract_eq_iff]
    have hlt : ((j % n : ℤ) : K) < n := by exact_mod_cast Int.emod_lt_of_pos j hn
    have hle : (0 : K) ≤ ((j % n : ℤ) : K) := by exact_mod_cast Int.emod_nonneg j hn.ne'
    refine ⟨div_nonneg hle hn'.le, (div_lt_one hn').mpr hlt, j / n, ?_⟩
    have hsplit : ((j % n : ℤ) : K) + n * ((j / n : ℤ) : K) = j := by
      exact_mod_cast Int.emod_add_mul_ediv j n
    field_simp
    linear_combination -hsplit
  rw [hfract, mul_div_cancel₀ _ hn'.ne']

/-- The report of a coordinate is its cell within its zone. -/
theorem quantize_exact (x d : K) (hd : 0 < d) :
    ((quantize x d).toNat : ℤ) = mark 131072 (x / d) % 131072 := by
  have hz : floor (two17 * modp x d / d + lit (1 / 2)) =
      ((mark 131072 (x / d) - 131072 * ⌊x / d⌋ : ℤ) : K) := by
    rw [← mark_fract, modp_exact x d hd]
    have hcancel : (131072 : K) * (d * Int.fract (x / d)) / d = 131072 * Int.fract (x / d) := by
      field_simp
    change ((⌊((131072 : ℚ) : K) * (d * Int.fract (x / d)) / d + ((1 / 2 : ℚ) : K)⌋ : ℤ) : K) = _
    push_cast
    rw [hcancel]
  have hlow : 0 ≤ mark 131072 (x / d) - 131072 * ⌊x / d⌋ := by
    rw [← mark_fract, Int.floor_nonneg]
    have hfract := Int.fract_nonneg (x / d)
    push_cast
    positivity
  have hhigh : mark 131072 (x / d) - 131072 * ⌊x / d⌋ ≤ 131072 := by
    rw [← mark_fract, ← Int.lt_add_one_iff, Int.floor_lt]
    have hfract := Int.fract_lt_one (x / d)
    push_cast
    linarith
  have hcast : toInt 0 (2 ^ 64 - 1) ((mark 131072 (x / d) - 131072 * ⌊x / d⌋ : ℤ) : K) =
      mark 131072 (x / d) - 131072 * ⌊x / d⌋ := by
    refine (toInt_exact 0 (2 ^ 64 - 1) _).trans (clampInt_of_mem _ _ _ hlow ?_)
    omega
  unfold quantize
  rw [hz]
  simp only [hcast]
  rw [UInt32.toNat_ofNat']
  omega

/-- The width of a latitude zone. -/
def width (K : Type) [Field K] (odd : Bool) : K :=
  if odd then 360 / 59 else 6

omit [LinearOrder K] [IsStrictOrderedRing K] [FloorRing K] in
theorem width_even : width K false = 6 := rfl

omit [IsStrictOrderedRing K] in
theorem width_odd : width K true = 360 / 59 := rfl

theorem width_pos (odd : Bool) : 0 < width K odd := by
  cases odd with
  | false => norm_num [width]
  | true => norm_num [width]

/-- The latitude in cells of a format. -/
def latMark (lat : K) (odd : Bool) : ℤ :=
  mark 131072 (lat / width K odd)

/-- Where the encoder takes the longitude zones. -/
def encoderLat (lat : K) (odd : Bool) : K :=
  width K odd * (((latMark lat odd % 131072 : ℤ) : K) / 131072 + ⌊lat / width K odd⌋)

/-- Where the decoder sees the latitude. -/
def decoderLat (lat : K) (odd : Bool) : K :=
  width K odd * (latMark lat odd / 131072)

/-- The longitude zones the encoder uses. -/
def encoderZones (nl : K → ℤ) (lat : K) (odd : Bool) : ℤ :=
  zones (nl (encoderLat lat odd)) odd

/-- The longitude in cells of a format. -/
def lonMark (nl : K → ℤ) (lat lon : K) (odd : Bool) : ℤ :=
  mark 131072 (lon / (360 / encoderZones nl lat odd))

theorem zones_pos (n : ℤ) (odd : Bool) : 0 < zones n odd := by
  unfold zones
  split_ifs
  · omega
  · omega

/-- The even format has all the zones, the odd format one less, if there are two. -/
theorem zones_even (n : ℤ) (hn : 0 < n) : zones n false = n := by
  unfold zones
  rw [if_neg Bool.false_ne_true]
  omega

theorem zones_odd (n : ℤ) (hn : 2 ≤ n) : zones n true = n - 1 := by
  unfold zones
  rw [if_pos rfl]
  omega

theorem zones_odd_one (n : ℤ) (hn : n < 3) : zones n true = 1 := by
  unfold zones
  rw [if_pos rfl]
  omega

/-- A report is a cell of latitude and a cell of longitude. -/
theorem encodeWith_exact (nl : K → ℤ) (lat lon : K) (odd : Bool) :
    ((encodeWith nl lat lon odd).1.toNat : ℤ) = latMark lat odd % 131072 ∧
      ((encodeWith nl lat lon odd).2.toNat : ℤ) = lonMark nl lat lon odd % 131072 := by
  have hwidth : (lit 360 / (lit 4 * lit 15 - if odd then lit 1 else lit 0) : K) = width K odd := by
    cases odd with
    | false =>
        change ((360 : ℚ) : K) / (((4 : ℚ) : K) * ((15 : ℚ) : K) - ((0 : ℚ) : K)) = 6
        norm_num
    | true =>
        change ((360 : ℚ) : K) / (((4 : ℚ) : K) * ((15 : ℚ) : K) - ((1 : ℚ) : K)) = 360 / 59
        norm_num
  have hlat := quantize_exact lat (width K odd) (width_pos odd)
  have hrlat : width K odd * (lit ((quantize lat (width K odd)).toNat : ℚ) / two17 +
      floor (lat / width K odd)) = encoderLat lat odd := by
    have hcell : (((quantize lat (width K odd)).toNat : ℤ) : K) =
        ((latMark lat odd % 131072 : ℤ) : K) := by
      rw [hlat]
      rfl
    change width K odd * ((((quantize lat (width K odd)).toNat : ℚ) : K) / ((131072 : ℚ) : K) +
      ((⌊lat / width K odd⌋ : ℤ) : K)) = _
    unfold encoderLat
    rw [← hcell]
    push_cast
    rfl
  have hlon : (lit 360 / lit (zones (nl (encoderLat lat odd)) odd : ℚ) : K) =
      360 / encoderZones nl lat odd := by
    change ((360 : ℚ) : K) / ((zones (nl (encoderLat lat odd)) odd : ℚ) : K) = _
    unfold encoderZones
    push_cast
    rfl
  have hzones : (0 : K) < encoderZones nl lat odd := by
    exact_mod_cast zones_pos (nl (encoderLat lat odd)) odd
  constructor
  · unfold encodeWith
    simp only [hwidth]
    exact hlat
  · unfold encodeWith
    simp only [hwidth, hrlat, hlon]
    exact quantize_exact lon (360 / encoderZones nl lat odd) (div_pos (by norm_num) hzones)

/-- The decoder sees the latitude up to half a cell. -/
theorem abs_decoderLat_sub (lat : K) (odd : Bool) :
    |decoderLat lat odd - lat| ≤ width K odd / 262144 := by
  have hw := width_pos (K := K) odd
  have hmark := abs_mark_sub 131072 (lat / width K odd)
  have hsplit : decoderLat lat odd - lat =
      width K odd / 131072 * (latMark lat odd - (131072 : ℤ) * (lat / width K odd)) := by
    unfold decoderLat
    push_cast
    field_simp
  rw [hsplit, abs_mul, abs_of_pos (div_pos hw (by norm_num))]
  calc width K odd / 131072 * |(latMark lat odd : K) - (131072 : ℤ) * (lat / width K odd)|
      ≤ width K odd / 131072 * (1 / 2) :=
        mul_le_mul_of_nonneg_left hmark (div_pos hw (by norm_num)).le
    _ = width K odd / 262144 := by ring

/-- Latitudes stay between the poles. -/
theorem decoderLat_mem (lat : K) (hlow : -90 ≤ lat) (hhigh : lat ≤ 90) (odd : Bool) :
    -90 ≤ decoderLat lat odd ∧ decoderLat lat odd ≤ 90 := by
  unfold decoderLat latMark
  cases odd with
  | false =>
      have hle : mark 131072 (lat / width K false) ≤ 1966080 := by
        refine mark_mono _ _ _ ?_
        simp only [width]
        push_cast
        linarith
      have hge : -1966080 ≤ mark 131072 (lat / width K false) := by
        refine le_mark _ _ _ ?_
        simp only [width]
        push_cast
        linarith
      have hle' : (mark 131072 (lat / width K false) : K) ≤ 1966080 := by exact_mod_cast hle
      have hge' : (-1966080 : K) ≤ mark 131072 (lat / width K false) := by exact_mod_cast hge
      simp only [width] at hle' hge' ⊢
      constructor
      · norm_num at hge' ⊢
        linarith
      · norm_num at hle' ⊢
        linarith
  | true =>
      have hscale : lat / width K true = lat * 59 / 360 := by
        simp only [width, if_true]
        field_simp
      rw [hscale]
      have hle : mark 131072 (lat * 59 / 360) ≤ 1933312 := by
        refine mark_mono _ _ _ ?_
        push_cast
        linarith
      have hge : -1933312 ≤ mark 131072 (lat * 59 / 360) := by
        refine le_mark _ _ _ ?_
        push_cast
        linarith
      have hle' : (mark 131072 (lat * 59 / 360) : K) ≤ 1933312 := by exact_mod_cast hle
      have hge' : (-1933312 : K) ≤ mark 131072 (lat * 59 / 360) := by exact_mod_cast hge
      simp only [width, if_true]
      constructor
      · linarith
      · linarith

/-- A latitude given up to whole turns is brought between the poles. -/
theorem unwrap (A a : ℤ) (hA : 0 < A) (hlow : -90 ≤ 360 / (A : K) * (a / 131072))
    (hhigh : 360 / (A : K) * (a / 131072) ≤ 90) :
    let r := 360 / (A : K) * (((a / 131072 % A : ℤ) : K) + ((a % 131072 : ℤ) : K) / 131072)
    (if 270 ≤ r then r - 360 else r) = 360 / (A : K) * (a / 131072) := by
  intro r
  have hA' : (0 : K) < A := by exact_mod_cast hA
  rcases zone_cell 131072 A a 0 (by norm_num) hA (360 : K) with ⟨k, hk⟩
  simp only [add_zero, Int.cast_zero, Int.cast_ofNat] at hk
  have hr : r = 360 / (A : K) * (a / 131072) - 360 * k := hk
  -- One turn at most is to be taken off.
  have hzone : (0 : K) ≤ ((a / 131072 % A : ℤ) : K) := by
    exact_mod_cast Int.emod_nonneg _ hA.ne'
  have hzone' : ((a / 131072 % A : ℤ) : K) + 1 ≤ A := by
    exact_mod_cast Int.emod_lt_of_pos (a / 131072) hA
  have hcell : (0 : K) ≤ ((a % 131072 : ℤ) : K) := by
    exact_mod_cast Int.emod_nonneg a (by norm_num)
  have hcell' : ((a % 131072 : ℤ) : K) < 131072 := by
    exact_mod_cast Int.emod_lt_of_pos a (by norm_num)
  have hnonneg : 0 ≤ r := by
    refine mul_nonneg (div_pos (by norm_num) hA').le (add_nonneg hzone (div_nonneg hcell ?_))
    norm_num
  have hlt : r < 360 := by
    have hsum : ((a / 131072 % A : ℤ) : K) + ((a % 131072 : ℤ) : K) / 131072 < A := by
      have hpart : ((a % 131072 : ℤ) : K) / 131072 < 1 := by
        rw [div_lt_one (by norm_num)]
        exact hcell'
      linarith
    calc r < 360 / (A : K) * A := mul_lt_mul_of_pos_left hsum (div_pos (by norm_num) hA')
      _ = 360 := div_mul_cancel₀ _ hA'.ne'
  have hk0 : k ≤ 0 := by
    have hlt : (k : K) < 1 := by linarith
    exact Int.lt_add_one_iff.mp (by exact_mod_cast hlt)
  have hk1 : -1 ≤ k := by
    have hlt : (-2 : K) < k := by linarith
    exact Int.add_one_le_iff.mpr (by exact_mod_cast hlt)
  rcases (by omega : k = 0 ∨ k = -1) with rfl | rfl
  · rw [Int.cast_zero, mul_zero, sub_zero] at hr
    rw [if_neg (by linarith), hr]
  · rw [Int.cast_neg, Int.cast_one] at hr
    rw [if_pos (by linarith), hr]
    ring

/-- Both latitude reports tell the zone. -/
theorem lat_index (lat : K) :
    ⌊((59 * (latMark lat false % 131072) - 60 * (latMark lat true % 131072) : ℤ) : K) /
        (131072 : ℤ) + 1 / 2⌋ =
      60 * (latMark lat true / 131072) - 59 * (latMark lat false / 131072) := by
  refine (index_eq 131072 60 59 _ _ (by norm_num)).trans ?_
  have hdrift : drift K 131072 60 59 (latMark lat false) (latMark lat true) = 0 := by
    refine drift_eq _ _ _ _ _ _ (by norm_num) ?_
    have heven := abs_le.mp (abs_mark_sub 131072 (lat / width K false))
    have hodd := abs_le.mp (abs_mark_sub 131072 (lat / width K true))
    have hscale : 59 * (lat / width K false) = 60 * (lat / width K true) := by
      rw [width_even, width_odd]
      field_simp
      ring
    simp only [latMark] at heven hodd ⊢
    push_cast at heven hodd ⊢
    rw [abs_lt]
    constructor
    · linarith
    · linarith
  rw [hdrift, add_zero]

/-- The zones of the decoder. -/
def decoderZones (nl : K → ℤ) (lat : K) : ℤ :=
  nl (decoderLat lat false)

/-- The zone index of the two longitude reports. -/
def lonIndex (nl : K → ℤ) (lat lon : K) : ℤ :=
  let n := decoderZones nl lat
  roundUp ((((n - 1) * (lonMark nl lat lon false % 131072) -
      n * (lonMark nl lat lon true % 131072) : ℤ) : K) / (131072 : ℤ))

/-- The longitude the decoder computes. -/
def decoderLon (nl : K → ℤ) (lat lon : K) (odd : Bool) : K :=
  let z := zones (decoderZones nl lat) odd
  360 / (z : K) * (((lonIndex nl lat lon % z : ℤ) : K) +
    ((lonMark nl lat lon odd % 131072 : ℤ) : K) / 131072)

section

omit [IsStrictOrderedRing K]

theorem lit_int (n : ℤ) : (lit (n : ℚ) : K) = n := by
  change (((n : ℚ)) : K) = n
  push_cast
  rfl

theorem two17_exact : (two17 : K) = 131072 := by
  change ((131072 : ℚ) : K) = 131072
  norm_num

/-- A reported cell as a number. -/
theorem lit_cell (w : UInt32) (c : ℤ) (h : (w.toNat : ℤ) = c) : (lit (w.toNat : ℚ) : K) = c := by
  rw [← h, ← lit_int]
  rfl

end

/-- The zone index the decoder computes. -/
theorem decode_index (lat : K) (even odd : UInt32)
    (heven : (even.toNat : ℤ) = latMark lat false % 131072)
    (hodd : (odd.toNat : ℤ) = latMark lat true % 131072) :
    (floor ((lit 59 * lit (even.toNat : ℚ) - lit 60 * lit (odd.toNat : ℚ)) / two17 +
      lit (1 / 2)) : K) =
      ((60 * (latMark lat true / 131072) - 59 * (latMark lat false / 131072) : ℤ) : K) := by
  rw [lit_cell _ _ heven, lit_cell _ _ hodd, ← lat_index lat, two17_exact]
  change ((⌊(((59 : ℚ) : K) * ((latMark lat false % 131072 : ℤ) : K) -
    ((60 : ℚ) : K) * ((latMark lat true % 131072 : ℤ) : K)) / (131072 : K) +
    ((1 / 2 : ℚ) : K)⌋ : ℤ) : K) = _
  push_cast
  rfl

/-- The latitude of a report, once its zone is known. -/
theorem decode_lat (lat : K) (hlow : -90 ≤ lat) (hhigh : lat ≤ 90) (odd : Bool) (A j : ℤ) (n : K)
    (hA : 0 < A) (hn : n = A) (hwidth : width K odd = 360 / (A : K)) (cell : UInt32)
    (hcell : (cell.toNat : ℤ) = latMark lat odd % 131072)
    (hj : j % A = latMark lat odd / 131072 % A) :
    let r : K := lit 360 / n * (modp (j : K) n + lit (cell.toNat : ℚ) / two17)
    (if lit 270 ≤ r then r - lit 360 else r) = decoderLat lat odd := by
  have hturn : (lit 360 : K) = 360 := (lit_int 360).trans (by norm_num)
  have hedge : (lit 270 : K) = 270 := (lit_int 270).trans (by norm_num)
  have hmem := decoderLat_mem lat hlow hhigh odd
  unfold decoderLat at hmem ⊢
  rw [hwidth] at hmem ⊢
  rw [hn, modp_int j A hA, hj, lit_cell _ _ hcell, two17_exact, hturn, hedge]
  exact unwrap A (latMark lat odd) hA hmem.1 hmem.2

omit [IsStrictOrderedRing K] in
/-- The longitude index the decoder computes. -/
theorem decode_lonIndex (nl : K → ℤ) (lat lon : K) (even odd : UInt32)
    (heven : (even.toNat : ℤ) = lonMark nl lat lon false % 131072)
    (hodd : (odd.toNat : ℤ) = lonMark nl lat lon true % 131072) :
    (floor ((lit (even.toNat : ℚ) * (lit (nl (decoderLat lat false) : ℚ) - lit 1) -
      lit (odd.toNat : ℚ) * lit (nl (decoderLat lat false) : ℚ)) / two17 + lit (1 / 2)) : K) =
      (lonIndex nl lat lon : K) := by
  rw [lit_cell _ _ heven, lit_cell _ _ hodd, lit_int, two17_exact]
  unfold lonIndex decoderZones roundUp
  change ((⌊(((lonMark nl lat lon false % 131072 : ℤ) : K) *
    ((nl (decoderLat lat false) : K) - ((1 : ℚ) : K)) -
    ((lonMark nl lat lon true % 131072 : ℤ) : K) * (nl (decoderLat lat false) : K)) /
    (131072 : K) + ((1 / 2 : ℚ) : K)⌋ : ℤ) : K) = _
  push_cast
  congr 4
  ring

/-- The longitude zones the decoder uses. -/
theorem decode_zones (n : ℤ) (recentOdd : Bool) :
    (if recentOdd = true then F64.max (lit (n : ℚ) - lit 1) (lit 1)
      else F64.max (lit (n : ℚ)) (lit 1) : K) = zones n recentOdd := by
  have hone : (lit 1 : K) = 1 := (lit_int 1).trans Int.cast_one
  rw [lit_int, hone]
  unfold zones
  cases recentOdd with
  | false =>
      change Max.max (n : K) 1 = ((Max.max n 1 : ℤ) : K)
      push_cast
      rfl
  | true =>
      change Max.max ((n : K) - 1) 1 = ((Max.max (n - 1) 1 : ℤ) : K)
      push_cast
      rfl

/-- The latitudes between the poles are not refused, and no others. -/
theorem not_past_pole_iff (x : K) : ¬ lit 90 < F64.abs x ↔ |x| ≤ 90 := by
  have hpole : (lit 90 : K) = 90 := (lit_int 90).trans (by norm_num)
  have habs : F64.abs x = |x| := abs_exact x
  rw [hpole, habs, not_lt]

/-- What the decoder makes of the two reports of a position. -/
theorem decode_encode (nl : K → ℤ) (lat lon : K) (hlow : -90 ≤ lat) (hhigh : lat ≤ 90)
    (recentOdd : Bool) :
    decodeWith nl (encodeWith nl lat lon false) (encodeWith nl lat lon true) recentOdd =
      if nl (decoderLat lat false) ≠ nl (decoderLat lat true) then none
      else some (decoderLat lat recentOdd,
        if 180 ≤ decoderLon nl lat lon recentOdd then decoderLon nl lat lon recentOdd - 360
        else decoderLon nl lat lon recentOdd) := by
  rcases encodeWith_exact nl lat lon false with ⟨hye, hxe⟩
  rcases encodeWith_exact nl lat lon true with ⟨hyo, hxo⟩
  generalize encodeWith nl lat lon false = even at hye hxe ⊢
  generalize encodeWith nl lat lon true = odd at hyo hxo ⊢
  have hzoneE : (60 * (latMark lat true / 131072) - 59 * (latMark lat false / 131072)) % 60 =
      latMark lat false / 131072 % 60 := by omega
  have hzoneO : (60 * (latMark lat true / 131072) - 59 * (latMark lat false / 131072)) % 59 =
      latMark lat true / 131072 % 59 := by omega
  have hE := decode_lat lat hlow hhigh false 60 _ (lit 60) (by norm_num) (lit_int 60)
    (by rw [width_even]; norm_num) even.1 hye hzoneE
  have hO := decode_lat lat hlow hhigh true 59 _ (lit 59) (by norm_num) (lit_int 59)
    (by rw [width_odd]; norm_num) odd.1 hyo hzoneO
  have hindex := decode_index lat even.1 odd.1 hye hyo
  have hlon := decode_lonIndex nl lat lon even.2 odd.2 hxe hxo
  unfold decodeWith
  simp only [hindex] at hE hO ⊢
  have hcell : (if recentOdd = true then lit (odd.2.toNat : ℚ) else lit (even.2.toNat : ℚ) : K) =
      ((lonMark nl lat lon recentOdd % 131072 : ℤ) : K) := by
    cases recentOdd with
    | false => exact lit_cell _ _ hxe
    | true => exact lit_cell _ _ hxo
  have hlat : (if recentOdd = true then decoderLat lat true else decoderLat lat false) =
      decoderLat lat recentOdd := by
    cases recentOdd with
    | false => rfl
    | true => rfl
  have hturn : (lit 360 : K) = 360 := (lit_int 360).trans (by norm_num)
  have hhalf : (lit 180 : K) = 180 := (lit_int 180).trans (by norm_num)
  have hpole : ¬ (lit 90 < F64.abs (decoderLat lat false) ∨
      lit 90 < F64.abs (decoderLat lat true)) := by
    rw [not_or]
    exact ⟨(not_past_pole_iff _).mpr (abs_le.mpr (decoderLat_mem lat hlow hhigh false)),
      (not_past_pole_iff _).mpr (abs_le.mpr (decoderLat_mem lat hlow hhigh true))⟩
  simp only [hE, hO, hlon]
  simp only [if_neg hpole, decode_zones, hcell, hlat, hturn, hhalf, two17_exact,
    modp_int _ _ (zones_pos _ _)]
  rfl

/-- Two longitudes are within half a cell of each other, up to whole turns. -/
def Near (z : ℤ) (x y : K) : Prop :=
  ∃ k : ℤ, |x - y - 360 * k| ≤ 360 / (z : K) / 262144

omit [IsStrictOrderedRing K] in
theorem near_turn (z k : ℤ) (x y : K) : Near z (x - 360 * k) y ↔ Near z x y := by
  constructor
  · rintro ⟨i, hi⟩
    refine ⟨i + k, ?_⟩
    have hsame : x - y - 360 * ((i + k : ℤ) : K) = x - 360 * k - y - 360 * i := by
      push_cast
      ring
    rw [hsame]
    exact hi
  · rintro ⟨i, hi⟩
    refine ⟨i - k, ?_⟩
    have hsame : x - 360 * k - y - 360 * ((i - k : ℤ) : K) = x - y - 360 * i := by
      push_cast
      ring
    rw [hsame]
    exact hi

omit [IsStrictOrderedRing K] in
theorem near_half_turn (z : ℤ) (x y : K) :
    Near z (if 180 ≤ x then x - 360 else x) y ↔ Near z x y := by
  split_ifs
  · have h := near_turn z 1 x y
    rwa [Int.cast_one, mul_one] at h
  · exact Iff.rfl

/-- Nearness in cells. -/
theorem near_iff_cells (z w f : ℤ) (hz : 0 < z) (lon : K) :
    Near z (360 / (z : K) * (w / 131072 + f)) lon ↔
      ∃ k : ℤ, |(w : K) - 131072 * (lon / (360 / z)) + 131072 * ((f - z * k : ℤ) : K)| ≤ 1 / 2 := by
  have hz' : (0 : K) < z := by exact_mod_cast hz
  have hcell : (0 : K) < 360 / z / 131072 := div_pos (div_pos (by norm_num) hz') (by norm_num)
  have hscale : ∀ k : ℤ, 360 / (z : K) * (w / 131072 + f) - lon - 360 * k =
      360 / z / 131072 *
        ((w : K) - 131072 * (lon / (360 / z)) + 131072 * ((f - z * k : ℤ) : K)) := by
    intro k
    push_cast
    field_simp
    ring
  have hbound : 360 / (z : K) / 262144 = 360 / z / 131072 * (1 / 2) := by
    norm_num
    ring
  unfold Near
  refine exists_congr fun k => ?_
  rw [hscale, hbound, abs_mul, abs_of_pos hcell, mul_le_mul_iff_right₀ hcell]

/-- With the encoder's zones, the reports are near if the drift is whole turns. -/
theorem near_iff_dvd (z f : ℤ) (hz : 0 < z) (lon : K) :
    Near z (360 / (z : K) * (mark 131072 (lon / (360 / (z : K))) / 131072 + f)) lon ↔ z ∣ f := by
  have hmark := abs_le.mp (abs_mark_sub 131072 (lon / (360 / (z : K))))
  push_cast at hmark
  rw [near_iff_cells z _ f hz]
  constructor
  · rintro ⟨k, hk⟩
    rw [abs_le] at hk
    refine ⟨k, ?_⟩
    have hlow : (-1 : K) < ((f - z * k : ℤ) : K) := by linarith
    have hhigh : ((f - z * k : ℤ) : K) < 1 := by linarith
    have hlow' : -1 < f - z * k := by exact_mod_cast hlow
    have hhigh' : f - z * k < 1 := by exact_mod_cast hhigh
    omega
  · rintro ⟨k, rfl⟩
    refine ⟨k, ?_⟩
    rw [sub_self, Int.cast_zero, mul_zero, add_zero, abs_le]
    exact hmark

/-- With other zones than the encoder's, three degrees east is not near. -/
theorem not_near_three (z c f : ℤ) (hz : 0 < z) (hz' : z ≤ 59) (hc : 0 < c) (hc' : c ≤ 59)
    (hne : c ≠ z) :
    ¬ Near z (360 / (z : K) * (mark 131072 (3 / (360 / (c : K))) / 131072 + f)) 3 := by
  rw [near_iff_cells z _ f hz]
  rintro ⟨k, hk⟩
  have hmark := abs_le.mp (abs_mark_sub 131072 (3 / (360 / (c : K))))
  rw [abs_le] at hk
  have hthree : ∀ n : ℤ, (3 : K) / (360 / n) = n / 120 := by
    intro n
    by_cases hn : (n : K) = 0
    · rw [hn]
      norm_num
    · field_simp
      norm_num
  rw [hthree] at hmark hk
  rw [hthree] at hk
  push_cast at hmark hk
  -- A whole number of cells between the two would be a multiple of 120 zones.
  have hlow : (-1 : K) < ((c - z + 120 * (f - z * k) : ℤ) : K) := by
    push_cast
    linarith
  have hhigh : ((c - z + 120 * (f - z * k) : ℤ) : K) < 1 := by
    push_cast
    linarith
  have hlow' : -1 < c - z + 120 * (f - z * k) := by exact_mod_cast hlow
  have hhigh' : c - z + 120 * (f - z * k) < 1 := by exact_mod_cast hhigh
  generalize f - z * k = i at hlow' hhigh'
  omega

/-- The drift of two longitude reports that differ by whole zones. -/
theorem lon_drift (n p q c : ℤ) (hn : 0 < n) (hn' : n ≤ 59) (hp : 0 < p) (hq : 0 < q) (lon : K)
    (hc : (((n - 1) * p - n * q : ℤ) : K) * lon = 360 * c) :
    drift K 131072 n (n - 1) (mark 131072 (lon / (360 / (p : K))))
      (mark 131072 (lon / (360 / (q : K)))) = c := by
  have hp' : (p : K) ≠ 0 := by exact_mod_cast hp.ne'
  have hq' : (q : K) ≠ 0 := by exact_mod_cast hq.ne'
  have hn₁ : (0 : K) < n := by exact_mod_cast hn
  have hn₂ : (n : K) ≤ 59 := by exact_mod_cast hn'
  have hn₃ : (0 : K) ≤ n - 1 := by
    have hone : (1 : K) ≤ n := by exact_mod_cast hn
    linarith
  refine drift_eq _ _ _ _ _ _ (by norm_num) ?_
  have heven := abs_mark_sub 131072 (lon / (360 / (p : K)))
  have hodd := abs_mark_sub 131072 (lon / (360 / (q : K)))
  generalize mark 131072 (lon / (360 / (p : K))) = a at heven ⊢
  generalize mark 131072 (lon / (360 / (q : K))) = b at hodd ⊢
  have hsplit : (((n - 1) * a - n * b : ℤ) : K) - (131072 : ℤ) * c =
      (n - 1) * (a - (131072 : ℤ) * (lon / (360 / p))) -
        n * (b - (131072 : ℤ) * (lon / (360 / q))) := by
    push_cast at hc ⊢
    field_simp
    linear_combination 131072 * hc
  rw [hsplit]
  calc |((n : K) - 1) * (a - (131072 : ℤ) * (lon / (360 / p))) -
        n * (b - (131072 : ℤ) * (lon / (360 / q)))|
      ≤ |((n : K) - 1) * (a - (131072 : ℤ) * (lon / (360 / p)))| +
        |n * (b - (131072 : ℤ) * (lon / (360 / q)))| := abs_sub _ _
    _ = (n - 1) * |(a : K) - (131072 : ℤ) * (lon / (360 / p))| +
        n * |(b : K) - (131072 : ℤ) * (lon / (360 / q))| := by
        rw [abs_mul, abs_mul, abs_of_nonneg hn₃, abs_of_pos hn₁]
    _ ≤ (n - 1) * (1 / 2) + n * (1 / 2) := by gcongr
    _ < ((131072 : ℤ) : K) / 2 := by
        push_cast
        linarith

/-- A longitude at which the reports are one zone apart. -/
theorem exists_lon (g e : ℤ) (hg : 2 ≤ g) (he : e ≠ 0) :
    ∃ (lon : K) (c : ℤ), -180 ≤ lon ∧ lon < 180 ∧ (c = 1 ∨ c = -1) ∧
      ((g * e : ℤ) : K) * lon = 360 * c := by
  have hg' : (2 : K) ≤ g := by exact_mod_cast hg
  have he' : (1 : K) ≤ |(e : K)| := by exact_mod_cast Int.one_le_abs he
  have hprod : (2 : K) ≤ g * |(e : K)| := by nlinarith
  refine ⟨-(360 / (g * |(e : K)|)), -(e.sign), ?_, ?_, ?_, ?_⟩
  · rw [neg_le_neg_iff, div_le_iff₀ (by linarith)]
    linarith
  · have hpos : 0 < 360 / (g * |(e : K)|) := div_pos (by norm_num) (by linarith)
    linarith
  · rcases lt_trichotomy e 0 with hneg | hzero | hpos
    · rw [Int.sign_eq_neg_one_of_neg hneg]
      exact Or.inl rfl
    · exact absurd hzero he
    · rw [Int.sign_eq_one_of_pos hpos]
      exact Or.inr rfl
  · have hsign : ((e.sign : ℤ) : K) * |(e : K)| = e := by
      exact_mod_cast Int.sign_mul_abs e
    have habs : |(e : K)| ≠ 0 := by linarith
    have hg₀ : (g : K) ≠ 0 := by linarith
    push_cast
    field_simp
    linear_combination hsign

/-- The decoder's longitude, in cells and drift. -/
theorem decoderLon_eq (nl : K → ℤ) (lat lon : K) (hnl : 0 < decoderZones nl lat) (odd : Bool) :
    ∃ k : ℤ, decoderLon nl lat lon odd =
      360 / (zones (decoderZones nl lat) odd : K) * (lonMark nl lat lon odd / 131072 +
        drift K 131072 (decoderZones nl lat) (decoderZones nl lat - 1) (lonMark nl lat lon false)
          (lonMark nl lat lon true)) - 360 * k := by
  have hindex : lonIndex nl lat lon = decoderZones nl lat * (lonMark nl lat lon true / 131072) -
      (decoderZones nl lat - 1) * (lonMark nl lat lon false / 131072) +
        drift K 131072 (decoderZones nl lat) (decoderZones nl lat - 1) (lonMark nl lat lon false)
          (lonMark nl lat lon true) := index_eq 131072 _ _ _ _ (by norm_num)
  generalize hf : drift K 131072 (decoderZones nl lat) (decoderZones nl lat - 1)
    (lonMark nl lat lon false) (lonMark nl lat lon true) = f at hindex ⊢
  unfold decoderLon
  have hzone : lonIndex nl lat lon % zones (decoderZones nl lat) odd =
      (lonMark nl lat lon odd / 131072 + f) % zones (decoderZones nl lat) odd := by
    rw [hindex]
    cases odd with
    | false =>
        rw [zones_even _ hnl]
        exact index_emod _ _ _ _
    | true =>
        by_cases htwo : 2 ≤ decoderZones nl lat
        · rw [zones_odd _ htwo]
          exact index_emod_pred _ _ _ _
        · -- One zone is all there is.
          rw [zones_odd_one _ (by omega), Int.emod_one, Int.emod_one]
  simp only [hzone]
  have hcell := zone_cell 131072 (zones (decoderZones nl lat) odd) (lonMark nl lat lon odd) f
    (by norm_num) (zones_pos _ _) (360 : K)
  simpa only [Int.cast_ofNat] using hcell

/-- The encoder and the decoder use the same zones, as far as they matter. The pair
    is refused if the decoder sees the two latitudes in different zones; the format
    not asked for matters if it is needed to tell the zone. -/
def ZonesAgree (nl : K → ℤ) (lat : K) (recentOdd : Bool) : Prop :=
  nl (decoderLat lat false) = nl (decoderLat lat true) →
    let n := decoderZones nl lat
    let p := encoderZones nl lat false
    let q := encoderZones nl lat true
    if recentOdd then q = zones n true ∧ (3 ≤ n → p = n) else p = n ∧ (2 ≤ n → q = n - 1)

/-- The reports of a position, decoded, give it back up to half a cell. -/
def GivesBack (nl : K → ℤ) (lat lon : K) (recentOdd : Bool) : Prop :=
  ∀ lat' lon' : K, decodeWith nl (encodeWith nl lat lon false) (encodeWith nl lat lon true)
      recentOdd = some (lat', lon') →
    |lat' - lat| ≤ width K recentOdd / 262144 ∧ Near (zones (nl lat') recentOdd) lon' lon

/-- Half of it always holds, the rest is a matter of the drift. -/
theorem givesBack_iff (nl : K → ℤ) (hnl : ∀ x, 1 ≤ nl x ∧ nl x ≤ 59) (lat lon : K)
    (hlow : -90 ≤ lat) (hhigh : lat ≤ 90) (recentOdd : Bool)
    (hsame : nl (decoderLat lat false) = nl (decoderLat lat true)) :
    GivesBack nl lat lon recentOdd ↔
      Near (zones (decoderZones nl lat) recentOdd)
        (360 / (zones (decoderZones nl lat) recentOdd : K) *
          (lonMark nl lat lon recentOdd / 131072 +
            drift K 131072 (decoderZones nl lat) (decoderZones nl lat - 1)
              (lonMark nl lat lon false) (lonMark nl lat lon true))) lon := by
  have hzones : nl (decoderLat lat recentOdd) = decoderZones nl lat := by
    cases recentOdd with
    | false => rfl
    | true => exact hsame.symm
  rcases decoderLon_eq nl lat lon (hnl _).1 recentOdd with ⟨k, hk⟩
  rw [← near_turn _ k, ← hk, ← near_half_turn]
  unfold GivesBack
  rw [decode_encode nl lat lon hlow hhigh recentOdd, if_neg (not_not.mpr hsame)]
  constructor
  · intro h
    have hlon := (h _ _ rfl).2
    rwa [hzones] at hlon
  · intro h lat' lon' heq
    rw [Option.some.injEq, Prod.mk.injEq] at heq
    rcases heq with ⟨rfl, rfl⟩
    rw [hzones]
    exact ⟨abs_decoderLat_sub lat recentOdd, h⟩

/-- With the zones of the format asked for, it is a matter of whole turns. -/
theorem givesBack_iff_dvd (nl : K → ℤ) (hnl : ∀ x, 1 ≤ nl x ∧ nl x ≤ 59) (lat lon : K)
    (hlow : -90 ≤ lat) (hhigh : lat ≤ 90) (recentOdd : Bool)
    (hsame : nl (decoderLat lat false) = nl (decoderLat lat true))
    (hused : encoderZones nl lat recentOdd = zones (decoderZones nl lat) recentOdd) :
    GivesBack nl lat lon recentOdd ↔ zones (decoderZones nl lat) recentOdd ∣
      drift K 131072 (decoderZones nl lat) (decoderZones nl lat - 1) (lonMark nl lat lon false)
        (lonMark nl lat lon true) := by
  have hmark : lonMark nl lat lon recentOdd =
      mark 131072 (lon / (360 / (zones (decoderZones nl lat) recentOdd : K))) := by
    unfold lonMark
    rw [hused]
  rw [givesBack_iff nl hnl lat lon hlow hhigh recentOdd hsame, hmark]
  exact near_iff_dvd _ _ (zones_pos _ _) lon

/-- The drift is none if both formats have the decoder's zones. -/
theorem drift_agree (nl : K → ℤ) (lat lon : K) (hnl : 0 < decoderZones nl lat)
    (hnl' : decoderZones nl lat ≤ 59) (hp : encoderZones nl lat false = decoderZones nl lat)
    (hq : encoderZones nl lat true = decoderZones nl lat - 1) :
    drift K 131072 (decoderZones nl lat) (decoderZones nl lat - 1) (lonMark nl lat lon false)
      (lonMark nl lat lon true) = 0 := by
  refine lon_drift _ (encoderZones nl lat false) (encoderZones nl lat true) 0 hnl hnl'
    (zones_pos _ _) (zones_pos _ _) lon ?_
  rw [hp, hq]
  push_cast
  ring

section Disagree

variable (nl : K → ℤ) (hnl : ∀ x, 1 ≤ nl x ∧ nl x ≤ 59) (lat : K) (hlow : -90 ≤ lat)
  (hhigh : lat ≤ 90) (recentOdd : Bool)
  (hsame : nl (decoderLat lat false) = nl (decoderLat lat true))
  (h : ∀ lon : K, -180 ≤ lon → lon < 180 → GivesBack nl lat lon recentOdd)

include hnl hlow hhigh hsame h

/-- The format asked for has the decoder's zones. -/
theorem zones_used : encoderZones nl lat recentOdd = zones (decoderZones nl lat) recentOdd := by
  by_contra hne
  have hbound : ∀ x : K, zones (nl x) recentOdd ≤ 59 := by
    intro x
    have hx := hnl x
    unfold zones
    split_ifs
    · omega
    · omega
  have hthree := (givesBack_iff nl hnl lat 3 hlow hhigh recentOdd hsame).mp
    (h 3 (by norm_num) (by norm_num))
  exact not_near_three _ _ _ (zones_pos _ _) (hbound _) (zones_pos _ _) (hbound _) hne hthree

/-- If the drift can be a single zone, the zone is not told. -/
theorem zones_other (g e : ℤ) (hg : 2 ≤ g) (hgz : g = zones (decoderZones nl lat) recentOdd)
    (hge : (decoderZones nl lat - 1) * encoderZones nl lat false -
      decoderZones nl lat * encoderZones nl lat true = g * e) : e = 0 := by
  by_contra he
  rcases exists_lon (K := K) g e hg he with ⟨lon, c, hlon, hlon', hc, heq⟩
  have hdrift := lon_drift (decoderZones nl lat) (encoderZones nl lat false)
    (encoderZones nl lat true) c (hnl _).1 (hnl _).2 (zones_pos _ _) (zones_pos _ _) lon
    (by rw [hge]; exact heq)
  have hdvd := (givesBack_iff_dvd nl hnl lat lon hlow hhigh recentOdd hsame
    (zones_used nl hnl lat hlow hhigh recentOdd hsame h)).mp (h lon hlon hlon')
  unfold lonMark at hdvd
  rw [hdrift, ← hgz] at hdvd
  rcases hdvd with ⟨i, hi⟩
  have hunit : g ∣ 1 := by
    rcases hc with rfl | rfl
    · exact ⟨i, hi⟩
    · exact ⟨-i, by rw [mul_neg, ← hi, neg_neg]⟩
  have hle := Int.le_of_dvd one_pos hunit
  omega

end Disagree

/-- For every zone function and latitude: the reports give every longitude back,
    decoded by the format asked for, if and only if the encoder and the decoder use
    the same zones. -/
theorem roundtrip_iff (nl : K → ℤ) (hnl : ∀ x, 1 ≤ nl x ∧ nl x ≤ 59) (lat : K)
    (hlow : -90 ≤ lat) (hhigh : lat ≤ 90) (recentOdd : Bool) :
    (∀ lon : K, -180 ≤ lon → lon < 180 → GivesBack nl lat lon recentOdd) ↔
      ZonesAgree nl lat recentOdd := by
  have hn : 0 < decoderZones nl lat ∧ decoderZones nl lat ≤ 59 := hnl (decoderLat lat false)
  have hzE := zones_even (decoderZones nl lat) hn.1
  constructor
  · intro h hsame
    have hused := zones_used nl hnl lat hlow hhigh recentOdd hsame h
    have hother := zones_other nl hnl lat hlow hhigh recentOdd hsame h
    cases recentOdd with
    | false =>
        rw [hzE] at hused hother
        refine ⟨hused, fun htwo => ?_⟩
        have he := hother (decoderZones nl lat)
          (decoderZones nl lat - 1 - encoderZones nl lat true) htwo rfl (by rw [hused]; ring)
        omega
    | true =>
        refine ⟨hused, fun hthree => ?_⟩
        rw [zones_odd _ (by omega)] at hused hother
        have he := hother (decoderZones nl lat - 1)
          (encoderZones nl lat false - decoderZones nl lat) (by omega) rfl (by rw [hused]; ring)
        omega
  · intro hagree lon _ _
    by_cases hsame : nl (decoderLat lat false) = nl (decoderLat lat true)
    · cases recentOdd with
      | false =>
          rcases hagree hsame with ⟨hp, hq⟩
          rw [givesBack_iff_dvd nl hnl lat lon hlow hhigh false hsame (hp.trans hzE.symm), hzE]
          by_cases htwo : 2 ≤ decoderZones nl lat
          · rw [drift_agree nl lat lon hn.1 hn.2 hp (hq htwo)]
            exact dvd_zero _
          · have hone : decoderZones nl lat = 1 := by omega
            rw [hone]
            exact one_dvd _
      | true =>
          rcases hagree hsame with ⟨hq, hp⟩
          rw [givesBack_iff_dvd nl hnl lat lon hlow hhigh true hsame hq]
          by_cases hthree : 3 ≤ decoderZones nl lat
          · have hz := zones_odd (decoderZones nl lat) (by omega)
            rw [drift_agree nl lat lon hn.1 hn.2 (hp hthree) (hq.trans hz)]
            exact dvd_zero _
          · rw [zones_odd_one _ (not_le.mp hthree)]
            exact one_dvd _
    · -- The pair is refused.
      intro lat' lon' heq
      rw [decode_encode nl lat lon hlow hhigh recentOdd, if_pos hsame] at heq
      exact absurd heq (Option.some_ne_none _).symm

/-- Away from the upper edge of its zone, a latitude is seen by the encoder where the
    decoder sees it. -/
theorem encoderLat_eq (lat : K) (odd : Bool)
    (h : Int.fract (lat / width K odd) < 1 - 1 / 2 ^ 18) :
    encoderLat lat odd = decoderLat lat odd := by
  have hcell := mark_fract 131072 (lat / width K odd)
  have hlow : 0 ≤ latMark lat odd - 131072 * ⌊lat / width K odd⌋ := by
    unfold latMark
    rw [← hcell, Int.floor_nonneg]
    have hfract := Int.fract_nonneg (lat / width K odd)
    push_cast
    positivity
  have hhigh : latMark lat odd - 131072 * ⌊lat / width K odd⌋ < 131072 := by
    unfold latMark
    rw [← hcell, Int.floor_lt]
    push_cast
    norm_num at h ⊢
    linarith
  have hmod : latMark lat odd % 131072 = latMark lat odd - 131072 * ⌊lat / width K odd⌋ := by
    omega
  unfold encoderLat decoderLat
  rw [hmod]
  push_cast
  ring

/-- Away from the upper edges of the zones of both formats, the zones agree. -/
theorem zonesAgree_of_fract (nl : K → ℤ) (hnl : ∀ x, 1 ≤ nl x ∧ nl x ≤ 59) (lat : K)
    (heven : Int.fract (lat / 6) < 1 - 1 / 2 ^ 18)
    (hodd : Int.fract (lat / (360 / 59)) < 1 - 1 / 2 ^ 18) (recentOdd : Bool) :
    ZonesAgree nl lat recentOdd := by
  intro hsame
  have hn := hnl (decoderLat lat false)
  have hp : encoderZones nl lat false = zones (decoderZones nl lat) false := by
    unfold encoderZones decoderZones
    rw [encoderLat_eq lat false heven]
  have hq : encoderZones nl lat true = zones (decoderZones nl lat) true := by
    unfold encoderZones decoderZones
    rw [encoderLat_eq lat true hodd, hsame]
  have hzE := zones_even (decoderZones nl lat) hn.1
  cases recentOdd with
  | false => exact ⟨hp.trans hzE, fun htwo => hq.trans (zones_odd _ htwo)⟩
  | true => exact ⟨hq, fun _ => hp.trans hzE⟩

/-- The zone function of the source has values from 1 to 59. -/
theorem nl_mem {F : Type} [F64Fn F] (x : F) : 1 ≤ nl x ∧ nl x ≤ 59 := by
  unfold nl
  simp only []
  split_ifs
  · omega
  · omega
  · omega
  · unfold clampInt
    omega

section Edge

/-- Just below the pole. -/
def belowPole (K : Type) [Field K] : K := (8999999 / 100000 : ℚ)

theorem latMark_belowPole :
    latMark (belowPole K) false = 15 * 131072 ∧ latMark (belowPole K) true = 1933312 := by
  unfold latMark mark roundUp belowPole
  constructor
  · rw [width_even, Int.floor_eq_iff]
    norm_num
  · rw [width_odd, Int.floor_eq_iff]
    norm_num

/-- The decoder sees the pole in both reports, the encoder in the even one the edge of
    the zone below. -/
theorem seen_belowPole (odd : Bool) :
    decoderLat (belowPole K) odd = 90 ∧ encoderLat (belowPole K) false = 84 := by
  have hmark := latMark_belowPole (K := K)
  have hzone : ⌊belowPole K / width K false⌋ = 14 := by
    rw [belowPole, width_even, Int.floor_eq_iff]
    norm_num
  constructor
  · unfold decoderLat
    cases odd with
    | false =>
        rw [hmark.1, width_even]
        norm_num
    | true =>
        rw [hmark.2, width_odd]
        norm_num
  · unfold encoderLat
    rw [hmark.1, hzone, width_even]
    norm_num

/-- Five zones at the edge and one at the pole make three degrees fifteen. -/
theorem decode_belowPole (nl : K → ℤ) (hedge : nl 84 = 5) (hpole : nl 90 = 1) :
    decodeWith nl (encodeWith nl (belowPole K) 3 false) (encodeWith nl (belowPole K) 3 true)
      false = some (90, 245745 / 16384) := by
  have hseen := seen_belowPole (K := K)
  have hzones : encoderZones nl (belowPole K) false = 5 := by
    unfold encoderZones
    rw [(hseen false).2, hedge]
    rfl
  have hcell : lonMark nl (belowPole K) 3 false = 5461 := by
    unfold lonMark mark roundUp
    rw [hzones, Int.floor_eq_iff]
    norm_num
  have hlon : decoderLon nl (belowPole K) 3 false = 245745 / 16384 := by
    unfold decoderLon decoderZones
    rw [(hseen false).1, hpole, hcell, zones_even 1 one_pos]
    simp only [Int.emod_one]
    norm_num
  have hlow : -90 ≤ belowPole K := by
    unfold belowPole
    norm_num
  have hhigh : belowPole K ≤ 90 := by
    unfold belowPole
    norm_num
  rw [decode_encode nl _ 3 hlow hhigh false, hlon, (hseen false).1, (hseen true).1,
    if_neg (not_not.mpr rfl), if_neg (by norm_num)]

end Edge

section Reals

/-- Arithmetic is exact, and the angles are the true ones. -/
noncomputable local instance (priority := low) exactNl : F64Fn ℝ := F64.exactFn ℝ

/-- A position in the middle of its zones. -/
theorem roundtrip_nantes : GivesBack (nl : ℝ → ℤ) 47 (-3 / 2) false := by
  refine (roundtrip_iff (nl : ℝ → ℤ) nl_mem 47 (by norm_num) (by norm_num) false).mpr ?_
    (-3 / 2) (by norm_num) (by norm_num)
  refine zonesAgree_of_fract _ nl_mem 47 ?_ ?_ false
  · have hfloor : ⌊(47 / 6 : ℝ)⌋ = 7 := by norm_num
    rw [Int.fract, hfloor]
    norm_num
  · have hfloor : ⌊(47 / (360 / 59) : ℝ)⌋ = 7 := by norm_num
    rw [Int.fract, hfloor]
    norm_num

theorem nl_pole : nl (90 : ℝ) = 1 := by
  have habs : F64.abs (90 : ℝ) = 90 := (abs_exact _).trans (abs_of_pos (by norm_num))
  have hlow : ¬ (90 : ℝ) < lit (1047047130 / 100000000) := by
    change ¬ (90 : ℝ) < ((1047047130 / 100000000 : ℚ) : ℝ)
    norm_num
  have hhigh : (lit 87 : ℝ) < 90 := by
    change ((87 : ℚ) : ℝ) < 90
    norm_num
  unfold nl
  simp only [habs, if_neg hlow, if_pos hhigh]

/-- Six degrees from the pole the closed form has no root left. -/
theorem nl_form : 1 - (1 - Real.cos (Real.pi / 30)) / Real.cos (Real.pi * 84 / 180) ^ 2 =
    Real.cos (Real.pi / 30) / (1 + Real.cos (Real.pi / 30)) := by
  have hangle : Real.pi * 84 / 180 = Real.pi / 2 - Real.pi / 30 := by ring
  have hc : Real.cos (Real.pi / 30) < 1 := by
    rw [← Real.cos_zero]
    refine Real.cos_lt_cos_of_nonneg_of_le_pi le_rfl ?_ ?_
    · linarith [Real.pi_pos]
    · linarith [Real.pi_pos]
  have hpos : 0 < Real.cos (Real.pi / 30) := by
    refine Real.cos_pos_of_mem_Ioo ⟨?_, ?_⟩
    · linarith [Real.pi_pos]
    · linarith [Real.pi_pos]
  rw [hangle, Real.cos_pi_div_two_sub, Real.sin_sq]
  generalize Real.cos (Real.pi / 30) = c at *
  have hne : 1 - c ^ 2 ≠ 0 := by nlinarith
  have hne' : 1 + c ≠ 0 := by linarith
  field_simp
  ring

/-- The closed form stays below six zones there. -/
theorem zones_form (c : ℝ) (hlow : 1 / 2 < c) (hhigh : c < 1) :
    ⌊2 * Real.pi / Real.arccos (c / (1 + c))⌋ = 5 := by
  have hpi := Real.pi_pos
  have hx : 1 / 3 < c / (1 + c) ∧ c / (1 + c) < 1 / 2 := by
    rw [lt_div_iff₀ (by linarith), div_lt_iff₀ (by linarith)]
    constructor
    · linarith
    · linarith
  generalize c / (1 + c) = x at hx
  -- The cosine of a fifth of a turn is less than a third.
  have hfifth : Real.cos (2 * (Real.pi / 5)) ≤ x := by
    have hroot : Real.sqrt 5 ≤ 7 / 3 := Real.sqrt_le_iff.mpr (by norm_num)
    have hsq : Real.sqrt 5 ^ 2 = 5 := Real.sq_sqrt (by norm_num)
    rw [Real.cos_two_mul, Real.cos_pi_div_five]
    nlinarith
  have hwide : Real.arccos x ≤ 2 * (Real.pi / 5) := by
    rw [← Real.arccos_cos (x := 2 * (Real.pi / 5)) (by linarith) (by linarith)]
    exact Real.arccos_le_arccos hfifth
  have hnarrow : Real.pi / 3 < Real.arccos x := by
    rw [← Real.arccos_cos (x := Real.pi / 3) (by linarith) (by linarith), Real.cos_pi_div_three]
    exact Real.arccos_lt_arccos (by linarith) hx.2 (by norm_num)
  rw [Int.floor_eq_iff, le_div_iff₀ (by linarith), div_lt_iff₀ (by linarith)]
  push_cast
  constructor
  · linarith
  · linarith

/-- Six degrees from the pole there are five zones. -/
theorem nl_edge : nl (84 : ℝ) = 5 := by
  have hpi := Real.pi_pos
  have habs : F64.abs (84 : ℝ) = 84 := (abs_exact _).trans (abs_of_pos (by norm_num))
  have hlow : ¬ (84 : ℝ) < lit (1047047130 / 100000000) := by
    change ¬ (84 : ℝ) < ((1047047130 / 100000000 : ℚ) : ℝ)
    norm_num
  have hhigh : ¬ (lit 87 : ℝ) < 84 := by
    change ¬ ((87 : ℚ) : ℝ) < 84
    norm_num
  have hc : 1 / 2 < Real.cos (Real.pi / 30) ∧ Real.cos (Real.pi / 30) < 1 := by
    rw [← Real.cos_pi_div_three, ← Real.cos_zero]
    constructor
    · exact Real.cos_lt_cos_of_nonneg_of_le_pi (by linarith) (by linarith) (by linarith)
    · exact Real.cos_lt_cos_of_nonneg_of_le_pi le_rfl (by linarith) (by linarith)
  have hx : (lit 1 - (lit 1 - F64Fn.cos (F64Fn.pi / (lit 2 * lit 15))) /
      square (F64Fn.cos (F64Fn.pi * 84 / lit 180)) : ℝ) =
        Real.cos (Real.pi / 30) / (1 + Real.cos (Real.pi / 30)) := by
    rw [← nl_form]
    change ((1 : ℚ) : ℝ) - (((1 : ℚ) : ℝ) - Real.cos (Real.pi / (((2 : ℚ) : ℝ) * ((15 : ℚ) : ℝ)))) /
      (Real.cos (Real.pi * 84 / ((180 : ℚ) : ℝ)) * Real.cos (Real.pi * 84 / ((180 : ℚ) : ℝ))) = _
    norm_num
    ring
  have hcount := zones_form _ hc.1 hc.2
  have hshare : 0 ≤ Real.cos (Real.pi / 30) / (1 + Real.cos (Real.pi / 30)) ∧
      Real.cos (Real.pi / 30) / (1 + Real.cos (Real.pi / 30)) ≤ 1 := by
    refine ⟨div_nonneg (by linarith) (by linarith), ?_⟩
    rw [div_le_one (by linarith)]
    linarith
  unfold nl
  simp only [habs, if_neg hlow, if_neg hhigh, hx]
  generalize Real.cos (Real.pi / 30) / (1 + Real.cos (Real.pi / 30)) = x at *
  have hin : ¬ (x < lit (-1) ∨ lit 1 < x) := by
    change ¬ (x < ((-1 : ℚ) : ℝ) ∨ ((1 : ℚ) : ℝ) < x)
    push_cast
    rw [not_or, not_lt, not_lt]
    exact ⟨by linarith, hshare.2⟩
  have hfloor : (F64.floor (lit 2 * F64Fn.pi / F64Fn.acos x) : ℝ) = ((5 : ℤ) : ℝ) := by
    rw [← hcount]
    change ((⌊((2 : ℚ) : ℝ) * Real.pi / Real.arccos x⌋ : ℤ) : ℝ) = _
    push_cast
    rfl
  have hcast : toInt 0 (2 ^ 32 - 1) ((5 : ℤ) : ℝ) = 5 :=
    (toInt_exact 0 (2 ^ 32 - 1) 5).trans (clampInt_of_mem _ _ _ (by decide) (by decide))
  rw [if_neg hin, hfloor, hcast]
  rfl

/-- Just below the pole the even latitude rounds up to the pole, where there is one
    longitude zone, but the encoder takes the zones of 84 degrees. Three degrees east
    is decoded as fifteen. -/
theorem zone_edge_misread :
    globalDecodeAirborne (encodeAirborne (8999999 / 100000 : ℝ) 3 false)
        (encodeAirborne (8999999 / 100000 : ℝ) 3 true) false = some ((90 : ℝ), 245745 / 16384) ∧
      ¬ GivesBack (nl : ℝ → ℤ) (8999999 / 100000) 3 false := by
  have hplace : belowPole ℝ = 8999999 / 100000 := by
    unfold belowPole
    norm_num
  have hdecode := decode_belowPole (nl : ℝ → ℤ) nl_edge nl_pole
  rw [hplace] at hdecode
  refine ⟨hdecode, fun h => ?_⟩
  rcases (h _ _ hdecode).2 with ⟨k, hk⟩
  rw [nl_pole, zones_even 1 one_pos, abs_le] at hk
  norm_num at hk
  rcases le_or_gt k 0 with hle | hgt
  · have hle' : (k : ℝ) ≤ 0 := by exact_mod_cast hle
    linarith
  · have hgt' : (1 : ℝ) ≤ k := by exact_mod_cast hgt
    linarith

end Reals

end Cpr

end MlatBench
