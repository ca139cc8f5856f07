import MlatBench.Core.Geo
import MlatBench.Library.Reals

/-!
# The Great Circle

When the distance between two points is a number. Over the reals with infinities
the roots and angles are the true ones; the quantity under the root is then between
zero and one, so the distance is a number whenever the angles are.

## Theorems

* `haversin_mem`: The quantity under the root is between zero and one.
* `val_haversine`: The distance is a number when the angles are.
* `haversine_nan`: Otherwise it is not.
-/

namespace MlatBench

open Library F64 F64Fn

/-- What is under the root is a mean of two squares. -/
theorem haversin_mem (x y z : ℝ) :
    Real.sin ((y - x) / 2) * Real.sin ((y - x) / 2) +
      Real.cos x * Real.cos y * (Real.sin z * Real.sin z) ∈ Set.Icc (0 : ℝ) 1 := by
  have hsum := Real.cos_add x y
  have hdiff := Real.cos_sub y x
  have hhalf := Real.cos_sq ((y - x) / 2)
  have hmid := Real.cos_sq ((x + y) / 2)
  have hone := Real.sin_sq_add_cos_sq ((y - x) / 2)
  have hz := Real.sin_sq_add_cos_sq z
  rw [mul_div_cancel₀ _ (two_ne_zero : (2 : ℝ) ≠ 0)] at hhalf hmid
  -- The product of the cosines is the difference of the two squares.
  have hprod : Real.cos x * Real.cos y =
      Real.cos ((x + y) / 2) ^ 2 - Real.sin ((y - x) / 2) ^ 2 := by
    linarith [mul_comm (Real.cos x) (Real.cos y), mul_comm (Real.sin x) (Real.sin y)]
  have hs : Real.sin z * Real.sin z ≤ 1 := by nlinarith [sq_nonneg (Real.cos z)]
  have hs0 : 0 ≤ Real.sin z * Real.sin z := mul_self_nonneg _
  have ha : Real.sin ((y - x) / 2) ^ 2 ≤ 1 := Real.sin_sq_le_one _
  have hb : Real.cos ((x + y) / 2) ^ 2 ≤ 1 := Real.cos_sq_le_one _
  rw [hprod, ← sq, Set.mem_Icc]
  constructor
  · nlinarith [sq_nonneg (Real.sin ((y - x) / 2)), sq_nonneg (Real.cos ((x + y) / 2))]
  · nlinarith [sq_nonneg (Real.sin ((y - x) / 2)), sq_nonneg (Real.cos ((x + y) / 2))]

section Values

/-- A small literal is the number it names. -/
theorem val_small (q : ℚ) (h : |q| ≤ 2 ^ 64) : Ext.Val (lit q : Ext ℝ) (q : ℝ) := by
  refine Ext.val_lit q ?_
  calc |(q : ℝ)|
    _ = ((|q| : ℚ) : ℝ) := (Rat.cast_abs q).symm
    _ ≤ ((2 ^ 64 : Nat) : ℝ) := by exact_mod_cast h
    _ ≤ maxFinite ℝ := Ext.nat_le_maxFinite _ (le_refl _)

theorem le_maxFinite (a : ℝ) (h : |a| ≤ 2 ^ 64) : |a| ≤ maxFinite ℝ := by
  refine h.trans ?_
  have hnat := Ext.nat_le_maxFinite (K := ℝ) (2 ^ 64) (le_refl _)
  exact_mod_cast hnat

theorem val_pi : Ext.Val (pi : Ext ℝ) Real.pi := by
  refine Ext.val_ofExact Real.pi (le_maxFinite _ ?_)
  rw [abs_of_pos Real.pi_pos]
  linarith [Real.pi_le_four]

theorem val_rate : Ext.Val (pi / lit 180 : Ext ℝ) (Real.pi / 180) := by
  have h := Ext.Val.div val_pi (val_small 180 (by norm_num)) (by norm_num) (le_maxFinite _ ?_)
  · exact_mod_cast h
  · rw [abs_of_nonneg (by positivity)]
    push_cast
    linarith [Real.pi_le_four]

/-- Radians are smaller than degrees. -/
theorem val_toRadians (x : Ext ℝ) (a : ℝ) (hx : Ext.Val x a) :
    Ext.Val (toRadians x) (a * (Real.pi / 180)) ∧ |a * (Real.pi / 180)| ≤ maxFinite ℝ / 2 := by
  have ha : |a| ≤ maxFinite ℝ := by
    rcases hx with ⟨h, _⟩
    exact h
  have hbound : |a * (Real.pi / 180)| ≤ maxFinite ℝ / 2 := by
    rw [abs_mul, abs_of_nonneg (by positivity : 0 ≤ Real.pi / 180)]
    nlinarith [abs_nonneg a, Real.pi_le_four]
  refine ⟨Ext.Val.mul hx val_rate (hbound.trans ?_), hbound⟩
  linarith [Ext.maxFinite_nonneg (K := ℝ)]

theorem val_sin (x : Ext ℝ) (a : ℝ) (hx : Ext.Val x a) : Ext.Val (sin x) (Real.sin a) := by
  rcases hx with ⟨h, rfl⟩
  refine Ext.val_ofExact (Real.sin a) (le_maxFinite _ ?_)
  linarith [Real.abs_sin_le_one a]

theorem val_cos (x : Ext ℝ) (a : ℝ) (hx : Ext.Val x a) : Ext.Val (cos x) (Real.cos a) := by
  rcases hx with ⟨h, rfl⟩
  refine Ext.val_ofExact (Real.cos a) (le_maxFinite _ ?_)
  linarith [Real.abs_cos_le_one a]

theorem abs_mul_le_one (a b : ℝ) (ha : |a| ≤ 1) (hb : |b| ≤ 1) : |a * b| ≤ 1 := by
  rw [abs_mul]
  exact mul_le_one₀ ha (abs_nonneg b) hb

theorem val_mul (x y : Ext ℝ) (a b : ℝ) (hx : Ext.Val x a) (hy : Ext.Val y b) (ha : |a| ≤ 1)
    (hb : |b| ≤ 1) : Ext.Val (x * y) (a * b) := by
  refine Ext.Val.mul hx hy (le_maxFinite _ ?_)
  linarith [abs_mul_le_one a b ha hb]

theorem val_half (x : Ext ℝ) (a : ℝ) (hx : Ext.Val x a) : Ext.Val (x / lit 2) (a / 2) := by
  have ha : |a| ≤ maxFinite ℝ := by
    rcases hx with ⟨h, _⟩
    exact h
  have h := Ext.Val.div hx (val_small 2 (by norm_num)) (by norm_num) ?_
  · exact_mod_cast h
  · rw [abs_div]
    push_cast
    rw [abs_of_pos (two_pos : (0 : ℝ) < 2)]
    linarith [abs_nonneg a]

theorem val_square (x : Ext ℝ) (a : ℝ) (hx : Ext.Val x a) (ha : |a| ≤ 1) :
    Ext.Val (square x) (a * a) :=
  val_mul x x a a hx hx ha ha

theorem abs_arcsin_le (x : ℝ) : |Real.arcsin x| ≤ 2 := by
  rw [abs_le]
  constructor <;> linarith [Real.neg_pi_div_two_le_arcsin x, Real.arcsin_le_pi_div_two x,
    Real.pi_le_four]

/-- The angle of a root of a share is a number. -/
theorem val_asin_sqrt (x : Ext ℝ) (a : ℝ) (hx : Ext.Val x a) (ha : a ∈ Set.Icc (0 : ℝ) 1) :
    Ext.Val (asin (sqrt x)) (Real.arcsin (Real.sqrt a)) := by
  rcases hx with ⟨h, rfl⟩
  have hroot : |Real.sqrt a| ≤ 1 := by
    rw [abs_of_nonneg (Real.sqrt_nonneg a)]
    exact Real.sqrt_le_one.mpr ha.2
  have hsqrt : (sqrt (Ext.fin a h) : Ext ℝ) = Ext.ofExact (Real.sqrt a) :=
    if_pos (decide_eq_true ha.1)
  have hasin : (asin (Ext.fin (Real.sqrt a) (le_maxFinite _ (by linarith))) : Ext ℝ) =
      Ext.ofExact (Real.arcsin (Real.sqrt a)) :=
    if_pos (decide_eq_true hroot)
  rw [hsqrt, Ext.ofExact_of_le _ (le_maxFinite _ (by linarith)), hasin]
  exact Ext.val_ofExact _ (le_maxFinite _ (by linarith [abs_arcsin_le (Real.sqrt a)]))

/-- The distance is a number when the latitudes and the difference of the
    longitudes are. -/
theorem val_haversine (p q : Geodetic (Ext ℝ)) (a b d : ℝ) (hp : Ext.Val p.latDeg a)
    (hq : Ext.Val q.latDeg b) (hd : Ext.Val (q.lonDeg - p.lonDeg) d) :
    ∃ v, Ext.Val (Geodetic.haversine p q) v := by
  rcases val_toRadians p.latDeg a hp with ⟨hlat1, hb1⟩
  rcases val_toRadians q.latDeg b hq with ⟨hlat2, hb2⟩
  rcases val_toRadians _ d hd with ⟨hdlon, _⟩
  rcases abs_le.mp hb1 with ⟨hlo1, hhi1⟩
  rcases abs_le.mp hb2 with ⟨hlo2, hhi2⟩
  have hdlat := Ext.Val.sub hlat2 hlat1 (abs_le.mpr ⟨by linarith, by linarith⟩)
  have hs1 := val_sin _ _ (val_half _ _ hdlat)
  have hs2 := val_sin _ _ (val_half _ _ hdlon)
  have hsq1 := val_square _ _ hs1 (Real.abs_sin_le_one _)
  have hsq2 := val_square _ _ hs2 (Real.abs_sin_le_one _)
  have hcos := val_mul _ _ _ _ (val_cos _ _ hlat1) (val_cos _ _ hlat2) (Real.abs_cos_le_one _)
    (Real.abs_cos_le_one _)
  have hshare := haversin_mem (a * (Real.pi / 180)) (b * (Real.pi / 180))
    (d * (Real.pi / 180) / 2)
  have hprod := val_mul _ _ _ _ hcos hsq2
    (abs_mul_le_one _ _ (Real.abs_cos_le_one _) (Real.abs_cos_le_one _))
    (abs_mul_le_one _ _ (Real.abs_sin_le_one _) (Real.abs_sin_le_one _))
  have hsum := Ext.Val.add hsq1 hprod (le_maxFinite _ (by
    rw [abs_of_nonneg hshare.1]
    linarith [hshare.2]))
  have hangle := val_asin_sqrt _ _ hsum hshare
  have hearth := Ext.Val.mul (val_small 2 (by norm_num)) (val_small (63710008 / 10) (by norm_num))
    (le_maxFinite _ (by norm_num))
  refine ⟨_, Ext.Val.mul hearth hangle (le_maxFinite _ ?_)⟩
  rw [abs_mul]
  have hangle2 := mul_le_mul_of_nonneg_left (abs_arcsin_le (Real.sqrt
    (Real.sin ((b * (Real.pi / 180) - a * (Real.pi / 180)) / 2) *
        Real.sin ((b * (Real.pi / 180) - a * (Real.pi / 180)) / 2) +
      Real.cos (a * (Real.pi / 180)) * Real.cos (b * (Real.pi / 180)) *
        (Real.sin (d * (Real.pi / 180) / 2) * Real.sin (d * (Real.pi / 180) / 2)))))
    (abs_nonneg (((2 : ℚ) : ℝ) * ((63710008 / 10 : ℚ) : ℝ)))
  refine hangle2.trans ?_
  norm_num

end Values

section NoNumber

theorem nan_mul (x : Ext ℝ) : Ext.nan * x = Ext.nan := by
  cases x <;> rfl

theorem mul_nan (x : Ext ℝ) : x * Ext.nan = Ext.nan := by
  cases x <;> rfl

theorem nan_add (x : Ext ℝ) : Ext.nan + x = Ext.nan := by
  cases x <;> rfl

theorem add_nan (x : Ext ℝ) : x + Ext.nan = Ext.nan := by
  cases x <;> rfl

/-- The sine and the cosine of what is not finite are no numbers. -/
theorem sin_nonfinite (x : Ext ℝ) (h : x.isFinite = false) : sin x = (Ext.nan : Ext ℝ) := by
  cases x with
  | fin x hx => exact absurd h Bool.noConfusion
  | inf b => rfl
  | nan => rfl

/-- Scaling keeps what is not finite. -/
theorem scaled_nonfinite (x : Ext ℝ) (c : ℝ) (hc : 0 < c) (hrange : |c| ≤ maxFinite ℝ)
    (h : x.isFinite = false) :
    (x * Ext.ofExact c).isFinite = false ∧ (x / Ext.ofExact c).isFinite = false := by
  rw [Ext.ofExact_of_le c hrange]
  cases x with
  | fin x hx => exact absurd h Bool.noConfusion
  | inf b =>
      refine ⟨?_, rfl⟩
      change (if c = 0 then Ext.nan else Ext.inf _ : Ext ℝ).isFinite = false
      rw [if_neg hc.ne']
      rfl
  | nan => exact ⟨rfl, rfl⟩

theorem sub_nonfinite (x y : Ext ℝ) (hx : x.isFinite = false) (hy : y.isFinite = true) :
    (x - y).isFinite = false := by
  rcases Ext.val_of_isFinite y hy with ⟨b, hb, rfl⟩
  change (Ext.add x (Ext.neg (Ext.fin b hb))).isFinite = false
  rw [Ext.neg_fin]
  cases x with
  | fin x hx' => exact absurd hx Bool.noConfusion
  | inf c => rfl
  | nan => rfl

theorem toRadians_nonfinite (x : Ext ℝ) (h : x.isFinite = false) :
    (toRadians x).isFinite = false := by
  have hrate : Ext.Val (pi / lit 180 : Ext ℝ) (Real.pi / 180) := val_rate
  rcases hrate with ⟨hrange, hrate⟩
  rw [toRadians, hrate, ← Ext.ofExact_of_le]
  exact (scaled_nonfinite x _ (by positivity) hrange h).1

/-- The distance is no number when a latitude or the difference of the longitudes
    is not finite. -/
theorem haversine_nan (p q : Geodetic (Ext ℝ)) (hp : p.latDeg.isFinite = true)
    (h : q.latDeg.isFinite = false ∨ (q.lonDeg - p.lonDeg).isFinite = false) :
    Geodetic.haversine p q = Ext.nan := by
  have hsquare : square (Ext.nan : Ext ℝ) = Ext.nan := rfl
  have hangle : lit 2 * lit (63710008 / 10) * asin (sqrt Ext.nan) = (Ext.nan : Ext ℝ) :=
    mul_nan _
  have hhalf : ∀ x : Ext ℝ, x.isFinite = false → sin (x / lit 2) = Ext.nan := by
    intro x hx
    have h2 : |((2 : ℚ) : ℝ)| ≤ maxFinite ℝ := le_maxFinite _ (by norm_num)
    exact sin_nonfinite _ (scaled_nonfinite x _ (by norm_num) h2 hx).2
  unfold Geodetic.haversine
  simp only []
  rcases h with hlat | hlon
  · have hdlat : (toRadians q.latDeg - toRadians p.latDeg).isFinite = false := by
      refine sub_nonfinite _ _ (toRadians_nonfinite _ hlat) ?_
      rcases Ext.val_of_isFinite _ hp with ⟨a, ha⟩
      exact (val_toRadians _ a ha).1.isFinite
    rw [hhalf _ hdlat, hsquare, nan_add, hangle]
  · rw [hhalf _ (toRadians_nonfinite _ hlon), hsquare, mul_nan, add_nan, hangle]

end NoNumber

end MlatBench
