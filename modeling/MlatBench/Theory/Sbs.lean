import MlatBench.Core.Sbs
import MlatBench.Library.Calendar
import MlatBench.Library.Decimal

/-!
# SBS Rows Show The Calendar

The loops take years and months off the days until the rest is inside one, so
what is left is a date of the calendar, and the table of months does not end
before that. With the time of the day it is the moment of the millisecond. Texts
have the order of their moments while years have four digits.

From the year where seconds leave 64 bits on, the cast saturates and the fraction
takes the rest.

## Main definitions

* `dateText`, `timeText`: The texts of a moment.

## Theorems

* `years_spec`, `months_spec`: What the loops leave.
* `sbsDatetime_isSome`: There is always a date.
* `sbsDatetime_moment`: The texts are those of the moment.
* `texts_le`: The order of texts.
* `sbsDatetime_spec`: Both, for two times in their order.
* `sbsDatetime_saturated`: The first time behind the range.
-/

namespace MlatBench

namespace Server

open Library F64

/-- The texts of a moment. -/
def dateText (t : Moment) : String :=
  padInt 4 t.date.year ++ "/" ++ padInt 2 t.date.month ++ "/" ++ padInt 2 t.date.day

def timeText (t : Moment) : String :=
  padInt 2 t.hour ++ ":" ++ padInt 2 t.minute ++ ":" ++ padInt 2 t.second ++ "." ++
    padInt 3 t.milli

theorem leapYear_eq (y : Int) : leapYear y = decide (IsLeap y) := by
  have hmod : ∀ n : Int, y.tmod n = 0 ↔ y % n = 0 := by
    intro n
    rw [← Int.dvd_iff_tmod_eq_zero, Int.dvd_iff_emod_eq_zero]
  -- The two ways to write the rule are the same.
  refine decide_eq_decide.mpr ?_
  rw [ne_eq, hmod, hmod, hmod, IsLeap]
  omega

/-- A year that does not fit is taken off. -/
theorem years_eq (y rem : Int) :
    years y rem = if rem < yearLength y then (y, rem) else years (y + 1) (rem - yearLength y) := by
  have hlen : (if leapYear y = true then (366 : Int) else 365) = yearLength y := by
    rw [leapYear_eq, yearLength]
    by_cases hleap : IsLeap y
    · rw [if_pos (decide_eq_true hleap), if_pos hleap]
    · rw [if_neg (by rw [decide_eq_false hleap]; exact Bool.false_ne_true), if_neg hleap]
  rw [years]
  simp only [hlen]

/-- What is left when no year fits is inside the year. -/
theorem years_spec (y rem : Int) (h : 0 ≤ rem) :
    y ≤ (years y rem).1 ∧ 0 ≤ (years y rem).2 ∧ (years y rem).2 < yearLength (years y rem).1 ∧
      yearStart (years y rem).1 + (years y rem).2 = yearStart y + rem := by
  -- Each year takes at least a day off the rest.
  induction hn : rem.toNat using Nat.strong_induction_on generalizing y rem with
  | _ n ih =>
      rw [years_eq]
      by_cases hlt : rem < yearLength y
      · rw [if_pos hlt]
        exact ⟨le_rfl, h, hlt, rfl⟩
      · rw [if_neg hlt]
        have hlen := yearLength_pos y
        rcases ih (rem - yearLength y).toNat (by omega) (y + 1) _ (by omega) rfl with
          ⟨hle, hpos, hlt', hsum⟩
        rw [yearStart_succ] at hsum
        exact ⟨by omega, hpos, hlt', by omega⟩

/-- While the rest is inside what the table has left, a month is found there. -/
theorem months_spec (lens : List Int) (m rem : Int) (h : 0 ≤ rem) (hsum : rem < lens.sum) :
    ∃ i : Nat, i < lens.length ∧ months m rem lens = some (m + i, rem - (lens.take i).sum) ∧
      0 ≤ rem - (lens.take i).sum ∧ rem < (lens.take (i + 1)).sum := by
  induction lens generalizing m rem with
  | nil => exact absurd hsum (not_lt.mpr h)
  | cons len lens ih =>
      rw [List.sum_cons] at hsum
      by_cases hle : len ≤ rem
      · -- The month is taken off, and the search goes on behind it.
        rcases ih (m + 1) (rem - len) (by omega) (by omega) with ⟨i, hi, hsome, hpos, hlt⟩
        refine ⟨i + 1, by rw [List.length_cons]; omega, ?_, ?_, ?_⟩
        · rw [months, if_pos hle, hsome, List.take_succ_cons, List.sum_cons, Option.some.injEq,
            Prod.mk.injEq]
          push_cast
          omega
        · rw [List.take_succ_cons, List.sum_cons]
          omega
        · rw [List.take_succ_cons, List.sum_cons]
          omega
      · refine ⟨0, by rw [List.length_cons]; omega, ?_, ?_, ?_⟩
        · rw [months, if_neg hle, List.take_zero, List.sum_nil, Nat.cast_zero, Int.add_zero,
            Int.sub_zero]
        · rw [List.take_zero, List.sum_nil]
          omega
        · rw [List.take_succ_cons, List.take_zero, List.sum_cons, List.sum_nil]
          omega

/-- The table has the months of the calendar. -/
theorem monthTable_take (y : Int) (i : Nat) (h : i < 12) :
    ((monthTable (leapYear y)).take i).sum = monthStart y (i + 1) ∧
      ((monthTable (leapYear y)).take (i + 1)).sum = monthStart y (i + 1) + monthLength y (i + 1) := by
  rw [leapYear_eq]
  unfold monthStart monthLength
  by_cases hleap : IsLeap y
  · simp only [hleap, decide_true, if_true]
    revert i
    decide
  · simp only [hleap, decide_false, if_false]
    revert i
    decide

theorem monthTable_sum (y : Int) : (monthTable (leapYear y)).sum = yearLength y := by
  rw [leapYear_eq, yearLength]
  by_cases hleap : IsLeap y
  · simp only [hleap, decide_true, if_true]
    decide
  · simp only [hleap, decide_false, if_false]
    decide

/-- The loops find the date of a day. -/
theorem loops_date (days : Int) (h : 0 ≤ days) :
    ∃ d : Date, d.unixDay = days ∧ 1970 ≤ d.year ∧ (years 1970 days).1 = d.year ∧
      months 0 (years 1970 days).2 (monthTable (leapYear (years 1970 days).1)) =
        some (d.month - 1, d.day - 1) := by
  rcases years_spec 1970 days h with ⟨hyear, hpos, hlt, hsum⟩
  have hfirst : yearStart 1970 = 719162 := by decide
  generalize years 1970 days = r at hyear hpos hlt hsum ⊢
  have hrem := hlt
  -- The table has as many days as the year, so the search ends inside it.
  rw [← monthTable_sum] at hrem
  rcases months_spec (monthTable (leapYear r.1)) 0 r.2 hpos hrem with ⟨i, hi, hsome, hpos', hlt'⟩
  have hi12 : i < 12 := hi
  rcases monthTable_take r.1 i hi12 with ⟨hstart, hnext⟩
  rw [hstart] at hsome hpos'
  rw [hnext] at hlt'
  refine ⟨⟨r.1, i + 1, r.2 - monthStart r.1 (i + 1) + 1, by omega, by omega, by omega, by omega⟩,
    ?_, hyear, rfl, ?_⟩
  · rw [Date.unixDay, Date.fixed]
    dsimp only
    omega
  · rw [hsome, Option.some.injEq, Prod.mk.injEq]
    dsimp only
    omega

/-- There is a date for every time: before the first year no loop runs. -/
theorem sbsDatetime_isSome {F : Type} [F64 F] (unix : F) : (sbsDatetime unix).isSome = true := by
  unfold sbsDatetime
  simp only [Option.isSome_map]
  generalize (toInt (-2 ^ 63) (2 ^ 63 - 1) unix).tdiv 86400 = days
  rcases Int.lt_or_le days 0 with hneg | hpos
  · have hyear : years 1970 days = (1970, days) := by
      rw [years_eq, if_pos (by have := yearLength_pos 1970; omega)]
    have hmonth : ¬ (31 : Int) ≤ days := by omega
    rw [hyear, monthTable, months, if_neg hmonth]
    rfl
  · rcases loops_date days hpos with ⟨d, _, _, _, hmonths⟩
    rw [hmonths]
    rfl

theorem toList_padInt (w : Nat) (n : Int) (h : 0 ≤ n) :
    (padInt w n).toList = (Nat.toDigits 10 n.toNat).leftpad w '0' := by
  rw [padInt, if_neg (not_lt.mpr h), String.toList_ofList]
  have habs : n.natAbs = n.toNat := by omega
  rw [habs]

/-- A field decides, or if it is the same what is behind it does. -/
theorem padInt_append_lt (w : Nat) (m n : Int) (rest rest' : List Char) (hw : 0 < w) (hm : 0 ≤ m)
    (hn : n < 10 ^ w) (h : m < n ∨ m = n ∧ rest < rest') :
    (padInt w m).toList ++ rest < (padInt w n).toList ++ rest' := by
  rcases h with hlt | ⟨rfl, hrest⟩
  · -- The texts of the fields have one length, so the lesser field decides.
    have hnat : n.toNat < 10 ^ w := by
      have hcast : ((10 ^ w : Nat) : Int) = 10 ^ w := by push_cast; rfl
      omega
    have hmnat : m.toNat < n.toNat := by omega
    rw [toList_padInt w m hm, toList_padInt w n (by omega)]
    refine append_lt_append (leftpad_lt w _ _ hw hmnat hnat) ?_ _ _
    rw [length_leftpad_toDigits w _ hw (hmnat.trans hnat), length_leftpad_toDigits w _ hw hnat]
  · exact List.append_left_lt hrest

theorem dateText_lt (s t : Moment) (h : s.date.Before t.date) (h0 : 0 ≤ s.date.year)
    (ht : t.date.year ≤ 9999) : dateText s < dateText t := by
  have htext : ∀ t, (dateText t).toList = (padInt 4 t.date.year).toList ++ ('/' ::
      ((padInt 2 t.date.month).toList ++ ('/' :: ((padInt 2 t.date.day).toList ++ [])))) := by
    intro t
    simp only [dateText, String.toList_append, List.append_assoc, List.append_nil]
    rfl
  have hsmonth := s.date.month_pos
  have hmonth := t.date.month_le
  have hsday := s.date.day_pos
  have hday : t.date.day < 10 ^ 2 := by
    refine lt_of_le_of_lt t.date.day_le ?_
    unfold monthLength
    split_ifs <;> decide
  rw [String.lt_iff, htext, htext]
  -- The fields come in the order they count in.
  refine padInt_append_lt 4 _ _ _ _ (by decide) h0 (by omega) (h.imp_right fun h => ⟨h.1, ?_⟩)
  refine List.cons_lt_cons_iff.mpr (Or.inr ⟨rfl, ?_⟩)
  refine padInt_append_lt 2 _ _ _ _ (by decide) (by omega) (by omega)
    (h.2.imp_right fun h => ⟨h.1, ?_⟩)
  refine List.cons_lt_cons_iff.mpr (Or.inr ⟨rfl, ?_⟩)
  exact padInt_append_lt 2 _ _ _ _ (by decide) (by omega) hday (Or.inl h.2)

theorem timeText_lt (s t : Moment) (h : s.TimeBefore t) : timeText s < timeText t := by
  have htext : ∀ t, (timeText t).toList = (padInt 2 t.hour).toList ++ (':' ::
      ((padInt 2 t.minute).toList ++ (':' :: ((padInt 2 t.second).toList ++ ('.' ::
        ((padInt 3 t.milli).toList ++ [])))))) := by
    intro t
    simp only [timeText, String.toList_append, List.append_assoc, List.append_nil]
    rfl
  rw [String.lt_iff, htext, htext]
  refine padInt_append_lt 2 _ _ _ _ (by decide) s.hour_mem.1 (by have := t.hour_mem; omega)
    (h.imp_right fun h => ⟨h.1, ?_⟩)
  refine List.cons_lt_cons_iff.mpr (Or.inr ⟨rfl, ?_⟩)
  refine padInt_append_lt 2 _ _ _ _ (by decide) s.minute_mem.1 (by have := t.minute_mem; omega)
    (h.2.imp_right fun h => ⟨h.1, ?_⟩)
  refine List.cons_lt_cons_iff.mpr (Or.inr ⟨rfl, ?_⟩)
  refine padInt_append_lt 2 _ _ _ _ (by decide) s.second_mem.1 (by have := t.second_mem; omega)
    (h.2.imp_right fun h => ⟨h.1, ?_⟩)
  refine List.cons_lt_cons_iff.mpr (Or.inr ⟨rfl, ?_⟩)
  exact padInt_append_lt 3 _ _ _ _ (by decide) s.milli_mem.1 (by have := t.milli_mem; omega)
    (Or.inl h.2)

/-- Texts have the order of their moments while years have four digits. -/
theorem texts_le (s t : Moment) (h : s.NotAfter t) (h0 : 0 ≤ s.date.year)
    (ht : t.date.year ≤ 9999) :
    dateText s < dateText t ∨
      dateText s = dateText t ∧ (timeText s < timeText t ∨ timeText s = timeText t) := by
  rcases h with hdate | ⟨⟨hyear, hmonth, hday⟩, htime⟩
  · exact Or.inl (dateText_lt s t hdate h0 ht)
  · refine Or.inr ⟨by rw [dateText, dateText, hyear, hmonth, hday], ?_⟩
    rcases htime with hlt | ⟨hhour, hminute, hsecond, hmilli⟩
    · exact Or.inl (timeText_lt s t hlt)
    · exact Or.inr (by rw [timeText, timeText, hhour, hminute, hsecond, hmilli])

section Moment

variable {K : Type} [Field K] [LinearOrder K] [IsStrictOrderedRing K] [FloorRing K]

local instance (priority := low) exactSbs : F64 K := F64.exact K

omit [IsStrictOrderedRing K] in
theorem toInt_floor (x : K) (h0 : 0 ≤ x) (h : x < ((2 ^ 63 : Int) : K)) :
    toInt (-2 ^ 63) (2 ^ 63 - 1) x = ⌊x⌋ := by
  change clampInt (-2 ^ 63) (2 ^ 63 - 1) (truncate x) = ⌊x⌋
  have hpos := Int.floor_nonneg.mpr h0
  have hlt := Int.floor_lt.mpr h
  rw [truncate, if_neg (not_lt.mpr h0), clampInt_of_mem _ _ _ (by omega) (by omega)]

/-- The thousandths are what the whole seconds leave. -/
theorem toInt_fraction (x : K) :
    toInt (-2 ^ 63) (2 ^ 63 - 1) ((x - lit ((⌊x⌋ : Int) : ℚ)) * lit 1000) =
      ⌊x * ((1000 : Int) : K)⌋ - ⌊x⌋ * 1000 := by
  have hlit : ∀ n : Int, (lit (n : ℚ) : K) = (n : K) := fun n => Rat.cast_intCast n
  have hthousand : (lit 1000 : K) = ((1000 : Int) : K) := hlit 1000
  rw [hlit, hthousand]
  have hfract : x - (⌊x⌋ : K) = Int.fract x := rfl
  have hpos : (0 : K) < ((1000 : Int) : K) := by exact_mod_cast (by decide : (0 : Int) < 1000)
  have hle : ((1000 : Int) : K) ≤ ((2 ^ 63 : Int) : K) := by
    exact_mod_cast (by decide : (1000 : Int) ≤ 2 ^ 63)
  have hlt : Int.fract x * ((1000 : Int) : K) < ((2 ^ 63 : Int) : K) :=
    lt_of_lt_of_le (mul_lt_of_lt_one_left hpos (Int.fract_lt_one x)) hle
  rw [hfract, toInt_floor _ (mul_nonneg (Int.fract_nonneg x) hpos.le) hlt]
  have hsplit : x * ((1000 : Int) : K) =
      ((⌊x⌋ * 1000 : Int) : K) + Int.fract x * ((1000 : Int) : K) := by
    rw [← hfract, Int.cast_mul]
    ring
  rw [hsplit, Int.floor_intCast_add]
  omega

theorem toInt_fraction_mem (x : K) :
    0 ≤ ⌊x * ((1000 : Int) : K)⌋ - ⌊x⌋ * 1000 ∧
      ⌊x * ((1000 : Int) : K)⌋ - ⌊x⌋ * 1000 < 1000 := by
  have hpos : (0 : K) < ((1000 : Int) : K) := by exact_mod_cast (by decide : (0 : Int) < 1000)
  have hlow : ⌊x⌋ * 1000 ≤ ⌊x * ((1000 : Int) : K)⌋ := by
    rw [Int.le_floor, Int.cast_mul]
    exact mul_le_mul_of_nonneg_right (Int.floor_le x) hpos.le
  have hhigh : ⌊x * ((1000 : Int) : K)⌋ < (⌊x⌋ + 1) * 1000 := by
    rw [Int.floor_lt, Int.cast_mul]
    refine mul_lt_mul_of_pos_right ?_ hpos
    rw [Int.cast_add, Int.cast_one]
    exact Int.lt_floor_add_one x
  omega

/-- The texts are those of the moment of the millisecond. -/
theorem sbsDatetime_moment (unix : K) (h0 : 0 ≤ unix) (h : unix < ((2 ^ 63 : Int) : K)) :
    ∃ t : Moment, t.millis = ⌊unix * ((1000 : Int) : K)⌋ ∧ 1970 ≤ t.date.year ∧
      sbsDatetime unix = some (dateText t, timeText t) := by
  have hsecs := Int.floor_nonneg.mpr h0
  have hfrac := toInt_fraction_mem unix
  rcases loops_date (⌊unix⌋ / 86400) (by omega) with ⟨d, hday, hfirst, hyear, hmonths⟩
  refine ⟨⟨d, ⌊unix⌋ % 86400 / 3600, ⌊unix⌋ % 86400 / 60 % 60, ⌊unix⌋ % 86400 % 60,
    ⌊unix * ((1000 : Int) : K)⌋ - ⌊unix⌋ * 1000, by omega, by omega, by omega, hfrac⟩, ?_, hfirst, ?_⟩
  · rw [Moment.millis, Moment.secondOfDay]
    dsimp only
    rw [hday]
    omega
  · have htod : 0 ≤ ⌊unix⌋ % 86400 := by omega
    have hemod : ⌊unix⌋.emod 86400 = ⌊unix⌋ % 86400 := rfl
    -- Nothing is negative, so cutting towards zero is rounding down.
    unfold sbsDatetime
    simp only [toInt_floor unix h0 h, toInt_fraction]
    rw [Int.tdiv_eq_ediv_of_nonneg hsecs, hemod,
      Int.tdiv_eq_ediv_of_nonneg htod, Int.tdiv_eq_ediv_of_nonneg htod,
      Int.tmod_eq_emod_of_nonneg htod, Int.tmod_eq_emod_of_nonneg (by omega), hmonths,
      Option.map_some, hyear]
    simp only [Int.sub_add_cancel]
    rfl

/-- The rows of two times in their order, each the calendar's, and in the same order
    while years have four digits. -/
theorem sbsDatetime_spec (unix later : K) (h0 : 0 ≤ unix) (hle : unix ≤ later)
    (h : later < ((2 ^ 63 : Int) : K)) :
    ∃ s t : Moment, s.millis = ⌊unix * ((1000 : Int) : K)⌋ ∧
      t.millis = ⌊later * ((1000 : Int) : K)⌋ ∧
      sbsDatetime unix = some (dateText s, timeText s) ∧
      sbsDatetime later = some (dateText t, timeText t) ∧
      (t.date.year ≤ 9999 → dateText s < dateText t ∨
        dateText s = dateText t ∧ (timeText s < timeText t ∨ timeText s = timeText t)) := by
  rcases sbsDatetime_moment unix h0 (lt_of_le_of_lt hle h) with ⟨s, hs, hsyear, hstext⟩
  rcases sbsDatetime_moment later (h0.trans hle) h with ⟨t, ht, _, httext⟩
  refine ⟨s, t, hs, ht, hstext, httext, fun hyear => texts_le s t ?_ (by omega) hyear⟩
  refine s.notAfter_of_millis_le t ?_
  have hpos : (0 : K) ≤ ((1000 : Int) : K) := by exact_mod_cast (by decide : (0 : Int) ≤ 1000)
  rw [hs, ht]
  exact Int.floor_le_floor (mul_le_mul_of_nonneg_right hle hpos)

end Moment

/-- The end of February of a leap century, and the start of March. -/
theorem sbsDatetime_century :
    ∃ s t : Moment, s.millis = ⌊(9518687999 / 10 : ℚ) * ((1000 : Int) : ℚ)⌋ ∧
      t.millis = ⌊(951868800 : ℚ) * ((1000 : Int) : ℚ)⌋ ∧
      sbsDatetime (9518687999 / 10 : ℚ) = some (dateText s, timeText s) ∧
      sbsDatetime (951868800 : ℚ) = some (dateText t, timeText t) ∧
      (t.date.year ≤ 9999 → dateText s < dateText t ∨
        dateText s = dateText t ∧ (timeText s < timeText t ∨ timeText s = timeText t)) :=
  sbsDatetime_spec (9518687999 / 10 : ℚ) 951868800 (by norm_num) (by norm_num) (by norm_num)

/-- A moment's time has twelve characters. -/
theorem length_timeText (t : Moment) : (timeText t).toList.length = 12 := by
  have hlen : ∀ (w : Nat) (n : Int), 0 < w → 0 ≤ n ∧ n < 10 ^ w →
      (padInt w n).toList.length = w := by
    intro w n hw hn
    have hcast : ((10 ^ w : Nat) : Int) = 10 ^ w := by push_cast; rfl
    rw [toList_padInt w n hn.1, length_leftpad_toDigits w _ hw (by omega)]
  have hhour := t.hour_mem
  have hminute := t.minute_mem
  have hsecond := t.second_mem
  have hmilli := t.milli_mem
  have hcolon : ":".toList.length = 1 ∧ ".".toList.length = 1 := by decide
  simp only [timeText, String.toList_append, List.length_append, hcolon]
  rw [hlen 2 t.hour (by decide) (by omega), hlen 2 t.minute (by decide) (by omega),
    hlen 2 t.second (by decide) (by omega), hlen 3 t.milli (by decide) (by omega)]

/-- The time does not hang on the date. -/
theorem sbsDatetime_time {F : Type} [F64 F] (unix : F) (secs frac : Int) (texts : String × String)
    (hsecs : toInt (-2 ^ 63) (2 ^ 63 - 1) unix = secs)
    (hfrac : toInt (-2 ^ 63) (2 ^ 63 - 1) ((unix - lit secs) * lit 1000) = frac)
    (h : sbsDatetime unix = some texts) :
    texts.2 = padInt 2 ((secs.emod 86400).tdiv 3600) ++ ":" ++
      padInt 2 (((secs.emod 86400).tdiv 60).tmod 60) ++ ":" ++
        padInt 2 ((secs.emod 86400).tmod 60) ++ "." ++ padInt 3 frac := by
  unfold sbsDatetime at h
  simp only [hsecs, hfrac] at h
  rcases Option.map_eq_some_iff.mp h with ⟨p, _, rfl⟩
  rfl

/-- Behind the range the seconds stay where they are, and the thousandths are more
    than a second has. -/
theorem sbsDatetime_saturated :
    ¬ ∃ t : Moment, t.millis = ⌊(2 ^ 63 : ℚ) * ((1000 : Int) : ℚ)⌋ ∧
      sbsDatetime (2 ^ 63 : ℚ) = some (dateText t, timeText t) := by
  rintro ⟨t, _, htext⟩
  have hsecs : toInt (-2 ^ 63) (2 ^ 63 - 1) (2 ^ 63 : ℚ) = 2 ^ 63 - 1 := by decide +kernel
  have hfrac : toInt (-2 ^ 63) (2 ^ 63 - 1)
      (((2 ^ 63 : ℚ) - lit ((2 ^ 63 - 1 : Int) : ℚ)) * lit 1000) = 1000 := by decide +kernel
  -- Thirteen characters, one more than a moment's time has.
  have htime := congrArg (fun s => s.toList.length) (sbsDatetime_time _ _ _ _ hsecs hfrac htext)
  dsimp only at htime
  rw [length_timeText] at htime
  revert htime
  decide +kernel

end Server

end MlatBench
