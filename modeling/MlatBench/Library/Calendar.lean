import Mathlib.Algebra.Order.Ring.Int
import Mathlib.Order.Lattice
import Mathlib.Tactic.NormNum

/-!
# The Gregorian Calendar

Dates of the calendar, continued in both directions, and the count of days they
stand for. Dates come in the order of their counts. A moment is a date with a time
of that day, to the millisecond, and the count of milliseconds since the start of
1970 orders moments the same way.

## Main definitions

* `IsLeap`, `yearLength`, `monthLength`: The lengths of years and months.
* `Date`, `Date.fixed`: A date, and its day by the formula.
* `Moment`, `Moment.millis`: A date and a time, and its millisecond.

## Theorems

* `yearStart_succ`, `monthStart_succ`: Years and months follow each other.
* `Date.fixed_lt`: A later date has a greater day.
* `Moment.notAfter_of_millis_le`: Moments have the order of their milliseconds.
-/

namespace MlatBench

namespace Library

/-- Every fourth year, but of the centuries only every fourth. -/
def IsLeap (y : Int) : Prop := y % 4 = 0 ∧ (y % 100 ≠ 0 ∨ y % 400 = 0)

instance (y : Int) : Decidable (IsLeap y) := inferInstanceAs (Decidable (_ ∧ _))

def yearLength (y : Int) : Int := if IsLeap y then 366 else 365

def monthLength (y m : Int) : Int :=
  if m = 2 then if IsLeap y then 29 else 28
  else if m = 4 ∨ m = 6 ∨ m = 9 ∨ m = 11 then 30
  else 31

/-- The days before a year, from the start of the first. -/
def yearStart (y : Int) : Int := 365 * (y - 1) + (y - 1) / 4 - (y - 1) / 100 + (y - 1) / 400

/-- The days before a month, from the start of its year. -/
def monthStart (y m : Int) : Int :=
  (367 * m - 362) / 12 + if m ≤ 2 then 0 else if IsLeap y then -1 else -2

/-- A date of the calendar. -/
structure Date where
  year : Int
  month : Int
  day : Int
  month_pos : 1 ≤ month
  month_le : month ≤ 12
  day_pos : 1 ≤ day
  day_le : day ≤ monthLength year month

/-- A year is as long as it is. -/
theorem yearStart_succ (y : Int) : yearStart (y + 1) = yearStart y + yearLength y := by
  unfold yearStart yearLength IsLeap
  split_ifs <;> omega

theorem yearLength_pos (y : Int) : 0 < yearLength y := by
  unfold yearLength
  split_ifs <;> omega

theorem yearStart_mono (y z : Int) (h : y ≤ z) : yearStart y ≤ yearStart z := by
  unfold yearStart
  omega

theorem monthStart_one (y : Int) : monthStart y 1 = 0 := by
  unfold monthStart
  norm_num

/-- The months of a year follow each other and fill it. -/
theorem monthStart_succ (y m : Int) (h1 : 1 ≤ m) (h12 : m ≤ 12) :
    monthStart y m + monthLength y m = if m = 12 then yearLength y else monthStart y (m + 1) := by
  unfold monthStart monthLength yearLength
  -- The formula is right month by month.
  have hcases : m = 1 ∨ m = 2 ∨ m = 3 ∨ m = 4 ∨ m = 5 ∨ m = 6 ∨ m = 7 ∨ m = 8 ∨ m = 9 ∨ m = 10 ∨
      m = 11 ∨ m = 12 := by omega
  by_cases hleap : IsLeap y
  · simp only [hleap, if_true]
    rcases hcases with h | h | h | h | h | h | h | h | h | h | h | h <;> subst h <;> norm_num
  · simp only [hleap, if_false]
    rcases hcases with h | h | h | h | h | h | h | h | h | h | h | h <;> subst h <;> norm_num

theorem monthStart_mono (y m n : Int) (h1 : 1 ≤ m) (hmn : m ≤ n) (h12 : n ≤ 12) :
    monthStart y m ≤ monthStart y n := by
  unfold monthStart
  by_cases hleap : IsLeap y
  · simp only [hleap, if_true]
    split_ifs <;> omega
  · simp only [hleap, if_false]
    split_ifs <;> omega

namespace Date

/-- The day of a date; the first day of the first year is one. -/
def fixed (d : Date) : Int := yearStart d.year + monthStart d.year d.month + d.day

/-- The day since the start of 1970. -/
def unixDay (d : Date) : Int := d.fixed - 719163

/-- The order of dates. -/
def Before (d e : Date) : Prop :=
  d.year < e.year ∨
    d.year = e.year ∧ (d.month < e.month ∨ d.month = e.month ∧ d.day < e.day)

/-- A date is in its month. -/
theorem day_in_month (d : Date) :
    d.fixed ≤ yearStart d.year +
      if d.month = 12 then yearLength d.year else monthStart d.year (d.month + 1) := by
  rw [← monthStart_succ d.year d.month d.month_pos d.month_le, fixed]
  have hday := d.day_le
  omega

/-- A date is in its year. -/
theorem day_in_year (d : Date) :
    yearStart d.year < d.fixed ∧ d.fixed ≤ yearStart (d.year + 1) := by
  have hpos := d.day_pos
  have hone := monthStart_mono d.year 1 d.month le_rfl d.month_pos d.month_le
  rw [monthStart_one] at hone
  constructor
  · rw [fixed]
    omega
  · refine d.day_in_month.trans ?_
    rw [yearStart_succ]
    by_cases hm : d.month = 12
    · rw [if_pos hm]
    · rw [if_neg hm]
      have hlast := monthStart_mono d.year (d.month + 1) 12 (by have := d.month_pos; omega)
        (by have := d.month_le; omega) le_rfl
      have hend := monthStart_succ d.year 12 (by omega) le_rfl
      rw [if_pos rfl] at hend
      have hlen : 0 ≤ monthLength d.year 12 := by
        unfold monthLength
        split_ifs <;> omega
      omega

/-- A later date has a greater day. -/
theorem fixed_lt (d e : Date) (h : d.Before e) : d.fixed < e.fixed := by
  -- In a later year, in a later month of the year, or on a later day of the month.
  rcases h with hyear | ⟨hyear, hmonth | ⟨hmonth, hday⟩⟩
  · have hd := d.day_in_year.2
    have he := e.day_in_year.1
    have hmono := yearStart_mono (d.year + 1) e.year (by omega)
    omega
  · have hd := d.day_in_month
    have hle := e.month_le
    rw [if_neg (by omega)] at hd
    have hmono := monthStart_mono e.year (d.month + 1) e.month (by have := d.month_pos; omega)
      (by omega) hle
    have hpos := e.day_pos
    rw [hyear] at hd
    have hfixed : e.fixed = yearStart e.year + monthStart e.year e.month + e.day := rfl
    omega
  · rw [fixed, fixed, hyear, hmonth]
    omega

/-- Dates are told apart by their order. -/
theorem before_or_eq_or_after (d e : Date) :
    d.Before e ∨ (d.year = e.year ∧ d.month = e.month ∧ d.day = e.day) ∨ e.Before d := by
  unfold Before
  omega

end Date

/-- A date and a time of the day. -/
structure Moment where
  date : Date
  hour : Int
  minute : Int
  second : Int
  milli : Int
  hour_mem : 0 ≤ hour ∧ hour < 24
  minute_mem : 0 ≤ minute ∧ minute < 60
  second_mem : 0 ≤ second ∧ second < 60
  milli_mem : 0 ≤ milli ∧ milli < 1000

namespace Moment

/-- The seconds of the day. -/
def secondOfDay (t : Moment) : Int := t.hour * 3600 + t.minute * 60 + t.second

/-- The milliseconds since the start of 1970. -/
def millis (t : Moment) : Int := (t.date.unixDay * 86400 + t.secondOfDay) * 1000 + t.milli

/-- The order of times of a day. -/
def TimeBefore (s t : Moment) : Prop :=
  s.hour < t.hour ∨ s.hour = t.hour ∧ (s.minute < t.minute ∨ s.minute = t.minute ∧
    (s.second < t.second ∨ s.second = t.second ∧ s.milli < t.milli))

/-- A moment is earlier, or shows the same. -/
def NotAfter (s t : Moment) : Prop :=
  s.date.Before t.date ∨
    (s.date.year = t.date.year ∧ s.date.month = t.date.month ∧ s.date.day = t.date.day) ∧
      (s.TimeBefore t ∨ s.hour = t.hour ∧ s.minute = t.minute ∧ s.second = t.second ∧
        s.milli = t.milli)

/-- A millisecond that is not greater is not later. -/
theorem notAfter_of_millis_le (s t : Moment) (h : s.millis ≤ t.millis) : s.NotAfter t := by
  have hs := s.hour_mem
  have hs' := s.minute_mem
  have hs'' := s.second_mem
  have hs''' := s.milli_mem
  have ht := t.hour_mem
  have ht' := t.minute_mem
  have ht'' := t.second_mem
  have ht''' := t.milli_mem
  unfold millis secondOfDay Date.unixDay at h
  rcases s.date.before_or_eq_or_after t.date with hlt | heq | hgt
  · exact Or.inl hlt
  · have hfixed : s.date.fixed = t.date.fixed := by
      rw [Date.fixed, Date.fixed, heq.1, heq.2.1, heq.2.2]
    refine Or.inr ⟨heq, ?_⟩
    rw [hfixed] at h
    unfold TimeBefore
    omega
  · have hlt := t.date.fixed_lt s.date hgt
    omega

end Moment

end Library

end MlatBench
