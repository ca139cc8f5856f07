import MlatBench.Library.F64

/-!
# SBS Rows

The date and the time in the rows for SBS clients, from a time in seconds. Two
loops take the years off the days, and then the months. The second one looks the
lengths up in a table and panics behind its end.

Whole numbers are 64-bit; the cast saturates, and nothing after it leaves the
range.

## Main definitions

* `padInt`: A number with leading zeros.
* `years`, `months`: The loops.
* `sbsDatetime`: The texts of the date and of the time.
-/

namespace MlatBench

namespace Server

open Library F64

/-- A number with leading zeros to a width, which the sign counts in. -/
def padInt (w : Nat) (n : Int) : String :=
  if n < 0 then "-" ++ String.ofList ((Nat.toDigits 10 n.natAbs).leftpad (w - 1) '0')
  else String.ofList ((Nat.toDigits 10 n.natAbs).leftpad w '0')

def leapYear (y : Int) : Bool :=
  (y.tmod 4 = 0 ∧ y.tmod 100 ≠ 0) ∨ y.tmod 400 = 0

/-- Years are taken off while they fit. -/
def years (y rem : Int) : Int × Int :=
  let len := if leapYear y then 366 else 365
  if rem < len then (y, rem) else years (y + 1) (rem - len)
termination_by rem.toNat
decreasing_by
  all_goals
    have hlen : 0 < len := by
      unfold len
      split_ifs <;> omega
    omega

/-- The lengths of the months. -/
def monthTable (leap : Bool) : List Int :=
  [31, if leap then 29 else 28, 31, 30, 31, 30, 31, 31, 30, 31, 30, 31]

/-- Months are taken off while they fit; none behind the end of the table. -/
def months (m rem : Int) : List Int → Option (Int × Int)
  | [] => none
  | len :: rest => if len ≤ rem then months (m + 1) (rem - len) rest else some (m, rem)

/-- The date and the time of the day. -/
def sbsDatetime {F : Type} [F64 F] (unix : F) : Option (String × String) :=
  let secs := toInt (-2 ^ 63) (2 ^ 63 - 1) unix
  let days := secs.tdiv 86400
  let (y, rem) := years 1970 days
  (months 0 rem (monthTable (leapYear y))).map fun (m, rem) =>
    let tod := secs.emod 86400
    let frac := toInt (-2 ^ 63) (2 ^ 63 - 1) ((unix - lit secs) * lit 1000)
    (padInt 4 y ++ "/" ++ padInt 2 (m + 1) ++ "/" ++ padInt 2 (rem + 1),
      padInt 2 (tod.tdiv 3600) ++ ":" ++ padInt 2 ((tod.tdiv 60).tmod 60) ++ ":" ++
        padInt 2 (tod.tmod 60) ++ "." ++ padInt 3 frac)

end Server

end MlatBench
