import MlatBench.Core.Group
import MlatBench.Core.Metrics
import MlatBench.Core.Scenario
import MlatBench.Library.Decimal
import MlatBench.Library.Lines

/-!
# The Results File

The server writes every fix as a line of columns, and the scorer reads the file
of all lines. The names of the users stand between quotation marks, joined by
commas and not escaped; the reader knows no quotation marks, and takes what has
too few columns or does not parse for no row.

How a floating-point number is written with a count of decimals, and how text is
read as one, are arguments.

## Main definitions

* `Numbers`: Floating-point numbers as text.
* `Server.csvLine`: A fix as a line.
* `Metrics.ResultRow`: A row with all its columns.
* `Metrics.parseResultsCsv`: The rows of a file.
-/

namespace MlatBench

open Library F64 F64Fn

/-- Floating-point numbers as text: written with a count of decimals, and read. -/
structure Numbers (F : Type) where
  fixed : Nat → F → String
  parse : String → Option F

namespace Server

/-- The columns of a fix from the names on. -/
def namesOn {F : Type} (row : OutRow F) : String :=
  "\"" ++ String.intercalate "," row.users ++ "\"," ++ toString (row.n - 4) ++ ",\n"

/-- A fix as a line. -/
def csvLine {F : Type} (num : Numbers F) (row : OutRow F) : String :=
  num.fixed 3 row.stamp ++ "," ++ row.icao.toHex ++ ",,," ++ num.fixed 5 row.pos.latDeg ++ "," ++
    num.fixed 5 row.pos.lonDeg ++ "," ++ toString row.altFt ++ "," ++ num.fixed 1 row.errM ++ "," ++
    toString row.n ++ "," ++ toString row.n ++ "," ++ namesOn row

end Server

namespace Metrics

/-- A row with all its columns; the scorer does not look at the last two. -/
structure ResultRow (F : Type) extends CsvRow F where
  nReceivers : Option Nat
  distinctReceivers : Option Nat

/-- The columns of a line. -/
def columns (line : String) : List String :=
  (line.toList.splitOn ',').map String.ofList

/-- A count, at most 32 bits. -/
def parseCount (s : String) : Option Nat :=
  readBelow (2 ^ 32) (trim s).toList

section

variable {F : Type} (num : Numbers F)

/-- A line as a row. -/
def parseRow (line : String) : Option (ResultRow F) :=
  let f := fun i => (columns line).getD i ""
  if (columns line).length < 10 then none
  else
    match num.parse (f 0), Icao.fromHex (f 1), num.parse (f 4), num.parse (f 5) with
    | some t, some icao, some lat, some lon =>
      some { tWall := t, icao := icao, lat := lat, lon := lon
             altFt := num.parse (trim (f 6))
             errEstM := num.parse (trim (f 7))
             nReceivers := parseCount (f 8)
             distinctReceivers := parseCount (f 9) }
    | _, _, _, _ => none

/-- The rows of a file; other lines are skipped. -/
def parseResultsCsv (text : String) : List (ResultRow F) :=
  ((lines text.toList).map String.ofList).filterMap (parseRow num)

end

end Metrics

end MlatBench
