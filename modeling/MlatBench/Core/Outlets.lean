import MlatBench.Core.Returns
import MlatBench.Core.Scenario

/-!
# Where Positions Go Out

What other programs read. The sessions of `mlatc` send the positions they get to
all who listen. A task for each program that is connected writes them as SBS rows,
or as pairs of Beast frames with a keepalive when there was nothing for a while. A
task ends with its socket, or when the position it is to write next is gone.

The parser of SBS rows is the one the bench scores such a stream with. Lower case
is an argument.

## Main definitions

* `SbsPosition`, `parseLine`: An SBS row is read.
* `ResultPos.sbsLine`, `beastKeepalive`: What is written.
* `Outlet`: A task and what it wrote.
* `Outlets`, `Outlets.step`: The channel and its tasks.
-/

namespace MlatBench

open Library F64 F64Fn

namespace Proto

/-- A position as an SBS row has it. -/
structure SbsPosition (F : Type) where
  icaoHex : String
  altFt : Option F
  lat : Option F
  lon : Option F

/-- A text without the white space at its end. -/
def trimEnd (s : String) : String :=
  String.ofList (s.toList.reverse.dropWhile isWhiteSpace).reverse

/-- A line as a position, if it is a message and names an aircraft. -/
def parseLine {F : Type} (num : Numbers F) (lower : String → String) (line : String) :
    Option (SbsPosition F) :=
  let f := ((trimEnd line).toList.splitOn ',').map String.ofList
  if f.head? ≠ some "MSG" ∨ f.length < 5 then none
  else
    f[4]?.bind fun hex =>
      let icaoHex := lower (trim hex)
      if icaoHex = "" then none
      else
        let number := fun i => f[i]?.bind fun s : String => num.parse (trim s)
        some { icaoHex := icaoHex, altFt := number 11, lat := number 14, lon := number 15 }

end Proto

namespace Client

/-- Positions kept for those who listen. -/
def resultSlots : Nat := 256

/-- A position as an SBS row. -/
def ResultPos.sbsLine {F : Type} (num : Numbers F) (p : ResultPos F) : String :=
  "MSG,3,1,1," ++ padHexUpper 6 p.addr.toNat ++ ",1,,,,,," ++ toString p.altFt ++ ",,," ++
    num.fixed 5 p.lat ++ "," ++ num.fixed 5 p.lon ++ ",,,,,,0\r\n"

/-- What is written when there was nothing to write. -/
def beastKeepalive : List UInt8 :=
  [0x1a, 0x31, 0, 0, 0, 0, 0, 0, 0, 0, 0]

/-- What a program reads. -/
inductive Format where
  | basestation
  | beast
  deriving DecidableEq

/-- A task that writes to one program. -/
structure Outlet (F : Type) extends Feed (ResultPos F) UInt8 where
  format : Format

namespace Outlet

variable {F : Type} [F64Fn F]

/-- A position as it is written, if it can be. -/
def written (num : Numbers F) (format : Format) (p : ResultPos F) : Option (List UInt8) :=
  match format with
  | .basestation => some (Server.asciiBytes (p.sbsLine num))
  | .beast => p.beastBytes

/-- The task takes the next position, if there is one, and writes it. -/
def turn (num : Numbers F) (sent : List (ResultPos F)) (cut : Option Nat) (o : Outlet F) :
    Outlet F :=
  { o with toFeed := o.toFeed.turn resultSlots sent (written num o.format) cut }

/-- There was nothing for half a minute. -/
def keepalive {G : Type} (cut : Option Nat) (o : Outlet G) : Outlet G :=
  match o.format with
  | .basestation => o
  | .beast => { o with toFeed := o.toFeed.fill beastKeepalive cut }

end Outlet

/-- The positions sent, and the tasks. -/
structure Outlets (F : Type) where
  sent : List (ResultPos F) := []
  outlets : List (Outlet F) := []

namespace Outlets

/-- What can happen. -/
inductive Event (F : Type) where
  /-- A session sends a position. -/
  | publish (p : ResultPos F)
  /-- A program connects, or is connected to. -/
  | subscribe (format : Format)
  | turn (k : Nat) (cut : Option Nat)
  | keepalive (k : Nat) (cut : Option Nat)

/-- One event. -/
def step {F : Type} [F64Fn F] (num : Numbers F) (s : Outlets F) : Event F → Outlets F
  | .publish p => { s with sent := s.sent ++ [p] }
  | .subscribe format =>
    { s with outlets := s.outlets ++ [⟨Feed.join s.sent, format⟩] }
  | .turn k cut => { s with outlets := s.outlets.modify k (Outlet.turn num s.sent cut) }
  | .keepalive k cut => { s with outlets := s.outlets.modify k (Outlet.keepalive cut) }

end Outlets

end Client

end MlatBench
