import Mathlib.Algebra.Group.Nat.Defs
import Mathlib.Data.Rat.Defs
import MlatBench.Core.Modes
import MlatBench.Library.Hex

/-!
# The Client Protocol

The messages of `mb-proto` and the JSON values they travel as. The text level
is `serde_json`'s business: a line is represented by the value it parses to,
and `ClientMsg.toJson` is the externally tagged form the derive produces, one
object with one key per message.

## Main definitions

* `Json`: A parsed JSON value.
* `Json.get`, `Json.asStr`, `Json.asArray`, `Json.asObject`, `Json.asNum`: The
  accessors of `serde_json::Value` the programs use.
* `hex06`: An address in the six-digit form.
* `fromStrRadix16`: An address read from text.
* `ClientMsg`: Client to server messages.
* `ClientMsg.toJson`: The value a message is serialised as.
* `ServerMsg`: Server to client messages, as far as a client acts on them.
* `ServerMsg.parseLine`: What a client makes of a server line.

## Theorems

* `fromStrRadix16_hex06`: An announced address reads back.
-/

namespace MlatBench

/-- A parsed JSON value. Objects are key-value lists in key order. -/
inductive Json where
  | null
  | bool (b : Bool)
  | num (q : ℚ)
  | str (s : String)
  | arr (items : List Json)
  | obj (fields : List (String × Json))

namespace Json

/-- Member access; anything but an object has no members. -/
def get : Json → String → Option Json
  | .obj fields, k => (fields.find? fun f => f.1 == k).map Prod.snd
  | _, _ => none

def asStr : Json → Option String
  | .str s => some s
  | _ => none

def asNum : Json → Option ℚ
  | .num q => some q
  | _ => none

def asArray : Json → Option (List Json)
  | .arr items => some items
  | _ => none

def asObject : Json → Option (List (String × Json))
  | .obj fields => some fields
  | _ => none

end Json

namespace Proto

open Library

/-- An address in the six-digit lower-case form. -/
def hex06 (addr : UInt32) : String := padHex 6 addr.toNat

/-- An address read from text; a value that does not fit 32 bits is refused. -/
def fromStrRadix16 (s : String) : Option UInt32 :=
  match readHex s with
  | some n => if n < 2 ^ 32 then some (UInt32.ofNat n) else none
  | none => none

theorem fromStrRadix16_hex06 (addr : UInt32) : fromStrRadix16 (hex06 addr) = some addr := by
  unfold fromStrRadix16 hex06
  rw [readHex_padHex]
  simp only [UInt32.toNat_lt, if_true, UInt32.ofNat_toNat]

theorem hex06_injective : Function.Injective hex06 := fun _ _ h =>
  UInt32.toNat_inj.mp (padHex_injective 6 h)

/-- Client to server messages. Timestamps are raw counter values and frames
    are hex text. -/
inductive ClientMsg where
  | sync (et ot : Nat) (em om : String)
  | mlat (t : Nat) (m : String)
  | seen (addrs : List String)
  | lost (addrs : List String)
  | inputConnected (text : String)
  | inputDisconnected (text : String)
  | clockReset (text : String)
  | clockJump (text : String)
  | heartbeat
  | rateReport (rates : List (String × ℚ))
deriving DecidableEq

/-- One object with the message's tag as its only key. -/
def ClientMsg.toJson : ClientMsg → Json
  | .sync et ot em om => .obj [("sync", .obj [("em", .str em), ("et", .num et), ("om", .str om),
      ("ot", .num ot)])]
  | .mlat t m => .obj [("mlat", .obj [("m", .str m), ("t", .num t)])]
  | .seen addrs => .obj [("seen", .arr (addrs.map .str))]
  | .lost addrs => .obj [("lost", .arr (addrs.map .str))]
  | .inputConnected text => .obj [("input_connected", .str text)]
  | .inputDisconnected text => .obj [("input_disconnected", .str text)]
  | .clockReset text => .obj [("clock_reset", .str text)]
  | .clockJump text => .obj [("clock_jump", .str text)]
  | .heartbeat => .obj [("heartbeat", .obj [])]
  | .rateReport rates => .obj [("rate_report", .obj (rates.map fun r => (r.1, .num r.2)))]

/-- Server to client messages, as far as the traffic engine acts on them. -/
inductive ServerMsg where
  | result (v : Json)
  | deny (v : Json)
  | heartbeat
  | stats (v : Json)
  | startSending (addrs : List String)
  | stopSending (addrs : List String)
  | unknown

/-- The strings of an array; other items are skipped. -/
def stringList (v : Json) : List String :=
  (v.asArray.getD []).filterMap Json.asStr

/-- Parse one server line; the first known key decides. -/
def ServerMsg.parseLine (v : Json) : ServerMsg :=
  match v.asObject with
  | none => .unknown
  | some _ =>
    match v.get "result", v.get "deny", v.get "heartbeat", v.get "stats",
        v.get "start_sending", v.get "stop_sending" with
    | some r, _, _, _, _, _ => .result r
    | none, some d, _, _, _, _ => .deny d
    | none, none, some _, _, _, _ => .heartbeat
    | none, none, none, some s, _, _ => .stats s
    | none, none, none, none, some l, _ => .startSending (stringList l)
    | none, none, none, none, none, some l => .stopSending (stringList l)
    | none, none, none, none, none, none => .unknown

end Proto

/-- The six-digit form of an address. -/
def Icao.toHex (icao : Icao) : String :=
  Proto.hex06 (icao.val &&& 0xFFFFFF)

end MlatBench
