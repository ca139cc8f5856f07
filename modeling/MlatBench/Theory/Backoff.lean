import Mathlib.Data.Rat.Floor
import Mathlib.Tactic.Linarith
import Mathlib.Tactic.NormNum
import MlatBench.Core.Backoff

/-!
# Backoff

The wait before the next attempt should start again at five seconds when a session
that completed its handshake is over. The reset is there, for a session that
returns `Ok`. But the loop inside a session is only left by an error: the end of
the stream, too, is one. So no session returns `Ok`, the reset is never reached,
and each wait is twice the last, up to a minute, for as long as the program runs.

## Main definitions

* `waits`: The waits of the loop.
* `due`: The waits as they should be.
* `ticks`: The waits as they are.

## Theorems

* `serverSession_ne_ok`: No session returns `Ok`.
* `waits_eq`: What the waits are.
* `waits_due_iff`: They are right if only the first session completes its handshake.
* `blip_waits`: A session that worked, and the wait after it.
-/

namespace MlatBench

namespace Client

open Library Server Proto

/-- The wait after so many waits since the start, or since a session that worked. -/
def wait (j : Nat) : ℚ := min 60 (5 * 2 ^ j)

/-- The waits after sessions that completed their handshake or not, `j` being the
    number of waits made before since the start, or since the last that did. -/
def due : Nat → List Bool → List ℚ
  | _, [] => []
  | j, completed :: rest =>
    let j := if completed then 0 else j
    wait j :: due (j + 1) rest

/-- So many waits, the first of them after `i` others, with nothing in between. -/
def ticks (i n : Nat) : List ℚ := (List.range' i n).map wait

section

variable (parse : List UInt8 → Except String Json) (toVec : Json → List UInt8) (addr : String)

/-- The waits of the loop, one after each session. -/
def waits (sessions : List (Ended parse toVec addr)) : List ℚ :=
  (sessions.foldl (fun s e => s.step e.result) SessionLoop.start).waits

/-- The loop of a session is left by an error only. -/
theorem selection_ne_ok (framed : Bool) (batch : List UInt8) (ts : List Turn) :
    selection parse toVec framed batch ts ≠ some (.ok ()) := by
  induction ts generalizing batch with
  | nil => simp only [selection, ne_eq, reduceCtorEq, not_false_eq_true]
  | cons t ts ih =>
      rw [selection]
      cases turn parse toVec framed batch t with
      | error e => simp only [ne_eq, Option.some.injEq, reduceCtorEq, not_false_eq_true]
      | ok batch => exact ih batch

theorem serverSession_ne_ok (a : Attempt) :
    serverSession parse toVec addr a ≠ some (.ok ()) := by
  rw [serverSession]
  cases handshake parse addr a with
  | error e => simp only [ne_eq, Option.some.injEq, reduceCtorEq, not_false_eq_true]
  | ok compress => exact selection_ne_ok parse toVec _ [] a.turns

/-- What a session returned is an error. -/
theorem Ended.result_eq (e : Ended parse toVec addr) : ∃ err, e.result = .error err := by
  cases hresult : e.result with
  | error err => exact ⟨err, rfl⟩
  | ok u => exact absurd (hresult ▸ e.returned) (serverSession_ne_ok parse toVec addr e.attempt)

theorem wait_succ (j : Nat) : wait (j + 1) = min (wait j * 2) 60 := by
  have hpow : (5 : ℚ) * 2 ^ (j + 1) = 5 * 2 ^ j * 2 := by rw [pow_succ, mul_assoc]
  rw [wait, wait, hpow]
  rcases le_total (60 : ℚ) (5 * 2 ^ j) with hle | hle
  · rw [min_eq_left hle, min_eq_left (by linarith), min_eq_right (by norm_num)]
  · rw [min_eq_right hle, min_comm]

/-- A session that has returned leaves the wait as it was. -/
theorem SessionLoop.step_ended (s : SessionLoop) (e : Ended parse toVec addr) (i : Nat)
    (h : s.backoff = wait i) :
    s.step e.result = ⟨wait (i + 1), s.waits ++ [wait i]⟩ := by
  rcases e.result_eq with ⟨err, herr⟩
  rw [herr, wait_succ, ← h]
  rfl

theorem waits_from (s : SessionLoop) (sessions : List (Ended parse toVec addr)) (i : Nat)
    (h : s.backoff = wait i) :
    (sessions.foldl (fun s e => s.step e.result) s).waits =
      s.waits ++ ticks i sessions.length := by
  induction sessions generalizing s i with
  | nil => rw [List.foldl_nil, List.length_nil, ticks, List.range'_zero, List.map_nil,
      List.append_nil]
  | cons e rest ih =>
      rw [List.foldl_cons, s.step_ended parse toVec addr e i h, ih _ (i + 1) rfl, ticks, ticks,
        List.length_cons, List.range'_succ, List.map_cons, List.append_assoc]
      rfl

/-- The waits depend on nothing but how many there were. -/
theorem waits_eq (sessions : List (Ended parse toVec addr)) :
    waits parse toVec addr sessions = ticks 0 sessions.length := by
  have hstart : SessionLoop.start.backoff = wait 0 := by norm_num [SessionLoop.start, wait]
  rw [waits, waits_from parse toVec addr _ sessions 0 hstart]
  rfl

end

theorem ticks_succ (i n : Nat) : ticks i (n + 1) = wait i :: ticks (i + 1) n := by
  rw [ticks, ticks, List.range'_succ, List.map_cons]

/-- After the first wait none is five seconds long. -/
theorem wait_succ_ne (i : Nat) : wait (i + 1) ≠ wait 0 := by
  have hpow : (1 : ℚ) ≤ 2 ^ i := one_le_pow₀ (by norm_num)
  have hlt : wait 0 < wait (i + 1) := by
    rw [wait, wait, pow_succ]
    refine lt_min ?_ ?_
    · norm_num
    · exact (min_le_right _ _).trans_lt (by linarith)
  exact hlt.ne'

/-- Once there was a wait, it is the sessions without a handshake whose waits go on. -/
theorem ticks_eq_due_iff (i : Nat) (flags : List Bool) :
    ticks (i + 1) flags.length = due (i + 1) flags ↔ ∀ c ∈ flags, c = false := by
  induction flags generalizing i with
  | nil => simp only [List.length_nil, ticks, List.range'_zero, List.map_nil, due,
      List.not_mem_nil, false_imp_iff, implies_true]
  | cons c rest ih =>
      rw [List.length_cons, ticks_succ, due, List.forall_mem_cons, List.cons.injEq]
      cases c with
      | true =>
          simp only [if_true, Bool.true_eq_false, false_and, iff_false]
          exact fun h => wait_succ_ne i h.1
      | false =>
          simp only [Bool.false_eq_true, if_false, true_and]
          exact ih (i + 1)

/-- The waits are as they should be if and only if no session after the first
    completes its handshake. -/
theorem waits_due_iff (parse : List UInt8 → Except String Json) (toVec : Json → List UInt8)
    (addr : String) (sessions : List (Ended parse toVec addr)) :
    waits parse toVec addr sessions =
        due 0 (sessions.map fun e => Completed parse addr e.attempt) ↔
      ∀ e ∈ sessions.tail, Completed parse addr e.attempt = false := by
  rw [waits_eq]
  cases sessions with
  | nil => simp only [List.length_nil, ticks, List.range'_zero, List.map_nil, due, List.tail_nil,
      List.not_mem_nil, false_imp_iff, implies_true]
  | cons e rest =>
      -- The first wait is five seconds either way.
      have hfirst : ∀ c : Bool, (if c then 0 else 0) = 0 := fun c => ite_self 0
      have hrest := ticks_eq_due_iff 0 (rest.map fun e => Completed parse addr e.attempt)
      rw [List.length_map] at hrest
      rw [List.length_cons, ticks_succ, List.map_cons, due, hfirst, List.cons.injEq, hrest,
        List.tail_cons, List.forall_mem_map]
      exact and_iff_right rfl

/-- `{"compress":"none"}` and a newline. -/
def acceptLine : List UInt8 :=
  [123, 34, 99, 111, 109, 112, 114, 101, 115, 115, 34, 58, 34, 110, 111, 110, 101, 34, 125, 10]

/-- A reader of the one line. -/
def readAccept (l : List UInt8) : Except String Json :=
  if l = acceptLine then .ok (.obj [("compress", .str "none")]) else .error "expected value"

/-- The server is not there yet. -/
def refused : Attempt :=
  { connect := .error "Connection refused", nodelay := .ok (), greeted := .ok ()
    reply := Option.none, turns := [] }

/-- The server accepts, and later closes the connection. -/
def blip : Attempt :=
  { connect := .ok (), nodelay := .ok (), greeted := .ok ()
    reply := some (.ok acceptLine), turns := [.statsTick, .line (.ok Option.none)] }

/-- A server that was away at the first attempt accepts the second, and closes the
    connection. The next attempt comes ten seconds later, not five. -/
theorem blip_waits :
    ∃ sessions : List (Ended readAccept (fun _ => []) "server:31090"),
      sessions.map (fun e => e.attempt) = [refused, blip] ∧
        waits readAccept (fun _ => []) "server:31090" sessions = [5, 10] ∧
        due 0 (sessions.map fun e => Completed readAccept "server:31090" e.attempt) = [5, 5] := by
  refine ⟨[⟨refused, _, rfl⟩, ⟨blip, _, rfl⟩], rfl, ?_, ?_⟩
  · rw [waits_eq]
    norm_num [ticks, wait, List.range']
  · have hcompleted : Completed readAccept "server:31090" refused = false ∧
        Completed readAccept "server:31090" blip = true := by decide
    simp only [List.map_cons, List.map_nil, hcompleted, due]
    norm_num [wait]

end Client

end MlatBench
