import Mathlib.Data.List.Induction
import MlatBench.Library.Runs
import MlatBench.Core.State
import MlatBench.Theory.Traffic

/-!
# Pairing and the Receiver's Clock

What the engine keeps of the input between receptions: the last counter and the
halves. Both live from one reset of the input to the next, where a reset is
either a call or the outcome of the reset test.

`heard` are the receptions since then. Every stored half is a position frame
among them (`after_backed`), so that a sync pairs two of them, the later being
the reception at hand (`sync_sources`). What such a sync carries is what the
server tests for (`syncs_accepted`).

The reset test itself looks at the counter before (`restarted`,
`checkReset_eq`). A clock that restarts moves back by anything between a second
and what a wrap moves back; the test lets go of more than that. `overlooked`
are the moves in between, and they are all that is missed
(`clock_resets_exact`).

## Main definitions

* `Engine.restarted`: The reset test.
* `Engine.heard`: The receptions since the input was last reset.
* `Engine.HalfOf`: A half is a position frame that was heard.
* `Engine.placed`: What the server makes of a pair that passed its tests.
* `Engine.previous`: The counter before a call.
* `Engine.movedBack`: The clock restarted.
* `Engine.overlooked`: It did, but from too far.
* `Engine.Reported`: A reception tells every server and drops what was stored.

## Theorems

* `checkReset_eq`: The reset test decides.
* `after_backed`: Every stored half was heard.
* `sync_sources`: What a sync pairs.
* `syncs_accepted`: A sync passes the tests of the server.
* `reported_iff_restarted`: Reported is what the test found.
* `clock_resets_exact`: Restarts are reported, but for those overlooked.
-/

namespace MlatBench

namespace Client

namespace Engine

open Library Modes Proto

/-- The reset test, given the counter before. -/
def restarted (last : Option Nat) (r : Reception) : Bool :=
  last.any fun last => resetBackwardS * freq12Mhz < last - r.counts12mhz ∧
    last - r.counts12mhz < wrapMargin

theorem checkReset_eq (e : Engine) (r : Reception) :
    e.checkReset r =
      if restarted e.lastCounter r then
        ({ e.inputReset with lastCounter := some r.counts12mhz },
          (List.range e.nServers).map fun s => (s, ClientMsg.clockReset e.user))
      else ({ e with lastCounter := some r.counts12mhz }, []) := by
  unfold checkReset restarted
  cases e.lastCounter with
  | none => rfl
  | some last =>
      simp only [Option.any_some, decide_eq_true_eq]
      split_ifs <;> rfl

/-- The receptions since the input was last reset, the one that showed a reset
    included. -/
def heard : List Reception → Call → List Reception
  | rs, .reception r _ =>
    if restarted (rs.getLast?.map Reception.counts12mhz) r then [r] else rs ++ [r]
  | _, .inputReset => []
  | rs, _ => rs

/-- A half is a position frame of the aircraft that was heard. -/
def HalfOf (rs : List Reception) (addr : UInt32) (odd : Bool) (h : Nat × String) : Prop :=
  ∃ q ∈ rs, ∃ d, parseDf17Airborne q.frame = some d ∧ d.icao.val = addr ∧ d.odd = odd ∧
    h = (q.counts12mhz, hexEncode q.frame)

/-- The engine remembers of the input what was heard since its reset. -/
structure Backed (rs : List Reception) (e : Engine) : Prop where
  last : e.lastCounter = rs.getLast?.map Reception.counts12mhz
  halves : e.Halves (HalfOf rs)

theorem Halves.mono (P Q : UInt32 → Bool → Nat × String → Prop) (e : Engine)
    (hPQ : ∀ addr odd h, P addr odd h → Q addr odd h) (he : e.Halves P) : e.Halves Q :=
  fun addr a odd h ha hh => hPQ addr odd h (he addr a odd h ha hh)

theorem HalfOf.mono (rs rs' : List Reception) (hsub : rs ⊆ rs') (addr : UInt32) (odd : Bool)
    (h : Nat × String) (hh : HalfOf rs addr odd h) : HalfOf rs' addr odd h := by
  rcases hh with ⟨q, hq, hrest⟩
  exact ⟨q, hsub hq, hrest⟩

theorem heard_reception (rs : List Reception) (r : Reception) (now : Instant) :
    heard rs (.reception r now) =
      if restarted (rs.getLast?.map Reception.counts12mhz) r then [r] else rs ++ [r] := rfl

theorem getLast?_heard (rs : List Reception) (r : Reception) (now : Instant) :
    (heard rs (.reception r now)).getLast? = some r := by
  rw [heard_reception]
  split_ifs
  · rfl
  · exact List.getLast?_concat

theorem mem_heard (rs : List Reception) (r : Reception) (now : Instant) :
    r ∈ heard rs (.reception r now) :=
  List.mem_of_getLast? (getLast?_heard rs r now)

/-- What is left of the halves by the reset test was heard since the reset. -/
theorem checkReset_backed (rs : List Reception) (e : Engine) (r : Reception) (now : Instant)
    (he : Backed rs e) : (e.checkReset r).1.Halves (HalfOf (heard rs (.reception r now))) := by
  rw [checkReset_eq, he.last, heard_reception]
  -- A reset leaves nothing stored; what is stored otherwise was heard before.
  by_cases hreset : restarted (rs.getLast?.map Reception.counts12mhz) r = true
  · rw [if_pos hreset, if_pos hreset]
    exact halves_inputReset e
  · rw [if_neg hreset, if_neg hreset]
    exact he.halves.mono _ _ _ fun addr odd h =>
      HalfOf.mono rs (rs ++ [r]) (List.subset_append_left rs [r]) addr odd h

theorem checkReset_lastCounter (e : Engine) (r : Reception) :
    (e.checkReset r).1.lastCounter = some r.counts12mhz := by
  rcases checkReset_cases e r with h | h <;> rw [h]

theorem touch_lastCounter (e : Engine) (addr : UInt32) (now : Instant) (v : Bool) :
    (e.touch addr now v).lastCounter = e.lastCounter := by
  unfold touch
  split
  · rfl
  · split_ifs <;> rfl

theorem pairSync_lastCounter (e : Engine) (addr : UInt32) (odd : Bool) (r : Reception)
    (now : Instant) : (e.pairSync addr odd r now).1.lastCounter = e.lastCounter := by
  cases ha : e.aircraft addr with
  | none =>
      unfold pairSync
      rw [ha]
  | some a =>
      rcases pairSync_cases e addr odd r now a ha with h | ⟨ev, od, _, _, _, h⟩ <;> rw [h]

theorem onReception_lastCounter (e : Engine) (r : Reception) (now : Instant) :
    (e.onReception r now).1.lastCounter = some r.counts12mhz := by
  have hreset := checkReset_lastCounter e r
  rcases onReception_cases e r now with h | ⟨addr, _, ⟨_, h⟩ | ⟨_, d, _, _, h⟩ | ⟨v, _, h⟩⟩
  · rw [h, hreset]
  · rw [h, touch_lastCounter, hreset]
  · rw [h, pairSync_lastCounter, touch_lastCounter, hreset]
  · rw [h, touch_lastCounter, hreset]

theorem setRequested_lastCounter (e : Engine) (server : Nat) (hexes : List String) (v : Bool) :
    (e.setRequested server hexes v).lastCounter = e.lastCounter := by
  unfold setRequested
  refine List.foldlRecOn hexes _ (motive := fun e' : Engine => e'.lastCounter = e.lastCounter)
    rfl ?_
  intro e' h hex _
  split
  · exact h
  · split
    · exact h
    · exact h

/-- The counter before the next call: that of the last reception since the
    input was reset by a call. -/
def previous : Option Nat → Call → Option Nat
  | _, .reception r _ => some r.counts12mhz
  | _, .inputReset => none
  | last, _ => last

theorem after_lastCounter (e : Engine) (c : Call) :
    (e.after c).lastCounter = previous e.lastCounter c := by
  cases c with
  | reception r now => exact onReception_lastCounter e r now
  | tick now order =>
      change (e.tick now order).1.lastCounter = e.lastCounter
      rw [tick_state]
  | startSending s hexes => exact setRequested_lastCounter e s hexes true
  | stopSending s hexes => exact setRequested_lastCounter e s hexes false
  | serverReset s => rfl
  | inputReset => rfl

theorem previous_heard (rs : List Reception) (c : Call) :
    previous (rs.getLast?.map Reception.counts12mhz) c =
      (heard rs c).getLast?.map Reception.counts12mhz := by
  cases c with
  | reception r now => rw [getLast?_heard]; rfl
  | _ => rfl

/-- Every stored half is a position frame that was heard since the reset. -/
theorem after_backed (rs : List Reception) (e : Engine) (c : Call) (he : Backed rs e) :
    Backed (heard rs c) (e.after c) := by
  refine ⟨?_, ?_⟩
  · rw [after_lastCounter, he.last, previous_heard]
  · cases c with
    | reception r now =>
        refine Halves.onReception r now (checkReset_backed rs e r now he) ?_
        intro d hd
        exact ⟨r, mem_heard rs r now, d, hd, rfl, rfl, rfl⟩
    | inputReset => exact halves_inputReset e
    | tick now order => exact he.halves.after (.tick now order) fun _ _ => nofun
    | startSending s hexes => exact he.halves.after (.startSending s hexes) fun _ _ => nofun
    | stopSending s hexes => exact he.halves.after (.stopSending s hexes) fun _ _ => nofun
    | serverReset s => exact he.halves.after (.serverReset s) fun _ _ => nofun

theorem exec_backed (rs : List Reception) (e : Engine) (cs : List Call) (he : Backed rs e) :
    Backed (exec heard rs cs) (exec after e cs) := by
  induction cs generalizing rs e with
  | nil => exact he
  | cons c cs ih => exact ih _ _ (after_backed rs e c he)

theorem new_backed (user : String) (t0 : Instant) (n : Nat) : Backed [] (new user t0 n) := by
  refine ⟨rfl, ?_⟩
  intro addr a odd h ha
  exact absurd ha (by simp only [new, reduceCtorEq, not_false_eq_true])

/-- The two position frames of a sync, one of them the reception at hand. -/
structure Pair (rs : List Reception) (r re ro : Reception) (de d : Df17Airborne) : Prop where
  heardEven : re ∈ rs
  heardOdd : ro ∈ rs
  either : re = r ∨ ro = r
  parseEven : parseDf17Airborne re.frame = some de
  parseOdd : parseDf17Airborne ro.frame = some d
  icao : de.icao = d.icao
  even : de.odd = false
  odd : d.odd = true

/-- A sync is of two position frames heard since the reset, not too far apart. -/
theorem sync_sources (rs : List Reception) (e : Engine) (r : Reception) (now : Instant)
    (server et ot : Nat) (em om : String) (he : Backed rs e)
    (h : (server, .sync et ot em om) ∈ (e.onReception r now).2) :
    ∃ re ro de d, Pair (heard rs (.reception r now)) r re ro de d ∧
      (et, em) = (re.counts12mhz, hexEncode re.frame) ∧
      (ot, om) = (ro.counts12mhz, hexEncode ro.frame) ∧
      (et - ot) + (ot - et) ≤ maxPairS * freq12Mhz := by
  have hreset := checkReset_backed rs e r now he
  have hquiet : (server, .sync et ot em om) ∉ (e.checkReset r).2 := fun hmem =>
    absurd (checkReset_quiet e r server _ hmem) (by simp only [isTraffic, Bool.true_eq_false,
      not_false_eq_true])
  -- Of the ways a reception can go only the pairing sends a sync.
  rcases onReception_cases e r now with hc | ⟨addr, _, ⟨_, hc⟩ | ⟨_, d, hd, hicao, hc⟩ | ⟨v, _, hc⟩⟩
  · rw [hc] at h
    exact absurd h hquiet
  · rw [hc] at h
    exact absurd h hquiet
  · rw [hc] at h
    rcases List.mem_append.mp h with hout | hsync
    · exact absurd hout hquiet
    · rcases mem_pairSync _ addr d.odd r now server _ hsync with
        ⟨a, ev, od, ha, hev, hod, hspan, hmsg, _⟩
      rcases ClientMsg.sync.inj hmsg with ⟨rfl, rfl, rfl, rfl⟩
      have hmem := mem_heard rs r now
      have hnew : HalfOf (heard rs (.reception r now)) addr d.odd
          (r.counts12mhz, hexEncode r.frame) := ⟨r, hmem, d, hd, hicao, rfl, rfl⟩
      have hstore := (hreset.touch addr now true).store addr a d.odd r ha hnew
      have hstored : half (store a d.odd r) d.odd = some (r.counts12mhz, hexEncode r.frame) := by
        rw [half_store, if_pos rfl]
      -- The half of the parity at hand is the reception itself.
      cases hodd : d.odd with
      | true =>
          rw [hodd] at hstored hstore hev hod
          rcases hstore false ev hev with ⟨q, hq, dq, hdq, hqicao, hqodd, heq⟩
          refine ⟨q, r, dq, d, ⟨hq, hmem, Or.inr rfl, hdq, hd, ?_, hqodd, hodd⟩, heq, ?_, hspan⟩
          · exact congrArg Icao.mk (hqicao.trans hicao.symm)
          · exact Option.some.inj (hod.symm.trans hstored)
      | false =>
          rw [hodd] at hstored hstore hev hod
          rcases hstore true od hod with ⟨q, hq, dq, hdq, hqicao, hqodd, heq⟩
          refine ⟨r, q, d, dq, ⟨hmem, hq, Or.inl rfl, hd, hdq, ?_, hodd, hqodd⟩, ?_, heq, hspan⟩
          · exact congrArg Icao.mk (hicao.trans hqicao.symm)
          · exact Option.some.inj (hev.symm.trans hstored)
  · rw [hc] at h
    rcases List.mem_append.mp h with hout | hfwd
    · exact absurd hout hquiet
    · rcases mem_forward _ addr r server _ hfwd with ⟨_, _, hmsg, _⟩
      exact absurd hmsg (by simp only [reduceCtorEq, not_false_eq_true])

/-- Only receptions emit syncs. -/
theorem sync_reception (e : Engine) (c : Call) (server et ot : Nat) (em om : String)
    (h : (server, .sync et ot em om) ∈ (e.call c).2) : ∃ r now, c = .reception r now := by
  cases c with
  | reception r now => exact ⟨r, now, rfl⟩
  | tick now order =>
      exact absurd (tick_quiet e now order server _ h) (by simp only [isTraffic,
        Bool.true_eq_false, not_false_eq_true])
  | startSending s hexes => exact absurd h List.not_mem_nil
  | stopSending s hexes => exact absurd h List.not_mem_nil
  | serverReset s => exact absurd h List.not_mem_nil
  | inputReset => exact absurd h List.not_mem_nil

/-- Both positions of a pair, if they decode: all that is asked of a pair that
    passed the tests. -/
def placed {F : Type} [F64Fn F] (de d : Df17Airborne) :
    Option (Df17Airborne × (F × F) × (F × F)) :=
  match Cpr.globalDecodeAirborne (de.cprLat, de.cprLon) (d.cprLat, d.cprLon) false,
      Cpr.globalDecodeAirborne (de.cprLat, de.cprLon) (d.cprLat, d.cprLon) true with
  | some pe, some po => some (de, pe, po)
  | _, _ => none

/-- The texts of a pair pass the server's tests; what is left is whether the
    positions decode. -/
theorem Pair.syncEvent (rs : List Reception) (r re ro : Reception) (de d : Df17Airborne)
    (h : Pair rs r re ro de d) (F : Type) [F64Fn F] :
    Server.State.syncEvent (hexEncode re.frame) (hexEncode ro.frame) =
      (placed de d : Option (Df17Airborne × (F × F) × (F × F))) := by
  have hsame : ¬ (de.icao ≠ d.icao ∨ de.odd = true ∨ d.odd = false) := by
    rw [h.icao, h.even, h.odd]
    simp only [ne_eq, not_true_eq_false, Bool.false_eq_true, Bool.true_eq_false, or_self,
      not_false_eq_true]
  unfold Server.State.syncEvent
  rw [hexDecode_hexEncode, hexDecode_hexEncode]
  simp only [h.parseEven, h.parseOdd, if_neg hsame]
  rfl

/-- A 14-byte DF17 frame with valid parity. -/
def validSquitter (f : List UInt8) : Prop :=
  f.length = 14 ∧ f.getD 0 0 >>> 3 = 17 ∧ crc24 f = 0

theorem validSquitter_of_parse (f : List UInt8) (d : Df17Airborne)
    (h : parseDf17Airborne f = some d) : validSquitter f :=
  have hf := parseDf17Airborne_some f d h
  ⟨hf.1, hf.2.1, hf.2.2.1⟩

/-- What a sync carries is what the server tests for: two valid position frames
    of one aircraft, even and odd, at most four seconds apart, both received
    since the input was last reset and one of them now. -/
theorem syncs_accepted (user : String) (t0 : Instant) (n : Nat) (cs : List Call) (c : Call)
    (server et ot : Nat) (em om : String)
    (h : (server, .sync et ot em om) ∈ ((exec after (new user t0 n) cs).call c).2) :
    ∃ r now re ro de d, c = .reception r now ∧ Pair (exec heard [] (cs ++ [c])) r re ro de d ∧
      et = re.counts12mhz ∧ em = hexEncode re.frame ∧ validSquitter re.frame ∧
      ot = ro.counts12mhz ∧ om = hexEncode ro.frame ∧ validSquitter ro.frame ∧
      et - ot ≤ 48000000 ∧ ot - et ≤ 48000000 ∧
      ∀ (F : Type) [F64Fn F], Server.State.syncEvent em om =
        (placed de d : Option (Df17Airborne × (F × F) × (F × F))) := by
  rcases sync_reception _ c server et ot em om h with ⟨r, now, rfl⟩
  have hbacked := exec_backed [] (new user t0 n) cs (new_backed user t0 n)
  rcases sync_sources _ _ r now server et ot em om hbacked h with
    ⟨re, ro, de, d, hpair, heven, hodd, hspan⟩
  rcases Prod.mk.inj heven with ⟨rfl, rfl⟩
  rcases Prod.mk.inj hodd with ⟨rfl, rfl⟩
  have hmax : maxPairS * freq12Mhz = 48000000 := rfl
  rw [hmax] at hspan
  refine ⟨r, now, re, ro, de, d, rfl, ?_, rfl, rfl, validSquitter_of_parse _ de hpair.parseEven,
    rfl, rfl, validSquitter_of_parse _ d hpair.parseOdd, by omega, by omega, ?_⟩
  · rw [exec_append, exec_cons, exec_nil]
    exact hpair
  · intro F _
    exact hpair.syncEvent _ _ _ _ _ _ F

/-- An even position frame. -/
def evenFrame : List UInt8 :=
  [0x8D, 0x40, 0x62, 0x1D, 0x58, 0xC3, 0x82, 0xD6, 0x90, 0xC8, 0xAC, 0x28, 0x63, 0xA7]

/-- An odd one of the same aircraft. -/
def oddFrame : List UInt8 :=
  [0x8D, 0x40, 0x62, 0x1D, 0x58, 0xC3, 0x86, 0x43, 0x5C, 0xC4, 0x12, 0x69, 0x2A, 0xD6]

/-- The aircraft is heard and asked for. -/
def evenHeard : List Call :=
  [.reception ⟨1000, evenFrame⟩ 0, .startSending 0 ["40621d"]]

/-- Its next position goes out with the first. -/
theorem syncs_accepted_pair : ∃ r now re ro de d,
    Call.reception ⟨13000, oddFrame⟩ 1 = .reception r now ∧
      Pair (exec heard [] (evenHeard ++ [.reception ⟨13000, oddFrame⟩ 1])) r re ro de d ∧
      1000 = re.counts12mhz ∧ hexEncode evenFrame = hexEncode re.frame ∧ validSquitter re.frame ∧
      13000 = ro.counts12mhz ∧ hexEncode oddFrame = hexEncode ro.frame ∧ validSquitter ro.frame ∧
      1000 - 13000 ≤ 48000000 ∧ 13000 - 1000 ≤ 48000000 ∧
      ∀ (F : Type) [F64Fn F],
        Server.State.syncEvent (hexEncode evenFrame) (hexEncode oddFrame) =
          (placed de d : Option (Df17Airborne × (F × F) × (F × F))) :=
  syncs_accepted "rx" 0 1 evenHeard (.reception ⟨13000, oddFrame⟩ 1) 0 1000 13000
    (hexEncode evenFrame) (hexEncode oddFrame) (by decide +kernel)

/-- The clock restarted: it moved back by more than a second, and by less than
    a wrap of the 48-bit counter does. -/
def movedBack (last : Option Nat) (r : Reception) : Bool :=
  last.any fun last => 12000000 < last - r.counts12mhz ∧
    last - r.counts12mhz < 2 ^ 48 - 2 ^ 46

/-- The clock restarted after it had counted further than the test looks. -/
def overlooked (last : Option Nat) (r : Reception) : Bool :=
  last.any fun last => 2 ^ 46 ≤ last - r.counts12mhz ∧ last - r.counts12mhz < 2 ^ 48 - 2 ^ 46

/-- The test finds all restarts but those overlooked, and nothing else. -/
theorem restarted_iff (last : Option Nat) (r : Reception) :
    (restarted last r = true ↔ movedBack last r = true) ↔ overlooked last r = false := by
  cases last with
  | none => simp only [restarted, movedBack, overlooked, Option.any_none]
  | some last =>
      have hreset : resetBackwardS * freq12Mhz = 12000000 := rfl
      have hmargin : wrapMargin = 2 ^ 46 := rfl
      simp only [restarted, movedBack, overlooked, Option.any_some, decide_eq_true_eq,
        decide_eq_false_iff_not, hreset, hmargin]
      omega

/-- A reception tells every server of a reset, and of the halves stored before
    none is left. -/
structure Reported (e : Engine) (r : Reception) (now : Instant) : Prop where
  told : ∀ s < e.nServers, (s, ClientMsg.clockReset e.user) ∈ (e.onReception r now).2
  cleared : (e.onReception r now).1.Halves fun _ _ h => h = (r.counts12mhz, hexEncode r.frame)

/-- A reception tells of a reset only what the reset test does. -/
theorem clockReset_mem (e : Engine) (r : Reception) (now : Instant) (server : Nat)
    (u : String) : (server, .clockReset u) ∈ (e.onReception r now).2 ↔
      (server, .clockReset u) ∈ (e.checkReset r).2 := by
  rcases onReception_cases e r now with hc | ⟨addr, _, ⟨_, hc⟩ | ⟨_, d, _, _, hc⟩ | ⟨v, _, hc⟩⟩
  · rw [hc]
  · rw [hc]
  · rw [hc, List.mem_append, or_iff_left]
    intro hsync
    rcases mem_pairSync _ addr d.odd r now server _ hsync with ⟨_, _, _, _, _, _, _, hmsg, _⟩
    exact absurd hmsg (by simp only [reduceCtorEq, not_false_eq_true])
  · rw [hc, List.mem_append, or_iff_left]
    intro hfwd
    rcases mem_forward _ addr r server _ hfwd with ⟨_, _, hmsg, _⟩
    exact absurd hmsg (by simp only [reduceCtorEq, not_false_eq_true])

/-- What is reported is what the test found. -/
theorem reported_iff_restarted (e : Engine) (r : Reception) (now : Instant)
    (hn : 0 < e.nServers) : Reported e r now ↔ restarted e.lastCounter r = true := by
  constructor
  · intro h
    by_contra hreset
    have hmem := (clockReset_mem e r now 0 e.user).mp (h.told 0 hn)
    rw [checkReset_eq, if_neg hreset] at hmem
    exact absurd hmem List.not_mem_nil
  · intro hreset
    have hcheck := checkReset_eq e r
    rw [if_pos hreset] at hcheck
    refine ⟨?_, ?_⟩
    · intro s hs
      rw [clockReset_mem, hcheck]
      exact List.mem_map.mpr ⟨s, List.mem_range.mpr hs, rfl⟩
    · refine Halves.onReception r now ?_ fun _ _ => rfl
      rw [hcheck]
      exact halves_inputReset e

theorem exec_lastCounter (e : Engine) (cs : List Call) :
    (exec after e cs).lastCounter = exec previous e.lastCounter cs := by
  induction cs generalizing e with
  | nil => rfl
  | cons c cs ih => rw [exec_cons, exec_cons, ih, after_lastCounter]

/-- Restarts of the clock are reported and nothing else is, in every run without
    one that is overlooked, and in no other. -/
theorem clock_resets_exact (user : String) (t0 : Instant) (n : Nat) (hn : 0 < n)
    (cs : List Call) :
    (∀ before r now rest, cs = before ++ .reception r now :: rest →
      (Reported (exec after (new user t0 n) before) r now ↔
        movedBack (exec previous none before) r = true)) ↔
      ∀ before r now rest, cs = before ++ .reception r now :: rest →
        overlooked (exec previous none before) r = false := by
  -- Of a run only the last count matters to the next reception.
  have hstep : ∀ before r now, (Reported (exec after (new user t0 n) before) r now ↔
      movedBack (exec previous none before) r = true) ↔
      overlooked (exec previous none before) r = false := by
    intro before r now
    have hservers : 0 < (exec after (new user t0 n) before).nServers := by
      rw [exec_nServers]
      exact hn
    have hlast : (exec after (new user t0 n) before).lastCounter = exec previous none before :=
      exec_lastCounter (new user t0 n) before
    rw [reported_iff_restarted _ r now hservers, hlast]
    exact restarted_iff _ r
  constructor
  · intro h before r now rest hcs
    exact (hstep before r now).mp (h before r now rest hcs)
  · intro h before r now rest hcs
    exact (hstep before r now).mpr (h before r now rest hcs)

/-- A receiver that restarts after ten seconds. -/
def restartRun : List Call :=
  [.reception ⟨120000000, df11 ⟨0xABCDEF⟩ 0⟩ 0, .reception ⟨1000, df11 ⟨0xABCDEF⟩ 0⟩ 1]

/-- Its first reception reports nothing, its second the restart. -/
theorem clock_resets_exact_early :
    ¬ Reported (new "rx" 0 1) ⟨120000000, df11 ⟨0xABCDEF⟩ 0⟩ 0 ∧
      Reported (exec after (new "rx" 0 1) (restartRun.take 1)) ⟨1000, df11 ⟨0xABCDEF⟩ 0⟩ 1 := by
  have hall := (clock_resets_exact "rx" 0 1 (by decide) restartRun).mpr ?_
  · refine ⟨fun h => ?_, (hall (restartRun.take 1) _ 1 [] rfl).mpr (by decide +kernel)⟩
    exact absurd ((hall [] _ 0 (restartRun.drop 1) rfl).mp h) (by decide +kernel)
  intro before r now rest h
  cases before with
  | nil =>
      rcases Call.reception.inj (List.cons.inj h).1 with ⟨rfl, _⟩
      rfl
  | cons c before =>
      rcases List.cons.inj h with ⟨rfl, hr⟩
      cases before with
      | nil =>
          rcases Call.reception.inj (List.cons.inj hr).1 with ⟨rfl, _⟩
          decide +kernel
      | cons c before =>
          exact absurd (List.cons.inj hr).2.symm
            (List.append_ne_nil_of_right_ne_nil before (List.cons_ne_nil _ rest))

/-- A receiver that restarts after 2^47 counts, more than 135 days. -/
def lateRestartRun : List Call :=
  [.reception ⟨2 ^ 47, df11 ⟨0xABCDEF⟩ 0⟩ 0, .reception ⟨0, df11 ⟨0xABCDEF⟩ 0⟩ 1]

/-- Its restart is taken for a wrap. -/
theorem late_restart_unreported :
    ¬ ∀ before r now rest, lateRestartRun = before ++ .reception r now :: rest →
      (Reported (exec after (new "rx" 0 1) before) r now ↔
        movedBack (exec previous none before) r = true) := by
  intro h
  have hmoved := h [.reception ⟨2 ^ 47, df11 ⟨0xABCDEF⟩ 0⟩ 0] ⟨0, df11 ⟨0xABCDEF⟩ 0⟩ 1 [] rfl
  have htold := (hmoved.mpr (by decide +kernel)).told 0 (by decide +kernel)
  exact absurd htold (by decide +kernel)

end Engine

end Client

end MlatBench
