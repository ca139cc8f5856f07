import MlatBench.Core.Engine
import MlatBench.Library.Runs

/-!
# What the Engine's Operations Can Do

One lemma per operation of the engine, saying everything it can do, so that the
results above never open a definition twice. The reset test either leaves the
table alone or drops all pairing state (`checkReset_cases`); hearing an
aircraft changes one entry (`touch_aircraft_self`, `touch_aircraft_other`);
pairing stores a half and may send both (`pairSync_cases`); a reception is one
of these in turn (`onReception_cases`).

`Engine.view` is what one server sees of an aircraft: whether it asked for it,
and whether the aircraft was announced to it. Receptions change it only where
they introduce an aircraft, ticks announce and drop, requests ask.

## Main definitions

* `introduced`: The aircraft a frame can introduce.
* `address`: The aircraft a frame speaks of.
* `Engine.view`: Asked for, announced.
* `Engine.announcements`, `Engine.rateReports`, `Engine.kept`: A tick in its
  parts.
* `Engine.Halves`: What is stored as a half satisfies a predicate.

## Theorems

* `checkReset_cases`: The two outcomes of the reset test.
* `checkReset_nServers`, `touch_nServers`: The server count is fixed.
* `touch_aircraft_self`, `touch_aircraft_other`: Hearing changes one entry.
* `pairSync_cases`, `onReception_cases`: The outcomes of a reception.
* `mem_checkReset`, `mem_pairSync`, `mem_forward`: What its parts send.
* `tick_out`, `messagesTo_tick`, `tick_aircraft`: A tick in its parts.
* `tick_announced`: After a tick every aircraft is announced.
* `onReception_view`, `tick_view`, `setRequested_view`: The view after a call.
* `Halves.onReception`, `Halves.after`: What a call leaves of the halves.
-/

namespace MlatBench

namespace Client

namespace Engine

open Library Modes Proto

theorem checkReset_cases (e : Engine) (r : Reception) :
    e.checkReset r = ({ e with lastCounter := some r.counts12mhz }, []) ∨
      e.checkReset r = ({ e.inputReset with lastCounter := some r.counts12mhz },
        (List.range e.nServers).map fun s => (s, ClientMsg.clockReset e.user)) := by
  unfold checkReset
  cases e.lastCounter with
  | none => exact Or.inl rfl
  | some last =>
      by_cases h : resetBackwardS * freq12Mhz < last - r.counts12mhz ∧
          last - r.counts12mhz < wrapMargin
      · refine Or.inr ?_
        simp only [if_pos h]
      · refine Or.inl ?_
        simp only [if_neg h]

theorem checkReset_nServers (e : Engine) (r : Reception) :
    (e.checkReset r).1.nServers = e.nServers := by
  rcases checkReset_cases e r with h | h <;> rw [h]
  rfl

theorem touch_nServers (e : Engine) (addr : UInt32) (now : Instant) (v : Bool) :
    (e.touch addr now v).nServers = e.nServers := by
  unfold touch
  split
  · rfl
  · split_ifs <;> rfl

/-- The entry of an aircraft that was heard: the old one refreshed, or a new
    one if the frame was validated. -/
theorem touch_aircraft_self (e : Engine) (addr : UInt32) (now : Instant) (v : Bool) :
    (e.touch addr now v).aircraft addr =
      match e.aircraft addr with
      | some a => some { a with lastSeen := now, msgsInWindow := a.msgsInWindow + 1 }
      | none => if v then some { Aircraft.new now with msgsInWindow := 1 } else none := by
  unfold touch
  cases h : e.aircraft addr with
  | some a => exact Function.update_self _ _ _
  | none =>
      cases v with
      | true => exact Function.update_self _ _ _
      | false => exact h

theorem touch_aircraft_other (e : Engine) (addr b : UInt32) (now : Instant) (v : Bool)
    (hb : b ≠ addr) : (e.touch addr now v).aircraft b = e.aircraft b := by
  unfold touch
  split
  · exact Function.update_of_ne hb _ _
  · split_ifs
    · exact Function.update_of_ne hb _ _
    · rfl

/-- The aircraft a frame can introduce: that of a valid DF17 or an accepted
    DF11. -/
def introduced (f : List UInt8) : Option UInt32 :=
  match dfOf f with
  | none => none
  | some df =>
    if df = 17 then if crc24 f ≠ 0 then none else some (be24 (f.drop 1))
    else if df = 11 then if 80 ≤ crc24 f then none else some (be24 (f.drop 1))
    else none

/-- The aircraft a frame speaks of. -/
def address (f : List UInt8) : Option UInt32 :=
  match dfOf f with
  | none => none
  | some df =>
    if df = 17 ∨ df = 11 then some (be24 (f.drop 1))
    else if df ∈ ([0, 4, 5, 16, 20, 21] : List UInt8) then some (apAddress f)
    else none

/-- The half of a pair that a reception is. -/
def store (a : Aircraft) (odd : Bool) (r : Reception) : Aircraft :=
  if odd then { a with odd := some (r.counts12mhz, hexEncode r.frame) }
  else { a with even := some (r.counts12mhz, hexEncode r.frame) }

theorem store_servers (a : Aircraft) (odd : Bool) (r : Reception) :
    (store a odd r).servers = a.servers := by
  unfold store
  split_ifs <;> rfl

/-- The servers of an entry after a sync went to those due. -/
def synced (a : Aircraft) (due : List Nat) (now : Instant) : Aircraft :=
  { a with servers := fun s =>
      if s ∈ due then { a.servers s with lastSync := some now } else a.servers s }

theorem pairSync_eq (e : Engine) (addr : UInt32) (odd : Bool) (r : Reception) (now : Instant)
    (a : Aircraft) (ha : e.aircraft addr = some a) :
    e.pairSync addr odd r now =
      match (store a odd r).even, (store a odd r).odd with
      | some ev, some od =>
        if maxPairS * freq12Mhz < (ev.1 - od.1) + (od.1 - ev.1) then
          ({ e with aircraft := Function.update e.aircraft addr (some (store a odd r)) }, [])
        else
          let due := (List.range e.nServers).filter fun s => syncDue now ((store a odd r).servers s)
          ({ e with aircraft :=
              Function.update e.aircraft addr (some (synced (store a odd r) due now)) },
            due.map fun s => (s, .sync ev.1 od.1 ev.2 od.2))
      | _, _ =>
        ({ e with aircraft := Function.update e.aircraft addr (some (store a odd r)) }, []) := by
  unfold pairSync
  rw [ha]
  rfl

/-- Pairing stores the half; it also may send both halves to those due. -/
theorem pairSync_cases (e : Engine) (addr : UInt32) (odd : Bool) (r : Reception) (now : Instant)
    (a : Aircraft) (ha : e.aircraft addr = some a) :
    e.pairSync addr odd r now =
        ({ e with aircraft := Function.update e.aircraft addr (some (store a odd r)) }, []) ∨
      ∃ ev od, (store a odd r).even = some ev ∧ (store a odd r).odd = some od ∧
        (ev.1 - od.1) + (od.1 - ev.1) ≤ maxPairS * freq12Mhz ∧
        let due := (List.range e.nServers).filter fun s => syncDue now ((store a odd r).servers s)
        e.pairSync addr odd r now =
          ({ e with aircraft :=
              Function.update e.aircraft addr (some (synced (store a odd r) due now)) },
            due.map fun s => (s, .sync ev.1 od.1 ev.2 od.2)) := by
  rw [pairSync_eq e addr odd r now a ha]
  cases hev : (store a odd r).even with
  | none => exact Or.inl rfl
  | some ev =>
      cases hod : (store a odd r).odd with
      | none => exact Or.inl rfl
      | some od =>
          by_cases hspan : maxPairS * freq12Mhz < (ev.1 - od.1) + (od.1 - ev.1)
          · exact Or.inl (if_pos hspan)
          · exact Or.inr ⟨ev, od, rfl, rfl, Nat.le_of_not_lt hspan, if_neg hspan⟩

/-- What a decoded position frame is. -/
theorem parseDf17Airborne_some (f : List UInt8) (d : Df17Airborne)
    (h : parseDf17Airborne f = some d) :
    f.length = 14 ∧ f.getD 0 0 >>> 3 = 17 ∧ crc24 f = 0 ∧ d.icao.val = be24 (f.drop 1) := by
  unfold parseDf17Airborne at h
  by_cases hbad : f.length ≠ 14 ∨ f.getD 0 0 >>> 3 ≠ 17 ∨ crc24 f ≠ 0
  · rw [if_pos hbad] at h
    exact absurd h (by simp only [reduceCtorEq, not_false_eq_true])
  · rw [if_neg hbad] at h
    simp only [] at h
    split_ifs at h
    rw [Option.some.injEq] at h
    push Not at hbad
    rcases hbad with ⟨hlen, hdf, hcrc⟩
    refine ⟨hlen, hdf, hcrc, ?_⟩
    rw [← h]

theorem parseDf17Airborne_icao (f : List UInt8) (d : Df17Airborne)
    (h : parseDf17Airborne f = some d) : d.icao.val = be24 (f.drop 1) :=
  (parseDf17Airborne_some f d h).2.2.2

theorem address_of_parse (f : List UInt8) (d : Df17Airborne) (h : parseDf17Airborne f = some d) :
    address f = some d.icao.val := by
  rcases parseDf17Airborne_some f d h with ⟨hlen, hdf, _, hicao⟩
  have hdfOf : dfOf f = some 17 := by rw [dfOf, if_pos (Or.inr hlen), hdf]
  rw [address, hdfOf, hicao]
  rfl

/-- What the reset test sends. -/
theorem mem_checkReset (e : Engine) (r : Reception) (server : Nat) (msg : ClientMsg)
    (h : (server, msg) ∈ (e.checkReset r).2) : msg = .clockReset e.user := by
  rcases checkReset_cases e r with hc | hc
  · rw [hc] at h
    exact absurd h List.not_mem_nil
  · rw [hc] at h
    rcases List.mem_map.mp h with ⟨s, _, heq⟩
    exact (Prod.mk.inj heq).2.symm

/-- What pairing sends: the two halves, to a server that is due. -/
theorem mem_pairSync (e : Engine) (addr : UInt32) (odd : Bool) (r : Reception) (now : Instant)
    (server : Nat) (msg : ClientMsg) (h : (server, msg) ∈ (e.pairSync addr odd r now).2) :
    ∃ a ev od, e.aircraft addr = some a ∧ (store a odd r).even = some ev ∧
      (store a odd r).odd = some od ∧ (ev.1 - od.1) + (od.1 - ev.1) ≤ maxPairS * freq12Mhz ∧
      msg = .sync ev.1 od.1 ev.2 od.2 ∧ syncDue now ((store a odd r).servers server) = true := by
  cases ha : e.aircraft addr with
  | none =>
      unfold pairSync at h
      rw [ha] at h
      exact absurd h List.not_mem_nil
  | some a =>
      rcases pairSync_cases e addr odd r now a ha with hc | ⟨ev, od, hev, hod, hspan, hc⟩
      · rw [hc] at h
        exact absurd h List.not_mem_nil
      · rw [hc] at h
        rcases List.mem_map.mp h with ⟨s, hs, heq⟩
        rcases Prod.mk.inj heq with ⟨rfl, hmsg⟩
        exact ⟨a, ev, od, rfl, hev, hod, hspan, hmsg.symm, (List.mem_filter.mp hs).2⟩

/-- What is forwarded: the frame, to a server that asked for the aircraft. -/
theorem mem_forward (e : Engine) (addr : UInt32) (r : Reception) (server : Nat)
    (msg : ClientMsg) (h : (server, msg) ∈ e.forward addr r) :
    ∃ a, e.aircraft addr = some a ∧ msg = .mlat r.counts12mhz (hexEncode r.frame) ∧
      (a.servers server).requested = true := by
  unfold forward at h
  cases ha : e.aircraft addr with
  | none =>
      rw [ha] at h
      exact absurd h List.not_mem_nil
  | some a =>
      rw [ha] at h
      rcases List.mem_map.mp h with ⟨s, hs, heq⟩
      rcases Prod.mk.inj heq with ⟨rfl, hmsg⟩
      exact ⟨a, rfl, hmsg.symm, (List.mem_filter.mp hs).2⟩

/-- What a reception does after the reset test: nothing, or it hears an aircraft
    and forwards the frame, pairs it, or neither. -/
theorem onReception_cases (e : Engine) (r : Reception) (now : Instant) :
    let c := e.checkReset r
    e.onReception r now = c ∨
      ∃ addr, address r.frame = some addr ∧
        ((introduced r.frame = some addr ∧
            e.onReception r now = (c.1.touch addr now true, c.2)) ∨
          (introduced r.frame = some addr ∧ ∃ d, parseDf17Airborne r.frame = some d ∧
            d.icao.val = addr ∧ let q := (c.1.touch addr now true).pairSync addr d.odd r now
            e.onReception r now = (q.1, c.2 ++ q.2)) ∨
          ∃ v, (v = true → introduced r.frame = some addr) ∧
            e.onReception r now =
              (c.1.touch addr now v, c.2 ++ (c.1.touch addr now v).forward addr r)) := by
  unfold onReception address introduced
  generalize e.checkReset r = c
  rcases c with ⟨e', out⟩
  simp only []
  cases hdf : dfOf r.frame with
  | none => exact Or.inl rfl
  | some df =>
      simp only []
      by_cases h17 : df = 17
      · simp only [h17, true_or, if_true]
        by_cases hcrc : crc24 r.frame ≠ 0
        · simp only [if_pos hcrc]
          exact Or.inl trivial
        · simp only [if_neg hcrc]
          refine Or.inr ⟨_, rfl, ?_⟩
          cases hp : parseDf17Airborne r.frame with
          | none => exact Or.inl ⟨rfl, rfl⟩
          | some d =>
              have hd := parseDf17Airborne_icao r.frame d hp
              refine Or.inr (Or.inl ⟨rfl, d, rfl, hd, ?_⟩)
              simp only [hd]
      · by_cases h11 : df = 11
        · simp only [h11, or_true, if_true]
          by_cases hcrc : 80 ≤ crc24 r.frame
          · simp only [if_pos hcrc]
            exact Or.inl rfl
          · simp only [if_neg hcrc]
            exact Or.inr ⟨_, rfl, Or.inr (Or.inr ⟨true, fun _ => rfl, rfl⟩)⟩
        · have hneither : ¬ (df = 17 ∨ df = 11) := by tauto
          simp only [if_neg h17, if_neg h11, if_neg hneither]
          by_cases hap : df ∈ ([0, 4, 5, 16, 20, 21] : List UInt8)
          · simp only [if_pos hap]
            by_cases hknown : (e'.aircraft (apAddress r.frame)).isNone = true
            · simp only [if_pos hknown]
              exact Or.inl trivial
            · simp only [if_neg hknown]
              exact Or.inr ⟨_, rfl, Or.inr (Or.inr ⟨false, fun hv => absurd hv Bool.false_ne_true, rfl⟩)⟩
          · simp only [if_neg hap]
            exact Or.inl trivial

/-- What a server sees of an aircraft: whether it asked for it, and whether the
    aircraft was announced to it. -/
def view (e : Engine) (server : Nat) (addr : UInt32) : Option (Bool × Bool) :=
  (e.aircraft addr).map fun a => ((a.servers server).requested, (a.servers server).announced)

theorem view_eq_none (e : Engine) (server : Nat) (addr : UInt32) :
    e.view server addr = none ↔ e.aircraft addr = none :=
  Option.map_eq_none_iff

theorem view_congr (e e' : Engine) (server : Nat) (addr : UInt32)
    (h : e'.aircraft addr = e.aircraft addr) : e'.view server addr = e.view server addr := by
  rw [view, view, h]

theorem inputReset_view (e : Engine) (server : Nat) (b : UInt32) :
    e.inputReset.view server b = e.view server b := by
  simp only [view, inputReset, Option.map_map]
  rfl

theorem checkReset_view (e : Engine) (r : Reception) (server : Nat) (addr : UInt32) :
    (e.checkReset r).1.view server addr = e.view server addr := by
  rcases checkReset_cases e r with h | h
  · rw [h]
    rfl
  · rw [h]
    exact inputReset_view e server addr

/-- Hearing an aircraft shows only where it introduces one. -/
theorem touch_view (e : Engine) (addr b : UInt32) (now : Instant) (v : Bool) (server : Nat) :
    (e.touch addr now v).view server b = e.view server b ∨
      (b = addr ∧ v = true ∧ e.view server b = none ∧
        (e.touch addr now v).view server b = some (false, false)) := by
  by_cases hb : b = addr
  · rw [hb]
    simp only [view, touch_aircraft_self]
    cases e.aircraft addr with
    | some a => exact Or.inl rfl
    | none =>
        cases v with
        | true => exact Or.inr ⟨trivial, rfl, rfl, rfl⟩
        | false => exact Or.inl rfl
  · exact Or.inl (view_congr _ _ server b (touch_aircraft_other e addr b now v hb))

theorem update_view (e : Engine) (addr b : UInt32) (a a' : Aircraft) (server : Nat)
    (ha : e.aircraft addr = some a)
    (hreq : (a'.servers server).requested = (a.servers server).requested)
    (hann : (a'.servers server).announced = (a.servers server).announced) :
    ({ e with aircraft := Function.update e.aircraft addr (some a') } : Engine).view server b =
      e.view server b := by
  by_cases hb : b = addr
  · rw [hb]
    simp only [view, Function.update_self, ha, Option.map_some, hreq, hann]
  · simp only [view, Function.update_of_ne hb]

theorem pairSync_view (e : Engine) (addr b : UInt32) (odd : Bool) (r : Reception) (now : Instant)
    (server : Nat) : (e.pairSync addr odd r now).1.view server b = e.view server b := by
  cases ha : e.aircraft addr with
  | none =>
      unfold pairSync
      rw [ha]
  | some a =>
      have hservers := store_servers a odd r
      rcases pairSync_cases e addr odd r now a ha with h | ⟨ev, od, _, _, _, h⟩
      · rw [h]
        exact update_view e addr b a _ server ha (by rw [hservers]) (by rw [hservers])
      · rw [h]
        refine update_view e addr b a _ server ha ?_ ?_
        · simp only [synced, hservers]
          split_ifs <;> rfl
        · simp only [synced, hservers]
          split_ifs <;> rfl

/-- A reception shows only where it introduces an aircraft. -/
theorem onReception_view (e : Engine) (r : Reception) (now : Instant) (server : Nat)
    (b : UInt32) : (e.onReception r now).1.view server b = e.view server b ∨
      (introduced r.frame = some b ∧ e.view server b = none ∧
        (e.onReception r now).1.view server b = some (false, false)) := by
  have hreset := checkReset_view e r server b
  -- What the touched aircraft shows is what the reception shows.
  have htouch : ∀ addr v, (v = true → introduced r.frame = some addr) →
      ((e.checkReset r).1.touch addr now v).view server b = e.view server b ∨
      (introduced r.frame = some b ∧ e.view server b = none ∧
        ((e.checkReset r).1.touch addr now v).view server b = some (false, false)) := by
    intro addr v hv
    rw [← hreset]
    rcases touch_view (e.checkReset r).1 addr b now v server with h | ⟨h1, h2, h3, h4⟩
    · exact Or.inl h
    · rw [h1] at h3 h4 ⊢
      exact Or.inr ⟨hv h2, h3, h4⟩
  rcases onReception_cases e r now with h | ⟨addr, _, ⟨hi, h⟩ | ⟨hi, d, _, _, h⟩ | ⟨v, hv, h⟩⟩
  · rw [h]
    exact Or.inl hreset
  · rw [h]
    exact htouch addr true fun _ => hi
  · rw [h]
    simp only [pairSync_view]
    exact htouch addr true fun _ => hi
  · rw [h]
    exact htouch addr v hv

/-- Requests show where they name an aircraft of the table. -/
theorem setRequested_view (e : Engine) (server : Nat) (hexes : List String) (v : Bool)
    (b : UInt32) : (e.setRequested server hexes v).view server b = (e.view server b).map fun w =>
      (if hexes.any fun h => fromStrRadix16 h = some b then v else w.1, w.2) := by
  unfold setRequested
  induction hexes generalizing e with
  | nil =>
      simp only [List.foldl_nil, List.any_nil, Bool.false_eq_true, if_false]
      exact Option.map_id'.symm
  | cons h hexes ih =>
      rw [List.foldl_cons, ih]
      cases haddr : fromStrRadix16 h with
      | none => simp [haddr]
      | some addr =>
          simp only []
          cases ha : e.aircraft addr with
          | none =>
              by_cases hb : addr = b
              · rw [← hb]
                simp only [view, ha, Option.map_none]
              · simp [haddr, hb]
          | some a =>
              by_cases hb : addr = b
              · rw [← hb]
                simp [view, ha, haddr]
              · have hother : b ≠ addr := fun heq => hb heq.symm
                simp [view, haddr, hb, Function.update_of_ne hother]

/-- Requests of one server do not show to another. -/
theorem setRequested_view_other (e : Engine) (server other : Nat) (hexes : List String) (v : Bool)
    (b : UInt32) (hother : other ≠ server) :
    (e.setRequested server hexes v).view other b = e.view other b := by
  unfold setRequested
  refine List.foldlRecOn hexes _ (motive := fun e' : Engine => e'.view other b = e.view other b)
    rfl ?_
  intro e' h hex _
  cases fromStrRadix16 hex with
  | none => exact h
  | some addr =>
      simp only []
      cases ha : e'.aircraft addr with
      | none => exact h
      | some a =>
          refine (update_view e' addr b a _ other ha ?_ ?_).trans h
          · simp only [Function.update_of_ne hother]
          · simp only [Function.update_of_ne hother]

theorem serverReset_view (e : Engine) (server : Nat) (b : UInt32) :
    (e.serverReset server).view server b = (e.view server b).map fun _ => (false, false) := by
  simp only [view, serverReset, Option.map_map]
  congr 1
  funext a
  simp only [Function.comp_apply, Function.update_self]

theorem serverReset_view_other (e : Engine) (server other : Nat) (b : UInt32)
    (hother : other ≠ server) : (e.serverReset server).view other b = e.view other b := by
  simp only [view, serverReset, Option.map_map]
  congr 1
  funext a
  simp only [Function.comp_apply, Function.update_of_ne hother]

theorem setRequested_nServers (e : Engine) (server : Nat) (hexes : List String) (v : Bool) :
    (e.setRequested server hexes v).nServers = e.nServers := by
  unfold setRequested
  refine List.foldlRecOn hexes _ (motive := fun e' : Engine => e'.nServers = e.nServers) rfl ?_
  intro e' h hex _
  split
  · exact h
  · split
    · exact h
    · exact h

theorem pairSync_nServers (e : Engine) (addr : UInt32) (odd : Bool) (r : Reception)
    (now : Instant) : (e.pairSync addr odd r now).1.nServers = e.nServers := by
  cases ha : e.aircraft addr with
  | none =>
      unfold pairSync
      rw [ha]
  | some a =>
      rcases pairSync_cases e addr odd r now a ha with h | ⟨ev, od, _, _, _, h⟩ <;> rw [h]

theorem onReception_nServers (e : Engine) (r : Reception) (now : Instant) :
    (e.onReception r now).1.nServers = e.nServers := by
  have hreset := checkReset_nServers e r
  rcases onReception_cases e r now with h | ⟨addr, _, ⟨_, h⟩ | ⟨_, d, _, _, h⟩ | ⟨v, _, h⟩⟩
  · rw [h, hreset]
  · rw [h, touch_nServers, hreset]
  · rw [h, pairSync_nServers, touch_nServers, hreset]
  · rw [h, touch_nServers, hreset]

/-- The aircraft announced to a server by a tick. -/
def seenList (e : Engine) (now : Instant) (order : List UInt32) (server : Nat) : List String :=
  (order.filter fun addr => (e.aircraft addr).any fun a =>
    !expired now a && !(a.servers server).announced).map hex06

/-- The aircraft a tick reports lost to a server. -/
def lostList (e : Engine) (now : Instant) (order : List UInt32) (server : Nat) : List String :=
  (order.filter fun addr => (e.aircraft addr).any fun a =>
    expired now a && (a.servers server).announced).map hex06

/-- What a tick leaves of an entry. -/
def kept (e : Engine) (now : Instant) (addr : UInt32) : Option Aircraft :=
  match e.aircraft addr with
  | none => none
  | some a => if expired now a then none
      else some { a with servers := fun s => { a.servers s with announced := true } }

/-- The announcements of a tick to one server. -/
def announcements (e : Engine) (now : Instant) (order : List UInt32) (server : Nat) :
    List ClientMsg :=
  (if e.seenList now order server = [] then [] else [.seen (e.seenList now order server)]) ++
    (if e.lostList now order server = [] then [] else [.lost (e.lostList now order server)])

/-- The rates of what a tick leaves. -/
def rates (e : Engine) (now : Instant) (order : List UInt32) : List (String × ℚ) :=
  (order.filterMap fun addr => (e.kept now addr).map fun a =>
    (hex06 addr,
      (round ((a.msgsInWindow : ℚ) * nanos / (now - e.lastRateReport : Nat) * 100) : ℚ) / 100))
    |>.insertionSort fun x y => x.1 ≤ y.1

/-- The rate report as every server gets it, if it is due. -/
def rateReports (e : Engine) (now : Instant) (order : List UInt32) : List ClientMsg :=
  if rateReportS * nanos ≤ now - e.lastRateReport ∧ e.rates now order ≠ [] then
    [.rateReport (e.rates now order)]
  else []

theorem announcements_out (e : Engine) (now : Instant) (order : List UInt32) :
    ((List.range e.nServers).flatMap fun s =>
      (if e.seenList now order s = [] then [] else [(s, ClientMsg.seen (e.seenList now order s))]) ++
      (if e.lostList now order s = [] then [] else [(s, ClientMsg.lost (e.lostList now order s))])) =
    (List.range e.nServers).flatMap fun s =>
      (e.announcements now order s).map fun m => (s, m) := by
  congr 1
  funext s
  unfold announcements
  split_ifs <;> rfl

/-- What a tick emits: each server's announcements, then the rates. -/
theorem tick_out (e : Engine) (now : Instant) (order : List UInt32) :
    (e.tick now order).2 =
      ((List.range e.nServers).flatMap fun s => (e.announcements now order s).map fun m => (s, m)) ++
        (List.range e.nServers).flatMap fun s => (e.rateReports now order).map fun m => (s, m) := by
  rw [← announcements_out]
  have hnone : ((List.range e.nServers).flatMap fun s =>
      ([] : List ClientMsg).map fun m => (s, m)) = [] := by
    simp only [List.map_nil, List.flatMap_eq_nil_iff, implies_true]
  by_cases hrate : rateReportS * nanos ≤ now - e.lastRateReport
  · by_cases hrates : e.rates now order = []
    · have hreports : e.rateReports now order = [] := if_neg fun h => h.2 hrates
      rw [hreports, hnone]
      unfold tick
      simp only [if_pos hrate]
      exact congrArg _ (if_pos hrates)
    · have hreports : e.rateReports now order = [.rateReport (e.rates now order)] :=
        if_pos ⟨hrate, hrates⟩
      rw [hreports]
      simp only [List.map_cons, List.map_nil]
      rw [← List.map_eq_flatMap]
      unfold tick
      simp only [if_pos hrate]
      exact congrArg _ (if_neg hrates)
  · have hreports : e.rateReports now order = [] := if_neg fun h => hrate h.1
    rw [hreports, hnone, List.append_nil]
    unfold tick
    simp only [if_neg hrate]
    rfl

theorem messagesTo_append (server : Nat) (xs ys : List Outbound) :
    messagesTo server (xs ++ ys) = messagesTo server xs ++ messagesTo server ys := by
  simp only [messagesTo, List.filter_append, List.map_append]

theorem messagesTo_self (server : Nat) (ms : List ClientMsg) :
    messagesTo server (ms.map fun m => (server, m)) = ms := by
  unfold messagesTo
  induction ms with
  | nil => rfl
  | cons m ms ih => simp only [List.map_cons, List.filter_cons, decide_true, if_true, ih]

theorem messagesTo_other (server s : Nat) (ms : List ClientMsg) (h : s ≠ server) :
    messagesTo server (ms.map fun m => (s, m)) = [] := by
  unfold messagesTo
  induction ms with
  | nil => rfl
  | cons m ms ih =>
      simp only [List.map_cons, List.filter_cons, decide_eq_true_eq, if_neg h]
      exact ih

/-- Of what every server gets, one server gets its own. -/
theorem messagesTo_flatMap (server n : Nat) (f : Nat → List ClientMsg) :
    messagesTo server ((List.range n).flatMap fun s => (f s).map fun m => (s, m)) =
      if server < n then f server else [] := by
  induction n with
  | zero => rfl
  | succ n ih =>
      rw [List.range_succ, List.flatMap_append, messagesTo_append, ih, List.flatMap_singleton]
      by_cases hn : n = server
      · rw [hn, messagesTo_self, if_neg (Nat.lt_irrefl server), if_pos (Nat.lt_succ_self server),
          List.nil_append]
      · rw [messagesTo_other server n (f n) hn, List.append_nil]
        by_cases hlt : server < n
        · rw [if_pos hlt, if_pos (by omega)]
        · rw [if_neg hlt, if_neg (by omega)]

/-- What a tick emits to a server. -/
theorem messagesTo_tick (e : Engine) (now : Instant) (order : List UInt32) (server : Nat)
    (h : server < e.nServers) : messagesTo server (e.tick now order).2 =
      e.announcements now order server ++ e.rateReports now order := by
  rw [tick_out, messagesTo_append, messagesTo_flatMap, messagesTo_flatMap, if_pos h, if_pos h]

theorem mem_messagesTo (server : Nat) (msg : ClientMsg) (out : List Outbound) :
    msg ∈ messagesTo server out ↔ (server, msg) ∈ out := by
  unfold messagesTo
  rw [List.mem_map]
  constructor
  · rintro ⟨m, hm, heq⟩
    rcases List.mem_filter.mp hm with ⟨hmem, hserver⟩
    rw [decide_eq_true_eq] at hserver
    rw [← heq, ← hserver]
    exact hmem
  · intro hmem
    exact ⟨(server, msg), List.mem_filter.mpr ⟨hmem, decide_eq_true rfl⟩, rfl⟩

/-- The state after a tick: counts start over if the report is due. -/
theorem tick_state (e : Engine) (now : Instant) (order : List UInt32) :
    (e.tick now order).1 =
      { e with
        aircraft := fun b => (e.kept now b).map fun a =>
          if rateReportS * nanos ≤ now - e.lastRateReport then { a with msgsInWindow := 0 } else a
        lastRateReport :=
          if rateReportS * nanos ≤ now - e.lastRateReport then now else e.lastRateReport } := by
  unfold tick
  simp only []
  by_cases hrate : rateReportS * nanos ≤ now - e.lastRateReport
  · simp only [if_pos hrate]
    rfl
  · simp only [if_neg hrate, Option.map_id']
    rfl

/-- What a tick leaves of the table. -/
theorem tick_aircraft (e : Engine) (now : Instant) (order : List UInt32) (b : UInt32) :
    (e.tick now order).1.aircraft b = (e.kept now b).map fun a =>
      if rateReportS * nanos ≤ now - e.lastRateReport then { a with msgsInWindow := 0 } else a := by
  rw [tick_state]

theorem tick_nServers (e : Engine) (now : Instant) (order : List UInt32) :
    (e.tick now order).1.nServers = e.nServers := by
  rw [tick_state]

/-- What the servers see of an aircraft after a tick. -/
theorem tick_servers (e : Engine) (now : Instant) (order : List UInt32) (b : UInt32) :
    ((e.tick now order).1.aircraft b).map Aircraft.servers =
      ((e.aircraft b).filter fun a => !expired now a).map fun a s =>
        { a.servers s with announced := true } := by
  rw [tick_aircraft, kept]
  cases e.aircraft b with
  | none => rfl
  | some a =>
      cases hexp : expired now a with
      | true => simp [hexp]
      | false => split_ifs <;> simp [hexp]

/-- After a tick every aircraft is announced to every server. -/
theorem tick_announced (e : Engine) (now : Instant) (order : List UInt32) (b : UInt32)
    (a : Aircraft) (h : (e.tick now order).1.aircraft b = some a) (server : Nat) :
    (a.servers server).announced = true := by
  have hservers := tick_servers e now order b
  rw [h, Option.map_some] at hservers
  rcases Option.map_eq_some_iff.mp hservers.symm with ⟨a', _, heq⟩
  rw [← heq]

theorem tick_view_eq (e : Engine) (now : Instant) (order : List UInt32) (server : Nat)
    (b : UInt32) : (e.tick now order).1.view server b =
      ((e.aircraft b).filter fun a => !expired now a).map fun a =>
        ((a.servers server).requested, true) := by
  have hmap := congrArg (Option.map fun f : Nat → PerServer =>
    ((f server).requested, (f server).announced)) (tick_servers e now order b)
  rw [Option.map_map, Option.map_map] at hmap
  exact hmap

/-- A tick drops an aircraft or announces it; one announced now is in the list
    sent to the server. -/
theorem tick_view (e : Engine) (now : Instant) (order : List UInt32) (server : Nat) (b : UInt32)
    (hserver : server < e.nServers) (horder : b ∈ order) :
    (e.tick now order).1.view server b = none ∨
      ∃ req ann, e.view server b = some (req, ann) ∧
        (e.tick now order).1.view server b = some (req, true) ∧
        (ann = false → ∃ addrs, (server, ClientMsg.seen addrs) ∈ (e.tick now order).2 ∧
          hex06 b ∈ addrs) := by
  rw [tick_view_eq]
  cases hb : e.aircraft b with
  | none => exact Or.inl rfl
  | some a =>
      cases hexp : expired now a with
      | true =>
          left
          simp only [Option.filter_some, hexp, Bool.not_true, Bool.false_eq_true, if_false,
            Option.map_none]
      | false =>
        right
        refine ⟨(a.servers server).requested, (a.servers server).announced, ?_, ?_, ?_⟩
        · rw [view, hb, Option.map_some]
        · simp only [Option.filter_some, hexp, Bool.not_false, if_true, Option.map_some]
        · intro hann
          -- The list for the server has the aircraft, so the message is sent.
          have hmem : hex06 b ∈ e.seenList now order server := by
            refine List.mem_map_of_mem (List.mem_filter.mpr ⟨horder, ?_⟩)
            simp only [hb, Option.any_some, hexp, hann, Bool.not_false, Bool.and_self]
          refine ⟨e.seenList now order server, ?_, hmem⟩
          rw [← mem_messagesTo, messagesTo_tick e now order server hserver, announcements,
            if_neg (List.ne_nil_of_mem hmem)]
          exact List.mem_cons_self

theorem after_nServers (e : Engine) (c : Call) : (e.after c).nServers = e.nServers := by
  cases c with
  | reception r now => exact onReception_nServers e r now
  | tick now order => exact tick_nServers e now order
  | startSending s hexes => exact setRequested_nServers e s hexes true
  | stopSending s hexes => exact setRequested_nServers e s hexes false
  | serverReset s => rfl
  | inputReset => rfl

theorem exec_nServers (e : Engine) (cs : List Call) : (exec after e cs).nServers = e.nServers := by
  induction cs generalizing e with
  | nil => rfl
  | cons c cs ih => rw [exec_cons, ih, after_nServers]

/-- A half of an entry. -/
def half (a : Aircraft) (odd : Bool) : Option (Nat × String) :=
  if odd then a.odd else a.even

/-- What is stored as a half satisfies a predicate of aircraft and parity. -/
def Halves (P : UInt32 → Bool → Nat × String → Prop) (e : Engine) : Prop :=
  ∀ addr a odd h, e.aircraft addr = some a → half a odd = some h → P addr odd h

section

variable {P : UInt32 → Bool → Nat × String → Prop} {e : Engine}

/-- An entry of `e'` has the halves of an entry of `e`, or none. -/
theorem Halves.of_entries (e' : Engine) (he : e.Halves P)
    (h : ∀ addr a', e'.aircraft addr = some a' → (∀ odd, half a' odd = none) ∨
      ∃ a, e.aircraft addr = some a ∧ ∀ odd, half a' odd = half a odd) : e'.Halves P := by
  intro addr a' odd q ha' hq
  rcases h addr a' ha' with hnone | ⟨a, ha, hsame⟩
  · rw [hnone odd] at hq
    exact absurd hq (by simp only [reduceCtorEq, not_false_eq_true])
  · rw [hsame odd] at hq
    exact he addr a odd q ha hq

theorem halves_inputReset (e : Engine) : e.inputReset.Halves P := by
  intro addr a' odd q ha' hq
  rcases Option.map_eq_some_iff.mp ha' with ⟨a, _, heq⟩
  rw [← heq, half, ite_self] at hq
  exact absurd hq (by simp only [reduceCtorEq, not_false_eq_true])

theorem Halves.checkReset (he : e.Halves P) (r : Reception) : (e.checkReset r).1.Halves P := by
  rcases checkReset_cases e r with h | h
  · rw [h]
    exact he
  · rw [h]
    exact halves_inputReset e

theorem Halves.touch (he : e.Halves P) (addr : UInt32) (now : Instant) (v : Bool) :
    (e.touch addr now v).Halves P := by
  refine he.of_entries _ ?_
  intro b a' ha'
  by_cases hb : b = addr
  · rw [hb, touch_aircraft_self] at ha'
    rw [hb]
    cases ha : e.aircraft addr with
    | some a =>
        simp only [ha, Option.some.injEq] at ha'
        exact Or.inr ⟨a, rfl, fun odd => by rw [← ha']; rfl⟩
    | none =>
        simp only [ha] at ha'
        split_ifs at ha'
        rw [Option.some.injEq] at ha'
        exact Or.inl fun odd => by rw [← ha']; exact ite_self none
  · rw [touch_aircraft_other e addr b now v hb] at ha'
    exact Or.inr ⟨a', ha', fun _ => rfl⟩

/-- Storing a half leaves the other. -/
theorem half_store (a : Aircraft) (odd odd' : Bool) (r : Reception) :
    half (store a odd r) odd' =
      if odd' = odd then some (r.counts12mhz, hexEncode r.frame) else half a odd' := by
  cases odd <;> cases odd' <;> rfl

theorem Halves.store (he : e.Halves P) (addr : UInt32) (a : Aircraft) (odd : Bool) (r : Reception)
    (ha : e.aircraft addr = some a) (hr : P addr odd (r.counts12mhz, hexEncode r.frame))
    (odd' : Bool) (h : Nat × String) (hh : half (Engine.store a odd r) odd' = some h) :
    P addr odd' h := by
  rw [half_store] at hh
  by_cases hodd : odd' = odd
  · rw [if_pos hodd, Option.some.injEq] at hh
    rw [hodd, ← hh]
    exact hr
  · rw [if_neg hodd] at hh
    exact he addr a odd' h ha hh

theorem Halves.update (he : e.Halves P) (addr : UInt32) (a : Aircraft)
    (ha : ∀ odd h, half a odd = some h → P addr odd h) :
    ({ e with aircraft := Function.update e.aircraft addr (some a) } : Engine).Halves P := by
  intro b a' odd h ha' hh
  by_cases hb : b = addr
  · simp only [hb, Function.update_self, Option.some.injEq] at ha'
    rw [hb]
    rw [← ha'] at hh
    exact ha odd h hh
  · simp only [Function.update_of_ne hb] at ha'
    exact he b a' odd h ha' hh

theorem Halves.pairSync (he : e.Halves P) (addr : UInt32) (odd : Bool) (r : Reception)
    (now : Instant) (hr : P addr odd (r.counts12mhz, hexEncode r.frame)) :
    (e.pairSync addr odd r now).1.Halves P := by
  cases ha : e.aircraft addr with
  | none =>
      unfold Engine.pairSync
      rw [ha]
      exact he
  | some a =>
      have hstore := he.store addr a odd r ha hr
      rcases pairSync_cases e addr odd r now a ha with h | ⟨ev, od, _, _, _, h⟩
      · rw [h]
        exact he.update addr _ hstore
      · rw [h]
        exact he.update addr _ hstore

/-- What a reception stores is a position frame under its own address. -/
theorem Halves.onReception (r : Reception) (now : Instant) (he : (e.checkReset r).1.Halves P)
    (hr : ∀ d, parseDf17Airborne r.frame = some d →
      P d.icao.val d.odd (r.counts12mhz, hexEncode r.frame)) :
    (e.onReception r now).1.Halves P := by
  rcases onReception_cases e r now with h | ⟨addr, _, ⟨_, h⟩ | ⟨_, d, hd, hicao, h⟩ | ⟨v, _, h⟩⟩
  · rw [h]
    exact he
  · rw [h]
    exact he.touch addr now true
  · rw [h]
    refine (he.touch addr now true).pairSync addr d.odd r now ?_
    rw [← hicao]
    exact hr d hd
  · rw [h]
    exact he.touch addr now v

theorem Halves.tick (he : e.Halves P) (now : Instant) (order : List UInt32) :
    (e.tick now order).1.Halves P := by
  refine he.of_entries _ ?_
  intro b a' ha'
  rw [tick_aircraft] at ha'
  rcases Option.map_eq_some_iff.mp ha' with ⟨a1, hkept, heq⟩
  unfold kept at hkept
  cases ha : e.aircraft b with
  | none => simp only [ha, reduceCtorEq] at hkept
  | some a =>
      simp only [ha] at hkept
      split_ifs at hkept
      rw [Option.some.injEq] at hkept
      refine Or.inr ⟨a, rfl, fun odd => ?_⟩
      rw [← heq, ← hkept]
      split_ifs <;> rfl

theorem Halves.setRequested (he : e.Halves P) (server : Nat) (hexes : List String) (v : Bool) :
    (e.setRequested server hexes v).Halves P := by
  unfold Engine.setRequested
  refine List.foldlRecOn hexes _ (motive := fun e' : Engine => e'.Halves P) he ?_
  intro e' he' hex _
  cases fromStrRadix16 hex with
  | none => exact he'
  | some addr =>
      simp only []
      cases ha : e'.aircraft addr with
      | none => exact he'
      | some a => exact he'.update addr _ fun odd h => he' addr a odd h ha

/-- What a call leaves of the halves, if it is no reception. -/
theorem Halves.after (he : e.Halves P) (c : Call) (hc : ∀ r now, c ≠ .reception r now) :
    (e.after c).Halves P := by
  cases c with
  | reception r now => exact absurd rfl (hc r now)
  | tick now order => exact he.tick now order
  | startSending s hexes => exact he.setRequested s hexes true
  | stopSending s hexes => exact he.setRequested s hexes false
  | serverReset s =>
      refine he.of_entries _ ?_
      intro b a' ha'
      rcases Option.map_eq_some_iff.mp ha' with ⟨a, ha, heq⟩
      exact Or.inr ⟨a, ha, fun odd => by rw [← heq]; rfl⟩
  | inputReset => exact halves_inputReset e

end

end Engine

end Client

end MlatBench
