import Mathlib.Data.List.Induction
import MlatBench.Library.Runs
import MlatBench.Theory.Engine

/-!
# Selective Traffic

What a server gets, it asked for. The history of an aircraft and a server has
four kinds of events: the entry is created, the server's connection restarts,
the server asks for the aircraft, or no longer wants it. The request flag of an
entry says that the last of them was a request (`requested_history`), and both
places that send traffic look at the flag (`emission`).

The servers share the table but not their views of it. `Engine.only` forgets
the views of all servers but one; calls that concern the one commute with it
(`only_call`), calls that concern another do not show (`only_call_other`), and
what is emitted to the one server does not change (`emitted_filter`).

## Main definitions

* `subject`: The aircraft a sync or an mlat is about.
* `Mark`, `Engine.mark`, `Engine.history`: The events of an aircraft and a
  server.
* `Engine.Paired`: Stored halves are the aircraft's own frames.
* `Engine.only`: One server's share of the engine.
* `Engine.emitted`: What a run emits to a server.

## Theorems

* `emission`: Traffic goes to those whose flag is set.
* `requested_step`, `requested_history`: The flag follows the history.
* `only_call`, `only_call_other`, `emitted_filter`: The other servers do not show.
* `selective_traffic`: Traffic is what was asked for, and servers are apart.
-/

namespace MlatBench

namespace Client

namespace Engine

open Library Modes Proto

/-- The aircraft the frame in a text speaks of. -/
def textAddress (m : String) : Option UInt32 :=
  (hexDecode m).bind address

/-- Syncs and mlats. -/
def isTraffic : ClientMsg → Bool
  | .sync _ _ _ _ => true
  | .mlat _ _ => true
  | _ => false

/-- The aircraft a sync or an mlat is about; both halves of a sync are of one
    aircraft. -/
def subject : ClientMsg → Option UInt32
  | .sync _ _ em om => if textAddress em = textAddress om then textAddress em else none
  | .mlat _ m => textAddress m
  | _ => none

/-- An event of an aircraft and a server. -/
inductive Mark where
  | created
  | reset
  | started
  | stopped
deriving DecidableEq

/-- A list names an aircraft. -/
def names (hexes : List String) (addr : UInt32) : Bool :=
  hexes.any fun h => fromStrRadix16 h = some addr

/-- What a call is to an aircraft and a server. -/
def mark (server : Nat) (addr : UInt32) (e : Engine) : Call → Option Mark
  | .reception r now =>
    if (e.aircraft addr).isNone ∧ ((e.onReception r now).1.aircraft addr).isSome then some .created
    else none
  | .startSending s hexes => if s = server ∧ names hexes addr then some .started else none
  | .stopSending s hexes => if s = server ∧ names hexes addr then some .stopped else none
  | .serverReset s => if s = server then some .reset else none
  | .tick _ _ => none
  | .inputReset => none

/-- The events of an aircraft and a server along a run. -/
def history (server : Nat) (addr : UInt32) : Engine → List Call → List Mark
  | _, [] => []
  | e, c :: cs => (mark server addr e c).toList ++ history server addr (e.after c) cs

theorem history_append (server : Nat) (addr : UInt32) (e : Engine) (cs : List Call) (c : Call) :
    history server addr e (cs ++ [c]) =
      history server addr e cs ++ (mark server addr (exec after e cs) c).toList := by
  induction cs generalizing e with
  | nil => simp only [List.nil_append, history, List.append_nil, exec_nil]
  | cons d cs ih =>
      rw [List.cons_append, history, history, ih, exec_cons, List.append_assoc]

/-- The flag is set after a call only if the call is a request, or if it was set
    before and the call is no event of the pair. -/
theorem requested_step (e : Engine) (c : Call) (server : Nat) (addr : UInt32) (ann : Bool)
    (h : (e.after c).view server addr = some (true, ann)) :
    mark server addr e c = some .started ∨
      (mark server addr e c = none ∧ ∃ ann', e.view server addr = some (true, ann')) := by
  cases c with
  | reception r now =>
      rcases onReception_view e r now server addr with hsame | ⟨_, _, hnew⟩
      · have hview : e.view server addr = some (true, ann) := hsame.symm.trans h
        have hknown : e.aircraft addr ≠ none := by
          intro hnone
          rw [(view_eq_none e server addr).mpr hnone] at hview
          exact absurd hview (by simp only [reduceCtorEq, not_false_eq_true])
        refine Or.inr ⟨?_, ann, hview⟩
        simp [mark, hknown]
      · -- A new entry has no request.
        have hfresh : some (false, false) = some (true, ann) := hnew.symm.trans h
        simp only [Option.some.injEq, Prod.mk.injEq, Bool.false_eq_true, false_and] at hfresh
  | tick now order =>
      have hview : ((e.aircraft addr).filter fun a => !expired now a).map (fun a =>
          ((a.servers server).requested, true)) = some (true, ann) :=
        (tick_view_eq e now order server addr).symm.trans h
      rcases Option.map_eq_some_iff.mp hview with ⟨a, hfilter, heq⟩
      have ha : e.aircraft addr = some a := (Option.filter_eq_some_iff.mp hfilter).1
      refine Or.inr ⟨rfl, (a.servers server).announced, ?_⟩
      rw [view, ha, Option.map_some, (Prod.mk.inj heq).1]
  | startSending s hexes =>
      by_cases hs : s = server
      · rw [hs] at h ⊢
        cases hn : names hexes addr with
        | true => exact Or.inl (by simp only [mark, hn, and_self, if_true])
        | false =>
            have hview := (setRequested_view e server hexes true addr).symm.trans h
            rcases Option.map_eq_some_iff.mp hview with ⟨w, hw, heq⟩
            unfold names at hn
            rw [hn] at heq
            simp only [Bool.false_eq_true, if_false, Prod.mk.injEq] at heq
            refine Or.inr ⟨?_, w.2, ?_⟩
            · simp only [mark, names, hn, Bool.false_eq_true, and_false, if_false]
            · rw [hw, ← heq.1]
      · have hview := (setRequested_view_other e s server hexes true addr (Ne.symm hs)).symm.trans h
        refine Or.inr ⟨?_, ann, hview⟩
        simp only [mark, hs, false_and, if_false]
  | stopSending s hexes =>
      by_cases hs : s = server
      · rw [hs] at h ⊢
        have hview := (setRequested_view e server hexes false addr).symm.trans h
        rcases Option.map_eq_some_iff.mp hview with ⟨w, hw, heq⟩
        cases hn : names hexes addr with
        | true =>
            -- The call took the request back.
            unfold names at hn
            rw [hn] at heq
            simp only [if_true, Prod.mk.injEq, Bool.false_eq_true, false_and] at heq
        | false =>
            unfold names at hn
            rw [hn] at heq
            simp only [Bool.false_eq_true, if_false, Prod.mk.injEq] at heq
            refine Or.inr ⟨?_, w.2, ?_⟩
            · simp only [mark, names, hn, Bool.false_eq_true, and_false, if_false]
            · rw [hw, ← heq.1]
      · have hview := (setRequested_view_other e s server hexes false addr (Ne.symm hs)).symm.trans h
        refine Or.inr ⟨?_, ann, hview⟩
        simp only [mark, hs, false_and, if_false]
  | serverReset s =>
      by_cases hs : s = server
      · rw [hs] at h
        have hview := (serverReset_view e server addr).symm.trans h
        rcases Option.map_eq_some_iff.mp hview with ⟨w, _, heq⟩
        simp only [Prod.mk.injEq, Bool.false_eq_true, false_and] at heq
      · have hview := (serverReset_view_other e s server addr (Ne.symm hs)).symm.trans h
        refine Or.inr ⟨?_, ann, hview⟩
        simp only [mark, hs, if_false]
  | inputReset => exact Or.inr ⟨rfl, ann, (inputReset_view e server addr).symm.trans h⟩

/-- The flag says that the last event was a request. -/
theorem requested_history (user : String) (t0 : Instant) (n : Nat) (cs : List Call) (server : Nat)
    (addr : UInt32) (ann : Bool)
    (h : (exec after (new user t0 n) cs).view server addr = some (true, ann)) :
    (history server addr (new user t0 n) cs).getLast? = some .started := by
  induction cs using List.reverseRecOn generalizing ann with
  | nil => exact absurd h (by simp only [exec_nil, view, new, Option.map_none, reduceCtorEq,
      not_false_eq_true])
  | append_singleton cs c ih =>
      rw [exec_append, exec_cons, exec_nil] at h
      rw [history_append]
      rcases requested_step _ c server addr ann h with hmark | ⟨hmark, ann', hview⟩
      · rw [hmark, Option.toList_some, List.getLast?_append, List.getLast?_singleton,
          Option.some_or]
      · rw [hmark, Option.toList_none, List.append_nil]
        exact ih ann' hview

/-- Stored halves are frames of the aircraft they are stored with. -/
def Paired (e : Engine) : Prop :=
  ∀ addr a, e.aircraft addr = some a → ∀ half, a.even = some half ∨ a.odd = some half →
    textAddress half.2 = some addr

theorem paired_iff (e : Engine) :
    e.Paired ↔ e.Halves fun addr _ h => textAddress h.2 = some addr := by
  constructor
  · intro he addr a odd h ha hh
    refine he addr a ha h ?_
    cases odd with
    | false => exact Or.inl hh
    | true => exact Or.inr hh
  · rintro he addr a ha h (hev | hod)
    · exact he addr a false h ha hev
    · exact he addr a true h ha hod

theorem textAddress_hexEncode (f : List UInt8) : textAddress (hexEncode f) = address f := by
  rw [textAddress, hexDecode_hexEncode, Option.bind_some]

theorem onReception_paired (e : Engine) (r : Reception) (now : Instant) (he : e.Paired) :
    (e.onReception r now).1.Paired := by
  rw [paired_iff] at he ⊢
  refine Halves.onReception r now (he.checkReset r) ?_
  intro d hd
  rw [textAddress_hexEncode]
  exact address_of_parse r.frame d hd

theorem after_paired (e : Engine) (c : Call) (he : e.Paired) : (e.after c).Paired := by
  by_cases hc : ∃ r now, c = .reception r now
  · rcases hc with ⟨r, now, rfl⟩
    exact onReception_paired e r now he
  · rw [paired_iff] at he ⊢
    exact he.after c fun r now heq => hc ⟨r, now, heq⟩

theorem exec_paired (e : Engine) (cs : List Call) (he : e.Paired) : (exec after e cs).Paired := by
  induction cs generalizing e with
  | nil => exact he
  | cons c cs ih => exact ih _ (after_paired e c he)

theorem new_paired (user : String) (t0 : Instant) (n : Nat) : (new user t0 n).Paired := by
  intro addr a ha
  exact absurd ha (by simp only [new, reduceCtorEq, not_false_eq_true])

/-- What the reset test emits is no traffic. -/
theorem checkReset_quiet (e : Engine) (r : Reception) (server : Nat) (msg : ClientMsg)
    (h : (server, msg) ∈ (e.checkReset r).2) : isTraffic msg = false := by
  rw [mem_checkReset e r server msg h]
  rfl

/-- Announcements and rates are no traffic. -/
theorem tick_quiet (e : Engine) (now : Instant) (order : List UInt32) (server : Nat)
    (msg : ClientMsg) (h : (server, msg) ∈ (e.tick now order).2) : isTraffic msg = false := by
  rw [tick_out, List.mem_append] at h
  rcases h with h | h
  · rcases List.mem_flatMap.mp h with ⟨s, _, hs⟩
    rcases List.mem_map.mp hs with ⟨m, hm, heq⟩
    rw [← (Prod.mk.inj heq).2]
    unfold announcements at hm
    rcases List.mem_append.mp hm with hseen | hlost
    · split_ifs at hseen
      · exact absurd hseen List.not_mem_nil
      · rw [List.mem_singleton.mp hseen]
        rfl
    · split_ifs at hlost
      · exact absurd hlost List.not_mem_nil
      · rw [List.mem_singleton.mp hlost]
        rfl
  · rcases List.mem_flatMap.mp h with ⟨s, _, hs⟩
    rcases List.mem_map.mp hs with ⟨m, hm, heq⟩
    rw [← (Prod.mk.inj heq).2]
    unfold rateReports at hm
    split_ifs at hm
    · rw [List.mem_singleton.mp hm]
      rfl
    · exact absurd hm List.not_mem_nil

theorem forward_requested (e : Engine) (addr : UInt32) (r : Reception) (server : Nat)
    (msg : ClientMsg) (hr : address r.frame = some addr) (h : (server, msg) ∈ e.forward addr r) :
    subject msg = some addr ∧ ∃ ann, e.view server addr = some (true, ann) := by
  rcases mem_forward e addr r server msg h with ⟨a, ha, hmsg, hreq⟩
  refine ⟨?_, (a.servers server).announced, ?_⟩
  · rw [hmsg, subject, textAddress_hexEncode, hr]
  · rw [view, ha, Option.map_some, hreq]

theorem pairSync_requested (e : Engine) (addr : UInt32) (odd : Bool) (r : Reception)
    (now : Instant) (server : Nat) (msg : ClientMsg) (he : e.Paired)
    (hr : address r.frame = some addr) (h : (server, msg) ∈ (e.pairSync addr odd r now).2) :
    subject msg = some addr ∧ ∃ ann, e.view server addr = some (true, ann) := by
  rcases mem_pairSync e addr odd r now server msg h with ⟨a, ev, od, ha, hev, hod, _, hmsg, hdue⟩
  have hframe : textAddress (hexEncode r.frame) = some addr := by rw [textAddress_hexEncode, hr]
  have hstore := ((paired_iff e).mp he).store addr a odd r ha hframe
  have hem := hstore false ev hev
  have hom := hstore true od hod
  rw [store_servers, syncDue, Bool.and_eq_true] at hdue
  refine ⟨?_, (a.servers server).announced, ?_⟩
  · rw [hmsg, subject, hem, hom, if_pos rfl]
  · rw [view, ha, Option.map_some, hdue.1]

/-- Traffic is about an aircraft whose flag is set for the server it goes to. -/
theorem emission (e : Engine) (c : Call) (server : Nat) (msg : ClientMsg) (he : e.Paired)
    (h : (server, msg) ∈ (e.call c).2) (htraffic : isTraffic msg = true) :
    ∃ addr, subject msg = some addr ∧ ∃ ann, (e.after c).view server addr = some (true, ann) := by
  have hquiet : isTraffic msg ≠ false := by
    rw [htraffic]
    exact Bool.noConfusion
  cases c with
  | reception r now =>
      have hreset := ((paired_iff e).mp he).checkReset r
      unfold after
      simp only [call] at h ⊢
      rcases onReception_cases e r now with hc | ⟨addr, hr, ⟨_, hc⟩ | ⟨_, d, _, _, hc⟩ | ⟨v, _, hc⟩⟩
      · rw [hc] at h
        exact absurd (checkReset_quiet e r server msg h) hquiet
      · rw [hc] at h
        exact absurd (checkReset_quiet e r server msg h) hquiet
      · rw [hc] at h ⊢
        rcases List.mem_append.mp h with hout | hsync
        · exact absurd (checkReset_quiet e r server msg hout) hquiet
        · have htouch := (paired_iff _).mpr (hreset.touch addr now true)
          rcases pairSync_requested _ addr d.odd r now server msg htouch hr hsync with
            ⟨hsub, ann, hview⟩
          exact ⟨addr, hsub, ann, (pairSync_view _ addr addr d.odd r now server).trans hview⟩
      · rw [hc] at h ⊢
        rcases List.mem_append.mp h with hout | hfwd
        · exact absurd (checkReset_quiet e r server msg hout) hquiet
        · exact ⟨addr, forward_requested _ addr r server msg hr hfwd⟩
  | tick now order => exact absurd (tick_quiet e now order server msg h) hquiet
  | startSending s hexes => exact absurd h List.not_mem_nil
  | stopSending s hexes => exact absurd h List.not_mem_nil
  | serverReset s => exact absurd h List.not_mem_nil
  | inputReset => exact absurd h List.not_mem_nil

/-- One server's share of an entry: the views of the others are forgotten. -/
def share (server : Nat) (a : Aircraft) : Aircraft :=
  { a with servers := Function.update (fun _ => {}) server (a.servers server) }

/-- One server's share of the engine. -/
def only (server : Nat) (e : Engine) : Engine :=
  { e with aircraft := fun addr => (e.aircraft addr).map (share server) }

theorem share_self (server : Nat) (a : Aircraft) :
    (share server a).servers server = a.servers server := by
  simp only [share, Function.update_self]

theorem only_aircraft (server : Nat) (e : Engine) (addr : UInt32) :
    (only server e).aircraft addr = (e.aircraft addr).map (share server) := rfl

theorem only_update (server : Nat) (e : Engine) (addr : UInt32) (a : Aircraft) :
    only server { e with aircraft := Function.update e.aircraft addr (some a) } =
      { only server e with
        aircraft := Function.update (only server e).aircraft addr (some (share server a)) } := by
  unfold only
  congr 1
  funext b
  by_cases hb : b = addr
  · simp only [hb, Function.update_self, Option.map_some]
  · simp only [Function.update_of_ne hb]

theorem only_only (server : Nat) (e : Engine) : only server (only server e) = only server e := by
  unfold only
  congr 1
  funext b
  rw [Option.map_map]
  congr 1
  funext a
  simp only [Function.comp_apply, share, Function.update_self]

theorem only_inputReset (server : Nat) (e : Engine) :
    only server e.inputReset = (only server e).inputReset := by
  unfold only inputReset
  simp only [Option.map_map]
  rfl

theorem only_checkReset (server : Nat) (e : Engine) (r : Reception) :
    (only server e).checkReset r = (only server (e.checkReset r).1, (e.checkReset r).2) := by
  have hinput : (only server e).inputReset = only server e.inputReset :=
    (only_inputReset server e).symm
  have hcounter : (only server e).lastCounter = e.lastCounter := rfl
  unfold checkReset
  rw [hcounter, hinput]
  cases e.lastCounter with
  | none => rfl
  | some last =>
      simp only []
      by_cases h : resetBackwardS * freq12Mhz < last - r.counts12mhz ∧
          last - r.counts12mhz < wrapMargin
      · simp only [if_pos h]
        rfl
      · simp only [if_neg h]
        rfl

theorem only_touch (server : Nat) (e : Engine) (addr : UInt32) (now : Instant) (v : Bool) :
    (only server e).touch addr now v = only server (e.touch addr now v) := by
  unfold touch
  rw [only_aircraft]
  cases e.aircraft addr with
  | some a =>
      simp only [Option.map_some]
      rw [only_update]
      rfl
  | none =>
      simp only [Option.map_none]
      split_ifs
      · rw [only_update]
        -- A new entry has no views to forget.
        have hnew : share server { Aircraft.new now with msgsInWindow := 1 } =
            { Aircraft.new now with msgsInWindow := 1 } := by
          simp only [share, Aircraft.new]
          rw [Function.update_eq_self]
        rw [hnew]
      · rfl

/-- Of a message to all that pass a test, a server gets it if it passes. -/
theorem messagesTo_filter (server n : Nat) (p : Nat → Bool) (m : ClientMsg) :
    messagesTo server (((List.range n).filter p).map fun s => (s, m)) =
      if server < n ∧ p server = true then [m] else [] := by
  have hflat : ((List.range n).filter p).map (fun s => (s, m)) =
      (List.range n).flatMap fun s => (if p s then [m] else []).map fun m => (s, m) := by
    induction List.range n with
    | nil => rfl
    | cons s ss ih =>
        rw [List.flatMap_cons, ← ih]
        by_cases hs : p s = true
        · rw [List.filter_cons_of_pos hs, if_pos hs]
          rfl
        · rw [List.filter_cons_of_neg hs, if_neg hs]
          rfl
  rw [hflat, messagesTo_flatMap]
  by_cases hlt : server < n
  · simp only [hlt, true_and, if_true]
  · simp only [hlt, false_and, if_false]

theorem only_forward (server : Nat) (e : Engine) (addr : UInt32) (r : Reception) :
    messagesTo server ((only server e).forward addr r) = messagesTo server (e.forward addr r) := by
  unfold forward
  rw [only_aircraft]
  cases e.aircraft addr with
  | none => rfl
  | some a =>
      simp only [Option.map_some]
      rw [messagesTo_filter, messagesTo_filter, share_self]
      rfl

theorem share_store (server : Nat) (a : Aircraft) (odd : Bool) (r : Reception) :
    store (share server a) odd r = share server (store a odd r) := by
  unfold store
  split_ifs <;> rfl

/-- A sync to those due shows to a server as one to itself. -/
theorem share_synced (server : Nat) (a : Aircraft) (due due' : List Nat) (now : Instant)
    (h : server ∈ due ↔ server ∈ due') :
    share server (synced a due now) = share server (synced (share server a) due' now) := by
  simp only [share, synced, Function.update_self, h]

theorem only_pairSync (server : Nat) (e : Engine) (addr : UInt32) (odd : Bool) (r : Reception)
    (now : Instant) :
    only server ((only server e).pairSync addr odd r now).1 =
        only server (e.pairSync addr odd r now).1 ∧
      messagesTo server ((only server e).pairSync addr odd r now).2 =
        messagesTo server (e.pairSync addr odd r now).2 := by
  cases ha : e.aircraft addr with
  | none =>
      have ha' : (only server e).aircraft addr = none := by rw [only_aircraft, ha, Option.map_none]
      unfold pairSync
      rw [ha, ha']
      exact ⟨only_only server e, rfl⟩
  | some a =>
      have ha' : (only server e).aircraft addr = some (share server a) := by
        rw [only_aircraft, ha, Option.map_some]
      rw [pairSync_eq e addr odd r now a ha, pairSync_eq (only server e) addr odd r now _ ha',
        share_store]
      have hstored : only server { only server e with
          aircraft := Function.update (only server e).aircraft addr
            (some (share server (store a odd r))) } =
          only server { e with
            aircraft := Function.update e.aircraft addr (some (store a odd r)) } := by
        rw [← only_update, only_only]
      have hev : (share server (store a odd r)).even = (store a odd r).even := rfl
      have hod : (share server (store a odd r)).odd = (store a odd r).odd := rfl
      rw [hev, hod]
      cases (store a odd r).even with
      | none => exact ⟨hstored, rfl⟩
      | some ev =>
          cases (store a odd r).odd with
          | none => exact ⟨hstored, rfl⟩
          | some od =>
              simp only []
              by_cases hspan : maxPairS * freq12Mhz < (ev.1 - od.1) + (od.1 - ev.1)
              · simp only [if_pos hspan]
                exact ⟨hstored, trivial⟩
              · simp only [if_neg hspan]
                constructor
                · rw [only_update, only_update, only_only]
                  rw [share_synced server (store a odd r) _ ((List.range e.nServers).filter
                    fun s => syncDue now ((share server (store a odd r)).servers s)) now ?_]
                  · rfl
                  · rw [List.mem_filter, List.mem_filter, share_self]
                · rw [messagesTo_filter, messagesTo_filter, share_self]
                  rfl

theorem only_onReception (server : Nat) (e : Engine) (r : Reception) (now : Instant) :
    only server ((only server e).onReception r now).1 = only server (e.onReception r now).1 ∧
      messagesTo server ((only server e).onReception r now).2 =
        messagesTo server (e.onReception r now).2 := by
  unfold onReception
  rw [only_checkReset]
  generalize e.checkReset r = c
  rcases c with ⟨e', out⟩
  simp only [only_touch]
  have hself : only server (only server e') = only server e' ∧
      messagesTo server out = messagesTo server out := ⟨only_only server e', rfl⟩
  cases dfOf r.frame with
  | none => exact hself
  | some df =>
      simp only []
      by_cases h17 : df = 17
      · simp only [if_pos h17]
        by_cases hcrc : crc24 r.frame ≠ 0
        · simp only [if_pos hcrc]
          exact ⟨only_only server e', trivial⟩
        · simp only [if_neg hcrc]
          cases parseDf17Airborne r.frame with
          | none => exact ⟨only_only server _, rfl⟩
          | some d =>
              simp only [messagesTo_append]
              rcases only_pairSync server (e'.touch (be24 (r.frame.drop 1)) now true) d.icao.val
                d.odd r now with ⟨hstate, hout⟩
              exact ⟨hstate, by rw [hout]⟩
      · simp only [if_neg h17]
        by_cases h11 : df = 11
        · simp only [if_pos h11]
          by_cases hcrc : 80 ≤ crc24 r.frame
          · simp only [if_pos hcrc]
            exact ⟨only_only server e', trivial⟩
          · simp only [if_neg hcrc, messagesTo_append, only_forward]
            exact ⟨only_only server _, trivial⟩
        · simp only [if_neg h11]
          by_cases hap : df ∈ ([0, 4, 5, 16, 20, 21] : List UInt8)
          · simp only [if_pos hap, only_aircraft, Option.isNone_map]
            by_cases hknown : (e'.aircraft (apAddress r.frame)).isNone = true
            · simp only [if_pos hknown]
              exact ⟨only_only server e', trivial⟩
            · simp only [if_neg hknown, messagesTo_append, only_forward]
              exact ⟨only_only server _, trivial⟩
          · simp only [if_neg hap]
            exact ⟨only_only server e', trivial⟩

theorem only_any (server : Nat) (e : Engine) (addr : UInt32) (p q : Aircraft → Bool)
    (h : ∀ a, p (share server a) = q a) :
    ((only server e).aircraft addr).any p = (e.aircraft addr).any q := by
  rw [only_aircraft]
  cases e.aircraft addr with
  | none => rfl
  | some a => exact h a

theorem only_kept (server : Nat) (e : Engine) (now : Instant) (addr : UInt32) :
    ((only server e).kept now addr).map (share server) =
      (e.kept now addr).map (share server) := by
  unfold kept
  rw [only_aircraft]
  cases e.aircraft addr with
  | none => rfl
  | some a =>
      have hexp : expired now (share server a) = expired now a := rfl
      simp only [Option.map_some, hexp]
      split_ifs
      · rfl
      · simp only [Option.map_some, share, Function.update_self]

theorem only_tick (server : Nat) (e : Engine) (now : Instant) (order : List UInt32) :
    only server ((only server e).tick now order).1 = only server (e.tick now order).1 ∧
      messagesTo server ((only server e).tick now order).2 =
        messagesTo server (e.tick now order).2 := by
  have hlast : (only server e).lastRateReport = e.lastRateReport := rfl
  constructor
  · rw [tick_state, tick_state, hlast]
    unfold only
    simp only [Option.map_map]
    congr 1
    funext b
    -- Forgetting and starting a count over commute.
    have hkept := congrArg (Option.map fun a : Aircraft =>
      if rateReportS * nanos ≤ now - e.lastRateReport then { a with msgsInWindow := 0 } else a)
      (only_kept server e now b)
    rw [Option.map_map, Option.map_map] at hkept
    have hcomm : (share server ∘ fun a : Aircraft =>
        if rateReportS * nanos ≤ now - e.lastRateReport then { a with msgsInWindow := 0 } else a) =
        (fun a : Aircraft =>
          if rateReportS * nanos ≤ now - e.lastRateReport then { a with msgsInWindow := 0 }
          else a) ∘ share server := by
      funext a
      simp only [Function.comp_apply]
      split_ifs <;> rfl
    rw [hcomm]
    exact hkept
  · rw [tick_out, tick_out]
    simp only [messagesTo_append, messagesTo_flatMap]
    have hn : (only server e).nServers = e.nServers := rfl
    have hseen : (only server e).seenList now order server = e.seenList now order server := by
      unfold seenList
      congr 2
      funext addr
      refine only_any server e addr _ _ ?_
      intro a
      rw [share_self]
      rfl
    have hlost : (only server e).lostList now order server = e.lostList now order server := by
      unfold lostList
      congr 2
      funext addr
      refine only_any server e addr _ _ ?_
      intro a
      rw [share_self]
      rfl
    have hrates : (only server e).rates now order = e.rates now order := by
      unfold rates
      congr 2
      funext addr
      have hkept := congrArg (Option.map fun a : Aircraft => (hex06 addr,
        (round ((a.msgsInWindow : ℚ) * nanos / (now - e.lastRateReport : Nat) * 100) : ℚ) / 100))
        (only_kept server e now addr)
      rw [Option.map_map, Option.map_map] at hkept
      exact hkept
    simp only [announcements, rateReports, hn, hseen, hlost, hrates, hlast]

theorem only_setRequested (server : Nat) (e : Engine) (hexes : List String) (v : Bool) :
    (only server e).setRequested server hexes v = only server (e.setRequested server hexes v) := by
  unfold setRequested
  induction hexes generalizing e with
  | nil => rfl
  | cons h hexes ih =>
      rw [List.foldl_cons, List.foldl_cons]
      cases fromStrRadix16 h with
      | none => exact ih e
      | some addr =>
          simp only [only_aircraft]
          cases ha : e.aircraft addr with
          | none => exact ih e
          | some a =>
              simp only [Option.map_some]
              rw [← ih, only_update]
              simp only [share, Function.update_self, Function.update_idem]

theorem only_setRequested_other (server other : Nat) (e : Engine) (hexes : List String) (v : Bool)
    (hother : other ≠ server) :
    only server (e.setRequested other hexes v) = only server e := by
  unfold setRequested
  refine List.foldlRecOn hexes _ (motive := fun e' : Engine => only server e' = only server e)
    rfl ?_
  intro e' he' h _
  cases fromStrRadix16 h with
  | none => exact he'
  | some addr =>
      simp only []
      cases ha : e'.aircraft addr with
      | none => exact he'
      | some a =>
          simp only []
          rw [only_update, ← he']
          -- The view of this server is what it was.
          have hshare : ∀ ps, some (share server
              { a with servers := Function.update a.servers other ps }) =
              (only server e').aircraft addr := by
            intro ps
            rw [only_aircraft, ha, Option.map_some]
            simp only [share, Function.update_of_ne (Ne.symm hother)]
          rw [hshare, Function.update_eq_self]

theorem only_serverReset (server : Nat) (e : Engine) :
    (only server e).serverReset server = only server (e.serverReset server) := by
  unfold only serverReset
  simp only [Option.map_map]
  congr 1
  funext addr
  congr 1
  funext a
  simp only [Function.comp_apply, share, Function.update_self, Function.update_idem]

theorem only_serverReset_other (server other : Nat) (e : Engine) (hother : other ≠ server) :
    only server (e.serverReset other) = only server e := by
  unfold only serverReset
  simp only [Option.map_map]
  congr 1
  funext addr
  congr 1
  funext a
  simp only [Function.comp_apply, share, Function.update_of_ne (Ne.symm hother)]

/-- A call is no event of another server. -/
def concerns (server : Nat) : Call → Bool
  | .startSending s _ => s = server
  | .stopSending s _ => s = server
  | .serverReset s => s = server
  | _ => true

/-- A server's share after a call, and what the call emits to it, depend on its
    share alone. -/
theorem only_call (server : Nat) (e : Engine) (c : Call) (hc : concerns server c = true) :
    only server ((only server e).after c) = only server (e.after c) ∧
      messagesTo server ((only server e).call c).2 = messagesTo server (e.call c).2 := by
  cases c with
  | reception r now => exact only_onReception server e r now
  | tick now order => exact only_tick server e now order
  | startSending s hexes =>
      have hs : s = server := of_decide_eq_true hc
      rw [hs]
      refine ⟨?_, rfl⟩
      change only server ((only server e).setRequested server hexes true) = _
      rw [only_setRequested, only_only]
      rfl
  | stopSending s hexes =>
      have hs : s = server := of_decide_eq_true hc
      rw [hs]
      refine ⟨?_, rfl⟩
      change only server ((only server e).setRequested server hexes false) = _
      rw [only_setRequested, only_only]
      rfl
  | serverReset s =>
      have hs : s = server := of_decide_eq_true hc
      rw [hs]
      refine ⟨?_, rfl⟩
      change only server ((only server e).serverReset server) = _
      rw [only_serverReset, only_only]
      rfl
  | inputReset =>
      refine ⟨?_, rfl⟩
      change only server (only server e).inputReset = _
      rw [← only_inputReset, only_only]
      rfl

/-- An event of another server does not show. -/
theorem only_call_other (server : Nat) (e : Engine) (c : Call) (hc : concerns server c = false) :
    only server (e.after c) = only server e ∧ messagesTo server (e.call c).2 = [] := by
  cases c with
  | reception r now => exact absurd hc (by simp only [concerns, Bool.true_eq_false,
      not_false_eq_true])
  | tick now order => exact absurd hc (by simp only [concerns, Bool.true_eq_false,
      not_false_eq_true])
  | startSending s hexes =>
      exact ⟨only_setRequested_other server s e hexes true (of_decide_eq_false hc), rfl⟩
  | stopSending s hexes =>
      exact ⟨only_setRequested_other server s e hexes false (of_decide_eq_false hc), rfl⟩
  | serverReset s => exact ⟨only_serverReset_other server s e (of_decide_eq_false hc), rfl⟩
  | inputReset => exact absurd hc (by simp only [concerns, Bool.true_eq_false,
      not_false_eq_true])

/-- What a run emits to a server. -/
def emitted (server : Nat) : Engine → List Call → List ClientMsg
  | _, [] => []
  | e, c :: cs => messagesTo server (e.call c).2 ++ emitted server (e.after c) cs

/-- Leaving out the events of the others changes nothing for a server. -/
theorem emitted_filter (server : Nat) (e e' : Engine) (cs : List Call)
    (h : only server e = only server e') :
    emitted server e cs = emitted server e' (cs.filter (concerns server)) := by
  induction cs generalizing e e' with
  | nil => rfl
  | cons c cs ih =>
      cases hc : concerns server c with
      | true =>
          rcases only_call server e c hc with ⟨hstate, hout⟩
          rcases only_call server e' c hc with ⟨hstate', hout'⟩
          rw [List.filter_cons_of_pos hc, emitted, emitted, ← hout, ← hout', h,
            ih (e.after c) (e'.after c) (by rw [← hstate, ← hstate', h])]
      | false =>
          rcases only_call_other server e c hc with ⟨hstate, hout⟩
          rw [List.filter_cons_of_neg (by rw [hc]; exact Bool.false_ne_true), emitted, hout,
            List.nil_append]
          exact ih (e.after c) e' (hstate.trans h)

/-- Traffic is what the server asked for last, and the events of one server do
    not change what another gets. -/
theorem selective_traffic (user : String) (t0 : Instant) (n : Nat) (cs : List Call) :
    (∀ c server msg, (server, msg) ∈ ((exec after (new user t0 n) cs).call c).2 →
      isTraffic msg = true → ∃ addr, subject msg = some addr ∧
        (history server addr (new user t0 n) (cs ++ [c])).getLast? = some .started) ∧
    ∀ server, emitted server (new user t0 n) cs =
      emitted server (new user t0 n) (cs.filter (concerns server)) := by
  refine ⟨?_, fun server => emitted_filter server _ _ cs rfl⟩
  intro c server msg h htraffic
  have hpaired := exec_paired (new user t0 n) cs (new_paired user t0 n)
  rcases emission _ c server msg hpaired h htraffic with ⟨addr, hsub, ann, hview⟩
  refine ⟨addr, hsub, requested_history user t0 n (cs ++ [c]) server addr ann ?_⟩
  rw [exec_append, exec_cons, exec_nil]
  exact hview

/-- An aircraft is heard and asked for. -/
def askedFor : List Call :=
  [.reception ⟨1000, df11 ⟨0xABCDEF⟩ 0⟩ 0, .startSending 0 ["abcdef"]]

/-- Heard again, it is forwarded. -/
theorem selective_traffic_forwarded :
    (0, .mlat 2000 (hexEncode (df11 ⟨0xABCDEF⟩ 0))) ∈
        ((exec after (new "rx" 0 1) askedFor).call (.reception ⟨2000, df11 ⟨0xABCDEF⟩ 0⟩ 0)).2 ∧
      ∃ addr, subject (.mlat 2000 (hexEncode (df11 ⟨0xABCDEF⟩ 0))) = some addr ∧
        (history 0 addr (new "rx" 0 1)
          (askedFor ++ [.reception ⟨2000, df11 ⟨0xABCDEF⟩ 0⟩ 0])).getLast? = some .started := by
  have hmem : (0, .mlat 2000 (hexEncode (df11 ⟨0xABCDEF⟩ 0))) ∈
      ((exec after (new "rx" 0 1) askedFor).call (.reception ⟨2000, df11 ⟨0xABCDEF⟩ 0⟩ 0)).2 := by
    decide +kernel
  exact ⟨hmem, (selective_traffic "rx" 0 1 askedFor).1 _ 0 _ hmem rfl⟩

end Engine

end Client

end MlatBench
