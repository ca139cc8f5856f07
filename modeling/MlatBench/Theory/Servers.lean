import MlatBench.Core.Servers
import MlatBench.Library.Runs
import MlatBench.Theory.Engine
import MlatBench.Theory.Traffic

/-!
# One Client for Each Server

A client that feeds several servers is, to each of them, a client of its own. The
servers share the aircraft table, but what the table keeps for a server depends on
what was heard and on that server alone, and so does what it is sent. A queue that
is full loses what is offered to it and nothing else.

So what concerns one server in a run with many (`Client.solo`) is what happens in
a run with that server only, in which the actions and events of the others are
left out (`ownActions`). The engine's operations are taken one by one: each does
the same for a server whether or not the others are there (`Apart`).

## Main definitions

* `Engine.solo`, `Client.solo`: What concerns one server.
* `Engine.Apart`: An operation does the same for each server alone.
* `evFor`, `ownActions`: What concerns one server of events and actions.
* `Mirrors`: A run with many servers and the runs with one.

## Theorems

* `apart_onReception`, `apart_tick`, `onEv_own`: The engine's operations.
* `stepBounded_solo`: One turn.
* `own_client`: A client for each server.
-/

namespace MlatBench

namespace Client

open Library Modes Proto

/-- An entry as one server has it. -/
def Aircraft.solo (a : Aircraft) (server : Nat) : Aircraft :=
  { a with servers := fun _ => a.servers server }

namespace Engine

/-- The engine of a client of one server. -/
def solo (e : Engine) (server : Nat) : Engine :=
  { e with
    nServers := 1
    aircraft := fun addr => (e.aircraft addr).map fun a => a.solo server }

/-- An operation does to a server's part of the engine what it does to that part
    alone, and emits the same to the server. -/
def Apart (op : Engine → Engine × List Outbound) : Prop :=
  ∀ (e : Engine) (server : Nat), server < e.nServers →
    (op e).1.solo server = (op (e.solo server)).1.solo 0 ∧
      messagesTo server (op e).2 = messagesTo 0 (op (e.solo server)).2

theorem solo_solo (e : Engine) (server : Nat) : (e.solo server).solo 0 = e.solo server := by
  unfold solo
  simp only [Option.map_map]
  rfl

theorem solo_aircraft (e : Engine) (server : Nat) (addr : UInt32) :
    (e.solo server).aircraft addr = (e.aircraft addr).map fun a => a.solo server := rfl

/-- Entries of one server are updated as those of all are. -/
theorem solo_update (e : Engine) (server : Nat) (addr : UInt32) (a : Aircraft) :
    ({ e with aircraft := Function.update e.aircraft addr (some a) } : Engine).solo server =
      { e.solo server with
        aircraft := Function.update (e.solo server).aircraft addr (some (a.solo server)) } := by
  unfold solo
  congr 1
  funext b
  by_cases hb : b = addr
  · subst hb
    simp only [Function.update_self, Option.map_some]
  · simp only [Function.update_of_ne hb]

theorem inputReset_solo (e : Engine) (server : Nat) :
    e.inputReset.solo server = (e.solo server).inputReset := by
  unfold inputReset solo
  simp only [Option.map_map]
  rfl

theorem touch_solo (e : Engine) (server : Nat) (addr : UInt32) (now : Instant) (v : Bool) :
    (e.touch addr now v).solo server = (e.solo server).touch addr now v := by
  unfold touch
  rw [solo_aircraft]
  cases e.aircraft addr with
  | some a => exact solo_update e server addr _
  | none =>
      cases v with
      | true => exact solo_update e server addr _
      | false => rfl

/-- What goes to some of the servers goes to one of them if it is among those. -/
theorem messagesTo_due (server n : Nat) (p : Nat → Bool) (m : ClientMsg) (h : server < n) :
    messagesTo server (((List.range n).filter p).map fun s => (s, m)) =
      if p server then [m] else [] := by
  rw [messagesTo_filter]
  exact if_congr (and_iff_right h) rfl rfl

theorem messagesTo_all (server n : Nat) (m : ClientMsg) (h : server < n) :
    messagesTo server ((List.range n).map fun s => (s, m)) = [m] := by
  have hall := messagesTo_due server n (fun _ => true) m h
  rwa [List.filter_true, if_pos rfl] at hall

theorem checkReset_solo (e : Engine) (server : Nat) (r : Reception) (h : server < e.nServers) :
    (e.checkReset r).1.solo server = ((e.solo server).checkReset r).1 ∧
      messagesTo server (e.checkReset r).2 = messagesTo 0 ((e.solo server).checkReset r).2 := by
  have hone : 0 < (e.solo server).nServers := Nat.one_pos
  unfold checkReset
  have hcounter : (e.solo server).lastCounter = e.lastCounter := rfl
  rw [hcounter]
  cases e.lastCounter with
  | none => exact ⟨rfl, rfl⟩
  | some last =>
      simp only []
      split_ifs
      · refine ⟨?_, ?_⟩
        · exact congrArg (fun e' : Engine => { e' with lastCounter := some r.counts12mhz })
            (inputReset_solo e server)
        · rw [messagesTo_all server _ _ h, messagesTo_all 0 _ _ hone]
          rfl
      · exact ⟨rfl, rfl⟩

theorem store_solo (a : Aircraft) (server : Nat) (odd : Bool) (r : Reception) :
    store (a.solo server) odd r = (store a odd r).solo server := by
  unfold store
  split_ifs <;> rfl

/-- The entry after a sync went to those due, as one server has it. -/
theorem synced_solo (a : Aircraft) (server n : Nat) (now : Instant) (h : server < n) :
    (synced a ((List.range n).filter fun s => syncDue now (a.servers s)) now).solo server =
      (synced (a.solo server) ((List.range 1).filter fun s => syncDue now
        ((a.solo server).servers s)) now).solo 0 := by
  unfold synced Aircraft.solo
  congr 1
  funext _
  simp only [List.mem_filter, List.mem_range, h, Nat.one_pos, true_and]

theorem apart_pairSync (addr : UInt32) (odd : Bool) (r : Reception) (now : Instant) :
    Apart fun e => e.pairSync addr odd r now := by
  intro e server h
  have hone : 0 < (e.solo server).nServers := Nat.one_pos
  cases ha : e.aircraft addr with
  | none =>
      have hnone : (e.solo server).aircraft addr = none := by rw [solo_aircraft, ha]; rfl
      unfold pairSync
      simp only [ha, hnone, solo_solo]
      exact ⟨trivial, rfl⟩
  | some a =>
      have hsome : (e.solo server).aircraft addr = some (a.solo server) := by
        rw [solo_aircraft, ha]
        rfl
      have hstored : ∀ b : Aircraft,
          ({ e with aircraft := Function.update e.aircraft addr (some b) } : Engine).solo server =
            ({ e.solo server with
              aircraft := Function.update (e.solo server).aircraft addr (some (b.solo server)) } :
                Engine).solo 0 := by
        intro b
        rw [solo_update, solo_update, solo_solo]
        rfl
      simp only [pairSync_eq e addr odd r now a ha, pairSync_eq _ addr odd r now _ hsome,
        store_solo]
      have heven : ((store a odd r).solo server).even = (store a odd r).even := rfl
      have hodd : ((store a odd r).solo server).odd = (store a odd r).odd := rfl
      rw [heven, hodd]
      cases (store a odd r).even with
      | none => exact ⟨hstored _, rfl⟩
      | some ev =>
          cases (store a odd r).odd with
          | none => exact ⟨hstored _, rfl⟩
          | some od =>
              simp only []
              split_ifs
              · exact ⟨hstored _, rfl⟩
              · refine ⟨?_, ?_⟩
                · rw [solo_update, solo_update, synced_solo _ server _ now h]
                  rw [solo_solo]
                  rfl
                · rw [messagesTo_due server _ _ _ h, messagesTo_due 0 _ _ _ hone]
                  rfl

theorem forward_solo (e : Engine) (server : Nat) (addr : UInt32) (r : Reception)
    (h : server < e.nServers) : messagesTo server (e.forward addr r) =
      messagesTo 0 ((e.solo server).forward addr r) := by
  have hone : 0 < (e.solo server).nServers := Nat.one_pos
  unfold forward
  rw [solo_aircraft]
  cases e.aircraft addr with
  | none => rfl
  | some a =>
      simp only [Option.map_some]
      rw [messagesTo_due server _ _ _ h, messagesTo_due 0 _ _ _ hone]
      rfl

/-- Before a part the engine is compared with the part of it. -/
theorem Apart.of_solo {op : Engine → Engine × List Outbound} (hop : Apart op) (e d : Engine)
    (server : Nat) (h : server < e.nServers) (hd : d.nServers = 1) (hed : e.solo server = d.solo 0) :
    (op e).1.solo server = (op d).1.solo 0 ∧ messagesTo server (op e).2 = messagesTo 0 (op d).2 := by
  have he := hop e server h
  have hd' := hop d 0 (hd ▸ Nat.one_pos)
  rw [hed] at he
  exact ⟨he.1.trans hd'.1.symm, he.2.trans hd'.2.symm⟩

/-- What a reception does behind the reset test. -/
def hear (e : Engine) (r : Reception) (now : Instant) : Engine × List Outbound :=
  match dfOf r.frame with
  | none => (e, [])
  | some df =>
    if df = 17 then
      if crc24 r.frame ≠ 0 then (e, [])
      else
        match parseDf17Airborne r.frame with
        | some d => (e.touch (be24 (r.frame.drop 1)) now true).pairSync d.icao.val d.odd r now
        | none => (e.touch (be24 (r.frame.drop 1)) now true, [])
    else if df = 11 then
      if 80 ≤ crc24 r.frame then (e, [])
      else
        let e := e.touch (be24 (r.frame.drop 1)) now true
        (e, e.forward (be24 (r.frame.drop 1)) r)
    else if df ∈ ([0, 4, 5, 16, 20, 21] : List UInt8) then
      if (e.aircraft (apAddress r.frame)).isNone then (e, [])
      else
        let e := e.touch (apAddress r.frame) now false
        (e, e.forward (apAddress r.frame) r)
    else (e, [])

theorem onReception_eq (e : Engine) (r : Reception) (now : Instant) :
    e.onReception r now = (((e.checkReset r).1.hear r now).1,
      (e.checkReset r).2 ++ ((e.checkReset r).1.hear r now).2) := by
  unfold onReception hear
  generalize e.checkReset r = c
  rcases c with ⟨e', out⟩
  simp only []
  cases dfOf r.frame with
  | none => simp only [List.append_nil]
  | some df =>
      simp only []
      split_ifs
      · rw [List.append_nil]
      · cases parseDf17Airborne r.frame with
        | none => rw [List.append_nil]
        | some d => rfl
      · rw [List.append_nil]
      · rfl
      · rw [List.append_nil]
      · rfl
      · rw [List.append_nil]

/-- A frame is heard and forwarded. -/
theorem apart_touchForward (addr : UInt32) (r : Reception) (now : Instant) (v : Bool) :
    Apart fun e => (e.touch addr now v, (e.touch addr now v).forward addr r) := by
  intro e server h
  have hn : server < (e.touch addr now v).nServers := by rwa [touch_nServers]
  simp only [← touch_solo]
  exact ⟨(solo_solo _ server).symm, forward_solo _ server addr r hn⟩

theorem apart_hear (r : Reception) (now : Instant) : Apart fun e => e.hear r now := by
  intro e server h
  unfold hear
  have hnothing : e.solo server = (e.solo server).solo 0 ∧
      messagesTo server [] = messagesTo 0 [] := ⟨(solo_solo e server).symm, rfl⟩
  cases dfOf r.frame with
  | none => exact hnothing
  | some df =>
      have hknown : ((e.solo server).aircraft (apAddress r.frame)).isNone =
          (e.aircraft (apAddress r.frame)).isNone := by
        rw [solo_aircraft, Option.isNone_map]
      simp only [hknown]
      split_ifs
      · exact hnothing
      · cases parseDf17Airborne r.frame with
        | none =>
            simp only [← touch_solo]
            exact ⟨(solo_solo _ server).symm, rfl⟩
        | some d =>
            simp only [← touch_solo]
            exact apart_pairSync d.icao.val d.odd r now _ server (by rwa [touch_nServers])
      · exact hnothing
      · exact apart_touchForward _ r now true e server h
      · exact hnothing
      · exact apart_touchForward _ r now false e server h
      · exact hnothing

theorem apart_onReception (r : Reception) (now : Instant) : Apart fun e => e.onReception r now := by
  intro e server h
  have hreset := checkReset_solo e server r h
  have hhear := apart_hear r now (e.checkReset r).1 server (by rwa [checkReset_nServers])
  rw [hreset.1] at hhear
  simp only [onReception_eq, messagesTo_append, hreset.2]
  exact ⟨hhear.1, congrArg _ hhear.2⟩

/-- One operation after another. -/
theorem Apart.seq {op next : Engine → Engine × List Outbound} (hop : Apart op) (hnext : Apart next)
    (hn : ∀ e, (op e).1.nServers = e.nServers) :
    Apart fun e => ((next (op e).1).1, (op e).2 ++ (next (op e).1).2) := by
  intro e server h
  have hfirst := hop e server h
  have hone : (op (e.solo server)).1.nServers = 1 := hn _
  have hsecond := hnext.of_solo (op e).1 (op (e.solo server)).1 server (by rwa [hn]) hone hfirst.1
  simp only [messagesTo_append, hfirst.2, hsecond.2]
  exact ⟨hsecond.1, trivial⟩

theorem apart_onReceptions (now : Instant) (rs : List Reception) :
    Apart fun e => e.onReceptions now rs := by
  induction rs with
  | nil => exact fun e server _ => ⟨(solo_solo e server).symm, rfl⟩
  | cons r rs ih =>
      exact (apart_onReception r now).seq ih fun e => onReception_nServers e r now

theorem kept_solo (e : Engine) (server : Nat) (now : Instant) (addr : UInt32) :
    (e.solo server).kept now addr = (e.kept now addr).map fun a => a.solo server := by
  unfold kept
  rw [solo_aircraft]
  cases e.aircraft addr with
  | none => rfl
  | some a =>
      have hexp : expired now (a.solo server) = expired now a := rfl
      simp only [Option.map_some, hexp]
      split_ifs <;> rfl

theorem announcements_solo (e : Engine) (server : Nat) (now : Instant) (order : List UInt32) :
    (e.solo server).announcements now order 0 = e.announcements now order server := by
  have hseen : (e.solo server).seenList now order 0 = e.seenList now order server := by
    unfold seenList
    congr 1
    refine List.filter_congr fun addr _ => ?_
    rw [solo_aircraft]
    cases e.aircraft addr <;> rfl
  have hlost : (e.solo server).lostList now order 0 = e.lostList now order server := by
    unfold lostList
    congr 1
    refine List.filter_congr fun addr _ => ?_
    rw [solo_aircraft]
    cases e.aircraft addr <;> rfl
  unfold announcements
  rw [hseen, hlost]

theorem rateReports_solo (e : Engine) (server : Nat) (now : Instant) (order : List UInt32) :
    (e.solo server).rateReports now order = e.rateReports now order := by
  have hrates : (e.solo server).rates now order = e.rates now order := by
    unfold rates
    congr 1
    refine List.filterMap_congr fun addr _ => ?_
    rw [kept_solo, Option.map_map]
    rfl
  unfold rateReports
  rw [hrates]
  rfl

theorem apart_tick (now : Instant) (order : List UInt32) : Apart fun e => e.tick now order := by
  intro e server h
  have hone : 0 < (e.solo server).nServers := Nat.one_pos
  refine ⟨?_, ?_⟩
  · simp only [tick_state]
    unfold solo
    congr 1
    funext addr
    simp only [Option.map_map]
    have hkept := kept_solo e server now addr
    unfold solo at hkept
    simp only [hkept, Option.map_map]
    refine congrArg (fun f => Option.map f (e.kept now addr)) (funext fun a => ?_)
    simp only [Function.comp]
    split_ifs <;> rfl
  · simp only [messagesTo_tick e now order server h, messagesTo_tick _ now order 0 hone,
      announcements_solo, rateReports_solo]

/-- One address of a request. -/
def request (e : Engine) (server : Nat) (addr : UInt32) (v : Bool) : Engine :=
  match e.aircraft addr with
  | none => e
  | some a =>
    let ps := { a.servers server with requested := v }
    let a := { a with servers := Function.update a.servers server ps }
    { e with aircraft := Function.update e.aircraft addr (some a) }

theorem setRequested_cons (e : Engine) (server : Nat) (h : String) (hexes : List String)
    (v : Bool) : e.setRequested server (h :: hexes) v =
      match fromStrRadix16 h with
      | none => e.setRequested server hexes v
      | some addr => (e.request server addr v).setRequested server hexes v := by
  unfold setRequested
  rw [List.foldl_cons]
  cases fromStrRadix16 h <;> rfl

theorem request_solo (e : Engine) (server : Nat) (addr : UInt32) (v : Bool) :
    (e.request server addr v).solo server = ((e.solo server).request 0 addr v).solo 0 := by
  unfold request
  rw [solo_aircraft]
  cases e.aircraft addr with
  | none => exact (solo_solo e server).symm
  | some a =>
      simp only [Option.map_some]
      rw [solo_update, solo_update, solo_solo]
      simp only [Aircraft.solo, Function.update_self]

theorem request_solo_other (e : Engine) (server s : Nat) (hs : s ≠ server) (addr : UInt32)
    (v : Bool) : (e.request s addr v).solo server = e.solo server := by
  unfold request
  cases ha : e.aircraft addr with
  | none => rfl
  | some a =>
      have hsame : (e.solo server).aircraft addr = some (a.solo server) := by
        rw [solo_aircraft, ha]
        rfl
      simp only []
      rw [solo_update]
      simp only [Aircraft.solo, Function.update_of_ne hs.symm]
      exact congrArg (fun t => ({ e.solo server with aircraft := t } : Engine))
        (Function.update_eq_self_iff.mpr hsame.symm)

theorem setRequested_solo (hexes : List String) (v : Bool) (e d : Engine) (server : Nat)
    (hed : e.solo server = d.solo 0) :
    (e.setRequested server hexes v).solo server = (d.setRequested 0 hexes v).solo 0 := by
  induction hexes generalizing e d with
  | nil => exact hed
  | cons h hexes ih =>
      rw [setRequested_cons, setRequested_cons]
      cases fromStrRadix16 h with
      | none => exact ih e d hed
      | some addr => exact ih _ _ (by rw [request_solo, hed, ← request_solo])

theorem setRequested_solo_other (hexes : List String) (v : Bool) (e : Engine) (server s : Nat)
    (hs : s ≠ server) : (e.setRequested s hexes v).solo server = e.solo server := by
  induction hexes generalizing e with
  | nil => rfl
  | cons h hexes ih =>
      rw [setRequested_cons]
      cases fromStrRadix16 h with
      | none => exact ih e
      | some addr => exact (ih _).trans (request_solo_other e server s hs addr v)

theorem serverReset_solo (e : Engine) (server : Nat) :
    (e.serverReset server).solo server = ((e.solo server).serverReset 0).solo 0 := by
  unfold serverReset solo
  simp only [Option.map_map]
  congr 1
  funext addr
  refine congrArg (fun f => Option.map f (e.aircraft addr)) (funext fun a => ?_)
  simp only [Function.comp, Aircraft.solo, Function.update_self]

theorem serverReset_solo_other (e : Engine) (server s : Nat) (hs : s ≠ server) :
    (e.serverReset s).solo server = e.solo server := by
  unfold serverReset solo
  simp only [Option.map_map]
  congr 1
  funext addr
  refine congrArg (fun f => Option.map f (e.aircraft addr)) (funext fun a => ?_)
  simp only [Function.comp, Aircraft.solo, Function.update_of_ne hs.symm]

end Engine

/-- An event as the client of one server has it, if it concerns that server. -/
def evFor (server : Nat) : Ev → Option Ev
  | .start s hexes => if s = server then some (.start 0 hexes) else none
  | .stop s hexes => if s = server then some (.stop 0 hexes) else none
  | .serverReset s => if s = server then some (.serverReset 0) else none
  | ev => some ev

/-- An event that does not concern a server changes nothing of its part. -/
theorem onEv_other (e : Engine) (server : Nat) (now : Instant) (ev : Ev)
    (hev : evFor server ev = none) :
    (e.onEv now ev).1.solo server = e.solo server ∧
      Engine.messagesTo server (e.onEv now ev).2 = [] := by
  cases ev with
  | receptions rs => exact absurd hev (Option.some_ne_none _)
  | inputUp => exact absurd hev (Option.some_ne_none _)
  | inputDown => exact absurd hev (Option.some_ne_none _)
  | start s hexes =>
      have hs : s ≠ server := fun hs => absurd (hev.symm.trans (if_pos hs)) nofun
      exact ⟨Engine.setRequested_solo_other hexes true e server s hs, rfl⟩
  | stop s hexes =>
      have hs : s ≠ server := fun hs => absurd (hev.symm.trans (if_pos hs)) nofun
      exact ⟨Engine.setRequested_solo_other hexes false e server s hs, rfl⟩
  | serverReset s =>
      have hs : s ≠ server := fun hs => absurd (hev.symm.trans (if_pos hs)) nofun
      exact ⟨Engine.serverReset_solo_other e server s hs, rfl⟩

/-- An event that concerns a server does the same without the others. -/
theorem onEv_own (e : Engine) (server : Nat) (now : Instant) (ev ev' : Ev)
    (h : server < e.nServers) (hev : evFor server ev = some ev') :
    (e.onEv now ev).1.solo server = ((e.solo server).onEv now ev').1.solo 0 ∧
      Engine.messagesTo server (e.onEv now ev).2 =
        Engine.messagesTo 0 ((e.solo server).onEv now ev').2 := by
  have hone : 0 < (e.solo server).nServers := Nat.one_pos
  have hreset : e.inputReset.solo server = (e.solo server).inputReset.solo 0 := by
    rw [Engine.inputReset_solo, Engine.inputReset_solo, Engine.solo_solo]
  cases ev with
  | receptions rs =>
      cases hev
      exact Engine.apart_onReceptions now rs e server h
  | inputUp =>
      cases hev
      exact ⟨hreset, (Engine.messagesTo_all server _ _ h).trans
        (Engine.messagesTo_all 0 _ _ hone).symm⟩
  | inputDown =>
      cases hev
      exact ⟨hreset, (Engine.messagesTo_all server _ _ h).trans
        (Engine.messagesTo_all 0 _ _ hone).symm⟩
  | start s hexes =>
      change (if s = server then some (Ev.start 0 hexes) else none) = some ev' at hev
      split_ifs at hev with hs
      cases hev
      subst hs
      exact ⟨Engine.setRequested_solo hexes true e _ s (Engine.solo_solo e s).symm, rfl⟩
  | stop s hexes =>
      change (if s = server then some (Ev.stop 0 hexes) else none) = some ev' at hev
      split_ifs at hev with hs
      cases hev
      subst hs
      exact ⟨Engine.setRequested_solo hexes false e _ s (Engine.solo_solo e s).symm, rfl⟩
  | serverReset s =>
      change (if s = server then some (Ev.serverReset 0) else none) = some ev' at hev
      split_ifs at hev with hs
      cases hev
      subst hs
      exact ⟨Engine.serverReset_solo e s, rfl⟩

end Client

open Library Proto Client

/-- What concerns one server of a client, as a client of that server has it. -/
def Client.solo (c : Client) (server : Nat) : Client :=
  { engine := c.engine.solo server
    connected := c.connected
    events := c.events.filterMap (evFor server)
    queues := fun _ => c.queues server
    phases := fun _ => c.phases server
    emitted := fun _ => c.emitted server
    received := fun _ => c.received server }

namespace Client

/-- What concerns one server of a turn, as actions of a client of that server. -/
def ownActions (server : Nat) (c : Client) : Action → List Action
  | .take now =>
    match c.events with
    | [] => []
    | ev :: _ => if (evFor server ev).isSome then [.take now] else []
  | .receive s => if s = server then [.receive 0] else []
  | .start s hexes => if s = server then [.start 0 hexes] else []
  | .stop s hexes => if s = server then [.stop 0 hexes] else []
  | .finish s => if s = server then [.finish 0] else []
  | .sendReset s => if s = server then [.sendReset 0] else []
  | .drain s => if s = server then [.drain 0] else []
  | .reconnect s => if s = server then [.reconnect 0] else []
  | a => [a]

theorem evFor_own (server : Nat) (ev ev' : Ev) (h : evFor server ev = some ev') :
    evFor 0 ev' = some ev' := by
  cases ev with
  | receptions rs => cases h; rfl
  | inputUp => cases h; rfl
  | inputDown => cases h; rfl
  | start s hexes =>
      change (if s = server then some (Ev.start 0 hexes) else none) = some ev' at h
      split_ifs at h
      cases h
      rfl
  | stop s hexes =>
      change (if s = server then some (Ev.stop 0 hexes) else none) = some ev' at h
      split_ifs at h
      cases h
      rfl
  | serverReset s =>
      change (if s = server then some (Ev.serverReset 0) else none) = some ev' at h
      split_ifs at h
      cases h
      rfl

theorem filterMap_evFor (server : Nat) (evs : List Ev) :
    (evs.filterMap (evFor server)).filterMap (evFor 0) = evs.filterMap (evFor server) := by
  rw [List.filterMap_filterMap]
  refine List.filterMap_congr fun ev _ => ?_
  cases hev : evFor server ev with
  | none => rfl
  | some ev' => exact evFor_own server ev ev' hev

theorem solo_solo (c : Client) (server : Nat) : (c.solo server).solo 0 = c.solo server := by
  unfold Client.solo
  rw [Engine.solo_solo, filterMap_evFor]

theorem solo_connected (c : Client) (server : Nat) : (c.solo server).connected = c.connected := rfl

theorem solo_phases (c : Client) (server i : Nat) : (c.solo server).phases i = c.phases server := rfl

theorem solo_queues (c : Client) (server i : Nat) : (c.solo server).queues i = c.queues server := rfl

theorem fanOut_solo (c : Client) (server : Nat) (out out' : Engine × List Outbound)
    (hengine : out.1.solo server = out'.1.solo 0)
    (hmsgs : Engine.messagesTo server out.2 = Engine.messagesTo 0 out'.2) :
    (c.fanOut out).solo server = ((c.solo server).fanOut out').solo 0 := by
  unfold fanOut Client.solo
  simp only [hengine, hmsgs, filterMap_evFor]

/-- What does not concern a server leaves its part as it is. -/
theorem fanOut_solo_other (c : Client) (server : Nat) (out : Engine × List Outbound)
    (hengine : out.1.solo server = c.engine.solo server)
    (hmsgs : Engine.messagesTo server out.2 = []) : (c.fanOut out).solo server = c.solo server := by
  unfold fanOut Client.solo
  simp only [hengine, hmsgs, List.foldl_nil, List.append_nil]

theorem tell_solo (c : Client) (server : Nat) (ev ev' : Ev) (h : evFor server ev = some ev') :
    (c.tell ev).solo server = ((c.solo server).tell ev').solo 0 := by
  unfold tell Client.solo
  simp only [List.filterMap_append, List.filterMap_cons, List.filterMap_nil, h,
    evFor_own server ev ev' h, filterMap_evFor, Engine.solo_solo]

theorem tell_solo_other (c : Client) (server : Nat) (ev : Ev) (h : evFor server ev = none) :
    (c.tell ev).solo server = c.solo server := by
  unfold tell Client.solo
  simp only [List.filterMap_append, List.filterMap_cons, List.filterMap_nil, h, List.append_nil]

theorem enter_solo (c : Client) (server : Nat) (p : Phase) :
    (c.enter server p).solo server = ((c.solo server).enter 0 p).solo 0 := by
  unfold enter Client.solo
  simp only [Function.update_self, filterMap_evFor, Engine.solo_solo]

theorem enter_solo_other (c : Client) (server s : Nat) (p : Phase) (hs : s ≠ server) :
    (c.enter s p).solo server = c.solo server := by
  unfold enter Client.solo
  simp only [Function.update_of_ne hs.symm]

theorem forget_solo (c : Client) (server : Nat) (ev ev' : Ev) (h : evFor server ev = some ev') :
    (c.forget ev).solo server = ((c.solo server).forget ev').solo 0 := by
  cases ev with
  | receptions rs => cases h; exact (solo_solo c server).symm
  | inputUp => cases h; exact (solo_solo c server).symm
  | inputDown => cases h; exact (solo_solo c server).symm
  | start s hexes =>
      change (if s = server then some (Ev.start 0 hexes) else none) = some ev' at h
      split_ifs at h
      cases h
      exact (solo_solo c server).symm
  | stop s hexes =>
      change (if s = server then some (Ev.stop 0 hexes) else none) = some ev' at h
      split_ifs at h
      cases h
      exact (solo_solo c server).symm
  | serverReset s =>
      change (if s = server then some (Ev.serverReset 0) else none) = some ev' at h
      split_ifs at h with hs
      cases h
      subst hs
      unfold forget Client.solo
      simp only [Function.update_self, filterMap_evFor, Engine.solo_solo]

theorem forget_solo_other (c : Client) (server : Nat) (ev : Ev) (h : evFor server ev = none) :
    (c.forget ev).solo server = c.solo server := by
  cases ev with
  | serverReset s =>
      have hs : s ≠ server := fun hs => absurd (h.symm.trans (if_pos hs)) nofun
      unfold forget Client.solo
      simp only [Function.update_of_ne hs.symm]
  | _ => rfl

/-- The engine task takes an event. -/
theorem take_solo (c : Client) (server : Nat) (h : server < c.engine.nServers) (now : Instant) :
    (c.stepBounded (.take now)).solo server =
      (exec stepBounded (c.solo server) (ownActions server c (.take now))).solo 0 := by
  cases hev : c.events with
  | nil =>
      have hstep : c.stepBounded (.take now) = c := by unfold stepBounded; simp only [hev]
      have hown : ownActions server c (.take now) = [] := by unfold ownActions; simp only [hev]
      rw [hstep, hown]
      exact (solo_solo c server).symm
  | cons ev events =>
      have hstep : c.stepBounded (.take now) =
          (({ c with events := events } : Client).fanOut (c.engine.onEv now ev)).forget ev := by
        unfold stepBounded
        simp only [hev]
      have hown : ownActions server c (.take now) =
          if (evFor server ev).isSome then [.take now] else [] := by
        unfold ownActions
        simp only [hev]
      rw [hstep, hown]
      cases hfor : evFor server ev with
      | none =>
          have hother := onEv_other c.engine server now ev hfor
          rw [forget_solo_other _ server ev hfor, fanOut_solo_other
            { c with events := events } server _ hother.1 hother.2]
          refine Eq.trans ?_ (solo_solo c server).symm
          unfold Client.solo
          rw [hev, List.filterMap_cons_none hfor]
      | some ev' =>
          have hsame := onEv_own c.engine server now ev ev' h hfor
          have hevents : (c.solo server).events = ev' :: events.filterMap (evFor server) := by
            unfold Client.solo
            rw [hev, List.filterMap_cons_some hfor]
          have halone : exec stepBounded (c.solo server) [.take now] =
              (({ c.solo server with events := events.filterMap (evFor server) } : Client).fanOut
                ((c.engine.solo server).onEv now ev')).forget ev' := by
            rw [exec_cons, exec_nil, stepBounded]
            simp only [hevents]
            rfl
          rw [Option.isSome_some, if_pos rfl, halone, forget_solo _ server ev ev' hfor,
            fanOut_solo _ server _ _ hsame.1 hsame.2]
          have hown' := evFor_own server ev ev' hfor
          rw [forget_solo _ 0 ev' ev' hown', solo_solo]
          exact (forget_solo _ 0 ev' ev' hown').symm

/-- A turn that its task can take or cannot. -/
theorem solo_ite (server : Nat) (p q : Prop) [Decidable p] [Decidable q] (hpq : p ↔ q)
    (c c' d d' : Client) (hc : c.solo server = c'.solo 0) (hd : d.solo server = d'.solo 0) :
    (if p then c else d).solo server = (if q then c' else d').solo 0 := by
  by_cases hp : p
  · rw [if_pos hp, if_pos (hpq.mp hp)]
    exact hc
  · rw [if_neg hp, if_neg fun hq => hp (hpq.mpr hq)]
    exact hd

theorem solo_ite_other (server : Nat) (p : Prop) [Decidable p] (c d : Client)
    (h : c.solo server = d.solo server) : (if p then c else d).solo server = d.solo server := by
  split_ifs
  · exact h
  · rfl

/-- A turn of the task of one server. -/
theorem task_solo (c : Client) (server s : Nat) (a : Nat → Action)
    (hown : ownActions server c (a s) = if s = server then [a 0] else [])
    (hself : (c.stepBounded (a s)).solo s = ((c.solo s).stepBounded (a 0)).solo 0)
    (hother : s ≠ server → (c.stepBounded (a s)).solo server = c.solo server) :
    (c.stepBounded (a s)).solo server =
      (exec stepBounded (c.solo server) (ownActions server c (a s))).solo 0 := by
  rw [hown]
  by_cases hs : s = server
  · subst hs
    rw [if_pos rfl]
    exact hself
  · rw [if_neg hs, hother hs, exec_nil, solo_solo]

theorem receive_solo (c : Client) (server : Nat) :
    (c.step (.receive server)).solo server =
      ((c.solo server).step (.receive 0)).solo 0 := by
  unfold step
  simp only [solo_phases, solo_queues]
  cases c.phases server with
  | session =>
      cases c.queues server with
      | nil => exact (solo_solo c server).symm
      | cons m queue =>
          unfold Client.solo
          simp only [Function.update_self, filterMap_evFor, Engine.solo_solo]
  | ended => exact (solo_solo c server).symm
  | draining => exact (solo_solo c server).symm
  | backoff => exact (solo_solo c server).symm

theorem receive_solo_other (c : Client) (server s : Nat) (hs : s ≠ server) :
    (c.step (.receive s)).solo server = c.solo server := by
  unfold step
  simp only []
  split
  · unfold Client.solo
    simp only [Function.update_of_ne hs.symm]
  · rfl

theorem drain_solo (c : Client) (server : Nat) :
    (c.step (.drain server)).solo server = ((c.solo server).step (.drain 0)).solo 0 := by
  unfold step
  refine solo_ite server _ _ Iff.rfl _ _ _ _ ?_ (solo_solo c server).symm
  rw [solo_queues]
  cases c.queues server with
  | nil =>
      unfold enter Client.solo
      simp only [Function.update_self, filterMap_evFor, Engine.solo_solo]
  | cons m queue =>
      unfold Client.solo
      simp only [Function.update_self, filterMap_evFor, Engine.solo_solo]

theorem drain_solo_other (c : Client) (server s : Nat) (hs : s ≠ server) :
    (c.step (.drain s)).solo server = c.solo server := by
  unfold step
  refine solo_ite_other server _ _ c ?_
  cases c.queues s with
  | nil =>
      unfold enter Client.solo
      simp only [Function.update_of_ne hs.symm]
  | cons m queue =>
      unfold Client.solo
      simp only [Function.update_of_ne hs.symm]

/-- What concerns one server of a turn. -/
theorem stepBounded_solo (c : Client) (server : Nat) (h : server < c.engine.nServers)
    (a : Action) : (c.stepBounded a).solo server =
      (exec stepBounded (c.solo server) (ownActions server c a)).solo 0 := by
  have hnothing : c.solo server = (c.solo server).solo 0 := (solo_solo c server).symm
  cases a with
  | connect =>
      exact solo_ite server _ _ Iff.rfl _ _ _ _ hnothing
        (congrArg (fun d : Client => ({ d with connected := true } : Client))
          (tell_solo c server .inputUp .inputUp rfl))
  | read rs =>
      exact solo_ite server _ _ Iff.rfl _ _ _ _
        (tell_solo c server (.receptions rs) (.receptions rs) rfl) hnothing
  | disconnect =>
      exact solo_ite server _ _ Iff.rfl _ _ _ _
        (congrArg (fun d : Client => ({ d with connected := false } : Client))
          (tell_solo c server .inputDown .inputDown rfl)) hnothing
  | tick now order =>
      have hsame := Engine.apart_tick now order c.engine server h
      exact fanOut_solo c server _ _ hsame.1 hsame.2
  | take now => exact take_solo c server h now
  | receive s =>
      exact task_solo c server s .receive rfl (receive_solo c s) (receive_solo_other c server s)
  | start s hexes =>
      refine task_solo c server s (.start · hexes) rfl ?_ fun hs => ?_
      · exact solo_ite s _ _ Iff.rfl _ _ _ _
          (tell_solo c s (.start s hexes) (.start 0 hexes) (if_pos rfl)) (solo_solo c s).symm
      · exact solo_ite_other server _ _ c (tell_solo_other c server (.start s hexes) (if_neg hs))
  | stop s hexes =>
      refine task_solo c server s (.stop · hexes) rfl ?_ fun hs => ?_
      · exact solo_ite s _ _ Iff.rfl _ _ _ _
          (tell_solo c s (.stop s hexes) (.stop 0 hexes) (if_pos rfl)) (solo_solo c s).symm
      · exact solo_ite_other server _ _ c (tell_solo_other c server (.stop s hexes) (if_neg hs))
  | finish s =>
      refine task_solo c server s .finish rfl ?_ fun hs => ?_
      · exact solo_ite s _ _ Iff.rfl _ _ _ _ (enter_solo c s .ended) (solo_solo c s).symm
      · exact solo_ite_other server _ _ c (enter_solo_other c server s .ended hs)
  | sendReset s =>
      refine task_solo c server s .sendReset rfl ?_ fun hs => ?_
      · refine solo_ite s _ _ Iff.rfl _ _ _ _ ?_ (solo_solo c s).symm
        rw [enter_solo, tell_solo c s (.serverReset s) (.serverReset 0) (if_pos rfl), ← enter_solo]
      · refine solo_ite_other server _ _ c ?_
        rw [enter_solo_other _ server s _ hs,
          tell_solo_other c server (.serverReset s) (if_neg hs)]
  | drain s => exact task_solo c server s .drain rfl (drain_solo c s) (drain_solo_other c server s)
  | reconnect s =>
      refine task_solo c server s .reconnect rfl ?_ fun hs => ?_
      · exact solo_ite s _ _ Iff.rfl _ _ _ _ (enter_solo c s .session) (solo_solo c s).symm
      · exact solo_ite_other server _ _ c (enter_solo_other c server s .session hs)

theorem onEv_nServers (e : Engine) (now : Instant) (ev : Ev) :
    (e.onEv now ev).1.nServers = e.nServers := by
  cases ev with
  | receptions rs =>
      change (e.onReceptions now rs).1.nServers = e.nServers
      induction rs generalizing e with
      | nil => rfl
      | cons r rs ih => exact (ih _).trans (Engine.onReception_nServers e r now)
  | inputUp => rfl
  | inputDown => rfl
  | start s hexes => exact Engine.setRequested_nServers e s hexes true
  | stop s hexes => exact Engine.setRequested_nServers e s hexes false
  | serverReset s => rfl

theorem step_engine (c : Client) (a : Action) (htick : ∀ now order, a ≠ .tick now order)
    (htake : ∀ now, a ≠ .take now) : (c.step a).engine = c.engine := by
  cases a with
  | tick now order => exact absurd rfl (htick now order)
  | take now => exact absurd rfl (htake now)
  | receive s => unfold step; simp only []; split <;> rfl
  | drain s => unfold step; simp only []; split_ifs <;> (try split) <;> rfl
  | _ => unfold step; simp only []; split_ifs <;> rfl

theorem stepBounded_nServers (c : Client) (a : Action) :
    (c.stepBounded a).engine.nServers = c.engine.nServers := by
  cases a with
  | tick now order => exact Engine.tick_nServers c.engine now order
  | take now =>
      unfold stepBounded
      simp only []
      split
      · rfl
      · next ev events hev =>
          cases ev <;> exact onEv_nServers c.engine now _
  | _ => exact congrArg Engine.nServers (step_engine c _ nofun nofun)

/-- All events are those of a client of one server. -/
def OwnEvents (c : Client) : Prop := ∀ ev ∈ c.events, evFor 0 ev = some ev

theorem OwnEvents.tell {c : Client} (h : OwnEvents c) (ev : Ev) (hev : evFor 0 ev = some ev) :
    OwnEvents (c.tell ev) := by
  intro ev' hmem
  rcases List.mem_append.mp hmem with hmem | hmem
  · exact h ev' hmem
  · rw [List.mem_singleton.mp hmem]
    exact hev

theorem OwnEvents.ite {c d : Client} (p : Prop) [Decidable p] (hc : OwnEvents c)
    (hd : OwnEvents d) : OwnEvents (if p then c else d) := by
  split_ifs
  · exact hc
  · exact hd

/-- The action is one of a client of one server. -/
theorem OwnEvents.stepBounded {c : Client} (h : OwnEvents c) (a : Action)
    (ha : ownActions 0 c a = [a]) : OwnEvents (c.stepBounded a) := by
  have hself : ∀ (s : Nat) (b : Nat → Action), ownActions 0 c (b s) = [b s] →
      ownActions 0 c (b s) = (if s = 0 then [b 0] else []) → s = 0 := by
    intro s b hb hown
    by_contra hs
    rw [hb, if_neg hs] at hown
    exact absurd hown (List.cons_ne_nil _ _)
  cases a with
  | connect => exact OwnEvents.ite _ h (OwnEvents.tell h .inputUp rfl)
  | read rs => exact OwnEvents.ite _ (OwnEvents.tell h (.receptions rs) rfl) h
  | disconnect => exact OwnEvents.ite _ (OwnEvents.tell h .inputDown rfl) h
  | tick now order => exact h
  | take now =>
      unfold Client.stepBounded
      simp only []
      split
      · exact h
      · next ev events hev =>
          intro ev' hmem
          refine h ev' ?_
          rw [hev]
          cases ev <;> exact List.mem_cons_of_mem _ hmem
  | receive s =>
      unfold Client.stepBounded step
      simp only []
      split <;> exact h
  | start s hexes =>
      have hs := hself s (.start · hexes) ha rfl
      subst hs
      exact OwnEvents.ite _ (OwnEvents.tell h (.start 0 hexes) rfl) h
  | stop s hexes =>
      have hs := hself s (.stop · hexes) ha rfl
      subst hs
      exact OwnEvents.ite _ (OwnEvents.tell h (.stop 0 hexes) rfl) h
  | finish s => exact OwnEvents.ite _ h h
  | sendReset s =>
      have hs := hself s .sendReset ha rfl
      subst hs
      exact OwnEvents.ite _ (OwnEvents.tell h (.serverReset 0) rfl) h
  | drain s =>
      unfold Client.stepBounded step
      simp only []
      refine OwnEvents.ite _ ?_ h
      split <;> exact h
  | reconnect s => exact OwnEvents.ite _ h h

/-- The client of one server keeps up with the client of all. -/
structure Mirrors (server : Nat) (c d : Client) : Prop where
  inRange : server < c.engine.nServers
  alone : d.engine.nServers = 1
  events : OwnEvents d
  same : c.solo server = d.solo 0

/-- What concerns the server of an action is an action of its own client, or
    nothing. -/
theorem Mirrors.own {server : Nat} {c d : Client} (h : Mirrors server c d) (a : Action) :
    ownActions server c a = [] ∨
      ∃ b, ownActions server c a = [b] ∧ ownActions 0 d b = [b] := by
  have htask : ∀ (s : Nat) (b : Action), ownActions 0 d b = [b] →
      (if s = server then [b] else []) = [] ∨
        ∃ b', (if s = server then [b] else []) = [b'] ∧ ownActions 0 d b' = [b'] := by
    intro s b hb
    split_ifs
    · exact Or.inr ⟨b, rfl, hb⟩
    · exact Or.inl rfl
  cases a with
  | connect => exact Or.inr ⟨.connect, rfl, rfl⟩
  | read rs => exact Or.inr ⟨.read rs, rfl, rfl⟩
  | disconnect => exact Or.inr ⟨.disconnect, rfl, rfl⟩
  | tick now order => exact Or.inr ⟨.tick now order, rfl, rfl⟩
  | take now =>
      unfold ownActions
      simp only []
      cases hev : c.events with
      | nil => exact Or.inl rfl
      | cons ev events =>
          simp only []
          cases hfor : evFor server ev with
          | none => exact Or.inl rfl
          | some ev' =>
              refine Or.inr ⟨.take now, rfl, ?_⟩
              -- The event is the first of the own client's too.
              have hfirst : d.events.filterMap (evFor 0) =
                  ev' :: events.filterMap (evFor server) := by
                have hsame := congrArg Client.events h.same
                unfold Client.solo at hsame
                simp only [hev, List.filterMap_cons_some hfor] at hsame
                exact hsame.symm
              cases hd : d.events with
              | nil =>
                  rw [hd] at hfirst
                  exact absurd hfirst.symm (List.cons_ne_nil _ _)
              | cons dev devents =>
                  have hdev := h.events dev (by rw [hd]; exact List.mem_cons_self)
                  simp only [hdev, Option.isSome_some, if_true]
  | receive s => exact htask s (.receive 0) rfl
  | start s hexes => exact htask s (.start 0 hexes) rfl
  | stop s hexes => exact htask s (.stop 0 hexes) rfl
  | finish s => exact htask s (.finish 0) rfl
  | sendReset s => exact htask s (.sendReset 0) rfl
  | drain s => exact htask s (.drain 0) rfl
  | reconnect s => exact htask s (.reconnect 0) rfl

theorem mirrors_step (server : Nat) (c d : Client) (a : Action) (h : Mirrors server c d) :
    Mirrors server (c.stepBounded a) (exec stepBounded d (ownActions server c a)) := by
  have hstep := stepBounded_solo c server h.inRange a
  have hrange : server < (c.stepBounded a).engine.nServers := by
    rw [stepBounded_nServers]
    exact h.inRange
  rcases h.own a with hown | ⟨b, hown, hb⟩
  · rw [hown] at hstep ⊢
    refine ⟨hrange, h.alone, h.events, ?_⟩
    rw [hstep, exec_nil, solo_solo, exec_nil, h.same]
  · rw [hown] at hstep ⊢
    have hone : 0 < d.engine.nServers := h.alone ▸ Nat.one_pos
    have hmirror := stepBounded_solo d 0 hone b
    rw [hb] at hmirror
    refine ⟨hrange, ?_, h.events.stepBounded b hb, ?_⟩
    · exact (stepBounded_nServers d b).trans h.alone
    · rw [hstep, h.same]
      exact hmirror.symm

/-- What concerns one server of many in a run is what happens to the client of
    that server alone when the others' actions are left out. -/
theorem own_client (user : String) (now : Instant) (nServers server : Nat)
    (h : server < nServers) (as : List Action) :
    (exec stepBounded (new user now nServers) as).solo server =
      (exec stepBounded (new user now 1)
        (translate stepBounded (ownActions server) (new user now nServers) as)).solo 0 :=
  (exec_translate stepBounded stepBounded (ownActions server) (Mirrors server)
    (fun c d a hcd => mirrors_step server c d a hcd) (new user now nServers) (new user now 1) as
    ⟨h, rfl, nofun, rfl⟩).same

/-- The second of two servers takes its message while the first asks for an
    aircraft and ends its session. -/
theorem own_client_second :
    (exec stepBounded (new "rx" 0 2) [.connect, .start 0 ["abcdef"], .take 0, .finish 0, .take 0,
      .receive 1, .sendReset 0, .take 0]).solo 1 =
        (exec stepBounded (new "rx" 0 1) [.connect, .take 0, .receive 0]).solo 0 :=
  own_client "rx" 0 2 1 (by decide) _

end Client

end MlatBench
