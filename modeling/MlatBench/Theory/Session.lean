import Mathlib.Data.List.Induction
import MlatBench.Core.Session
import MlatBench.Library.Runs
import MlatBench.Theory.Engine

/-!
# Who Asked for What

The server keeps what it has asked for on a connection, the client keeps what it
was asked for with each aircraft. The client drops its part when an aircraft has
been silent for a minute, the server never does; an aircraft that is heard again
is announced again, and not asked for again.

In every run where an aircraft is introduced only if the server has not asked for
it, or still has the request on its way, every aircraft that is not marked has its
request on the way down, or its announcement on the way up to a server that will
ask. So when both channels are empty and all aircraft are announced, all are
marked.

## Main definitions

* `Session.Granted`, `Session.Offered`: On the way down, on the way up.
* `Session.Renewed`: What receptions and ticks of such a run meet.
* `Session.Served`: What such runs keep.

## Theorems

* `requestWith_spec`, `request_spec`: What is asked for.
* `offered_seen`: What an announcement offers.
* `served_step`: One event.
* `quiet_requested`: With empty channels, all aircraft announced are asked for.
-/

namespace MlatBench

namespace Server

open Library Proto

theorem toLowercase_hex06 (addr : UInt32) : toLowercase (hex06 addr) = hex06 addr := by
  unfold toLowercase hex06
  rw [map_toLower_padHex, String.ofList_toList]

/-- All that is offered is asked for, and asked for now if it was not before. -/
theorem requestWith_spec (lower : String → String) (requested offers : List String) (h : String) :
    (h ∈ (requestWith lower requested offers).1 ↔ h ∈ requested ∨ ∃ a ∈ offers, lower a = h) ∧
      (h ∈ (requestWith lower requested offers).2 ↔ h ∉ requested ∧ ∃ a ∈ offers, lower a = h) := by
  induction offers using List.reverseRecOn with
  | nil =>
      constructor
      · simp only [requestWith, List.foldl_nil, List.not_mem_nil, false_and, exists_false, or_false]
      · simp only [requestWith, List.foldl_nil, List.not_mem_nil, false_and, exists_false,
          and_false]
  | append_singleton offers o ih =>
      have hone : (∃ a ∈ offers ++ [o], lower a = h) ↔ (∃ a ∈ offers, lower a = h) ∨ lower o = h := by
        simp only [List.mem_append, List.mem_singleton, or_and_right, exists_or, exists_eq_left]
      have hstep : requestWith lower requested (offers ++ [o]) =
          if lower o ∈ (requestWith lower requested offers).1 then
            requestWith lower requested offers
          else (lower o :: (requestWith lower requested offers).1,
            (requestWith lower requested offers).2 ++ [lower o]) := by
        rw [requestWith, List.foldl_append]
        rfl
      rw [hstep, hone]
      by_cases hin : lower o ∈ (requestWith lower requested offers).1
      · rw [if_pos hin]
        by_cases ho : lower o = h
        · -- Asked for at an earlier offer, or before.
          rw [ho] at hin
          have hask := ih.1.mp hin
          refine ⟨iff_of_true hin (Or.inr (Or.inr ho)), ih.2.trans ?_⟩
          tauto
        · rw [or_iff_left ho]
          exact ih
      · rw [if_neg hin]
        by_cases ho : lower o = h
        · have hnot : h ∉ requested := fun hreq => hin (by rw [ho]; exact ih.1.mpr (Or.inl hreq))
          refine ⟨iff_of_true (by rw [ho]; exact List.mem_cons_self) (Or.inr (Or.inr ho)),
            iff_of_true ?_ ⟨hnot, Or.inr ho⟩⟩
          rw [ho]
          exact List.mem_append_right _ List.mem_cons_self
        · rw [or_iff_left ho, List.mem_cons, List.mem_append, List.mem_singleton,
            or_iff_right (Ne.symm ho), or_iff_left (Ne.symm ho)]
          exact ih

theorem request_eq (requested offers : List String) :
    request requested offers = requestWith toLowercase requested offers := rfl

/-- What is asked for now was not asked for and is offered; with it all that is
    offered is asked for. -/
theorem request_spec (requested offers : List String) :
    (∀ h ∈ (request requested offers).1, h ∈ requested ∨ h ∈ (request requested offers).2) ∧
      ∀ h ∈ offers, toLowercase h ∈ (request requested offers).1 := by
  rw [request_eq]
  constructor
  · intro h hmem
    have hspec := requestWith_spec toLowercase requested offers h
    rw [hspec.2]
    by_cases hreq : h ∈ requested
    · exact Or.inl hreq
    · rcases hspec.1.mp hmem with hin | hoffer
      · exact Or.inl hin
      · exact Or.inr ⟨hreq, hoffer⟩
  · intro h hmem
    exact (requestWith_spec toLowercase requested offers _).1.mpr (Or.inr ⟨h, hmem, rfl⟩)

theorem offered_seen (addrs : List String) : offered (ClientMsg.seen addrs).toJson = addrs := by
  have hget : (ClientMsg.seen addrs).toJson.get "seen" = some (.arr (addrs.map .str)) := rfl
  have hnone : (ClientMsg.seen addrs).toJson.get "rate_report" = none := rfl
  unfold offered
  rw [hget, hnone]
  simp only [Option.bind_some, Json.asArray, Option.getD_some, List.filterMap_map, Option.bind_none,
    Option.getD_none, List.map_nil, List.append_nil]
  exact List.filterMap_some

end Server

open Library Proto Client Server

namespace Session

/-- The addresses a line of the server asks for. -/
def started (v : Json) : List String :=
  match ServerMsg.parseLine v with
  | .startSending addrs => addrs
  | _ => []

/-- A request for the aircraft is on its way down. -/
def Granted (s : Session) (a : UInt32) : Prop :=
  ∃ v ∈ s.downlink, hex06 a ∈ started v

/-- An offer of the aircraft is on its way up. -/
def Offered (s : Session) (a : UInt32) : Prop :=
  ∃ v ∈ s.uplink, hex06 a ∈ offered v

/-- An aircraft is introduced only if the server has not asked for it, or still
    has the request on its way; a tick visits the aircraft of the table. -/
def Renewed (s : Session) : Event → Prop
  | .reception r _ => ∀ a, Engine.introduced r.frame = some a → s.engine.aircraft a = none →
      hex06 a ∈ s.requested → s.Granted a
  | .tick _ order => order.Nodup ∧ ∀ a, a ∈ order ↔ s.engine.aircraft a ≠ none
  | _ => True

/-- Every aircraft not marked has its request on the way, or the server will ask
    once its announcement arrives. -/
structure Served (s : Session) : Prop where
  server : s.server < s.engine.nServers
  lines : ∀ v ∈ s.downlink, ServerMsg.parseLine v = .startSending (started v)
  entries : ∀ a ann, s.engine.view s.server a = some (false, ann) →
    s.Granted a ∨ (hex06 a ∉ s.requested ∧ (ann = true → s.Offered a))

theorem served_new (user : String) (now : Instant) (nServers server : Nat)
    (h : server < nServers) : Served (new user now nServers server) where
  server := h
  lines _ hv := absurd hv List.not_mem_nil
  entries _ _ hview := absurd hview (Option.some_ne_none _).symm

theorem mem_send (s : Session) (out : Engine × List Outbound) (m : ClientMsg)
    (h : (s.server, m) ∈ out.2) : m.toJson ∈ (s.send out).uplink := by
  refine List.mem_append_right _ (List.mem_map.mpr ⟨(s.server, m), ?_, rfl⟩)
  exact List.mem_filter.mpr ⟨h, decide_eq_true rfl⟩

theorem Offered.send (s : Session) (out : Engine × List Outbound) (a : UInt32)
    (h : s.Offered a) : (s.send out).Offered a := by
  rcases h with ⟨v, hv, ha⟩
  exact ⟨v, List.mem_append_left _ hv, ha⟩

theorem served_reception (s : Session) (h : Served s) (r : Reception) (now : Instant)
    (hnew : s.Renewed (.reception r now)) : Served (s.send (s.engine.onReception r now)) where
  server := by
    have hn := Engine.onReception_nServers s.engine r now
    exact hn ▸ h.server
  lines := h.lines
  entries a ann hview := by
    have hview : (s.engine.onReception r now).1.view s.server a = some (false, ann) := hview
    rcases s.engine.onReception_view r now s.server a with hsame | ⟨hintro, hnone, hfresh⟩
    · rw [hsame] at hview
      rcases h.entries a ann hview with hg | ⟨hreq, hoff⟩
      · exact Or.inl hg
      · exact Or.inr ⟨hreq, fun hann => Offered.send s _ a (hoff hann)⟩
    · rw [hfresh, Option.some.injEq, Prod.mk.injEq] at hview
      by_cases hreq : hex06 a ∈ s.requested
      · exact Or.inl (hnew a hintro ((s.engine.view_eq_none s.server a).mp hnone) hreq)
      · refine Or.inr ⟨hreq, fun hann => ?_⟩
        rw [← hview.2] at hann
        exact absurd hann Bool.false_ne_true

theorem served_tick (s : Session) (h : Served s) (now : Instant) (order : List UInt32)
    (horder : s.Renewed (.tick now order)) : Served (s.send (s.engine.tick now order)) where
  server := by
    have hn := Engine.tick_nServers s.engine now order
    exact hn ▸ h.server
  lines := h.lines
  entries a ann hview := by
    have hview : (s.engine.tick now order).1.view s.server a = some (false, ann) := hview
    by_cases htable : a ∈ order
    · rcases s.engine.tick_view now order s.server a h.server htable with
        hnone | ⟨req, ann', hbefore, hafter, hseen⟩
      · rw [hnone] at hview
        exact absurd hview (Option.some_ne_none _).symm
      · rw [hafter, Option.some.injEq, Prod.mk.injEq] at hview
        rw [hview.1] at hbefore
        rcases h.entries a ann' hbefore with hg | ⟨hreq, hoff⟩
        · exact Or.inl hg
        · refine Or.inr ⟨hreq, fun _ => ?_⟩
          cases ann' with
          | true => exact Offered.send s _ a (hoff rfl)
          | false =>
              rcases hseen rfl with ⟨addrs, hsent, hmem⟩
              refine ⟨_, mem_send s _ _ hsent, ?_⟩
              rw [offered_seen]
              exact hmem
    · -- An aircraft that is not in the table stays out of it.
      have hnone : s.engine.aircraft a = none := by
        by_contra hne
        exact htable ((horder.2 a).mpr hne)
      have hservers := s.engine.tick_servers now order a
      rw [hnone] at hservers
      have hout : (s.engine.tick now order).1.aircraft a = none := Option.map_eq_none_iff.mp hservers
      rw [(Engine.view_eq_none _ s.server a).mpr hout] at hview
      exact absurd hview (Option.some_ne_none _).symm

theorem started_reply (fresh : List String) :
    ServerMsg.parseLine (.obj [("start_sending", .arr (fresh.map .str))]) =
      .startSending fresh := by
  have hlist : stringList (.arr (fresh.map Json.str)) = fresh := by
    simp only [stringList, Json.asArray, Option.getD_some, List.filterMap_map]
    exact List.filterMap_some
  have hparse : ServerMsg.parseLine (.obj [("start_sending", .arr (fresh.map .str))]) =
      .startSending (stringList (.arr (fresh.map Json.str))) := rfl
  rw [hparse, hlist]

theorem served_serve (s : Session) (h : Served s) (atScaled : ℚ) (v : Json) (rest : List Json)
    (hup : s.uplink = v :: rest) : Served { s with
      uplink := rest
      requested := (processLine s.requested v atScaled).1
      downlink := s.downlink ++ (processLine s.requested v atScaled).2.1.toList } := by
  have hspec := request_spec s.requested (offered v)
  have hreq : (processLine s.requested v atScaled).1 = (request s.requested (offered v)).1 := rfl
  have hreply : (processLine s.requested v atScaled).2.1 =
      if (request s.requested (offered v)).2 = [] then none
      else some (.obj [("start_sending", .arr ((request s.requested (offered v)).2.map .str))]) := rfl
  rw [hreq, hreply]
  generalize request s.requested (offered v) = q at hspec ⊢
  constructor
  · exact h.server
  · intro w hw
    rcases List.mem_append.mp hw with hw | hw
    · exact h.lines w hw
    · rw [Option.mem_toList] at hw
      by_cases hq : q.2 = []
      · rw [if_pos hq] at hw
        exact absurd hw (Option.some_ne_none _).symm
      · rw [if_neg hq, Option.some.injEq] at hw
        rw [← hw, started, started_reply]
  · intro a ann hview
    rcases h.entries a ann hview with ⟨w, hw, hmem⟩ | ⟨hnot, hoff⟩
    · exact Or.inl ⟨w, List.mem_append_left _ hw, hmem⟩
    · by_cases hasked : hex06 a ∈ q.1
      · -- The server asks now.
        have hfresh : hex06 a ∈ q.2 := (hspec.1 _ hasked).resolve_left hnot
        refine Or.inl ⟨.obj [("start_sending", .arr (q.2.map .str))], ?_, ?_⟩
        · refine List.mem_append_right _ ?_
          rw [if_neg (List.ne_nil_of_mem hfresh), Option.mem_toList]
        · rw [started, started_reply]
          exact hfresh
      · refine Or.inr ⟨hasked, fun hann => ?_⟩
        rcases hoff hann with ⟨w, hw, hmem⟩
        rw [hup] at hw
        rcases List.mem_cons.mp hw with rfl | hw
        · have hlow := hspec.2 _ hmem
          rw [toLowercase_hex06] at hlow
          exact absurd hlow hasked
        · exact ⟨w, hw, hmem⟩

theorem served_obey (s : Session) (h : Served s) (v : Json) (rest : List Json)
    (hdown : s.downlink = v :: rest) :
    Served { s with downlink := rest, engine := obeyLine s.engine s.server v } := by
  have hline := h.lines v (by rw [hdown]; exact List.mem_cons_self)
  have hobey : obeyLine s.engine s.server v = s.engine.startSending s.server (started v) := by
    rw [obeyLine, hline]
  rw [hobey]
  constructor
  · have hn := Engine.setRequested_nServers s.engine s.server (started v) true
    exact hn ▸ h.server
  · exact fun w hw => h.lines w (by rw [hdown]; exact List.mem_cons_of_mem v hw)
  · intro a ann hview
    have hview : (s.engine.startSending s.server (started v)).view s.server a =
      some (false, ann) := hview
    rw [Engine.startSending, Engine.setRequested_view] at hview
    rcases Option.map_eq_some_iff.mp hview with ⟨⟨req, ann'⟩, hbefore, heq⟩
    rw [Prod.mk.injEq] at heq
    have hann : ann' = ann := heq.2
    have hnamed : ¬ ((started v).any fun h => fromStrRadix16 h = some a) = true := by
      intro hany
      rw [if_pos hany] at heq
      exact absurd heq.1.symm Bool.false_ne_true
    rw [if_neg hnamed] at heq
    have hreq : req = false := heq.1
    rw [hreq, hann] at hbefore
    rcases h.entries a ann hbefore with ⟨w, hw, hmem⟩ | hwait
    · rw [hdown] at hw
      rcases List.mem_cons.mp hw with rfl | hw
      · -- The line just obeyed would have marked the aircraft.
        refine absurd (List.any_eq_true.mpr ⟨_, hmem, ?_⟩) hnamed
        rw [fromStrRadix16_hex06]
        exact decide_eq_true rfl
      · exact Or.inl ⟨w, hw, hmem⟩
    · exact Or.inr hwait

theorem served_step (s : Session) (e : Event) (h : Served s) (hnew : s.Renewed e) :
    Served (s.step e) := by
  cases e with
  | reception r now => exact served_reception s h r now hnew
  | tick now order => exact served_tick s h now order hnew
  | serve atScaled =>
      simp only [step]
      split
      · exact h
      · next v rest hup => exact served_serve s h atScaled v rest hup
  | obey =>
      simp only [step]
      split
      · exact h
      · next v rest hdown => exact served_obey s h v rest hdown

theorem exec_server (s : Session) (es : List Event) : (exec step s es).server = s.server := by
  refine List.foldlRecOn es step (motive := fun s' : Session => s'.server = s.server) rfl ?_
  intro s' h e _
  cases e with
  | reception r now => exact h
  | tick now order => exact h
  | serve atScaled =>
      simp only [step]
      split <;> exact h
  | obey =>
      simp only [step]
      split <;> exact h

/-- In every run that introduces no aircraft whose request the server has already
    made and delivered: when both channels are empty and every aircraft in the
    table is announced to the server, every aircraft in the table is asked for. -/
theorem quiet_requested (user : String) (now : Instant) (nServers server : Nat)
    (hserver : server < nServers) (es : List Event)
    (h : Along step Renewed (new user now nServers server) es) (s : Session)
    (hs : s = exec step (new user now nServers server) es) (hup : s.uplink = [])
    (hdown : s.downlink = [])
    (hann : ∀ addr a, s.engine.aircraft addr = some a → (a.servers server).announced = true) :
    ∀ addr a, s.engine.aircraft addr = some a → (a.servers server).requested = true := by
  have hhome : s.server = server := by
    rw [hs, exec_server]
    rfl
  have hserved : Served s := by
    rw [hs]
    exact Along.invariant step Renewed Served served_step _ es
      (served_new user now nServers server hserver) h
  intro addr a ha
  by_contra hreq
  rw [Bool.not_eq_true] at hreq
  have hview : s.engine.view s.server addr = some (false, true) := by
    rw [hhome, Engine.view, ha, Option.map_some, hreq, hann addr a ha]
  rcases hserved.entries addr true hview with ⟨v, hv, _⟩ | ⟨_, hoff⟩
  · rw [hdown] at hv
    exact absurd hv List.not_mem_nil
  · rcases hoff rfl with ⟨v, hv, _⟩
    rw [hup] at hv
    exact absurd hv List.not_mem_nil

theorem serve_engine (s : Session) (atScaled : ℚ) : (s.step (.serve atScaled)).engine = s.engine := by
  simp only [step]
  split <;> rfl

theorem reception_engine (s : Session) (r : Reception) (now : Instant) :
    (s.step (.reception r now)).engine = (s.engine.onReception r now).1 := rfl

/-- Requests leave announcements alone. -/
theorem obey_announced (s : Session) (h : ∀ addr a, s.engine.aircraft addr = some a →
    (a.servers s.server).announced = true) (addr : UInt32) (a : Aircraft)
    (ha : (s.step .obey).engine.aircraft addr = some a) :
    (a.servers s.server).announced = true := by
  have hset : ∀ hexes v, (s.engine.setRequested s.server hexes v).aircraft addr = some a →
      (a.servers s.server).announced = true := by
    intro hexes v ha
    have hview := s.engine.setRequested_view s.server hexes v addr
    rw [Engine.view, ha, Option.map_some] at hview
    rcases Option.map_eq_some_iff.mp hview.symm with ⟨w, hw, heq⟩
    rcases Option.map_eq_some_iff.mp hw with ⟨a', ha', rfl⟩
    rw [Prod.mk.injEq] at heq
    rw [← heq.2]
    exact h addr a' ha'
  simp only [step] at ha
  split at ha
  · exact h addr a ha
  · simp only [obeyLine] at ha
    split at ha
    · exact hset _ _ ha
    · exact hset _ _ ha
    · exact h addr a ha

/-- With the last tick served, every aircraft is announced. -/
theorem announced_served (s : Session) (now : Instant) (order : List UInt32) (atScaled : ℚ) :
    ∀ addr a, (exec step s [.tick now order, .serve atScaled]).engine.aircraft addr = some a →
      ∀ server, (a.servers server).announced = true := by
  intro addr a ha server
  rw [exec_cons, exec_cons, exec_nil, serve_engine] at ha
  exact Engine.tick_announced s.engine now order addr a ha server

/-- An all-call reply of the aircraft `3c6444`. -/
def exampleReply : Reception :=
  { counts12mhz := 0, frame := [0x5d, 0x3c, 0x64, 0x44, 0xdc, 0x6d, 0x6a] }

/-- An aircraft is heard, announced and asked for. -/
def exampleFirst : List Event :=
  [.reception exampleReply 0, .tick 0 [0x3c6444], .serve 0, .obey]

/-- It is silent for a minute, dropped, and heard and announced again. -/
def exampleAgain : List Event :=
  [.tick (61 * nanos) [0x3c6444], .serve 0, .reception exampleReply (62 * nanos),
    .tick (62 * nanos) [0x3c6444], .serve 0]

/-- The state after those events. -/
def exampleSession (es : List Event) : Session :=
  exec step (new "rx" 0 1 0) es

theorem quiet_requested_first :
    (exampleSession exampleFirst).engine.aircraft 0x3c6444 ≠ none ∧
      ∀ addr a, (exampleSession exampleFirst).engine.aircraft addr = some a →
        (a.servers 0).requested = true := by
  have hintro : Engine.introduced exampleReply.frame = some 0x3c6444 := by decide +kernel
  -- The table has what was heard.
  have htable : ∀ a, a ∈ [0x3c6444] ↔
      ((new "rx" 0 1 0).step (.reception exampleReply 0)).engine.aircraft a ≠ none := by
    intro a
    rw [List.mem_singleton]
    constructor
    · rintro rfl
      rw [← Option.isSome_iff_ne_none]
      decide +kernel
    · intro hne
      rw [reception_engine] at hne
      have hempty : (new "rx" 0 1 0).engine.view 0 a = none := rfl
      rcases (new "rx" 0 1 0).engine.onReception_view exampleReply 0 0 a with hsame | ⟨ha, _⟩
      · rw [hempty, Engine.view_eq_none] at hsame
        exact absurd hsame hne
      · rw [hintro, Option.some.injEq] at ha
        exact ha.symm
  refine ⟨?_, quiet_requested "rx" 0 1 0 Nat.one_pos exampleFirst ?_ (exampleSession exampleFirst)
    rfl ?_ ?_ ?_⟩
  · rw [← Option.isSome_iff_ne_none]
    decide +kernel
  · refine ⟨fun a _ _ hreq => absurd hreq List.not_mem_nil, ⟨List.nodup_singleton _, htable⟩,
      trivial, trivial, trivial⟩
  · rw [← List.length_eq_zero_iff]
    decide +kernel
  · rw [← List.length_eq_zero_iff]
    decide +kernel
  · intro addr a ha
    have hsplit : exampleFirst = [.reception exampleReply 0] ++
        ([.tick 0 [0x3c6444], .serve 0] ++ [.obey]) := rfl
    rw [exampleSession, hsplit, exec_append, exec_append, exec_cons, exec_nil] at ha
    have hann := obey_announced _ (fun b c hc => announced_served _ _ _ _ b c hc _) addr a ha
    rw [exec_server, exec_server] at hann
    exact hann

/-- Announced again, the aircraft is not asked for again. -/
theorem heard_again_not_requested :
    (exampleSession (exampleFirst ++ exampleAgain)).uplink = [] ∧
      (exampleSession (exampleFirst ++ exampleAgain)).downlink = [] ∧
      (∀ addr a, (exampleSession (exampleFirst ++ exampleAgain)).engine.aircraft addr =
        some a → (a.servers 0).announced = true) ∧
      ((exampleSession (exampleFirst ++ exampleAgain)).engine.aircraft 0x3c6444).any
        (fun a => !(a.servers 0).requested) = true := by
  refine ⟨?_, ?_, ?_, ?_⟩
  · rw [← List.length_eq_zero_iff]
    decide +kernel
  · rw [← List.length_eq_zero_iff]
    decide +kernel
  · intro addr a ha
    have hsplit : exampleFirst ++ exampleAgain = (exampleFirst ++ exampleAgain.take 3) ++
        [.tick (62 * nanos) [0x3c6444], .serve 0] := rfl
    rw [exampleSession, hsplit, exec_append] at ha
    exact announced_served _ _ _ _ addr a ha 0
  · decide +kernel

end Session

end MlatBench
