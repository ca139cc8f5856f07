import MlatBench.Theory.Uploads

/-!
# The Channel of a Link

`Core.Link` has a channel between the engine and the shard that keeps its order and
loses nothing. A session in bytes is such a link: what is in its queue, its batches,
on the wire and with the reader is what is in the link's channel, in the same order.
Each turn of the session is one of the link or none, so a run of the session is a run of
the link, with the same engine and the same shard at its end, if it is one in which
nothing is lost on the way: its batches fit the first buffer of the server's
decompressor, no timer of the server drops a read that has begun (`Uploads.Proper`), and
plain lines are shorter than the server's limit (`Uploads.Speakable`).

Only heartbeats are not in the channel. They are the session's own, and the server
makes nothing of them. A message that finds the queue full is lost to both, so it is
left out here, and like the link's run, the session's is over when the receiver is
no longer in the shard.

## Main definitions

* `Uploads.flying`: The messages on their way.
* `Uploads.actions`: What an event is to the link.
* `Uploads.Shows`: The link is where the session is.

## Theorems

* `Uploads.Flow.next`: The line that is looked at next.
* `Uploads.shows_step`: A turn.
* `Uploads.link_refined`: A run of the session is one of the link.
-/

namespace MlatBench

open Library F64 F64Fn Server Client Framing Proto

namespace Uploads

variable {F τ σ : Type} [F64Fn F] (toVec : Json → List UInt8) (z : Library.Calls UInt8 UInt8 τ)
  (inflate : Library.Calls UInt8 UInt8 σ) (parse : List UInt8 → Option Json) (solver : Solver F)

/-- The messages on their way. -/
def flying (u : Uploads F τ) : List ClientMsg :=
  (u.writer.loop.taken.drop u.heard.length).filter spoken ++ u.queue ++ u.offers

/-- The receiver is in the shard, and the shard runs. -/
def Active (u : Uploads F τ) : Prop :=
  u.state.hung = false ∧ u.state.live u.receiver = true

/-- There is a slot for the message that is to be queued. -/
def Roomy (u : Uploads F τ) : Event F → Prop
  | .offer => u.offers ≠ [] → u.queue.length < upSlots
  | _ => True

/-- What an event is to the link: its own, or nothing. -/
def actions (u : Uploads F τ) : Event F → List (MlatBench.Link.Action F)
  | .tick now order => if u.offers ≠ [] then [] else [.tick now order]
  | .take now ev => if u.offers ≠ [] then [] else [.take now ev]
  | .serve now atScaled =>
    if u.lines = [] then []
    else if u.writer.loop.taken[u.heard.length]? = some .heartbeat then []
    else [.serve now atScaled]
  | .other e => [.other e]
  | _ => []

/-- The link is where the session is. -/
structure Shows (u : Uploads F τ) (l : MlatBench.Link F) : Prop where
  engine : l.engine = u.engine
  server : l.server = u.server
  receiver : l.receiver = u.receiver
  state : l.state = u.state
  requested : l.requested = u.requested
  uplink : l.uplink.map Prod.snd = u.flying

/-- A heartbeat asks for nothing and has the shard do nothing. -/
theorem processLine_heartbeat (requested : List String) (atScaled : F) :
    processLine requested ClientMsg.heartbeat.toJson atScaled = (requested, none, none) := rfl

omit [F64Fn F] in
theorem Shows.active (u : Uploads F τ) (l : MlatBench.Link F) (h : Shows u l) (ha : u.Active) :
    l.Active := by
  unfold MlatBench.Link.Active
  rw [h.state, h.receiver]
  exact ha

omit [F64Fn F] in
/-- What the link does not see does not change what it shows. -/
theorem Shows.keep (u v : Uploads F τ) (l : MlatBench.Link F) (h : Shows u l)
    (hengine : v.engine = u.engine) (hserver : v.server = u.server)
    (hreceiver : v.receiver = u.receiver) (hstate : v.state = u.state)
    (hrequested : v.requested = u.requested) (hflying : v.flying = u.flying) : Shows v l :=
  ⟨h.engine.trans hengine.symm, h.server.trans hserver.symm, h.receiver.trans hreceiver.symm,
    h.state.trans hstate.symm, h.requested.trans hrequested.symm, h.uplink.trans hflying.symm⟩

omit [F64Fn F] in
/-- The engine takes a turn, and what it has for the server goes up. -/
theorem Shows.emit (u : Uploads F τ) (l : MlatBench.Link F) (h : Shows u l)
    (hidle : u.offers = []) (out : Engine × List Outbound) (l' : MlatBench.Link F)
    (hengine : l'.engine = out.1) (hserver : l'.server = l.server)
    (hreceiver : l'.receiver = l.receiver) (hstate : l'.state = l.state)
    (hrequested : l'.requested = l.requested) (connection : Nat)
    (huplink : l'.uplink = l.uplink ++
      (Engine.messagesTo u.server out.2).map fun m => (connection, m)) : Shows (u.emit out) l' where
  engine := hengine
  server := hserver.trans h.server
  receiver := hreceiver.trans h.receiver
  state := hstate.trans h.state
  requested := hrequested.trans h.requested
  uplink := by
    have hmap : ∀ ms : List ClientMsg, (ms.map fun m => (connection, m)).map Prod.snd = ms :=
      fun ms => by rw [List.map_map]; exact List.map_id ms
    rw [huplink, List.map_append, h.uplink, hmap, flying, hidle, List.append_nil]
    rfl

section

variable (whole : List UInt8 → Option (List UInt8)) (enough : Nat → Nat)
  (Text : List UInt8 → Prop) (At : τ → List UInt8 → List UInt8 → Prop)
  (AtD : σ → List UInt8 → List UInt8 → Prop)

variable (hgrows : Grows whole) (hinflate : inflate.Meets whole AtD)
  (hlines : ∀ v, newline ∉ toVec v ∧ toVec v ≠ [])
include hgrows hinflate hlines

omit [F64Fn F] in
/-- The line that is looked at next is that of the next message taken. -/
theorem Flow.next (framed : Bool) (n : Nat) (u : Uploads F τ)
    (hr : Flow toVec inflate parse whole At framed (n + 2) u)
    (hsay : Speakable toVec Text framed u.writer.loop.taken) (line : List UInt8)
    (lines : List (List UInt8)) (hline : u.lines = line :: lines) :
    ∃ m, u.writer.loop.taken[u.heard.length]? = some m ∧
      line = Link.lineFor framed (lineOf toVec m) := by
  have hget : (linesOut inflate (n + 2) framed u.uplink.processed)[u.heard.length]? =
      some line := by
    rw [← List.head?_drop, ← hr.lines, hline]
    rfl
  rcases hr.read_prefix toVec inflate parse whole Text At AtD hgrows hinflate hlines framed n u hsay
    with ⟨more, hmore⟩
  rcases List.getElem?_eq_some_iff.mp hget with ⟨hlt, _⟩
  have htaken := congrArg (fun ls : List (List UInt8) => ls[u.heard.length]?) hmore
  rw [List.getElem?_append_left hlt, hget, List.getElem?_map] at htaken
  rcases Option.map_eq_some_iff.mp htaken.symm with ⟨m, hm, rfl⟩
  exact ⟨m, hm, rfl⟩

/-- A turn of the session is a turn of the link, or none. -/
theorem shows_step (framed : Bool) (n : Nat) (u : Uploads F τ)
    (hr : Flow toVec inflate parse whole At framed (n + 2) u)
    (hsay : Speakable toVec Text framed u.writer.loop.taken)
    (hparse : ∀ m ∈ u.writer.loop.taken,
      parse (Link.lineFor framed (lineOf toVec m)) = some m.toJson)
    (hactive : u.Active) (e : Event F) (hroomy : u.Roomy e) (l : MlatBench.Link F)
    (h : Shows u l) :
    Shows (u.step toVec z inflate (n + 2) parse solver e)
      (exec (MlatBench.Link.step solver) l (u.actions e)) := by
  have hlink := h.active u l hactive
  have hheard : u.heard.length ≤ u.writer.loop.taken.length := by
    have hlen := congrArg List.length (hr.heard_taken toVec inflate parse whole Text At AtD hgrows
      hinflate hlines framed n u hsay hparse)
    rw [List.length_map, List.length_take] at hlen
    omega
  have htaken := fun ev cut =>
    Writer.step_taken toVec z whole At u.writer hr.writer ev cut (n + 2)
  have hkeep := fun v : Uploads F τ => h.keep u v l
  cases e with
  | tick now order =>
      simp only [step, actions]
      by_cases hbusy : u.offers ≠ []
      · rw [if_pos hbusy, if_pos hbusy]
        exact h
      · rw [if_neg hbusy, if_neg hbusy, exec_cons, exec_nil, MlatBench.Link.step, if_pos hlink,
          ← h.engine]
        refine h.emit u l (not_not.mp hbusy) _ _ rfl rfl rfl rfl rfl l.connection ?_
        rw [← h.server]
        rfl
  | take now ev =>
      simp only [step, actions]
      by_cases hbusy : u.offers ≠ []
      · rw [if_pos hbusy, if_pos hbusy]
        exact h
      · rw [if_neg hbusy, if_neg hbusy, exec_cons, exec_nil, MlatBench.Link.step, if_pos hlink,
          ← h.engine]
        refine h.emit u l (not_not.mp hbusy) _ _ rfl rfl rfl rfl rfl
          (if ev = .inputUp then l.connection + 1 else l.connection) ?_
        rw [← h.server]
        rfl
  | offer =>
      simp only [step, actions, exec_nil, offer]
      cases hoffers : u.offers with
      | nil => exact h
      | cons m offers =>
          have hslot := hroomy (by rw [hoffers]; exact List.cons_ne_nil m offers)
          simp only []
          rw [if_pos hslot]
          refine hkeep _ rfl rfl rfl rfl rfl ?_
          simp only [flying, hoffers, List.append_assoc]
          rfl
  | message cut =>
      simp only [step, actions, exec_nil, message]
      cases hqueue : u.queue with
      | nil => exact h
      | cons m queue =>
          have hspoken := hr.spoken m (by rw [hqueue]; exact List.mem_cons_self)
          simp only []
          split_ifs with hover
          · exact h
          · refine hkeep _ rfl rfl rfl rfl rfl ?_
            simp only [flying, htaken, if_neg hover, Writer.said, hqueue]
            rw [List.drop_append_of_le_length hheard, List.filter_append, List.filter_singleton,
              hspoken]
            simp only [List.append_assoc]
            rfl
  | flush cut =>
      refine hkeep _ rfl rfl rfl rfl rfl ?_
      simp only [flying, step, htaken, Writer.said, ite_self, List.append_nil]
  | heartbeat cut =>
      refine hkeep _ rfl rfl rfl rfl rfl ?_
      simp only [flying, step, htaken, Writer.said]
      -- The session's own heartbeat is not one of the link's messages.
      rw [List.drop_append_of_le_length hheard, List.filter_append]
      split_ifs <;> exact congrArg (· ++ u.queue ++ u.offers) (List.append_nil _)
  | poll =>
      simp only [step, actions, exec_nil, poll]
      split_ifs
      · exact h
      · exact hkeep _ rfl rfl rfl rfl rfl rfl
  | push p =>
      simp only [step, actions, exec_nil]
      split_ifs
      · exact h
      · exact hkeep _ rfl rfl rfl rfl rfl rfl
  | idle =>
      simp only [step, actions, exec_nil]
      split_ifs
      · exact h
      · exact hkeep _ rfl rfl rfl rfl rfl rfl
  | serve now atScaled =>
      simp only [step, actions, serve]
      cases hline : u.lines with
      | nil => exact h
      | cons line lines =>
          rcases hr.next toVec inflate parse whole Text At AtD hgrows hinflate hlines framed n u hsay
            line lines hline with ⟨m, hm, rfl⟩
          rcases List.getElem?_eq_some_iff.mp hm with ⟨hlt, hget⟩
          have hrest : u.writer.loop.taken.drop u.heard.length =
              m :: u.writer.loop.taken.drop (u.heard.length + 1) := by
            rw [List.drop_eq_getElem_cons hlt, hget]
          rw [if_neg (List.cons_ne_nil _ lines), hm]
          simp only [hparse m (List.mem_of_getElem? hm)]
          by_cases hbeat : m = .heartbeat
          · subst hbeat
            rw [if_pos rfl, exec_nil]
            refine hkeep _ rfl rfl rfl rfl rfl ?_
            simp only [process, processLine_heartbeat, flying, List.length_append,
              List.length_singleton, hrest]
            rfl
          · rw [if_neg fun heq => hbeat (Option.some.inj heq), exec_cons, exec_nil,
              MlatBench.Link.step, if_pos hlink]
            -- The link has the same message in front.
            have hspoken : spoken m = true := decide_eq_true hbeat
            have hfront := h.uplink
            rw [flying, hrest, List.filter_cons, if_pos hspoken, List.cons_append,
              List.cons_append, List.map_eq_cons_iff] at hfront
            rcases hfront with ⟨⟨connection, m'⟩, rest, huplink, rfl, htail⟩
            have hnext : Shows { u with lines := lines, heard := u.heard ++ [some m'.toJson] }
                { l with uplink := rest } := by
              refine ⟨h.engine, h.server, h.receiver, h.state, h.requested, ?_⟩
              simp only [flying, List.length_append, List.length_singleton]
              exact htail
            simp only [huplink, h.requested, process]
            cases (processLine u.requested m'.toJson atScaled).2.2 with
            | none =>
                exact ⟨hnext.engine, hnext.server, hnext.receiver, hnext.state, rfl, hnext.uplink⟩
            | some up =>
                refine ⟨hnext.engine, hnext.server, hnext.receiver, ?_, rfl, hnext.uplink⟩
                simp only [MlatBench.Link.upload, h.state, h.receiver]
  | other e =>
      simp only [step, actions, exec_cons, exec_nil, MlatBench.Link.step, if_pos hlink, h.receiver]
      split_ifs
      · exact ⟨h.engine, h.server, rfl, congrArg (State.step solver · e) h.state, h.requested,
          h.uplink⟩
      · exact h
  | _ => exact hkeep _ rfl rfl rfl rfl rfl rfl

section

variable (h : z.Flushes whole syncTrailer enough Text At)
  (henough : ∀ k ≤ 64 * 1024, enough k ≤ k + 1024)
include h henough

/-- A run of the session in which the queue has room, the receiver stays in the shard,
    batches fit the server's first buffer, no timer of the server drops a read that has
    begun, and plain lines are short enough to be read, is a run of the link: with the
    engine's turns, the other calls of the shard and the lines looked at in the same order,
    it ends with the same engine and the same shard, and what is on its way in the session
    is in the link's channel. -/
theorem link_refined (framed wantsStats : Bool) (user : String) (now : Instant)
    (nServers server n : Nat) (s : State F) (info : ReceiverInfo F) (es : List (Event F))
    (hproper : Along (step toVec z inflate (n + 2) parse solver)
      (fun u e => u.Proper toVec e ∧ u.Active ∧ u.Roomy e)
      (new z framed wantsStats user now nServers server s info) es) (u : Uploads F τ)
    (hu : u = exec (step toVec z inflate (n + 2) parse solver)
      (new z framed wantsStats user now nServers server s info) es)
    (hsay : Speakable toVec Text framed u.writer.loop.taken)
    (hparse : ∀ m ∈ u.writer.loop.taken,
      parse (Link.lineFor framed (lineOf toVec m)) = some m.toJson) :
    Shows u (exec (MlatBench.Link.step solver) (MlatBench.Link.new user now nServers server s info)
      (translate (step toVec z inflate (n + 2) parse solver) actions
        (new z framed wantsStats user now nServers server s info) es)) := by
  subst hu
  -- From the end: the messages of a shorter run are among those of the whole one.
  induction es using List.reverseRecOn with
  | nil => exact ⟨rfl, rfl, rfl, rfl, rfl, rfl⟩
  | append_singleton es e ih =>
      rw [along_append] at hproper
      rw [exec_append, exec_cons, exec_nil] at hsay hparse ⊢
      rw [translate_append, exec_append, Library.translate, Library.translate, List.append_nil]
      have hgrow := step_taken toVec z inflate parse solver (n + 2)
        (exec (step toVec z inflate (n + 2) parse solver)
          (new z framed wantsStats user now nServers server s info) es) e
      have hsayb := hsay.mono toVec Text framed _ _ hgrow
      have hparseb := fun m hm => hparse m (hgrow.subset hm)
      have hflow := flow_run toVec z inflate parse solver whole enough Text At AtD h henough hgrows
        hinflate hlines framed n _ (flow_start toVec z inflate parse whole enough Text At h framed
          wantsStats user now nServers server (n + 2) s info) es
        (hproper.1.mono _ _ _ (fun _ _ hp => hp.1) _ es) hsayb
      exact shows_step toVec z inflate parse solver whole Text At AtD hgrows hinflate hlines framed n
        _ hflow hsayb hparseb hproper.2.1.2.1 e hproper.2.1.2.2 _ (ih hproper.1 hsayb hparseb)

end

end

section Example

open Client.Batching

/-- The receiver stays in the shard, and the queue has room. -/
theorem active_reset : Along
    (step resetVec resetDeflate (greedy resetWhole) 2 readReset namedSolver)
    (fun u e => u.Proper resetVec e ∧ u.Active ∧ u.Roomy e) resetSession resetTurns := by
  rcases proper_reset with ⟨h0, h1, h2, h3, h4, h5, h6, h7, _⟩
  refine ⟨⟨h0, ?_, trivial⟩, ⟨h1, ?_, fun _ => ?_⟩, ⟨h2, ?_, trivial⟩, ⟨h3, ?_, trivial⟩,
    ⟨h4, ?_, trivial⟩, ⟨h5, ?_, trivial⟩, ⟨h6, ?_, trivial⟩, ⟨h7, ?_, trivial⟩, trivial⟩
  case refine_3 => decide +kernel
  all_goals exact ⟨by decide +kernel, by decide +kernel⟩

theorem link_refined_reset : Shows resetUploads
    (exec (MlatBench.Link.step namedSolver)
      (MlatBench.Link.new "rx" 0 1 0 (State.new 0 true false) (State.exampleRx "rx"))
      (translate
        (step resetVec resetDeflate (greedy resetWhole) 2 readReset namedSolver)
        actions resetSession resetTurns)) :=
  link_refined resetVec resetDeflate (greedy resetWhole) readReset namedSolver
    resetWhole (· + 1024) _ ResetAt _
    (grows_framesWhole _) (greedy_meets _ (grows_framesWhole _)) resetVec_line
    flushes_resetDeflate (fun _ _ => Nat.le_refl _)
    true false "rx" 0 1 0 0 (State.new 0 true false) (State.exampleRx "rx") resetTurns active_reset
    resetUploads rfl speakable_reset readReset_line

end Example

end Uploads

end MlatBench
