import MlatBench.Core.Client
import MlatBench.Library.Runs

/-!
# Reconnects

A session that ends tells the engine through the event channel and empties its
queue by itself. What the next session gets should be what the engine emits for
the server after it took the reset. The two ends of this do not wait for each
other: the drain can be over before the reset is taken, and then what is emitted
in between is stale; or the reset can be taken while the drain still runs, and
then what is emitted in between is lost.

If the engine has nothing for the server between the two, the sessions are
isolated.

## Main definitions

* `Client.fresh`: What the engine emitted since it took the last reset sent.
* `Client.Isolated`: A session has what is fresh, no more and no less.
* `Client.Undisturbed`: Nothing is emitted between reset and drain.

## Theorems

* `prepared_step`: What a turn keeps.
* `session_isolation`: Undisturbed sessions are isolated.
* `undisturbed_iff`: The condition is exact.
* `reset_and_drain_race`: Both orders of reset and drain go wrong.
-/

namespace MlatBench

namespace Client

open Library Proto

/-- The engine has not taken the reset of the last session yet. -/
def Pending (c : Client) (server : Nat) : Prop :=
  Ev.serverReset server ∈ c.events

instance (c : Client) (server : Nat) : Decidable (c.Pending server) :=
  inferInstanceAs (Decidable (_ ∈ _))

/-- What the engine emitted since it took the reset of the last session. -/
def fresh (c : Client) (server : Nat) : List ClientMsg :=
  if c.Pending server then [] else c.emitted server

/-- From the drain to its end, a session has got or will get what is fresh. -/
def Isolated (c : Client) (server : Nat) : Prop :=
  c.phases server = .backoff ∨ c.phases server = .session →
    c.received server ++ c.queues server = c.fresh server

instance (c : Client) (server : Nat) : Decidable (c.Isolated server) :=
  inferInstanceAs (Decidable (_ → _))

/-- What a turn emits. -/
def emission (c : Client) : Action → List Outbound
  | .tick now order => (c.engine.tick now order).2
  | .take now =>
    match c.events with
    | [] => []
    | ev :: _ => (c.engine.onEv now ev).2
  | _ => []

/-- What is emitted for a server while its queue is drained comes before the
    reset, and what is emitted after the drain comes after the reset. -/
def Undisturbed (server : Nat) (c : Client) (a : Action) : Prop :=
  Engine.messagesTo server (c.emission a) ≠ [] →
    (c.phases server = .draining → c.Pending server) ∧
      (c.phases server = .backoff ∨ c.phases server = .session → ¬ c.Pending server)

/-- The invariant: the drain leaves nothing behind that is not stale. -/
structure Prepared (c : Client) (server : Nat) : Prop where
  isolated : c.Isolated server
  draining : c.phases server = .draining → c.fresh server = []

/-- One server's part of the state: where its loop is, its queue, what was
    received, what was emitted, and whether a reset is pending. -/
def Same (c d : Client) (server : Nat) : Prop :=
  d.phases server = c.phases server ∧ d.queues server = c.queues server ∧
    d.received server = c.received server ∧ d.fresh server = c.fresh server

theorem Prepared.same (c d : Client) (server : Nat) (h : Prepared c server)
    (hsame : Same c d server) : Prepared d server := by
  rcases hsame with ⟨hphase, hqueue, hreceived, hfresh⟩
  constructor
  · unfold Isolated
    rw [hphase, hqueue, hreceived, hfresh]
    exact h.isolated
  · rw [hphase, hfresh]
    exact h.draining

/-- An event that is no reset of the server changes nothing for it. -/
theorem fresh_tell (c : Client) (ev : Ev) (server : Nat) (h : ev ≠ .serverReset server) :
    (c.tell ev).fresh server = c.fresh server := by
  have hpending : (c.tell ev).Pending server ↔ c.Pending server := by
    simp only [Pending, tell, List.mem_append, List.mem_singleton]
    exact ⟨fun hmem => hmem.resolve_right (Ne.symm h), Or.inl⟩
  simp only [fresh, hpending]
  rfl

theorem same_tell (c : Client) (ev : Ev) (server : Nat) (h : ev ≠ .serverReset server) :
    Same c (c.tell ev) server :=
  ⟨rfl, rfl, rfl, c.fresh_tell ev server h⟩

theorem fresh_emit (c : Client) (out : Engine × List Outbound) (server : Nat) :
    (c.emit out).fresh server =
      if c.Pending server then [] else c.emitted server ++ Engine.messagesTo server out.2 :=
  rfl

/-- Taking an event that is no reset of the server leaves its reset where it is. -/
theorem pending_rest (c : Client) (server : Nat) (ev : Ev) (events : List Ev)
    (hevents : c.events = ev :: events) (h : ev ≠ .serverReset server) :
    Client.Pending { c with events := events } server ↔ c.Pending server := by
  rw [Pending, Pending, hevents, List.mem_cons]
  exact ⟨Or.inr, fun hmem => hmem.resolve_left (Ne.symm h)⟩

/-- What is emitted in time is fresh. -/
theorem Prepared.emit (c : Client) (server : Nat) (h : Prepared c server)
    (out : Engine × List Outbound)
    (hout : Engine.messagesTo server out.2 ≠ [] →
      (c.phases server = .draining → c.Pending server) ∧
        (c.phases server = .backoff ∨ c.phases server = .session → ¬ c.Pending server)) :
    Prepared (c.emit out) server := by
  by_cases hnone : Engine.messagesTo server out.2 = []
  · refine h.same c _ server ⟨rfl, ?_, rfl, ?_⟩
    · simp only [Client.emit, hnone, List.append_nil]
    · rw [fresh_emit, hnone, List.append_nil]
      rfl
  · rcases hout hnone with ⟨hdrain, hsession⟩
    constructor
    · intro hphase
      have hold := h.isolated hphase
      have hclear := hsession hphase
      rw [fresh, if_neg hclear] at hold
      rw [fresh_emit, if_neg hclear, ← hold, List.append_assoc]
      rfl
    · intro hphase
      rw [fresh_emit, if_pos (hdrain hphase)]

/-- The engine takes a reset: nothing is fresh, and nothing was. -/
theorem Prepared.take (c : Client) (server : Nat) (h : Prepared c server) (now : Nat) (ev : Ev)
    (events : List Ev) (hevents : c.events = ev :: events)
    (hout : Undisturbed server c (.take now)) :
    Prepared (({ c with events := events }.emit (c.engine.onEv now ev)).forget ev) server := by
  by_cases hreset : ev = .serverReset server
  · have hpending : c.Pending server := by
      rw [Pending, hevents, hreset]
      exact List.mem_cons_self
    have hold : c.fresh server = [] := if_pos hpending
    subst hreset
    refine h.same c _ server ⟨rfl, List.append_nil _, rfl, ?_⟩
    rw [hold, fresh]
    simp only [forget, Function.update_self, ite_self]
  · have hpending := c.pending_rest server ev events hevents hreset
    have hfresh : Client.fresh { c with events := events } server = c.fresh server := by
      simp only [fresh, hpending]
    have hrest : Prepared { c with events := events } server :=
      h.same c _ server ⟨rfl, rfl, rfl, hfresh⟩
    have hemit := hrest.emit _ server (c.engine.onEv now ev) (by
      rw [hpending]
      simpa only [Undisturbed, emission, hevents] using hout)
    -- The history of another server's emissions is forgotten at most.
    refine hemit.same _ _ server ?_
    cases ev with
    | serverReset s =>
        have hs : server ≠ s := fun heq => hreset (by rw [heq])
        refine ⟨rfl, rfl, rfl, ?_⟩
        simp only [fresh, forget, Pending, Function.update_of_ne hs]
        rfl
    | _ => exact ⟨rfl, rfl, rfl, rfl⟩

/-- A turn of another server's loop changes nothing. -/
theorem same_enter (c : Client) (server s : Nat) (p : Phase) (h : server ≠ s) :
    Same c (c.enter s p) server :=
  ⟨Function.update_of_ne h _ _, rfl, rfl, rfl⟩

theorem prepared_step (server : Nat) (c : Client) (a : Action) (h : Prepared c server)
    (ha : Undisturbed server c a) : Prepared (c.step a) server := by
  cases a with
  | connect =>
      simp only [step]
      split_ifs
      · exact h
      · exact h.same c _ server (c.same_tell _ server (by simp))
  | read rs =>
      simp only [step]
      split_ifs
      · exact h.same c _ server (c.same_tell _ server (by simp))
      · exact h
  | disconnect =>
      simp only [step]
      split_ifs
      · exact h.same c _ server (c.same_tell _ server (by simp))
      · exact h
  | tick now order => exact h.emit c server _ ha
  | take now =>
      cases hevents : c.events with
      | nil =>
          simp only [step, hevents]
          exact h
      | cons ev events =>
          simp only [step, hevents]
          exact h.take c server now ev events hevents ha
  | receive s =>
      simp only [step]
      split
      · rename_i m queue hphase hqueue
        by_cases hs : server = s
        · subst hs
          have hold := h.isolated (Or.inr hphase)
          rw [hqueue, ← List.singleton_append, ← List.append_assoc] at hold
          constructor
          · intro _
            simp only [Function.update_self]
            exact hold
          · intro hdrain
            rw [hphase] at hdrain
            contradiction
        · refine h.same c _ server ⟨rfl, Function.update_of_ne hs _ _,
            Function.update_of_ne hs _ _, rfl⟩
      · exact h
  | start s hexes =>
      simp only [step]
      split_ifs
      · exact h.same c _ server (c.same_tell _ server (by simp))
      · exact h
  | stop s hexes =>
      simp only [step]
      split_ifs
      · exact h.same c _ server (c.same_tell _ server (by simp))
      · exact h
  | finish s =>
      simp only [step]
      split_ifs with hphase
      · by_cases hs : server = s
        · subst hs
          constructor
          · simp [Isolated, enter]
          · simp [enter]
        · exact h.same c _ server (c.same_enter server s _ hs)
      · exact h
  | sendReset s =>
      simp only [step]
      split_ifs with hphase
      · by_cases hs : server = s
        · subst hs
          constructor
          · simp [Isolated, enter]
          · intro _
            exact if_pos (List.mem_append_right _ (List.mem_singleton_self _))
        · have htell := h.same c _ server (c.same_tell (.serverReset s) server (by
            simp [Ne.symm hs]))
          exact htell.same _ _ server (Client.same_enter _ server s _ hs)
      · exact h
  | drain s =>
      simp only [step]
      split_ifs with hphase
      · by_cases hs : server = s
        · subst hs
          have hold := h.draining hphase
          cases hqueue : c.queues server with
          | nil =>
              constructor
              · intro _
                simp only [Function.update_self, List.nil_append]
                exact hqueue.trans hold.symm
              · simp [enter]
          | cons m queue =>
              constructor
              · simp [Isolated, hphase]
              · intro _
                exact hold
        · split
          · exact h.same c _ server ⟨rfl, Function.update_of_ne hs _ _, rfl, rfl⟩
          · exact h.same c _ server ⟨Function.update_of_ne hs _ _, rfl,
              Function.update_of_ne hs _ _, rfl⟩
      · exact h
  | reconnect s =>
      simp only [step]
      split_ifs with hphase
      · by_cases hs : server = s
        · subst hs
          constructor
          · intro _
            exact h.isolated (Or.inl hphase)
          · simp [enter]
        · exact h.same c _ server (c.same_enter server s _ hs)
      · exact h

theorem prepared_new (user : String) (now : Instant) (nServers server : Nat) :
    Prepared (new user now nServers) server where
  isolated _ := rfl
  draining _ := rfl

/-- As long as nothing is emitted for a server between reset and drain, each of
    its sessions gets what was emitted after the reset before it. -/
theorem session_isolation (user : String) (now : Instant) (nServers server : Nat)
    (as : List Action) (h : Along step (Undisturbed server) (new user now nServers) as) :
    Isolated (exec step (new user now nServers) as) server :=
  (Along.invariant step (Undisturbed server) (fun c => Prepared c server)
    (prepared_step server) _ as (prepared_new user now nServers server) h).isolated

/-- A message at the wrong moment is stale or lost at once. -/
theorem undisturbed_of_emit (c : Client) (server : Nat) (out : Engine × List Outbound)
    (hafter : Prepared (c.emit out) server) (hsome : Engine.messagesTo server out.2 ≠ []) :
    (c.phases server = .draining → c.Pending server) ∧
      (c.phases server = .backoff ∨ c.phases server = .session → ¬ c.Pending server) := by
  constructor
  · intro hphase
    by_contra hclear
    have hfresh := hafter.draining hphase
    rw [fresh_emit, if_neg hclear] at hfresh
    exact hsome (List.append_eq_nil_iff.mp hfresh).2
  · intro hphase hpending
    have hfresh := hafter.isolated hphase
    rw [fresh_emit, if_pos hpending] at hfresh
    exact hsome (List.append_eq_nil_iff.mp (List.append_eq_nil_iff.mp hfresh).2).2

/-- The condition is exact: a turn that breaks it leaves a session with a stale
    message, or a fresh message to be drained. -/
theorem undisturbed_iff (server : Nat) (c : Client) (a : Action) (h : Prepared c server) :
    Undisturbed server c a ↔ Prepared (c.step a) server := by
  refine ⟨prepared_step server c a h, fun hafter hsome => ?_⟩
  cases a with
  | tick now order => exact undisturbed_of_emit c server _ hafter hsome
  | take now =>
      cases hevents : c.events with
      | nil =>
          simp only [emission, hevents] at hsome
          exact absurd rfl hsome
      | cons ev events =>
          simp only [emission, hevents] at hsome
          simp only [step, hevents] at hafter
          -- The event emits, so it is no reset, and a reset is pending after it as before.
          have hkeep : ∀ d : Client, d.forget ev = d := by
            intro d
            cases ev with
            | serverReset s => exact absurd rfl hsome
            | _ => rfl
          have hother : ev ≠ .serverReset server := by
            rintro rfl
            exact hsome rfl
          have hpending := c.pending_rest server ev events hevents hother
          rw [hkeep] at hafter
          have hemit := undisturbed_of_emit { c with events := events } server _ hafter hsome
          rwa [hpending] at hemit
  | _ => exact absurd rfl hsome

/-- A session ends and the next one begins while the engine has nothing to say.
    Then an aircraft is heard and announced. -/
def quietReconnect : List Action :=
  [.finish 0, .sendReset 0, .take 0, .drain 0, .reconnect 0, .connect, .take 0,
    .read [⟨1000, Modes.df11 ⟨0xABCDEF⟩ 0⟩], .take 0, .tick 0 [0xABCDEF], .receive 0]

instance (server : Nat) (c : Client) (a : Action) : Decidable (Undisturbed server c a) :=
  inferInstanceAs (Decidable (_ → _ ∧ (_ ∨ _ → _)))

theorem session_isolation_quiet :
    (exec step (new "rx" 0 1) quietReconnect).received 0 ++
        (exec step (new "rx" 0 1) quietReconnect).queues 0 =
      [.inputConnected "input connected", .seen ["abcdef"]] ∧
    Isolated (exec step (new "rx" 0 1) quietReconnect) 0 := by
  refine ⟨by decide +kernel, session_isolation "rx" 0 1 0 quietReconnect ?_⟩
  simp only [quietReconnect, Along]
  decide +kernel

/-- An aircraft is known, and the session ends. -/
def heardThenLost : List Action :=
  [.connect, .take 0, .read [⟨1000, Modes.df11 ⟨0xABCDEF⟩ 0⟩], .take 0, .tick 0 [0xABCDEF],
    .receive 0, .receive 0, .disconnect, .finish 0, .sendReset 0]

/-- Both orders go wrong. If the drain is over before the engine takes the loss of
    the input and then the reset, the next session gets the message of the loss. If
    the engine takes both and announces the aircraft again before the drain, the next
    session gets no announcement. -/
theorem reset_and_drain_race :
    (¬ Isolated (exec step (new "rx" 0 1) (heardThenLost ++ [.drain 0, .take 0])) 0 ∧
      (exec step (new "rx" 0 1) (heardThenLost ++ [.drain 0, .take 0, .take 0])).queues 0 =
        [.inputDisconnected "input disconnected"] ∧
      (exec step (new "rx" 0 1) (heardThenLost ++ [.drain 0, .take 0, .take 0])).fresh 0 = []) ∧
    ¬ Isolated (exec step (new "rx" 0 1)
      (heardThenLost ++ [.take 0, .take 0, .tick 0 [0xABCDEF], .drain 0, .drain 0, .drain 0])) 0 ∧
      (exec step (new "rx" 0 1) (heardThenLost ++
        [.take 0, .take 0, .tick 0 [0xABCDEF], .drain 0, .drain 0, .drain 0])).fresh 0 =
        [.seen ["abcdef"]] := by
  decide +kernel

end Client

end MlatBench
