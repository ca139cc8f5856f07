import MlatBench.Theory.Clusters
import MlatBench.Theory.Fixes
import MlatBench.Theory.Quarantine
import MlatBench.Theory.Representation
import MlatBench.Theory.Sweep

/-!
# Where a Solve Starts

Without a fresh track a solve starts at the mean of the receivers that heard the
aircraft. The code goes from the slots to the names of their users and back by the
first slot of that name. A dead slot keeps the name and the place it had, and so is
found first if its user has come back in a higher slot.

The slots are chosen last in, first out, so this takes two connections that end in
the order they were opened in. If no connection takes a slot above one that has the
name of its user at another place, every start is the mean it is meant to be.

## Main definitions

* `State.meanOf`: The mean place of some slots.
* `State.ColdStarts`: Solves without a fresh track start at the mean of the slots.
* `State.Unshadowed`: No slot has the name of a live one above it at another place.
* `State.Clear`: A call that leaves it so.
* `State.sweepCalls`: The calls of a sweep.

## Theorems

* `find_live`: The slot found is at the place of the live one.
* `unshadowed_step`: One call.
* `sweepCalls_slots`: A sweep changes no slot.
* `cold_starts`: Runs.
* `moved_shadowed`: A user who comes back in a higher slot.
-/

namespace MlatBench

namespace Server

open Library F64 F64Fn Modes

variable {F : Type} [F64Fn F]

/-- The last fix is less than a minute old. -/
def Track.fresh (t : Track F) (nowScaled : F) : Prop :=
  t.lastPos.isSome = true ∧ nowScaled - t.lastTimeScaled < lit 60

instance (t : Track F) (nowScaled : F) : Decidable (t.fresh nowScaled) :=
  inferInstanceAs (Decidable (_ ∧ _))

namespace State

/-- The mean of the places of some slots, at an altitude. -/
def meanOf (s : State F) (altM : F) (slots : List Nat) : Geodetic F where
  latDeg := sum (slots.map fun i => (s.receiver i).geo.latDeg) / lit slots.length
  lonDeg := sum (slots.map fun i => (s.receiver i).geo.lonDeg) / lit slots.length
  altM := altM

/-- Whatever solve is asked without a fresh track is asked to start at the mean of
    the live slots whose observations it gets, one place for each. -/
def ColdStarts (s : State F) : Prop :=
  ∀ nowScaled icao cluster q, s.question nowScaled icao cluster = some q →
    ¬ (s.trackOf icao).fresh nowScaled →
    (∀ o ∈ q.1, s.isAlive o.rx = true) ∧
      ∀ solver : Solver F, s.answer solver nowScaled icao q =
        solver (q.1.map Observed.obs) (lit q.2 * lit (3048 / 10000))
          (s.meanOf (lit q.2 * lit (3048 / 10000)) (q.1.map Observed.rx))

/-- Two places have the same coordinates. -/
def SamePlace (a b : ReceiverInfo F) : Prop :=
  a.geo.latDeg = b.geo.latDeg ∧ a.geo.lonDeg = b.geo.lonDeg

/-- No slot has the name of a live slot above it at another place. -/
def Unshadowed (s : State F) : Prop :=
  ∀ i j, s.isAlive i = true → j < i → (s.receiver j).user = (s.receiver i).user →
    SamePlace (s.receiver j) (s.receiver i)

/-- A connection takes no slot above one that has the name of its user at another
    place. -/
def Clear (s : State F) : Event F → Prop
  | .add info => s.hung = false →
      ∀ j < s.slotFor info, (s.receiver j).user = info.user → SamePlace (s.receiver j) info
  | _ => True

instance [DecidableEq F] (s : State F) (e : Event F) : Decidable (Clear s e) :=
  match e with
  | .add _ => inferInstanceAs (Decidable (_ → ∀ j < _, _ → _ ∧ _))
  | .remove _ | .reset _ | .sync .. | .mlat .. | .stats _ | .sweep .. => isTrue trivial

/-- Slots alive are in range. -/
def InRange (s : State F) : Prop :=
  ∀ i, s.isAlive i = true → i < s.receivers.length

/-- The slot found by the name of a live one is at its place. -/
theorem find_live (s : State F) (hrange : InRange s) (h : Unshadowed s) (i : Nat)
    (hi : s.isAlive i = true) :
    ∃ r, (s.receivers.find? fun r => r.user == (s.receiver i).user) = some r ∧
      SamePlace r (s.receiver i) := by
  have hlt := hrange i hi
  have hget : ∀ j (hj : j < s.receivers.length), s.receiver j = s.receivers[j] := by
    intro j hj
    rw [receiver, List.getD_eq_getElem _ _ hj]
  cases hfind : s.receivers.find? fun r => r.user == (s.receiver i).user with
  | none =>
      have hno := List.find?_eq_none.mp hfind _ (List.getElem_mem hlt)
      rw [← hget i hlt] at hno
      exact absurd (beq_self_eq_true _) hno
  | some r =>
      rcases List.find?_eq_some_iff_getElem.mp hfind with ⟨huser, j, hj, hr, hbefore⟩
      refine ⟨r, rfl, ?_⟩
      rw [← hr, ← hget j hj] at huser ⊢
      -- The first slot of the name is this one or below it.
      rcases Nat.lt_trichotomy j i with hji | rfl | hij
      · exact h i j hi hji (beq_iff_eq.mp huser)
      · exact ⟨rfl, rfl⟩
      · have hnot := hbefore i hij
        rw [← hget i hlt, Bool.not_eq_true', beq_self_eq_true] at hnot
        exact absurd hnot.symm Bool.false_ne_true

/-- Lookups that succeed give one value each. -/
theorem map_filterMap_of {α β γ : Type} (f : α → Option β) (g : β → γ) (h : α → γ) (xs : List α)
    (hf : ∀ x ∈ xs, ∃ y, f x = some y ∧ g y = h x) : (xs.filterMap f).map g = xs.map h := by
  induction xs with
  | nil => rfl
  | cons x xs ih =>
      rw [List.forall_mem_cons] at hf
      rcases hf.1 with ⟨y, hy, hg⟩
      rw [List.filterMap_cons_some hy, List.map_cons, List.map_cons, hg, ih hf.2]

/-- Starts are right while no slot is shadowed. -/
theorem coldStarts_of (s : State F) (hrange : InRange s) (h : Unshadowed s) : ColdStarts s := by
  intro nowScaled icao cluster q hq hcold
  rcases s.observe_firsts cluster with ⟨_, hfirsts⟩
  -- What is kept of the observations is of live slots, under the names they have.
  have hobserved : ∀ o ∈ q.1, s.isAlive o.rx = true ∧ o.user = (s.receiver o.rx).user := by
    intro o ho
    rw [s.question_kept nowScaled icao cluster q hq] at ho
    rcases hfirsts.first o (capObs_mem _ o ho) with ⟨_, c, _, _, _, rfl, htrust⟩
    exact ⟨htrust.1, rfl⟩
  refine ⟨fun o ho => (hobserved o ho).1, fun solver => ?_⟩
  have hfound : ∀ o ∈ q.1, ∃ r, (s.receivers.find? fun r => r.user == o.user) = some r ∧
      SamePlace r (s.receiver o.rx) := by
    intro o ho
    rw [(hobserved o ho).2]
    exact s.find_live hrange h o.rx (hobserved o ho).1
  have hmean : ∀ altM, s.initialPos (s.trackOf icao) nowScaled altM (q.1.map Observed.user)
      q.1.length = s.meanOf altM (q.1.map Observed.rx) := by
    intro altM
    -- A coordinate of the slots found by name is that of the slots themselves.
    have hplace : ∀ g : ReceiverInfo F → F, (∀ a b, SamePlace a b → g a = g b) →
        ((q.1.map Observed.user).filterMap fun u => s.receivers.find? fun r => r.user == u).map g =
          (q.1.map Observed.rx).map fun i => g (s.receiver i) := by
      intro g hg
      rw [List.filterMap_map, List.map_map]
      refine map_filterMap_of _ g _ q.1 fun o ho => ?_
      rcases hfound o ho with ⟨r, hr, hsame⟩
      exact ⟨r, hr, hg _ _ hsame⟩
    have hlat := hplace (fun r => r.geo.latDeg) fun _ _ h => h.1
    have hlon := hplace (fun r => r.geo.lonDeg) fun _ _ h => h.2
    unfold initialPos meanOf
    simp only []
    rw [hlat, hlon, List.length_map]
    -- A track is there or not, but is passed over as it is not fresh.
    cases hlast : (s.trackOf icao).lastPos with
    | none => rfl
    | some p =>
        have hold : ¬ nowScaled - (s.trackOf icao).lastTimeScaled < lit 60 := by
          intro hlt
          exact hcold ⟨by rw [hlast]; rfl, hlt⟩
        simp only []
        rw [if_neg hold]
  unfold answer
  simp only [hmean]

/-- A connection writes its own slot only. -/
theorem receiver_addReceiver (s : State F) (hs : WellFormed s) (info : ReceiverInfo F) (i : Nat) :
    (s.addReceiver info).1.receiver i = if i = s.slotFor info then info else s.receiver i := by
  rcases s.addReceiver_fresh hs info with ⟨t, ht, _, hts, hidx, _, heq⟩
  -- An earlier connection of the user is ended first, which moves nobody.
  have hreceivers : t.receivers = s.receivers := by
    rcases hts with rfl | ⟨old, _, rfl⟩
    · rfl
    · exact s.removeReceiver_receivers _
  have hslot : (t.takeSlot info).2 = s.slotFor info := by
    rw [← s.addReceiver_idx info, hidx]
  rw [← hslot, heq]
  have hold : s.receiver i = t.receiver i := by rw [receiver, receiver, hreceivers]
  rw [hold]
  unfold takeSlot
  cases hfree : t.freeSlots with
  | nil =>
      -- One more slot.
      simp only [receiver]
      by_cases hi : i = t.receivers.length
      · rw [if_pos hi, hi, List.getD_eq_getElem?_getD, List.getElem?_concat_length,
          Option.getD_some]
      · rw [if_neg hi, getD_append_ne _ _ _ _ (Ne.symm hi)]
  | cons j free =>
      -- The last one freed, which is in range.
      have hfreed : j ∈ t.freeSlots := by
        rw [hfree]
        exact List.mem_cons_self
      have hj : j < t.receivers.length := ((ht.free j).mp hfreed).1
      simp only [receiver]
      by_cases hi : i = j
      · rw [if_pos hi, hi, getD_set_self _ _ _ _ hj]
      · rw [if_neg hi, getD_set_ne _ _ _ _ _ (Ne.symm hi)]

/-- A connection brings no other slot to life. -/
theorem isAlive_addReceiver (s : State F) (hs : WellFormed s) (info : ReceiverInfo F) (i : Nat)
    (hi : i ≠ s.slotFor info) (halive : (s.addReceiver info).1.isAlive i = true) :
    s.isAlive i = true := by
  rcases s.addReceiver_fresh hs info with ⟨t, ht, _, hts, hidx, _, heq⟩
  have hslot : (t.takeSlot info).2 = s.slotFor info := by
    rw [← s.addReceiver_idx info, hidx]
  rw [heq] at halive
  have hother := (t.takeSlot_other ⟨ht.gens, ht.alive⟩ info i (by rw [hslot]; exact Ne.symm hi)).1
  have ht' : t.isAlive i = true := hother.symm.trans halive
  rcases hts with rfl | ⟨old, _, rfl⟩
  · exact ht'
  · exact (s.isAlive_removeReceiver _ i ht').1

/-- What changes no slot but to end connections shadows none. -/
theorem Unshadowed.frame (s s' : State F) (h : Unshadowed s)
    (hreceivers : s'.receivers = s.receivers)
    (halive : ∀ i, s'.isAlive i = true → s.isAlive i = true) : Unshadowed s' := by
  have hreceiver : ∀ i, s'.receiver i = s.receiver i := fun i => by
    rw [receiver, receiver, hreceivers]
  intro i j hi hji huser
  rw [hreceiver, hreceiver] at huser ⊢
  exact h i j (halive i hi) hji huser

theorem unshadowed_addReceiver (s : State F) (hs : WellFormed s) (h : Unshadowed s)
    (info : ReceiverInfo F)
    (hclear : ∀ j < s.slotFor info, (s.receiver j).user = info.user →
      SamePlace (s.receiver j) info) : Unshadowed (s.addReceiver info).1 := by
  have hwell := hs.addReceiver s info
  intro i j hi hji huser
  by_cases hslot : i = s.slotFor info
  · -- The new connection, above slots that are as before.
    have hj : j ≠ s.slotFor info := fun hj => absurd hji (by omega)
    rw [s.receiver_addReceiver hs, s.receiver_addReceiver hs, if_pos hslot, if_neg hj] at huser ⊢
    exact hclear j (hslot ▸ hji) huser
  · have halive := s.isAlive_addReceiver hs info i hslot hi
    by_cases hj : j = s.slotFor info
    · -- The new connection has another user than the live slots.
      exfalso
      have hnew : (s.addReceiver info).1.byUser info.user = some (s.slotFor info) := by
        rcases s.addReceiver_fresh hs info with ⟨t, _, _, _, hidx, _, heq⟩
        rw [← s.addReceiver_idx info, hidx, heq]
        exact Function.update_self _ _ _
      have huser' : ((s.addReceiver info).1.receiver i).user = info.user := by
        rw [← huser, s.receiver_addReceiver hs, if_pos hj]
      have hown := (hwell.users _ i).mpr ⟨hi, huser'⟩
      exact hslot (Option.some.inj (hown.symm.trans hnew))
    · rw [s.receiver_addReceiver hs, s.receiver_addReceiver hs, if_neg hslot, if_neg hj] at huser ⊢
      exact h i j halive hji huser

/-- What a call leaves. -/
theorem unshadowed_step (solver : Solver F) (s : State F) (hs : WellFormed s) (h : Unshadowed s)
    (e : Event F) (hclear : Clear s e) : Unshadowed (s.step solver e) := by
  by_cases hhung : s.hung = true
  · unfold step
    rw [if_pos hhung]
    exact h
  rcases s.step_cases solver e with ⟨info, rfl, heq⟩ | ⟨r, _, heq⟩ | ⟨r, _, heq⟩ | hg
  · rw [heq]
    exact s.unshadowed_addReceiver hs h info (hclear (Bool.eq_false_of_not_eq_true hhung))
  · -- A slot that is given up keeps its name and place, but is no longer live.
    rw [heq]
    exact h.frame s _ (s.removeReceiver_receivers r) fun i hi => (s.isAlive_removeReceiver r i hi).1
  · rw [heq]
    unfold clockReset
    split_ifs
    · exact h
    · exact h.frame s _ rfl fun i hi => hi
  · exact h.frame s _ hg.receivers fun i hi => by rwa [hg.isAlive] at hi

/-- What a sweep starts from. -/
def sweepStart (s : State F) (now : Nat) : State F :=
  let fresh := fun (sp : SyncPoint F) => decide (now - sp.created < 4 * 10 ^ 9)
  { s with syncpoints := fun k => (s.syncpoints k).filter fresh }

/-- The groups it solves. -/
def sweepReady (s : State F) (now window : Nat) (order : List String) : List String :=
  order.filter fun key => (s.groups key).any fun g => decide (window ≤ now - g.created)

theorem sweep_eq (solver : Solver F) (s : State F) (now window : Nat) (order : List String)
    (clock : String → Nat → F) : s.sweep solver now window order clock =
      exec (solveKey solver clock) (s.sweepStart now)
        ((s.sweepStart now).sweepReady now window order) :=
  rfl

/-- The calls of a sweep, with the states they start from. -/
def sweepCalls (solver : Solver F) (s : State F) (now window : Nat) (order : List String)
    (clock : String → Nat → F) : List (State F × List (Conv F)) :=
  (visits (solveKey solver clock) (s.sweepStart now)
    ((s.sweepStart now).sweepReady now window order)).flatMap fun (s, key) =>
      match s.groups key with
      | none => []
      | some g =>
        if s.hung then []
        else
          ({ s with groups := Function.update s.groups key none }).groupCalls solver (clock key) g

/-- The slots of two states are the same. -/
structure SameSlots (s s' : State F) : Prop where
  receivers : s'.receivers = s.receivers
  alive : s'.alive = s.alive

omit [F64Fn F] in
theorem SameSlots.trans (s t u : State F) (h : SameSlots s t) (h' : SameSlots t u) :
    SameSlots s u :=
  ⟨h'.receivers.trans h.receivers, h'.alive.trans h.alive⟩

theorem solveCluster_slots (solver : Solver F) (s : State F) (nowScaled : F) (icao : Icao)
    (df17 : Bool) (ref : Nat) (cluster : List (Conv F)) :
    SameSlots s (s.solveCluster solver nowScaled icao df17 ref cluster) := by
  rcases s.solveCluster_cases solver nowScaled icao df17 ref cluster with heq | ⟨_, off, hq⟩
  · rw [heq]
    exact ⟨rfl, rfl⟩
  · exact ⟨hq.receivers, hq.alive⟩

/-- The calls for a group start from the slots it is solved with. -/
theorem groupCalls_slots (solver : Solver F) (s : State F) (clock : Nat → F) (g : Group F) :
    ∀ call ∈ s.groupCalls solver clock g, SameSlots s call.1 := by
  unfold groupCalls
  cases hcut : s.cut g with
  | none => exact fun call hcall => absurd hcall List.not_mem_nil
  | some c =>
      rcases c with ⟨t, ref, cs⟩
      have ht : SameSlots s t := by
        unfold cut at hcut
        rcases Option.bind_eq_some_iff.mp hcut with ⟨_, _, hsome⟩
        simp only [] at hsome
        split_ifs at hsome
        cases hsome
        exact ⟨rfl, rfl⟩
      intro call hcall
      rcases List.mem_map.mp hcall with ⟨v, hv, rfl⟩
      refine visits_invariant _ (SameSlots s) (fun s' c h => ?_) t cs.zipIdx ht v hv
      exact h.trans s s' _ (s'.solveCluster_slots solver _ _ _ _ _)

/-- A sweep changes no slot. -/
theorem sweepCalls_slots (solver : Solver F) (s : State F) (now window : Nat)
    (order : List String) (clock : String → Nat → F) :
    ∀ call ∈ s.sweepCalls solver now window order clock, SameSlots s call.1 := by
  intro call hcall
  rcases List.mem_flatMap.mp hcall with ⟨⟨s', key⟩, hv, hin⟩
  -- The groups solved before this one have left the slots as they were.
  have hs' : SameSlots s s' := by
    refine visits_invariant _ (SameSlots s) (fun t key h => ?_) (s.sweepStart now) _ ⟨rfl, rfl⟩
      (s', key) hv
    unfold solveKey
    cases t.groups key with
    | none => exact h
    | some g =>
        simp only []
        split_ifs
        · exact h
        · have hsolve := (solveGroup_solved solver
            { t with groups := Function.update t.groups key none } (clock key) g).frame
          exact h.trans s t _ ⟨hsolve.receivers, hsolve.alive⟩
  simp only [] at hin
  split at hin
  · exact absurd hin List.not_mem_nil
  · split_ifs at hin
    · exact absurd hin List.not_mem_nil
    · have hcalls := groupCalls_slots solver _ (clock key) _ call hin
      exact ⟨hcalls.receivers.trans hs'.receivers, hcalls.alive.trans hs'.alive⟩

/-- If no connection takes a slot above one with the name of its user at another
    place, all solves without a fresh track start at the mean of the live receivers
    they have observations of. -/
theorem cold_starts (solver : Solver F) (shardId : Nat) (mlatAdsb emitFiltered : Bool)
    (es : List (Event F))
    (h : Along (step solver) Clear (State.new shardId mlatAdsb emitFiltered) es) :
    ColdStarts (exec (step solver) (State.new shardId mlatAdsb emitFiltered) es) ∧
      ∀ now window order clock,
        ∀ call ∈ (exec (step solver) (State.new shardId mlatAdsb emitFiltered) es).sweepCalls solver
          now window order clock, ColdStarts call.1 := by
  have hinv := Along.invariant (step solver) Clear (fun s => WellFormed s ∧ Unshadowed s)
    (fun s e hs hclear => ⟨wellFormed_step solver s e hs.1,
      s.unshadowed_step solver hs.1 hs.2 e hclear⟩)
    (State.new shardId mlatAdsb emitFiltered) es
    ⟨wellFormed_new shardId mlatAdsb emitFiltered, fun i j hi => by
      simp [State.new, isAlive] at hi⟩ h
  -- In the middle of a sweep the slots are those it has started with.
  refine ⟨coldStarts_of _ (hinv.1.lt _) hinv.2, fun now window order clock call hcall => ?_⟩
  have hslots := sweepCalls_slots solver _ now window order clock call hcall
  have halive : ∀ i, call.1.isAlive i = true → isAlive (exec (step solver)
      (State.new shardId mlatAdsb emitFiltered) es) i = true := by
    intro i hi
    rwa [isAlive, hslots.alive] at hi
  refine coldStarts_of call.1 (fun i hi => ?_) (hinv.2.frame _ call.1 hslots.receivers halive)
  rw [hslots.receivers]
  exact hinv.1.lt _ i (halive i hi)

/-- Where a solve is asked to start, read off a solve that answers with it. -/
theorem ColdStarts.start (s : State F) (h : ColdStarts s) (nowScaled : F) (icao : Icao)
    (cluster : List (Conv F)) (q : List (Observed F) × Int)
    (hq : s.question nowScaled icao cluster = some q)
    (hcold : ¬ (s.trackOf icao).fresh nowScaled) :
    s.initialPos (s.trackOf icao) nowScaled (lit q.2 * lit (3048 / 10000))
      (q.1.map Observed.user) q.1.length =
        s.meanOf (lit q.2 * lit (3048 / 10000)) (q.1.map Observed.rx) := by
  have hsame := (h nowScaled icao cluster q hq hcold).2 fun _ altM init =>
    some ⟨init, altM, altM, 0, altM, []⟩
  exact congrArg Solution.pos (Option.some.inj hsame)

section Example

/-- Five receivers connect, the first two leave in the order they came in, and the
    user of the first comes back. -/
def comeBack (info : ReceiverInfo ℚ) : List (Event ℚ) :=
  (List.range 5).map (fun i => .add (surveyRx i)) ++
    [.remove ⟨0, 0⟩, .remove ⟨1, 0⟩, .add { info with user := (surveyRx 0).user }, surveySync 0 2]

def comeBackState (info : ReceiverInfo ℚ) : State ℚ :=
  exec (step Solve.solveRobust) (State.new 0 false false) (comeBack info)

/-- From where it was, it does no harm. -/
theorem cold_starts_comeBack : ColdStarts (comeBackState (surveyRx 0)) :=
  (cold_starts Solve.solveRobust 0 false false (comeBack (surveyRx 0)) (by decide +kernel)).1

/-- A transmission that the four live receivers heard. -/
def heardByLive : List (Conv ℚ) :=
  [1, 2, 3, 4].map fun rx => ⟨rx, 100, 15 / 100000000, 1, ⟨⟨rx, 0⟩, 0⟩⟩

/-- From elsewhere, it is in slot 1 and looked up in slot 0. -/
theorem moved_shadowed :
    (comeBackState (surveyRx 1)).isAlive 0 = false ∧
      (∃ q, (comeBackState (surveyRx 1)).question 100 ⟨0x3C6444⟩ heardByLive = some q ∧
        q.1.map Observed.rx = [1, 2, 3, 4] ∧
        ((comeBackState (surveyRx 1)).initialPos ((comeBackState (surveyRx 1)).trackOf ⟨0x3C6444⟩)
          100 (lit q.2 * lit (3048 / 10000)) (q.1.map Observed.user) q.1.length).latDeg = -1 / 4 ∧
        ((comeBackState (surveyRx 1)).meanOf (lit q.2 * lit (3048 / 10000))
          (q.1.map Observed.rx)).latDeg = 0) ∧
      ¬ ColdStarts (comeBackState (surveyRx 1)) := by
  -- The four are enough, and the aircraft has told its altitude.
  have hasked : ((comeBackState (surveyRx 1)).question 100 ⟨0x3C6444⟩ heardByLive).isSome = true :=
    by decide +kernel
  rcases Option.isSome_iff_exists.mp hasked with ⟨q, hq⟩
  have hkept := question_kept _ _ _ _ q hq
  have halt : ((comeBackState (surveyRx 1)).question 100 ⟨0x3C6444⟩ heardByLive).map Prod.snd =
      some 35000 := by decide +kernel
  rw [hq, Option.map_some, Option.some.injEq] at halt
  have hstart : ((comeBackState (surveyRx 1)).initialPos
      ((comeBackState (surveyRx 1)).trackOf ⟨0x3C6444⟩) 100 (lit q.2 * lit (3048 / 10000))
        (q.1.map Observed.user) q.1.length).latDeg = -1 / 4 := by
    rw [hkept, halt]
    decide +kernel
  have hmean : ((comeBackState (surveyRx 1)).meanOf (lit q.2 * lit (3048 / 10000))
      (q.1.map Observed.rx)).latDeg = 0 := by
    rw [hkept, halt]
    decide +kernel
  refine ⟨by decide +kernel, ⟨q, hq, ?_, hstart, hmean⟩, fun h => ?_⟩
  · rw [hkept]
    decide +kernel
  · have heq := h.start _ 100 ⟨0x3C6444⟩ heardByLive q hq (by decide +kernel)
    rw [heq, hmean] at hstart
    exact absurd hstart (by norm_num)

end Example

end State

end Server

end MlatBench
