import MlatBench.Core.Gen
import MlatBench.Library.Lists
import MlatBench.Library.Runs

/-!
# One Receiver's Loop

What a transmission does to the loop of a receiver. If it is not heard only the
loss stream of its aircraft moves. If it is heard it is stamped, and then either
waits for a partner or becomes one line about its aircraft; all other lines
pushed on the way, heartbeats and announcements, are about none.

What a line says was stamped: each of its counts is the count of a stamp of the
frame beside it.

## Main definitions

* `Loop.hears`: A transmission is audible and not lost.
* `Loop.reading`: How a transmission is stamped.
* `outcome`: What becomes of a stamped reception.
* `Arrival`: When a transmission arrives.
* `Broadcast.Framed`: A transmission is the frame of its kind.
* `Loop.Heard`: What hearing a transmission does.
* `Loop.Faithful`: Lines say what was stamped.
* `Sourced`: The counts of a message are stamped.

## Theorems

* `broadcasts_framed`: All transmissions are frames.
* `ClockModel.countAtHostile_after`: One reading of a clock without wander.
* `Loop.turn_hear`, `Loop.turn_heard`, `Loop.turn_unheard`, `Loop.turn_cases`: One
  transmission.
* `Loop.faithful_run`: Lines say what was stamped.
* `Loop.stamps_arrive`: Stamps are of transmissions that arrived.
* `frameLines_lines`, `buildClient_lines`, `generate_clients`: What is sent.
-/

namespace MlatBench

namespace Sim

open Library F64 F64Fn F64Ln Modes Proto

variable {F R : Type} [F64Ln F]

/-- The counts of a message, each with the frame it is the count of. -/
def counts : ClientMsg → List (Nat × String)
  | .sync et ot em om => [(et, em), (ot, om)]
  | .mlat t m => [(t, m)]
  | _ => []

/-- A line about no aircraft, with no counts. -/
def Aside (l : Line F) : Prop :=
  l.about = none ∧ counts l.msg = []

/-- What becomes of a stamped reception: what waits, and the lines. -/
def outcome (waiting : Option (PendingHalf F)) (b : Broadcast F) (t : F) (count : Nat) :
    Option (PendingHalf F) × List (Line F) :=
  match b.kind with
  | .df17 odd =>
    let half : PendingHalf F := { odd := odd, tArrive := t, count := count, bytes := b.bytes }
    match waiting with
    | none => (some half, [])
    | some p =>
      if p.odd ≠ odd ∧ t - p.tArrive < lit 2 then
        (none, [{ t := t, about := some b.icao
                  msg := if odd then .sync p.count count (hexEncode p.bytes) (hexEncode b.bytes)
                    else .sync count p.count (hexEncode b.bytes) (hexEncode p.bytes) }])
      else (some half, [])
  | _ => (waiting, [{ t := t, msg := .mlat count (hexEncode b.bytes), about := some b.icao }])

/-- A transmission arrives after its way through the air, or over a reflection
    a little later. -/
def Arrival (rand : Rand F R) (rx : ReceiverSpec F) (b : Broadcast F) (t : F) : Prop :=
  t = b.tS + slantRange rx.pos b.pos / cMps ∨
    lit 0 < rx.multipathProb ∧ ∃ rng, t = b.tS + slantRange rx.pos b.pos / cMps +
      (rand.genRange (lit (5 / 10 ^ 7)) (lit (3 / 10 ^ 6)) rng).1

/-- A transmission is the frame of its kind, with its address. -/
def Broadcast.Framed (b : Broadcast F) : Prop :=
  match b.kind with
  | .df17 odd => ∃ (altFt : Int) (lat lon : F),
      df17AirbornePosition b.icao 5 11 altFt lat lon odd = some b.bytes
  | .df11 => b.bytes = Modes.df11 b.icao 5
  | .df4 => ∃ altFt, Modes.df4 b.icao 0 altFt = some b.bytes

/-- What holds of every report holds of the reports of a loop. -/
theorem adsbLoop_all (rand : Rand F R) (report : Bool → F → Option (Broadcast F))
    (period durS : F) (P : Broadcast F → Prop)
    (hreport : ∀ odd t b, report odd t = some b → P b) (fuel : Nat) (rng : R) (t : F)
    (odd : Bool) (bs : List (Broadcast F))
    (h : adsbLoop rand report period durS fuel rng t odd = some bs) : ∀ b ∈ bs, P b := by
  induction fuel generalizing rng t odd bs with
  | zero =>
      unfold adsbLoop at h
      split_ifs at h
      cases h
      exact fun _ hb => absurd hb List.not_mem_nil
  | succ fuel ih =>
      unfold adsbLoop at h
      split_ifs at h
      · rcases Option.map_eq_some_iff.mp h with ⟨rest, hrest, rfl⟩
        intro b hb
        rcases List.mem_append.mp hb with hb | hb
        · split_ifs at hb
          · exact hreport odd _ b (Option.mem_toList.mp hb)
          · exact absurd hb List.not_mem_nil
        · exact ih _ _ _ rest hrest b hb
      · cases h
        exact fun _ hb => absurd hb List.not_mem_nil

/-- What holds of every reply holds of the replies of a loop. -/
theorem poissonLoop_all (rand : Rand F R) (reply : F → Option (Broadcast F)) (rateHz durS : F)
    (P : Broadcast F → Prop) (hreply : ∀ t b, reply t = some b → P b) (fuel : Nat) (rng : R)
    (t : F) (bs : List (Broadcast F)) (rng' : R)
    (h : poissonLoop rand reply rateHz durS fuel rng t = some (bs, rng')) : ∀ b ∈ bs, P b := by
  induction fuel generalizing rng t bs with
  | zero =>
      unfold poissonLoop at h
      split_ifs at h
      cases h
      exact fun _ hb => absurd hb List.not_mem_nil
  | succ fuel ih =>
      unfold poissonLoop at h
      split_ifs at h
      · rcases Option.map_eq_some_iff.mp h with ⟨⟨rest, rng₂⟩, hrest, heq⟩
        cases heq
        intro b hb
        rcases List.mem_append.mp hb with hb | hb
        · exact hreply t b (Option.mem_toList.mp hb)
        · exact ih _ _ rest hrest b hb
      · cases h
        exact fun _ hb => absurd hb List.not_mem_nil

/-- A report is a frame with the address it is made for. -/
theorem positionReport_framed (icao : Icao) (traj : Trajectory F) (navOff : F × F) (odd : Bool)
    (t : F) (b : Broadcast F) (h : positionReport icao traj navOff odd t = some b) :
    b.icao = icao ∧ b.Framed := by
  rcases Option.map_eq_some_iff.mp h with ⟨f, hf, rfl⟩
  exact ⟨rfl, _, _, _, hf⟩

/-- A squitter is a frame with the address it is made for. -/
theorem squitter_framed (icao : Icao) (traj : Trajectory F) (t : F) (b : Broadcast F)
    (h : squitter icao traj t = some b) : b.icao = icao ∧ b.Framed := by
  cases h
  exact ⟨rfl, rfl⟩

/-- An altitude reply is a frame with the address it is made for. -/
theorem altitudeReply_framed (icao : Icao) (traj : Trajectory F) (t : F) (b : Broadcast F)
    (h : altitudeReply icao traj t = some b) : b.icao = icao ∧ b.Framed := by
  rcases Option.map_eq_some_iff.mp h with ⟨f, hf, rfl⟩
  exact ⟨rfl, _, hf⟩

/-- An aircraft transmits frames with its own address. -/
theorem emissions_framed (rand : Rand F R) (fuel seed : Nat) (durS : F) (ac : AircraftSpec F)
    (bs : List (Broadcast F)) (h : emissions rand fuel seed durS ac = some bs) :
    ∀ b ∈ bs, b.icao = (Icao.fromHex ac.icao).getD ⟨0⟩ ∧ b.Framed := by
  unfold emissions at h
  simp only [] at h
  split at h
  · exact adsbLoop_all rand _ _ _ (fun b => b.icao = (Icao.fromHex ac.icao).getD ⟨0⟩ ∧ b.Framed)
      (positionReport_framed _ _ _) _ _ _ _ bs h
  · split at h
    · exact absurd h (Option.some_ne_none bs).symm
    · next squitters rng' hsquit =>
        rcases Option.map_eq_some_iff.mp h with ⟨⟨replies, rng₂⟩, hreplies, rfl⟩
        intro b hb
        rcases List.mem_append.mp hb with hb | hb
        · exact poissonLoop_all rand _ _ _
            (fun b => b.icao = (Icao.fromHex ac.icao).getD ⟨0⟩ ∧ b.Framed)
            (squitter_framed _ _) _ _ _ _ _ hsquit b hb
        · exact poissonLoop_all rand _ _ _
            (fun b => b.icao = (Icao.fromHex ac.icao).getD ⟨0⟩ ∧ b.Framed)
            (altitudeReply_framed _ _) _ _ _ _ _ hreplies b hb

/-- All transmissions of a scenario are frames. -/
theorem broadcasts_framed (rand : Rand F R) (fuel : Nat) (sc : Scenario F)
    (bs : List (Broadcast F)) (h : broadcasts rand fuel sc = some bs) : ∀ b ∈ bs, b.Framed := by
  rcases Option.map_eq_some_iff.mp h with ⟨parts, hparts, rfl⟩
  intro b hb
  rcases List.mem_flatten.mp ((List.mem_insertionSort _).mp hb) with ⟨part, hpart, hb⟩
  rcases exists_of_forall₂_right (forall₂_of_mapM _ _ _ hparts) part hpart with ⟨ac, _, hemit⟩
  exact (emissions_framed rand fuel _ _ ac part hemit b hb).2

namespace ClockModel

/-- A clock without wander and jumps after some readings. -/
def after (spec : ClockSpec F) (lastT : F) (last : Option Nat) : ClockModel F R :=
  { (ClockModel.new spec : ClockModel F R) with lastT := lastT, lastCount := last }

/-- One reading of such a clock. -/
theorem countAtHostile_after (rand : Rand F R) (spec : ClockSpec F) (lastT : F)
    (last : Option Nat) (t : F) (rng : R) (m count : Nat)
    (hm : m = (after spec t last : ClockModel F R).rawCount t
      ((gaussian rand rng).1 * (after spec t last : ClockModel F R).jitterS))
    (hcount : count = (after spec t last : ClockModel F R).hold m) :
    (after spec lastT last).countAtHostile rand t rng =
      (after spec t (some count), (gaussian rand rng).2, count, false) := by
  rw [hcount, hm]
  cases spec <;> rfl

end ClockModel

namespace Loop

/-- A transmission is audible and not lost. -/
def hears (rand : Rand F R) (seed : Nat) (rx : ReceiverSpec F) (s : Loop F R)
    (b : Broadcast F) : Bool :=
  audible rx b.pos && !decide ((s.drawLoss rand seed rx b).1 < rx.lossProb)

/-- The loss draw of a transmission has been made. -/
def draw (rand : Rand F R) (seed : Nat) (rx : ReceiverSpec F) (s : Loop F R)
    (b : Broadcast F) : Loop F R :=
  { s with lossRngs := Function.update s.lossRngs b.icao (some (s.drawLoss rand seed rx b).2) }

/-- How a transmission is stamped: the clock after it, the jitter stream, the
    count, and whether the clock jumped. -/
def reading (rand : Rand F R) (seed : Nat) (rx : ReceiverSpec F) (s : Loop F R)
    (b : Broadcast F) : ClockModel F R × R × Nat × Bool :=
  s.clock.countAtHostile rand (s.arrive rand rx b).1 (s.jitterRng rand seed rx b.icao)

/-- What hearing a transmission does. -/
structure Heard (rand : Rand F R) (seed : Nat) (rx : ReceiverSpec F) (s : Loop F R)
    (b : Broadcast F) (s' : Loop F R) : Prop where
  clock : s'.clock = (s.reading rand seed rx b).1
  mpRng : s'.mpRng = (s.arrive rand rx b).2
  lossRngs : s'.lossRngs = s.lossRngs
  jitterRngs : s'.jitterRngs =
    Function.update s.jitterRngs b.icao (some (s.reading rand seed rx b).2.1)
  pending : s'.pending = Function.update s.pending b.icao
    (outcome (s.pending b.icao) b (s.arrive rand rx b).1 (s.reading rand seed rx b).2.2.1).1
  stamps : s'.stamps = s.stamps ++ [{ b := b, t := (s.arrive rand rx b).1
                                      count := (s.reading rand seed rx b).2.2.1 }]
  lines : ∃ asides : List (Line F), (∀ l ∈ asides, Aside l) ∧ s'.lines = s.lines ++ asides ++
      (outcome (s.pending b.icao) b (s.arrive rand rx b).1 (s.reading rand seed rx b).2.2.1).2

theorem mem_heartbeats (fuel : Nat) (nextHb t : F) :
    ∀ l ∈ (heartbeats fuel nextHb t).1, l.msg = .heartbeat ∧ l.about = none := by
  induction fuel generalizing nextHb with
  | zero => exact fun l hl => absurd hl List.not_mem_nil
  | succ fuel ih =>
      unfold heartbeats
      split_ifs
      · intro l hl
        rcases List.mem_cons.mp hl with rfl | hl
        · exact ⟨rfl, rfl⟩
        · exact ih _ l hl
      · exact fun l hl => absurd hl List.not_mem_nil

theorem heartbeats_aside (fuel : Nat) (nextHb t : F) :
    ∀ l ∈ (heartbeats fuel nextHb t).1, Aside l := by
  intro l hl
  rcases mem_heartbeats fuel nextHb t l hl with ⟨hmsg, habout⟩
  refine ⟨habout, ?_⟩
  rw [hmsg]
  rfl

theorem report_pending (s : Loop F R) (b : Broadcast F) (t : F) (count : Nat) :
    (s.report b t count).pending =
      Function.update s.pending b.icao (outcome (s.pending b.icao) b t count).1 := by
  unfold report outcome
  cases b.kind with
  | df17 odd =>
      simp only [pair]
      cases hp : s.pending b.icao with
      | none => rfl
      | some p =>
          simp only []
          split_ifs <;> rfl
  | df11 => exact (Function.update_eq_self b.icao s.pending).symm
  | df4 => exact (Function.update_eq_self b.icao s.pending).symm

theorem report_lines (s : Loop F R) (b : Broadcast F) (t : F) (count : Nat) :
    (s.report b t count).lines = s.lines ++ (outcome (s.pending b.icao) b t count).2 := by
  unfold report outcome
  cases b.kind with
  | df17 odd =>
      simp only [pair]
      cases hp : s.pending b.icao with
      | none => exact (List.append_nil s.lines).symm
      | some p =>
          simp only []
          by_cases hodd : odd = true
          · by_cases hpair : p.odd ≠ odd ∧ t - p.tArrive < lit 2
            · simp only [if_pos hpair, if_pos hodd, push]
            · simp only [if_neg hpair, List.append_nil]
          · by_cases hpair : p.odd ≠ odd ∧ t - p.tArrive < lit 2
            · simp only [if_pos hpair, if_neg hodd, push]
            · simp only [if_neg hpair, List.append_nil]
  | df11 => rfl
  | df4 => rfl

/-- What a report leaves alone. -/
theorem report_frame (s : Loop F R) (b : Broadcast F) (t : F) (count : Nat) :
    (s.report b t count).clock = s.clock ∧ (s.report b t count).mpRng = s.mpRng ∧
      (s.report b t count).lossRngs = s.lossRngs ∧
      (s.report b t count).jitterRngs = s.jitterRngs ∧
      (s.report b t count).stamps = s.stamps := by
  unfold report
  cases b.kind with
  | df17 odd =>
      simp only [pair]
      cases s.pending b.icao with
      | none => exact ⟨rfl, rfl, rfl, rfl, rfl⟩
      | some p =>
          simp only []
          split_ifs <;> exact ⟨rfl, rfl, rfl, rfl, rfl⟩
  | df11 => exact ⟨rfl, rfl, rfl, rfl, rfl⟩
  | df4 => exact ⟨rfl, rfl, rfl, rfl, rfl⟩

/-- A state that differs from another by lines aside, a heartbeat's time and
    the like. -/
structure Aligned (s s' : Loop F R) : Prop where
  clock : s'.clock = s.clock
  mpRng : s'.mpRng = s.mpRng
  lossRngs : s'.lossRngs = s.lossRngs
  jitterRngs : s'.jitterRngs = s.jitterRngs
  pending : s'.pending = s.pending
  stamps : s'.stamps = s.stamps
  lines : ∃ asides : List (Line F), (∀ l ∈ asides, Aside l) ∧ s'.lines = s.lines ++ asides

omit [F64Ln F] in
theorem Aligned.refl (s : Loop F R) : Aligned s s :=
  ⟨rfl, rfl, rfl, rfl, rfl, rfl, [], fun _ hl => absurd hl List.not_mem_nil,
    (List.append_nil s.lines).symm⟩

omit [F64Ln F] in
theorem Aligned.trans {s t u : Loop F R} (h : Aligned s t) (h' : Aligned t u) : Aligned s u := by
  refine ⟨h'.clock.trans h.clock, h'.mpRng.trans h.mpRng, h'.lossRngs.trans h.lossRngs,
    h'.jitterRngs.trans h.jitterRngs, h'.pending.trans h.pending, h'.stamps.trans h.stamps, ?_⟩
  rcases h.lines with ⟨as, has, hlines⟩
  rcases h'.lines with ⟨as', has', hlines'⟩
  refine ⟨as ++ as', fun l hl => ?_, by rw [hlines', hlines, List.append_assoc]⟩
  rcases List.mem_append.mp hl with hl | hl
  · exact has l hl
  · exact has' l hl

theorem aligned_beat (fuel : Nat) (s : Loop F R) (t : F) : Aligned s (s.beat fuel t) :=
  ⟨rfl, rfl, rfl, rfl, rfl, rfl, (heartbeats fuel s.nextHb t).1,
    heartbeats_aside fuel s.nextHb t, rfl⟩

omit [F64Ln F] in
theorem aligned_push (s : Loop F R) (t : F) (msg : ClientMsg) (hmsg : counts msg = []) :
    Aligned s (s.push t none msg) := by
  refine ⟨rfl, rfl, rfl, rfl, rfl, rfl, [_], fun l hl => ?_, rfl⟩
  rw [List.mem_singleton.mp hl]
  exact ⟨rfl, hmsg⟩

omit [F64Ln F] in
theorem aligned_announce (s : Loop F R) (icao : Icao) (t : F) :
    Aligned s (s.announce icao t) := by
  unfold announce
  split_ifs
  · exact Aligned.refl s
  · have h := aligned_push ({ s with seen := icao :: s.seen }) t (.seen [icao.toHex]) rfl
    exact ⟨h.clock, h.mpRng, h.lossRngs, h.jitterRngs, h.pending, h.stamps, h.lines⟩

/-- A transmission that is heard: heartbeats, the stamp, announcements, and what
    becomes of it. -/
theorem hear_spec (rand : Rand F R) (fuel seed : Nat) (rx : ReceiverSpec F) (s : Loop F R)
    (b : Broadcast F) : Heard rand seed rx s b (s.hear rand fuel seed rx b) := by
  have hbeat := aligned_beat fuel ({ s with mpRng := (s.arrive rand rx b).2 })
    (s.arrive rand rx b).1
  set s₁ := ({ s with mpRng := (s.arrive rand rx b).2 } : Loop F R).beat fuel
    (s.arrive rand rx b).1 with hs₁
  -- The stamp is that of the state before the heartbeats.
  have hread : s₁.clock.countAtHostile rand (s.arrive rand rx b).1
      (s₁.jitterRng rand seed rx b.icao) = s.reading rand seed rx b := rfl
  set s₂ := (s₁.stamp rand seed rx b (s.arrive rand rx b).1).1 with hs₂
  set s₃ := (if (s.reading rand seed rx b).2.2.2 = true then
    s₂.push (s.arrive rand rx b).1 none (.clockJump "jump") else s₂) with hs₃
  have hside : Aligned s₂ (s₃.announce b.icao (s.arrive rand rx b).1) := by
    refine Aligned.trans ?_ (aligned_announce s₃ b.icao _)
    rw [hs₃]
    split_ifs
    · exact aligned_push s₂ _ _ rfl
    · exact Aligned.refl s₂
  have heq : s.hear rand fuel seed rx b = (s₃.announce b.icao (s.arrive rand rx b).1).report b
      (s.arrive rand rx b).1 (s.reading rand seed rx b).2.2.1 := rfl
  set s₄ := s₃.announce b.icao (s.arrive rand rx b).1
  rcases report_frame s₄ b (s.arrive rand rx b).1 (s.reading rand seed rx b).2.2.1 with
    ⟨hclock, hmp, hloss, hjit, hstamps⟩
  have hpending : s₄.pending = s.pending := hside.pending.trans hbeat.pending
  rw [heq]
  refine ⟨hclock.trans hside.clock, hmp.trans (hside.mpRng.trans hbeat.mpRng),
    hloss.trans (hside.lossRngs.trans hbeat.lossRngs), hjit.trans hside.jitterRngs, ?_,
    hstamps.trans hside.stamps, ?_⟩
  · rw [report_pending, hpending]
  · rcases hbeat.lines with ⟨before, hbefore, hlines⟩
    rcases hside.lines with ⟨after, hafter, hlines'⟩
    have htwo : s₂.lines = s.lines ++ before := hlines
    refine ⟨before ++ after, fun l hl => ?_, ?_⟩
    · rcases List.mem_append.mp hl with hl | hl
      · exact hbefore l hl
      · exact hafter l hl
    · rw [report_lines, hpending, hlines', htwo, List.append_assoc s.lines before after]

theorem turn_hear (rand : Rand F R) (fuel seed : Nat) (rx : ReceiverSpec F) (s : Loop F R)
    (b : Broadcast F) (h : s.hears rand seed rx b = true) :
    s.turn rand fuel seed rx b = (s.draw rand seed rx b).hear rand fuel seed rx b := by
  rcases (Bool.and_eq_true _ _).mp h with ⟨haud, hloss⟩
  rw [Bool.not_eq_true', decide_eq_false_iff_not] at hloss
  unfold turn
  rw [if_neg (by rw [haud]; exact Bool.false_ne_true.symm)]
  simp only [if_neg hloss]
  rfl

theorem turn_heard (rand : Rand F R) (fuel seed : Nat) (rx : ReceiverSpec F) (s : Loop F R)
    (b : Broadcast F) (h : s.hears rand seed rx b = true) :
    Heard rand seed rx (s.draw rand seed rx b) b (s.turn rand fuel seed rx b) := by
  rw [turn_hear rand fuel seed rx s b h]
  exact hear_spec rand fuel seed rx _ b

/-- A transmission that is not heard moves at most its loss stream. -/
theorem turn_unheard (rand : Rand F R) (fuel seed : Nat) (rx : ReceiverSpec F) (s : Loop F R)
    (b : Broadcast F) (h : s.hears rand seed rx b = false) :
    s.turn rand fuel seed rx b = if audible rx b.pos then s.draw rand seed rx b else s := by
  unfold turn
  by_cases haud : audible rx b.pos = false
  · rw [if_pos haud, if_neg (by rw [haud]; exact Bool.false_ne_true)]
  · rw [if_neg haud]
    rw [Bool.not_eq_false] at haud
    rw [hears, haud, Bool.true_and, Bool.not_eq_false', decide_eq_true_eq] at h
    rw [if_pos haud]
    exact if_pos h

/-- A transmission is not audible, or it is lost and only its loss stream moves,
    or it is heard. -/
theorem turn_cases (rand : Rand F R) (fuel seed : Nat) (rx : ReceiverSpec F) (s : Loop F R)
    (b : Broadcast F) :
    s.turn rand fuel seed rx b = s ∨ s.turn rand fuel seed rx b = s.draw rand seed rx b ∨
      Heard rand seed rx (s.draw rand seed rx b) b (s.turn rand fuel seed rx b) := by
  cases h : s.hears rand seed rx b with
  | false =>
      rw [turn_unheard rand fuel seed rx s b h]
      split_ifs
      · exact Or.inr (Or.inl rfl)
      · exact Or.inl rfl
  | true => exact Or.inr (Or.inr (turn_heard rand fuel seed rx s b h))

end Loop

/-- The counts of a message are those of stamps of its frames. -/
def Sourced (stamps : List (Stamp F)) (msg : ClientMsg) : Prop :=
  ∀ p ∈ counts msg, ∃ st ∈ stamps, st.count = p.1 ∧ hexEncode st.b.bytes = p.2

omit [F64Ln F] in
theorem Sourced.append {stamps : List (Stamp F)} {msg : ClientMsg} (h : Sourced stamps msg)
    (more : List (Stamp F)) : Sourced (stamps ++ more) msg := by
  intro p hp
  rcases h p hp with ⟨st, hst, heq⟩
  exact ⟨st, List.mem_append_left _ hst, heq⟩

namespace Loop

/-- Lines say, and halves wait with, what was stamped. -/
structure Faithful (s : Loop F R) : Prop where
  lines : ∀ l ∈ s.lines, Sourced s.stamps l.msg
  pending : ∀ icao p, s.pending icao = some p →
    ∃ st ∈ s.stamps, st.count = p.count ∧ st.b.bytes = p.bytes

theorem Faithful.outcome {s : Loop F R} (h : Faithful s) (b : Broadcast F) (t : F) (count : Nat) :
    (∀ p, (outcome (s.pending b.icao) b t count).1 = some p →
      ∃ st ∈ s.stamps ++ [{ b := b, t := t, count := count }],
        st.count = p.count ∧ st.b.bytes = p.bytes) ∧
    ∀ l ∈ (Sim.outcome (s.pending b.icao) b t count).2,
      Sourced (s.stamps ++ [{ b := b, t := t, count := count }]) l.msg := by
  have hnew : ({ b := b, t := t, count := count } : Stamp F) ∈
      s.stamps ++ [{ b := b, t := t, count := count }] :=
    List.mem_append_right _ (List.mem_singleton.mpr rfl)
  have hold : ∀ p, s.pending b.icao = some p →
      ∃ st ∈ s.stamps ++ [{ b := b, t := t, count := count }],
        st.count = p.count ∧ st.b.bytes = p.bytes := by
    intro p hp
    rcases h.pending b.icao p hp with ⟨st, hst, heq⟩
    exact ⟨st, List.mem_append_left _ hst, heq⟩
  unfold Sim.outcome
  cases b.kind with
  | df17 odd =>
      have hhalf : ∀ p : PendingHalf F,
          some { odd := odd, tArrive := t, count := count, bytes := b.bytes } = some p →
          ∃ st ∈ s.stamps ++ [{ b := b, t := t, count := count }],
            st.count = p.count ∧ st.b.bytes = p.bytes := by
        intro p hp
        cases hp
        exact ⟨_, hnew, rfl, rfl⟩
      cases hwait : s.pending b.icao with
      | none => exact ⟨hhalf, fun l hl => absurd hl List.not_mem_nil⟩
      | some q =>
          rcases hold q hwait with ⟨st, hst, hcount, hbytes⟩
          simp only []
          split_ifs
          · refine ⟨fun p hp => hp.elim, fun l hl => ?_⟩
            rw [List.mem_singleton.mp hl]
            intro p hp
            simp only [counts, List.mem_cons, List.not_mem_nil, or_false] at hp
            rcases hp with rfl | rfl
            · exact ⟨st, hst, hcount, by rw [hbytes]⟩
            · exact ⟨_, hnew, rfl, rfl⟩
          · refine ⟨fun p hp => hp.elim, fun l hl => ?_⟩
            rw [List.mem_singleton.mp hl]
            intro p hp
            simp only [counts, List.mem_cons, List.not_mem_nil, or_false] at hp
            rcases hp with rfl | rfl
            · exact ⟨_, hnew, rfl, rfl⟩
            · exact ⟨st, hst, hcount, by rw [hbytes]⟩
          · exact ⟨hhalf, fun l hl => absurd hl List.not_mem_nil⟩
  | df11 =>
      refine ⟨fun p hp => hold p hp, fun l hl => ?_⟩
      rw [List.mem_singleton.mp hl]
      intro p hp
      rw [List.mem_singleton.mp hp]
      exact ⟨_, hnew, rfl, rfl⟩
  | df4 =>
      refine ⟨fun p hp => hold p hp, fun l hl => ?_⟩
      rw [List.mem_singleton.mp hl]
      intro p hp
      rw [List.mem_singleton.mp hp]
      exact ⟨_, hnew, rfl, rfl⟩

theorem faithful_turn (rand : Rand F R) (fuel seed : Nat) (rx : ReceiverSpec F) (s : Loop F R)
    (b : Broadcast F) (h : Faithful s) : Faithful (s.turn rand fuel seed rx b) := by
  rcases s.turn_cases rand fuel seed rx b with heq | heq | hheard
  · rw [heq]
    exact h
  · rw [heq]
    exact ⟨h.lines, h.pending⟩
  · set s₀ := s.draw rand seed rx b
    have h₀ : Faithful s₀ := ⟨h.lines, h.pending⟩
    rcases h₀.outcome b (s₀.arrive rand rx b).1 (s₀.reading rand seed rx b).2.2.1 with
      ⟨hwait, hout⟩
    rcases hheard.lines with ⟨asides, hasides, hlines⟩
    constructor
    · intro l hl
      rw [hheard.stamps]
      rw [hlines] at hl
      rcases List.mem_append.mp hl with hl | hl
      · rcases List.mem_append.mp hl with hl | hl
        · exact Sourced.append (h₀.lines l hl) _
        · intro p hp
          rw [(hasides l hl).2] at hp
          exact absurd hp List.not_mem_nil
      · exact hout l hl
    · intro icao p hp
      rw [hheard.stamps]
      rw [hheard.pending] at hp
      by_cases hne : icao = b.icao
      · rw [hne, Function.update_self] at hp
        exact hwait p hp
      · rw [Function.update_of_ne hne] at hp
        rcases h₀.pending icao p hp with ⟨st, hst, heq⟩
        exact ⟨st, List.mem_append_left _ hst, heq⟩

/-- Every count in a line is that of a stamp of its frame. -/
theorem faithful_run (rand : Rand F R) (fuel seed : Nat) (rx : ReceiverSpec F)
    (bs : List (Broadcast F)) : Faithful (run rand fuel seed rx bs) := by
  refine List.foldlRecOn bs _ (motive := fun s : Loop F R => Faithful s) ?_
    (fun s h b _ => faithful_turn rand fuel seed rx s b h)
  refine ⟨fun l hl p hp => ?_, fun icao p hp => absurd hp (Option.some_ne_none p).symm⟩
  rw [List.mem_singleton.mp hl] at hp
  exact absurd hp List.not_mem_nil

theorem arrive_arrival (rand : Rand F R) (rx : ReceiverSpec F) (s : Loop F R) (b : Broadcast F) :
    Arrival rand rx b (s.arrive rand rx b).1 := by
  unfold arrive
  by_cases hmp : lit 0 < rx.multipathProb
  · rw [if_pos hmp]
    simp only []
    split_ifs
    · exact Or.inr ⟨hmp, _, rfl⟩
    · exact Or.inl rfl
  · rw [if_neg hmp]
    exact Or.inl rfl

/-- Stamps are of transmissions, at their arrival. -/
theorem stamps_arrive (rand : Rand F R) (fuel seed : Nat) (rx : ReceiverSpec F)
    (bs : List (Broadcast F)) :
    ∀ st ∈ (run rand fuel seed rx bs).stamps, st.b ∈ bs ∧ Arrival rand rx st.b st.t := by
  refine List.foldlRecOn bs _ (motive := fun s : Loop F R =>
    ∀ st ∈ s.stamps, st.b ∈ bs ∧ Arrival rand rx st.b st.t) ?_ ?_
  · exact fun _ hst => absurd hst List.not_mem_nil
  · intro s hs b hb
    rcases s.turn_cases rand fuel seed rx b with heq | heq | hheard
    · rw [heq]
      exact hs
    · rw [heq]
      exact hs
    · rw [hheard.stamps]
      intro st hst
      rcases List.mem_append.mp hst with hst | hst
      · exact hs st hst
      · rw [List.mem_singleton.mp hst]
        exact ⟨hb, arrive_arrival rand rx _ b⟩

end Loop

theorem recordEach_lines (rand : Rand F R) (latencyS jitterS : F) (ls : List (Line F)) (rng : R) :
    (recordEach rand latencyS jitterS ls rng).flatMap SendRecord.lines = ls := by
  induction ls generalizing rng with
  | nil => rfl
  | cons l ls ih => exact congrArg (l :: ·) (ih _)

/-- Windows that close send the batch or leave it. -/
theorem closeWindows_lines (rand : Rand F R) (latencyS jitterS t : F) (fuel : Nat) (w : F)
    (batch : List (Line F)) (rng : R) (rs : List (SendRecord F)) (w' : F)
    (left : List (Line F)) (rng' : R)
    (h : closeWindows rand latencyS jitterS t fuel w batch rng = some (rs, w', left, rng')) :
    rs.flatMap SendRecord.lines ++ left = batch := by
  induction fuel generalizing w batch rng rs with
  | zero =>
      unfold closeWindows at h
      split_ifs at h
      cases h
      rfl
  | succ fuel ih =>
      unfold closeWindows at h
      split_ifs at h with hw hbatch
      · exact ih _ _ _ _ h
      · rcases Option.map_eq_some_iff.mp h with ⟨⟨rs', w'', left', rng''⟩, hrest, heq⟩
        cases heq
        have hnil := List.append_eq_nil_iff.mp (ih _ _ _ _ hrest)
        rw [List.flatMap_cons, hnil.1, hnil.2, List.append_nil, List.append_nil]
      · cases h
        rfl

theorem recordBatches_lines (rand : Rand F R) (fuel : Nat) (latencyS jitterS : F)
    (ls : List (Line F)) (w : F) (batch : List (Line F)) (rng : R) (rs : List (SendRecord F))
    (h : recordBatches rand fuel latencyS jitterS ls w batch rng = some rs) :
    rs.flatMap SendRecord.lines = batch ++ ls := by
  induction ls generalizing w batch rng rs with
  | nil =>
      unfold recordBatches at h
      split_ifs at h with hbatch
      · cases h
        rw [hbatch]
        rfl
      · cases h
        rfl
  | cons l ls ih =>
      unfold recordBatches at h
      split at h
      · exact absurd h (Option.some_ne_none rs).symm
      · next rs₁ w' left rng' hclose =>
          rcases Option.map_eq_some_iff.mp h with ⟨rs₂, hrest, rfl⟩
          rw [List.flatMap_append, ih _ _ _ _ hrest, ← List.append_assoc, ← List.append_assoc,
            closeWindows_lines rand latencyS jitterS l.t fuel w batch rng rs₁ w' left rng' hclose,
            List.append_assoc, List.singleton_append]

/-- Framing neither drops, repeats nor reorders lines. -/
theorem frameLines_lines (rand : Rand F R) (fuel : Nat) (compress : String) (latencyS jitterS : F)
    (ls : List (Line F)) (rng : R) (rs : List (SendRecord F))
    (h : frameLines rand fuel compress latencyS jitterS ls rng = some rs) :
    rs.flatMap SendRecord.lines = ls := by
  unfold frameLines at h
  split_ifs at h
  · cases ls with
    | nil =>
        cases h
        rfl
    | cons l ls => exact recordBatches_lines rand fuel latencyS jitterS (l :: ls) _ [] rng rs h
  · cases h
    exact recordEach_lines rand latencyS jitterS ls rng

/-- A client sends the lines of its receiver's loop, in order of arrival. -/
theorem buildClient_lines (rand : Rand F R) (fuel : Nat) (sc : Scenario F) (rx : ReceiverSpec F)
    (bs : List (Broadcast F)) (c : ClientStream F) (h : buildClient rand fuel sc rx bs = some c) :
    c.id = rx.id ∧
      c.records.flatMap SendRecord.lines = (Loop.run rand fuel sc.seed rx bs).sorted := by
  unfold buildClient at h
  simp only [] at h
  split_ifs at h
  rcases Option.map_eq_some_iff.mp h with ⟨rs, hframe, rfl⟩
  exact ⟨rfl, frameLines_lines rand fuel _ _ _ _ _ rs hframe⟩

/-- A capture has one client for each receiver, in order. -/
theorem generate_clients (rand : Rand F R) (fuel : Nat) (sc : Scenario F)
    (cap : GeneratedCapture F) (h : generate rand fuel sc = some (.ok cap)) :
    ∃ bs, broadcasts rand fuel sc = some bs ∧
      List.Forall₂ (fun rx c => buildClient rand fuel sc rx bs = some c)
        sc.receivers cap.clients := by
  unfold generate at h
  split at h
  · cases h
  · split at h
    · cases h
    · next bs hbs =>
        rcases Option.map_eq_some_iff.mp h with ⟨clients, hclients, heq⟩
        cases heq
        exact ⟨bs, hbs, forall₂_of_mapM _ _ _ hclients⟩

theorem exists_ok {ε α : Type} (o : Option (Except ε α)) (h : o.elim false Except.isOk = true) :
    ∃ a, o = some (.ok a) := by
  rcases o with _ | _ | a
  · exact absurd h Bool.false_ne_true
  · exact absurd h Bool.false_ne_true
  · exact ⟨a, rfl⟩

/-- The capture of a scenario with one receiver. -/
theorem generate_single (rand : Rand F R) (fuel : Nat) (sc : Scenario F) (rx : ReceiverSpec F)
    (hrx : sc.receivers = [rx])
    (hok : (generate rand fuel sc).elim false Except.isOk = true) :
    ∃ cap bs c, generate rand fuel sc = some (.ok cap) ∧ broadcasts rand fuel sc = some bs ∧
      cap.clients = [c] ∧ buildClient rand fuel sc rx bs = some c ∧
      c.records.flatMap SendRecord.lines = (Loop.run rand fuel sc.seed rx bs).sorted := by
  rcases exists_ok _ hok with ⟨cap, hcap⟩
  rcases generate_clients rand fuel sc cap hcap with ⟨bs, hbs, hclients⟩
  rw [hrx] at hclients
  rcases List.forall₂_cons_left_iff.mp hclients with ⟨c, rest, hbuild, hrest, heq⟩
  rw [List.forall₂_nil_left_iff.mp hrest] at heq
  exact ⟨cap, bs, c, hcap, hbs, heq, hbuild, (buildClient_lines rand fuel sc rx bs c hbuild).2⟩

end Sim

end MlatBench
