import MlatBench.Core.Idle

/-!
# Idle Deadlines Follow the Turns

The deadline is that of the last turn of the loop, not that of the last input. A
turn that starts later than the last line or frame, after a tick or after a
line that took time to handle, moves it; while a branch runs or the rest of a
frame is awaited there is none. A run whose turns start with the input, and in
which no time is spent beyond the deadline where none stands, keeps it; every
other run does not.

## Main definitions

* `Watched.Follows`: The deadline is that of the last input, and is not passed.
* `Watched.OnTime`: A step that keeps it so.

## Theorems

* `Watched.follows_step`: One step.
* `Watched.follows_iff`: Whole runs.
* `Watched.ticks_defer`: Heartbeats keep a silent client.
-/

namespace MlatBench

namespace Server

open Library

namespace Watched

variable (accepts : List (List UInt8) → List UInt8 → Bool)

/-- While the loop runs, a deadline that is armed is five minutes after the last
    input, and the client has not been silent for longer. -/
def Follows (s : Watched) : Prop :=
  s.uplink.ended = none →
    (∀ d, s.armed = some d → d = s.lastInput + idle) ∧ s.now ≤ s.lastInput + idle

/-- The next turn starts at the time of the last input. Where no deadline is
    armed, time does not go beyond five minutes after it. -/
def OnTime (s : Watched) : Event → Prop
  | .resume => s.uplink.ended = none → s.handling = true → s.now = s.lastInput
  | .passes nanos =>
    s.uplink.ended = none → s.armed = none → s.now + nanos ≤ s.lastInput + idle
  | _ => True

theorem follows_start (framed wantsStats : Bool) : Follows (start framed wantsStats) :=
  fun _ => ⟨fun d hd => by rw [← Option.some.inj hd]; exact (Nat.zero_add idle).symm,
    Nat.zero_le _⟩

theorem step_ended (s : Watched) (e : Event) (h : s.uplink.ended.isSome = true) :
    s.step accepts e = s :=
  if_pos h

theorem follows_elapse (s : Watched) (now : Nat) : Follows { s.elapse with now := now } :=
  fun h => nomatch h

/-- A deadline that is dropped. -/
theorem Follows.unarmed {s : Watched} (h : Follows s) (hnone : s.uplink.ended = none) (u : Uplink)
    (handling : Bool) : Follows { s with uplink := u, armed := none, handling := handling } :=
  fun _ => ⟨fun _ hd => (nomatch hd), (h hnone).2⟩

/-- A step keeps the deadline right just when it is on time. -/
theorem follows_step (s : Watched) (e : Event) (h : Follows s) :
    Follows (s.step accepts e) ↔ OnTime s e := by
  by_cases hended : s.uplink.ended.isSome = true
  · rw [step_ended accepts s e hended]
    refine iff_of_true h ?_
    have hne : s.uplink.ended ≠ none := Option.isSome_iff_ne_none.mp hended
    cases e with
    | resume => exact fun hnone => absurd hnone hne
    | passes nanos => exact fun hnone => absurd hnone hne
    | _ => trivial
  · have hnone : s.uplink.ended = none := Option.not_isSome_iff_eq_none.mp hended
    rcases h hnone with ⟨harmed, htime⟩
    unfold step
    rw [if_neg hended]
    cases e with
    | arrive chunk => exact iff_of_true (fun _ => ⟨harmed, htime⟩) trivial
    | close => exact iff_of_true (fun _ => ⟨harmed, htime⟩) trivial
    | poll =>
        refine iff_of_true ?_ trivial
        simp only []
        split_ifs
        · exact h
        · -- The input is of now.
          exact fun _ => ⟨fun _ hd => (nomatch hd), Nat.le_add_right _ _⟩
        · exact h.unarmed hnone _ s.handling
        · exact fun _ => ⟨harmed, htime⟩
    | tick push =>
        refine iff_of_true ?_ trivial
        simp only []
        split_ifs
        · exact h
        · exact h.unarmed hnone _ true
    | resume =>
        simp only []
        by_cases hhandling : s.handling = true
        · rw [if_pos hhandling]
          constructor
          · intro hfollows _ _
            have hdeadline : s.now + idle = s.lastInput + idle := (hfollows hnone).1 _ rfl
            omega
          · intro hontime _
            have hnow := hontime hnone hhandling
            refine ⟨fun d hd => ?_, htime⟩
            rw [← Option.some.inj hd, hnow]
        · rw [if_neg hhandling]
          exact iff_of_true h fun _ hh => absurd hh hhandling
    | expire =>
        refine iff_of_true ?_ trivial
        simp only []
        split
        · split_ifs
          · exact follows_elapse s s.now
          · exact h
        · exact h
    | passes nanos =>
        simp only []
        split
        · rename_i d hd
          have hdeadline := harmed d hd
          refine iff_of_true ?_ fun _ hn => absurd (hd.symm.trans hn) (Option.some_ne_none d)
          split_ifs with hpassed
          · exact follows_elapse s _
          · refine fun _ => ⟨harmed, ?_⟩
            change s.now + nanos ≤ s.lastInput + idle
            omega
        · rename_i hd
          constructor
          · exact fun hfollows _ _ => (hfollows hnone).2
          · exact fun hontime _ => ⟨harmed, hontime hnone hd⟩

/-- The deadline follows the client through a run just when every step of the
    run is on time. -/
theorem follows_iff (framed wantsStats : Bool) (es : List Event) :
    (∀ n, Follows (exec (step accepts) (start framed wantsStats) (es.take n))) ↔
      Along (step accepts) OnTime (start framed wantsStats) es :=
  along_iff_take (step accepts) OnTime Follows (fun s e h => follows_step accepts s e h)
    (start framed wantsStats) es (follows_start framed wantsStats)

/-- Half a minute of silence and a heartbeat. -/
def heartbeatTurn : List Event := [.passes (30 * 10 ^ 9), .tick .heartbeat, .resume]

/-- Eleven heartbeats: the client has been silent for five and a half minutes,
    and is served until five minutes after the last of them. -/
theorem ticks_defer :
    let s := exec (step fun _ _ => true) (start false false) (List.replicate 11 heartbeatTurn).flatten
    s.uplink.ended = none ∧ s.lastInput = 0 ∧ s.now = 330 * 10 ^ 9 ∧
      s.armed = some (630 * 10 ^ 9) ∧ ¬ Follows s := by
  intro s
  have hrun : s.uplink.ended = none ∧ s.lastInput = 0 ∧ s.now = 330 * 10 ^ 9 ∧
      s.armed = some (630 * 10 ^ 9) := by decide +kernel
  refine ⟨hrun.1, hrun.2.1, hrun.2.2.1, hrun.2.2.2, fun hfollows => ?_⟩
  have htime := (hfollows hrun.1).2
  rw [hrun.2.1, hrun.2.2.1, idle] at htime
  omega

end Watched

end Server

end MlatBench
