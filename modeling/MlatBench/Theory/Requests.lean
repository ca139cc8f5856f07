import MlatBench.Theory.Session

/-!
# Requests That Were Refused

A connection asks for an aircraft once: what is in its set is not asked for
again. The set is extended before the request is offered to the channel, and the
channel may be full.

So a request in the set was sent exactly if every line that found the channel
full had nothing to ask for (`requests_recorded_iff`). A request that is refused
stays in the set, and its aircraft is not asked for while the connection lasts
(`refused_stays`).

## Main definitions

* `Requests.asked`: The aircraft a line of the server asks for.
* `Requests.Recorded`: What is in the set was sent, so what was not sent is
  asked for at its next offer.
* `Requests.Unrefused`: A line that finds the channel full asks for nothing.

## Theorems

* `step_sent`: What was sent is in the set.
* `kept_step_iff`: When a step keeps that what is in the set was sent.
* `requests_recorded_iff`: The runs in which requests are recorded when sent.
* `refused_stays`: What is in the set is not asked for.
-/

namespace MlatBench

namespace Server

open Library

namespace Requests

/-- The aircraft a line of the server asks for. -/
def asked (m : Json) : List String :=
  (((m.get "start_sending").bind Json.asArray).getD []).filterMap Json.asStr

theorem asked_startSending (addrs : List String) : asked (startSending addrs) = addrs := by
  have hget : (startSending addrs).get "start_sending" = some (.arr (addrs.map .str)) := rfl
  unfold asked
  rw [hget]
  simp only [Option.bind_some, Json.asArray, Option.getD_some, List.filterMap_map]
  exact List.filterMap_some

/-- What is in the set was sent. -/
def Kept (s : Requests) : Prop :=
  ∀ h ∈ s.requested, ∃ m ∈ s.accepted, h ∈ asked m

/-- What was sent is in the set. -/
def Sent (s : Requests) : Prop :=
  ∀ m ∈ s.accepted, ∀ h ∈ asked m, h ∈ s.requested

variable (lower : String → String)

/-- What is in the set was sent, and what was not sent is asked for when it is
    offered next. -/
structure Recorded (s : Requests) : Prop where
  kept : s.Kept
  again : ∀ v, ∀ a ∈ offered v, (∀ m ∈ s.accepted, lower a ∉ asked m) →
    lower a ∈ (requestWith lower s.requested (offered v)).2

theorem recorded_iff (s : Requests) : Recorded lower s ↔ s.Kept := by
  constructor
  · exact Recorded.kept
  · intro hkept
    refine ⟨hkept, ?_⟩
    intro v a ha hunsent
    refine (requestWith_spec lower s.requested (offered v) (lower a)).2.mpr ⟨?_, a, ha, rfl⟩
    intro hreq
    rcases hkept (lower a) hreq with ⟨m, hm, hmem⟩
    exact hunsent m hm hmem

/-- A line that finds the channel full offers only what is in the set. -/
def Unrefused (s : Requests) (ev : Event) : Prop :=
  ∀ v, ev = .line (some v) → writerSlots ≤ s.channel.length →
    ∀ a ∈ offered v, lower a ∈ s.requested

/-- A line: either nothing is asked for, or what is asked for is taken or refused. -/
theorem step_line (s : Requests) (v : Json) :
    let q := requestWith lower s.requested (offered v)
    (step lower s (.line (some v))).requested = q.1 ∧
      (step lower s (.line (some v))).accepted =
        if q.2 ≠ [] ∧ s.channel.length < writerSlots then s.accepted ++ [startSending q.2]
        else s.accepted := by
  simp only [step, trySend]
  by_cases hfresh : (requestWith lower s.requested (offered v)).2 = []
  · rw [if_pos hfresh, if_neg fun h => h.1 hfresh]
    exact ⟨rfl, rfl⟩
  · rw [if_neg hfresh]
    by_cases hroom : s.channel.length < writerSlots
    · rw [if_pos hroom, if_pos ⟨hfresh, hroom⟩]
      exact ⟨rfl, rfl⟩
    · rw [if_neg hroom, if_neg fun h => hroom h.2]
      exact ⟨rfl, rfl⟩

/-- Other lines and the writer change neither the set nor what was sent. -/
theorem step_aside (s : Requests) (ev : Event) (h : ∀ v, ev ≠ .line (some v)) :
    (step lower s ev).requested = s.requested ∧ (step lower s ev).accepted = s.accepted := by
  cases ev with
  | line v =>
      cases v with
      | none => exact ⟨rfl, rfl⟩
      | some v => exact absurd rfl (h v)
  | other m =>
      simp only [step]
      split_ifs <;> exact ⟨rfl, rfl⟩
  | written => exact ⟨rfl, rfl⟩

/-- What was sent is in the set after every step. -/
theorem step_sent (s : Requests) (ev : Event) (hs : s.Sent) : (step lower s ev).Sent := by
  by_cases hline : ∃ v, ev = .line (some v)
  · rcases hline with ⟨v, rfl⟩
    rcases step_line lower s v with ⟨hreq, hacc⟩
    intro m hm h hh
    have hspec := requestWith_spec lower s.requested (offered v) h
    rw [hreq, hspec.1]
    rw [hacc] at hm
    -- A message is of before, or it asks for what was offered now.
    have hold : m ∈ s.accepted → h ∈ s.requested ∨ ∃ a ∈ offered v, lower a = h :=
      fun hmem => Or.inl (hs m hmem h hh)
    split_ifs at hm
    · rcases List.mem_append.mp hm with hmem | hnew
      · exact hold hmem
      · rw [List.mem_singleton.mp hnew, asked_startSending] at hh
        exact Or.inr (hspec.2.mp hh).2
    · exact hold hm
  · rcases step_aside lower s ev fun v hv => hline ⟨v, hv⟩ with ⟨hreq, hacc⟩
    unfold Sent
    rw [hreq, hacc]
    exact hs

/-- A step keeps that what is in the set was sent exactly if no request is
    refused. -/
theorem kept_step_iff (s : Requests) (ev : Event) (hsent : s.Sent) (hkept : s.Kept) :
    (step lower s ev).Kept ↔ Unrefused lower s ev := by
  by_cases hline : ∃ v, ev = .line (some v)
  · rcases hline with ⟨v, rfl⟩
    rcases step_line lower s v with ⟨hreq, hacc⟩
    unfold Kept
    rw [hreq, hacc]
    constructor
    · intro h v' hv hfull a ha
      cases hv
      rw [if_neg fun hroom => absurd hroom.2 (Nat.not_lt.mpr hfull)] at h
      -- What the channel did not take now it took before.
      have hin := (requestWith_spec lower s.requested (offered v) (lower a)).1.mpr
        (Or.inr ⟨a, ha, rfl⟩)
      rcases h (lower a) hin with ⟨m, hm, hmem⟩
      exact hsent m hm (lower a) hmem
    · intro hun h hh
      have hspec := requestWith_spec lower s.requested (offered v) h
      by_cases hold : h ∈ s.requested
      · rcases hkept h hold with ⟨m, hm, hmem⟩
        refine ⟨m, ?_, hmem⟩
        split_ifs
        · exact List.mem_append_left _ hm
        · exact hm
      · rcases hspec.1.mp hh with hin | ⟨a, ha, heq⟩
        · exact absurd hin hold
        · have hfresh := hspec.2.mpr ⟨hold, a, ha, heq⟩
          have hroom : s.channel.length < writerSlots := by
            by_contra hfull
            refine hold ?_
            rw [← heq]
            exact hun v rfl (Nat.le_of_not_lt hfull) a ha
          rw [if_pos ⟨List.ne_nil_of_mem hfresh, hroom⟩]
          refine ⟨_, List.mem_append_right _ List.mem_cons_self, ?_⟩
          rw [asked_startSending]
          exact hfresh
  · rcases step_aside lower s ev fun v hv => hline ⟨v, hv⟩ with ⟨hreq, hacc⟩
    refine iff_of_true ?_ fun v hv => absurd ⟨v, hv⟩ hline
    unfold Kept
    rw [hreq, hacc]
    exact hkept

theorem exec_sent (es : List Event) : (exec (step lower) new es).Sent := by
  refine List.foldlRecOn es (step lower) (motive := Sent) ?_ fun s hs ev _ =>
    step_sent lower s ev hs
  intro m hm
  exact absurd hm List.not_mem_nil

/-- Requests are recorded when sent in the runs in which none is refused, and in
    no other. -/
theorem requests_recorded_iff (es : List Event) :
    (∀ n, Recorded lower (exec (step lower) new (es.take n))) ↔
      Along (step lower) (Unrefused lower) new es := by
  -- One step keeps it exactly if no request is refused, so a whole run does.
  have hrun := along_iff_take (step lower) (Unrefused lower)
    (fun s : Requests => s.Sent ∧ s.Kept) (fun s ev hs =>
      Iff.trans (and_iff_right (step_sent lower s ev hs.1)) (kept_step_iff lower s ev hs.1 hs.2))
    new es ⟨exec_sent lower [], fun h hh => absurd hh List.not_mem_nil⟩
  rw [← hrun]
  refine forall_congr' fun n => ?_
  rw [recorded_iff, and_iff_right (exec_sent lower (es.take n))]

/-- What is in the set is not asked for. -/
theorem refused_stays (s : Requests) (ev : Event) (h : String) (hh : h ∈ s.requested) :
    h ∈ (step lower s ev).requested ∧
      ∀ m ∈ (step lower s ev).accepted, h ∈ asked m → m ∈ s.accepted := by
  by_cases hline : ∃ v, ev = .line (some v)
  · rcases hline with ⟨v, rfl⟩
    rcases step_line lower s v with ⟨hreq, hacc⟩
    have hspec := requestWith_spec lower s.requested (offered v) h
    rw [hreq, hacc]
    refine ⟨hspec.1.mpr (Or.inl hh), ?_⟩
    intro m hm hmem
    split_ifs at hm
    · rcases List.mem_append.mp hm with hold | hnew
      · exact hold
      · rw [List.mem_singleton.mp hnew, asked_startSending] at hmem
        exact absurd hh (hspec.2.mp hmem).1
    · exact hm
  · rcases step_aside lower s ev fun v hv => hline ⟨v, hv⟩ with ⟨hreq, hacc⟩
    rw [hreq, hacc]
    exact ⟨hh, fun m hm _ => hm⟩

/-- A client offers an aircraft. -/
def offer : Event := .line (some (.obj [("seen", .arr [.str "abcdef"])]))

/-- Results fill the channel of a slow client, then it offers an aircraft. -/
def fullRun : List Event :=
  List.replicate writerSlots (.other .null) ++ [offer]

/-- The request is refused and recorded, and not made when the writer has
    caught up and the aircraft is offered again. -/
theorem refused_recorded :
    (¬ ∀ n, Recorded toLowercase (exec (step toLowercase) new (fullRun.take n))) ∧
      (exec (step toLowercase) new (fullRun ++ [.written, offer])).accepted.isEmpty = true := by
  constructor
  · intro h
    have hin : "abcdef" ∈ (exec (step toLowercase) new fullRun).requested := by decide +kernel
    have hsent : (exec (step toLowercase) new fullRun).accepted.isEmpty = true := by decide +kernel
    rcases (h fullRun.length).kept "abcdef" (by rw [List.take_length]; exact hin) with ⟨m, hm, _⟩
    rw [List.take_length, List.isEmpty_iff.mp hsent] at hm
    exact absurd hm List.not_mem_nil
  · decide +kernel

end Requests

end Server

end MlatBench
