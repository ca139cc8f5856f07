import MlatBench.Theory.Downlink

/-!
# Calls That Are Dropped

What the session's loop gets of the lines in the stream. What has been consumed
of the stream is what was read and what the call in progress has taken; a branch
that wins the selection over a call that has taken bytes loses them, and with
them the place in the stream. Without such wins no line is lost, repeated or out
of order: the lines so far are a first part of the stream's, and calls enough
give all of them.

## Main definitions

* `SelectLoop.streamLines`: The lines of a stream that are not blank.
* `SelectLoop.Carries`: Every frame holds a line.
* `SelectLoop.Uncut`: No branch wins over a call that has taken bytes.
* `SelectLoop.Account`: What was consumed is accounted for.

## Theorems

* `SelectLoop.poll_account`: A call keeps the account and comes forward.
* `SelectLoop.run_account`: So does every run without such wins.
* `SelectLoop.drain`: Calls enough give every line.
* `SelectLoop.downlink_lossless`: No line is lost.
* `SelectLoop.flush_drops_line`, `SelectLoop.flush_drops_frame`: Wins that lose
  lines, in both modes.
-/

namespace MlatBench

namespace Client

open Library Server

/-- The line a call gives. -/
def Call.lines : Call → List (List UInt8)
  | .line l => [l]
  | _ => []

/-- The end of the session a call brings. -/
def Call.ending : Call → Option SessionEnd
  | .closed => some .closed
  | .failed => some .failed
  | _ => none

namespace SelectLoop

variable (decode : List (List UInt8) → List UInt8 → Option (List UInt8))

/-- The lines of frames behind other frames. -/
def contents : List (List UInt8) → List (List UInt8) → List (List UInt8)
  | _, [] => []
  | before, f :: fs =>
    (decode before f).elim [] Downlink.frameLines ++ contents (before ++ [f]) fs

theorem contents_append (before us vs : List (List UInt8)) :
    contents decode before (us ++ vs) =
      contents decode before us ++ contents decode (before ++ us) vs := by
  induction us generalizing before with
  | nil =>
      rw [List.append_nil]
      rfl
  | cons u us ih =>
      rw [List.cons_append, contents, ih, contents, List.append_assoc, List.append_assoc]
      rfl

/-- What is returned of lines or frames that were read. -/
def unitLines (framed : Bool) (us : List (List UInt8)) : List (List UInt8) :=
  if framed then contents decode [] us else us.filter nonBlank

/-- The lines of a stream that are not blank. -/
def streamLines (framed : Bool) (stream : List UInt8) : List (List UInt8) :=
  (if framed then contents decode [] (segments (complete true) stream)
    else segments (complete false) stream).filter nonBlank

/-- Every frame of the stream decompresses and holds a line that is not blank. -/
def Carries (framed : Bool) (stream : List UInt8) : Prop :=
  framed = true → ∀ before f, before ++ [f] <+: segments (complete true) stream →
    ∃ bytes, decode before f = some bytes ∧ ∃ l ∈ Downlink.frameLines bytes, nonBlank l = true

theorem Carries.of_append (framed : Bool) (xs ys : List UInt8)
    (h : Carries decode framed (xs ++ ys)) : Carries decode framed xs :=
  fun hf before f hpre => h hf before f (hpre.trans (segments_isPrefix _ _ _))

/-- No branch wins over a call that has taken bytes. -/
def Uncut (s : SelectLoop) : Event → Prop
  | .other => s.ended = none → s.down.taken = []
  | _ => True

/-- What was consumed is what was read and what the call has taken; what was
    read is returned or in the queue. The stream ends the session when nothing
    is left. -/
structure Account (s : SelectLoop) : Prop where
  consumed : ∃ consumed, s.stream = consumed ++ s.down.avail ∧
    cut (complete s.down.framed) [] consumed = (s.down.read, s.down.taken)
  lines : s.returned ++ s.down.queue = unitLines decode s.down.framed s.down.read
  drained : s.ended = none ∨ s.ended = some .bailed ∨
    (s.down.eof = true ∧ s.down.avail = [] ∧ s.down.queue = [])

theorem account_start (framed : Bool) : Account decode (start framed) := by
  refine ⟨⟨[], rfl, rfl⟩, ?_, Or.inl rfl⟩
  cases framed with
  | false => rfl
  | true => rfl

theorem step_poll (s : SelectLoop) (hended : s.ended = none) (c : Call) (d : Downlink)
    (hnext : s.down.nextLine decode = (c, d)) :
    s.step decode .poll =
      { s with down := d, returned := s.returned ++ c.lines, ended := c.ending } := by
  rw [step, hended, if_neg (by decide), hnext]
  cases c with
  | line l => simp only [Call.lines, Call.ending]
  | pending => simp only [Call.lines, Call.ending, List.append_nil]
  | closed => simp only [Call.lines, Call.ending, List.append_nil]
  | failed => simp only [Call.lines, Call.ending, List.append_nil]

/-- Reading on keeps the account. -/
theorem Account.read {s : SelectLoop} (h : Account decode s) (hqueue : s.down.queue = [])
    (c : Call) (xs rest taken : List UInt8) (us queue : List (List UInt8))
    (havail : s.down.avail = xs ++ rest)
    (hcut : cut (complete s.down.framed) s.down.taken xs = (us, taken))
    (hlines : unitLines decode s.down.framed (s.down.read ++ us) =
      unitLines decode s.down.framed s.down.read ++ (c.lines ++ queue))
    (hending : c.ending = none ∨ (s.down.eof = true ∧ rest = [] ∧ queue = [])) :
    Account decode { s with
      down := { s.down with
        avail := rest, taken := taken, read := s.down.read ++ us, queue := queue }
      returned := s.returned ++ c.lines
      ended := c.ending } := by
  rcases h.consumed with ⟨consumed, hstream, hconsumed⟩
  refine ⟨⟨consumed ++ xs, ?_, ?_⟩, ?_, ?_⟩
  · rw [hstream, havail, List.append_assoc]
  · refine (cut_append _ _ _ _).trans ?_
    rw [hconsumed, hcut]
  · have hold := h.lines
    rw [hqueue, List.append_nil] at hold
    change (s.returned ++ c.lines) ++ queue = unitLines decode s.down.framed (s.down.read ++ us)
    rw [hlines, ← hold, List.append_assoc]
  · rcases hending with hnone | hend
    · exact Or.inl hnone
    · exact Or.inr (Or.inr hend)

/-- The call in progress has less than a frame. -/
theorem Account.short {s : SelectLoop} (h : Account decode s) (hframed : s.down.framed = true) :
    2 ≤ s.down.taken.length → s.down.taken.length < 2 + frameLen s.down.taken := by
  rcases h.consumed with ⟨consumed, _, hcut⟩
  rw [hframed] at hcut
  have hshort := cut_framed_short [] consumed (fun h => absurd h (by decide))
  rwa [hcut] at hshort

/-- Coming forward: less is left to read, or in the queue, or nothing is left. -/
def Forward (s t : SelectLoop) : Prop :=
  t.stream = s.stream ∧ t.down.framed = s.down.framed ∧ t.ended ≠ some .bailed ∧
    (t.down.avail.length < s.down.avail.length ∨
      (t.down.avail = s.down.avail ∧ t.down.queue.length < s.down.queue.length) ∨
      (t.down.avail = [] ∧ t.down.queue = []))

theorem Call.ending_ne (c : Call) : c.ending ≠ some .bailed := by
  cases c <;> simp only [Call.ending, ne_eq, Option.some.injEq, reduceCtorEq, not_false_eq_true]

/-- A call takes a line from the queue. -/
theorem poll_queue (s : SelectLoop) (h : Account decode s) (hended : s.ended = none)
    (l : List UInt8) (queue : List (List UInt8)) (hqueue : s.down.queue = l :: queue) :
    Account decode (s.step decode .poll) ∧ Forward s (s.step decode .poll) := by
  have hnext : s.down.nextLine decode = (.line l, { s.down with queue := queue }) := by
    unfold Downlink.nextLine
    rw [hqueue]
  rw [step_poll decode s hended _ _ hnext]
  refine ⟨⟨h.consumed, ?_, Or.inl rfl⟩, rfl, rfl,
    Call.ending_ne (.line l), Or.inr (Or.inl ⟨rfl, ?_⟩)⟩
  · have hold := h.lines
    rw [hqueue] at hold
    change (s.returned ++ [l]) ++ queue = _
    rw [List.append_assoc]
    exact hold
  · rw [hqueue]
    exact Nat.lt_succ_self _

/-- A call in plain mode reads on. -/
theorem poll_plain (s : SelectLoop) (h : Account decode s) (hended : s.ended = none)
    (hframed : s.down.framed = false) (hqueue : s.down.queue = []) :
    Account decode (s.step decode .poll) ∧ Forward s (s.step decode .poll) := by
  rcases Downlink.nextLine_plain decode s.down hframed hqueue with
    ⟨xs, rest, read, taken, havail, hcut, hcase⟩
  rw [← hframed] at hcut
  have hunits : unitLines decode s.down.framed (s.down.read ++ read) =
      unitLines decode s.down.framed s.down.read ++ read.filter nonBlank := by
    rw [hframed]
    exact List.filter_append ..
  rcases hcase with ⟨hnext, rfl, hnone⟩ | ⟨l, hnext, rfl, hone⟩
  · rw [hnone, List.append_nil] at hunits
    rw [step_poll decode s hended _ _ hnext]
    refine ⟨h.read decode hqueue _ xs [] taken read [] havail hcut ?_ ?_, rfl, rfl,
      Call.ending_ne _, Or.inr (Or.inr ⟨rfl, rfl⟩)⟩
    · rw [hunits]
      by_cases heof : s.down.eof = true
      · rw [if_pos heof]
        exact (List.append_nil _).symm
      · rw [if_neg heof]
        exact (List.append_nil _).symm
    · by_cases heof : s.down.eof = true
      · exact Or.inr ⟨heof, rfl, rfl⟩
      · rw [if_neg heof]
        exact Or.inl rfl
  · rw [hone] at hunits
    rw [step_poll decode s hended _ _ hnext]
    refine ⟨h.read decode hqueue (.line l) xs rest [] read [] havail hcut hunits (Or.inl rfl),
      rfl, rfl, Call.ending_ne (.line l), Or.inl ?_⟩
    -- The line was read, so it is not empty.
    have hne : xs ≠ [] := by
      rintro rfl
      have hread : read = [] := (congrArg Prod.fst hcut).symm
      rw [hread] at hone
      exact nomatch hone
    have hpos := List.length_pos_iff.mpr hne
    rw [havail, List.length_append]
    change rest.length < _
    omega

theorem nextLine_of_framed (d : Downlink) (hframed : d.framed = true) (hqueue : d.queue = []) :
    d.nextLine decode = d.nextFramed decode := by
  unfold Downlink.nextLine
  rw [hqueue, hframed]
  rfl

/-- A call that waits, or ends with the stream, has taken all there is. -/
theorem poll_framed_waits (s : SelectLoop) (h : Account decode s) (hended : s.ended = none)
    (hframed : s.down.framed = true) (hqueue : s.down.queue = []) (c : Call) (hc : c.lines = [])
    (hend : c.ending = none ∨ s.down.eof = true)
    (hnext : s.down.nextFramed decode =
      (c, { s.down with avail := [], taken := s.down.taken ++ s.down.avail }))
    (hcut : cut (complete true) s.down.taken s.down.avail = ([], s.down.taken ++ s.down.avail)) :
    Account decode (s.step decode .poll) ∧ Forward s (s.step decode .poll) := by
  rw [← hframed] at hcut
  have hcall := nextLine_of_framed decode s.down hframed hqueue
  rw [step_poll decode s hended _ _ (hcall.trans hnext)]
  have hdown : { s.down with avail := [], taken := s.down.taken ++ s.down.avail } =
      { s.down with
        avail := [], taken := s.down.taken ++ s.down.avail, read := s.down.read ++ []
        queue := [] } := by
    rw [List.append_nil, ← hqueue]
  rw [hdown]
  refine ⟨h.read decode hqueue c s.down.avail [] _ [] [] (List.append_nil _).symm hcut ?_ ?_,
    rfl, rfl, Call.ending_ne c, Or.inr (Or.inr ⟨rfl, rfl⟩)⟩
  · rw [hc, List.append_nil]
    exact (List.append_nil _).symm
  · rcases hend with hnone | heof
    · exact Or.inl hnone
    · exact Or.inr ⟨heof, rfl, rfl⟩

/-- A call that completes a frame returns the first of its lines and queues the
    others. -/
theorem poll_framed_frame (s : SelectLoop) (h : Account decode s) (hended : s.ended = none)
    (hframed : s.down.framed = true) (hqueue : s.down.queue = []) (xs rest bytes first : List UInt8)
    (queue : List (List UInt8)) (havail : s.down.avail = xs ++ rest) (hne : xs ≠ [])
    (hcut : cut (complete true) s.down.taken xs = ([s.down.taken ++ xs], []))
    (hdecode : decode s.down.read (s.down.taken ++ xs) = some bytes)
    (hlines : Downlink.frameLines bytes = first :: queue)
    (hnext : s.down.nextFramed decode = (.line first,
      { s.down with
        avail := rest, taken := [], read := s.down.read ++ [s.down.taken ++ xs]
        queue := queue })) :
    Account decode (s.step decode .poll) ∧ Forward s (s.step decode .poll) := by
  have hunits : unitLines decode s.down.framed (s.down.read ++ [s.down.taken ++ xs]) =
      unitLines decode s.down.framed s.down.read ++ (first :: queue) := by
    rw [hframed]
    refine (contents_append decode [] _ _).trans ?_
    rw [List.nil_append, contents, hdecode, contents, List.append_nil]
    exact congrArg _ hlines
  rw [← hframed] at hcut
  have hcall := nextLine_of_framed decode s.down hframed hqueue
  rw [step_poll decode s hended _ _ (hcall.trans hnext)]
  refine ⟨h.read decode hqueue (.line first) xs rest [] _ queue havail hcut hunits
    (Or.inl rfl), rfl, rfl, Call.ending_ne (.line first), Or.inl ?_⟩
  have hpos := List.length_pos_iff.mpr hne
  rw [havail, List.length_append]
  change rest.length < _
  omega

/-- A call in framed mode reads on. -/
theorem poll_framed (s : SelectLoop) (h : Account decode s) (hended : s.ended = none)
    (hframed : s.down.framed = true) (hqueue : s.down.queue = [])
    (hcarries : Carries decode s.down.framed s.stream) :
    Account decode (s.step decode .poll) ∧ Forward s (s.step decode .poll) := by
  have hwait := poll_framed_waits decode s h hended hframed hqueue
  rcases Uplink.readFrame_cases s.down.taken s.down.avail (h.short decode hframed) with
    ⟨hall, hshort, hcut⟩ | ⟨hhead, xs, rest, havail, hread, hlen, hcase⟩
  · refine hwait (if s.down.eof then .closed else .pending) ?_ ?_ ?_ hcut
    · split_ifs <;> rfl
    · by_cases heof : s.down.eof = true
      · exact Or.inr heof
      · rw [if_neg heof]
        exact Or.inl rfl
    · unfold Downlink.nextFramed
      rw [hall]
      simp only [if_pos hshort]
  · rcases hcase with ⟨hshort, rfl, hcut⟩ | ⟨hfull, hne, hcut⟩
    · rw [List.append_nil] at havail
      rw [← havail] at hread hlen hshort hcut
      refine hwait (if s.down.eof then .failed else .pending) ?_ ?_ ?_ hcut
      · split_ifs <;> rfl
      · by_cases heof : s.down.eof = true
        · exact Or.inr heof
        · rw [if_neg heof]
          exact Or.inl rfl
      · rw [hlen] at hread
        unfold Downlink.nextFramed
        simp only [if_neg hhead, hlen, hread, if_pos hshort]
    · -- A frame is complete: it is the next of the stream's.
      rcases h.consumed with ⟨consumed, hstream, hconsumed⟩
      have hpre : s.down.read ++ [s.down.taken ++ xs] <+: segments (complete true) s.stream := by
        rw [hframed] at hconsumed
        have hprefix := segments_isPrefix (complete true) (consumed ++ xs) rest
        rw [segments, cut_append, hconsumed, hcut, List.append_assoc, ← havail,
          ← hstream] at hprefix
        exact hprefix
      rcases hcarries hframed _ _ hpre with ⟨bytes, hdecode, l, hl, _⟩
      cases hlines : Downlink.frameLines bytes with
      | nil =>
          rw [hlines] at hl
          exact absurd hl List.not_mem_nil
      | cons first queue =>
          refine poll_framed_frame decode s h hended hframed hqueue xs rest bytes first queue
            havail hne hcut hdecode hlines ?_
          rw [hlen] at hread
          unfold Downlink.nextFramed
          simp only [if_neg hhead, hlen, hread, if_neg hfull, hdecode, hlines]

/-- A call keeps the account, and comes forward. -/
theorem poll_account (s : SelectLoop) (h : Account decode s) (hended : s.ended = none)
    (hcarries : Carries decode s.down.framed s.stream) :
    Account decode (s.step decode .poll) ∧ Forward s (s.step decode .poll) := by
  cases hqueue : s.down.queue with
  | cons l queue => exact poll_queue decode s h hended l queue hqueue
  | nil =>
      by_cases hframed : s.down.framed = true
      · exact poll_framed decode s h hended hframed hqueue hcarries
      · exact poll_plain decode s h hended (eq_false_of_ne_true hframed) hqueue

theorem nextFramed_framed (d : Downlink) : (d.nextFramed decode).2.framed = d.framed := by
  unfold Downlink.nextFramed
  simp only []
  split_ifs
  · rfl
  · rfl
  · rfl
  · rfl
  · split
    · rfl
    · split <;> rfl

theorem nextLine_framed (d : Downlink) : (d.nextLine decode).2.framed = d.framed := by
  unfold Downlink.nextLine
  split
  · rfl
  · split_ifs
    · exact nextFramed_framed decode d
    · rfl

theorem step_framed (s : SelectLoop) (e : Event) :
    (s.step decode e).down.framed = s.down.framed := by
  cases e with
  | arrive chunk =>
      rw [step]
      split_ifs <;> rfl
  | close => rfl
  | poll =>
      by_cases hended : s.ended = none
      · rcases hnext : s.down.nextLine decode with ⟨c, d⟩
        rw [step_poll decode s hended c d hnext]
        exact (congrArg (fun p => p.2.framed) hnext).symm.trans (nextLine_framed decode s.down)
      · rw [step, if_pos (Option.isSome_iff_ne_none.mpr hended)]
  | other =>
      rw [step]
      split_ifs <;> rfl
  | bail =>
      rw [step]
      split_ifs <;> rfl

theorem step_ended (s : SelectLoop) (h : s.ended ≠ none) : s.step decode .poll = s :=
  if_pos (Option.isSome_iff_ne_none.mpr h)

/-- An event keeps the account, if it drops nothing. -/
theorem step_account (s : SelectLoop) (e : Event) (huncut : s.Uncut e)
    (h : Carries decode s.down.framed s.stream → Account decode s)
    (hcarries : Carries decode (s.step decode e).down.framed (s.step decode e).stream) :
    Account decode (s.step decode e) := by
  rw [step_framed] at hcarries
  cases e with
  | arrive chunk =>
      rw [step] at hcarries ⊢
      by_cases heof : s.down.eof = true
      · rw [if_pos heof] at hcarries ⊢
        exact h hcarries
      · rw [if_neg heof] at hcarries ⊢
        have hs := h (Carries.of_append decode _ _ _ hcarries)
        rcases hs.consumed with ⟨consumed, hstream, hcut⟩
        refine ⟨⟨consumed, ?_, hcut⟩, hs.lines, ?_⟩
        · rw [hstream, List.append_assoc]
        · rcases hs.drained with hnone | hbailed | hend
          · exact Or.inl hnone
          · exact Or.inr (Or.inl hbailed)
          · exact absurd hend.1 heof
  | close =>
      have hs := h hcarries
      refine ⟨hs.consumed, hs.lines, ?_⟩
      rcases hs.drained with hnone | hbailed | hend
      · exact Or.inl hnone
      · exact Or.inr (Or.inl hbailed)
      · exact Or.inr (Or.inr ⟨rfl, hend.2⟩)
  | poll =>
      by_cases hended : s.ended = none
      · have hstream : (s.step decode .poll).stream = s.stream := by
          rcases hnext : s.down.nextLine decode with ⟨c, d⟩
          rw [step_poll decode s hended c d hnext]
        rw [hstream] at hcarries
        exact (poll_account decode s (h hcarries) hended hcarries).1
      · rw [step_ended decode s hended] at hcarries ⊢
        exact h hcarries
  | other =>
      rw [step] at hcarries ⊢
      by_cases hended : s.ended.isSome = true
      · rw [if_pos hended] at hcarries ⊢
        exact h hcarries
      · rw [if_neg hended] at hcarries ⊢
        have hs := h hcarries
        have htaken := huncut (Option.not_isSome_iff_eq_none.mp hended)
        have hsame : { s.down with taken := [] } = s.down := by rw [← htaken]
        rw [hsame]
        exact hs
  | bail =>
      rw [step] at hcarries ⊢
      by_cases hended : s.ended.isSome = true
      · rw [if_pos hended] at hcarries ⊢
        exact h hcarries
      · rw [if_neg hended] at hcarries ⊢
        have hs := h hcarries
        exact ⟨hs.consumed, hs.lines, Or.inr (Or.inl rfl)⟩

theorem run_framed (s : SelectLoop) (es : List Event) :
    (exec (step decode) s es).down.framed = s.down.framed :=
  List.foldlRecOn es (step decode) (motive := fun t => t.down.framed = s.down.framed) rfl
    fun t ht e _ => (step_framed decode t e).trans ht

/-- The account is kept by every run in which no call is cut. -/
theorem run_account (framed : Bool) (es : List Event)
    (huncut : Along (step decode) Uncut (start framed) es)
    (hcarries : Carries decode framed (exec (step decode) (start framed) es).stream) :
    Account decode (exec (step decode) (start framed) es) := by
  have hframed := run_framed decode (start framed) es
  refine Along.invariant (step decode) Uncut
    (fun s => Carries decode s.down.framed s.stream → Account decode s)
    (fun s e h hu => step_account decode s e hu h) (start framed) es
    (fun _ => account_start decode framed) huncut ?_
  rw [hframed]
  exact hcarries

/-- Calls enough take everything that has arrived. -/
theorem drain (s : SelectLoop) (h : Account decode s) (hbailed : s.ended ≠ some .bailed)
    (hcarries : Carries decode s.down.framed s.stream) :
    ∃ n, Account decode (exec (step decode) s (List.replicate n .poll)) ∧
      (exec (step decode) s (List.replicate n .poll)).stream = s.stream ∧
      (exec (step decode) s (List.replicate n .poll)).down.avail = [] ∧
      (exec (step decode) s (List.replicate n .poll)).down.queue = [] := by
  -- Induction on what is left to read, and then on the queue.
  induction ha : s.down.avail.length using Nat.strongRecOn generalizing s with
  | _ a iha =>
    induction hq : s.down.queue.length using Nat.strongRecOn generalizing s with
    | _ q ihq =>
      rcases h.drained with hended | hend | hend
      · rcases poll_account decode s h hended hcarries with
          ⟨h', hstream, hframed, hbailed', hforward⟩
        rw [← hframed, ← hstream] at hcarries
        have hmore : ∀ n, exec (step decode) s (List.replicate (n + 1) .poll) =
            exec (step decode) (s.step decode .poll) (List.replicate n .poll) := by
          intro n
          rw [List.replicate_succ, exec_cons]
        rcases hforward with hless | ⟨hsame, hless⟩ | hdone
        · rcases iha _ (ha ▸ hless) (s.step decode .poll) h' hbailed' hcarries rfl with
            ⟨n, hn, hkeep, hrest⟩
          refine ⟨n + 1, ?_⟩
          rw [hmore]
          exact ⟨hn, hkeep.trans hstream, hrest⟩
        · rcases ihq _ (hq ▸ hless) (s.step decode .poll) h' hbailed' hcarries
            (by rw [hsame, ha]) rfl with ⟨n, hn, hkeep, hrest⟩
          refine ⟨n + 1, ?_⟩
          rw [hmore]
          exact ⟨hn, hkeep.trans hstream, hrest⟩
        · exact ⟨1, h', hstream, hdone⟩
      · exact absurd hend hbailed
      · exact ⟨0, h, rfl, hend.2⟩

/-- No line in a frame is white space without being empty. -/
def Spaceless (framed : Bool) (stream : List UInt8) : Prop :=
  framed = true →
    ∀ l ∈ contents decode [] (segments (complete true) stream), nonBlank l = true

theorem unitLines_append (framed : Bool) (us vs : List (List UInt8)) :
    ∃ ws, unitLines decode framed (us ++ vs) = unitLines decode framed us ++ ws := by
  cases framed with
  | false => exact ⟨_, List.filter_append ..⟩
  | true => exact ⟨_, contents_append decode [] us vs⟩

theorem streamLines_units (framed : Bool) (stream : List UInt8)
    (hspace : Spaceless decode framed stream) :
    streamLines decode framed stream =
      unitLines decode framed (segments (complete framed) stream) := by
  cases framed with
  | false => rfl
  | true => exact List.filter_eq_self.mpr (hspace rfl)

/-- What is returned is a first part of the stream's lines. -/
theorem Account.prefix {s : SelectLoop} (h : Account decode s)
    (hspace : Spaceless decode s.down.framed s.stream) :
    s.returned <+: streamLines decode s.down.framed s.stream := by
  rcases h.consumed with ⟨consumed, hstream, hcut⟩
  rcases segments_isPrefix (complete s.down.framed) consumed s.down.avail with ⟨more, hmore⟩
  rw [segments, hcut, ← hstream] at hmore
  rcases unitLines_append decode s.down.framed s.down.read more with ⟨ws, hws⟩
  refine ⟨s.down.queue ++ ws, ?_⟩
  rw [streamLines_units decode _ _ hspace, ← hmore, hws, ← h.lines, List.append_assoc]

/-- When nothing is left, all of them are returned. -/
theorem Account.all {s : SelectLoop} (h : Account decode s)
    (hspace : Spaceless decode s.down.framed s.stream) (havail : s.down.avail = [])
    (hqueue : s.down.queue = []) :
    s.returned = streamLines decode s.down.framed s.stream := by
  rcases h.consumed with ⟨consumed, hstream, hcut⟩
  rw [havail, List.append_nil] at hstream
  have hlines := h.lines
  rw [hqueue, List.append_nil] at hlines
  rw [streamLines_units decode _ _ hspace, hlines, segments, hstream, hcut]

/-- In a run in which no call is cut, on a stream whose frames hold lines and no
    lines of white space, what is returned is a first part of the stream's lines,
    and calls enough return all of them. -/
theorem downlink_lossless (framed : Bool) (es : List Event)
    (huncut : Along (step decode) Uncut (start framed) es)
    (hcarries : Carries decode framed (exec (step decode) (start framed) es).stream)
    (hspace : Spaceless decode framed (exec (step decode) (start framed) es).stream) :
    (exec (step decode) (start framed) es).returned <+:
        streamLines decode framed (exec (step decode) (start framed) es).stream ∧
      ((exec (step decode) (start framed) es).ended ≠ some .bailed →
        ∃ n, (exec (step decode) (start framed) (es ++ List.replicate n .poll)).returned =
          streamLines decode framed (exec (step decode) (start framed) es).stream) := by
  have h := run_account decode framed es huncut hcarries
  have hframed : (exec (step decode) (start framed) es).down.framed = framed :=
    run_framed decode (start framed) es
  constructor
  · have hprefix := h.prefix decode (by rw [hframed]; exact hspace)
    rwa [hframed] at hprefix
  · intro hbailed
    rcases drain decode _ h hbailed (by rw [hframed]; exact hcarries) with
      ⟨n, hn, hstream, havail, hqueue⟩
    have hsame := (run_framed decode (exec (step decode) (start framed) es)
      (List.replicate n .poll)).trans hframed
    refine ⟨n, ?_⟩
    rw [exec_append, hn.all decode (by rw [hsame, hstream]; exact hspace) havail hqueue, hsame,
      hstream]

/-- What a server sends: a line, in two pieces. -/
def lineHead : List UInt8 := [0x7b, 0x22, 0x68]

def lineTail : List UInt8 := [0x22, 0x3a, 0x31, 0x7d, newline]

/-- A frame that carries a line. -/
theorem carries_both : Carries Downlink.inflateBoth true Downlink.bothFrame := by
  intro _ before f hpre
  have hone : segments (complete true) Downlink.bothFrame = [Downlink.bothFrame] := by
    decide +kernel
  rw [hone] at hpre
  rcases List.prefix_cons_iff.mp hpre with hnil | ⟨rest, hsplit, hrest⟩
  · exact absurd hnil (List.append_ne_nil_of_right_ne_nil before (List.cons_ne_nil f []))
  · rw [List.prefix_nil.mp hrest] at hsplit
    rcases List.append_eq_singleton_iff.mp hsplit with ⟨rfl, hf⟩ | ⟨_, hnil⟩
    · rw [List.singleton_inj.mp hf]
      exact ⟨_, rfl, Downlink.braces, by decide, by decide⟩
    · exact absurd hnil (List.cons_ne_nil f [])

/-- A timer fires between two lines, or frames, and the line, or the frame, comes in two
    pieces. -/
theorem downlink_lossless_pieces :
    (∃ n, (exec (step fun _ _ => none) (start false)
      ([.other, .arrive lineHead, .poll, .arrive lineTail] ++ List.replicate n .poll)).returned =
        streamLines (fun _ _ => none) false (lineHead ++ lineTail)) ∧
      ∃ n, (exec (step Downlink.inflateBoth) (start true)
        ([.other, .arrive (Downlink.bothFrame.take 5), .poll, .arrive (Downlink.bothFrame.drop 5)] ++
          List.replicate n .poll)).returned =
        streamLines Downlink.inflateBoth true Downlink.bothFrame :=
  ⟨(downlink_lossless (fun _ _ => none) false [.other, .arrive lineHead, .poll, .arrive lineTail]
      ⟨fun _ => rfl, trivial, trivial, trivial, trivial⟩ (fun h => nomatch h)
      (fun h => nomatch h)).2 (by decide +kernel),
    (downlink_lossless Downlink.inflateBoth true
      [.other, .arrive (Downlink.bothFrame.take 5), .poll, .arrive (Downlink.bothFrame.drop 5)]
      ⟨fun _ => rfl, trivial, trivial, trivial, trivial⟩ carries_both
      (fun _ => by decide +kernel)).2 (by decide +kernel)⟩

/-- The flush tick fires between the two pieces: half a line is returned. -/
theorem flush_drops_line :
    ¬ (exec (step fun _ _ => none) (start false)
        [.arrive lineHead, .poll, .other, .arrive lineTail, .poll]).returned <+:
      streamLines (fun _ _ => none) false (lineHead ++ lineTail) := by
  decide +kernel

/-- The flush tick fires within a frame's length: what follows is taken for the
    length, and however often the call runs, the frame's line does not come. -/
theorem flush_drops_frame (n : Nat) :
    streamLines Downlink.inflateBoth true Downlink.bothFrame = [Downlink.braces] ∧
      (exec (step Downlink.inflateBoth) (start true)
        ([.arrive (Downlink.bothFrame.take 1), .poll, .other,
          .arrive (Downlink.bothFrame.drop 1), .poll] ++ List.replicate n .poll)).returned = [] := by
  refine ⟨by decide +kernel, ?_⟩
  have hstuck : exec (step Downlink.inflateBoth) (start true)
      [.arrive (Downlink.bothFrame.take 1), .poll, .other,
        .arrive (Downlink.bothFrame.drop 1), .poll] =
      { down :=
          { framed := true, avail := [], eof := false, taken := Downlink.bothFrame.drop 1
            read := [], queue := [] }
        stream := Downlink.bothFrame, returned := [], ended := none } := by decide +kernel
  rw [exec_append, hstuck]
  induction n with
  | zero => rfl
  | succ n ih =>
      rw [List.replicate_succ, exec_cons]
      exact ih

end SelectLoop

end Client

end MlatBench
