import MlatBench.Core.Uplink
import MlatBench.Library.Segments

/-!
# What the Uplink Reader Processes

The lines or frames the message loop processes, against those in the stream.

`complete` is the test for a unit: a line ends in a newline, a frame is as long
as its prefix says. What has been consumed of the stream is cut by that test
into what was processed and what the read in progress has taken
(`Uplink.Synced`). `Polled` says all a poll can do; it keeps the account. A tick
empties the read's buffer and keeps the account only if there is nothing in the
buffer, so the loop loses data by ticks that win the selection over a read that
has begun, and by nothing else.

## Main definitions

* `complete`: The test for a unit.
* `Uplink.Polled`: What a poll can do.
* `Uplink.Synced`: The consumed part of the stream is accounted for.
* `Uplink.Valid`: No line is over the limit, or all frames decompress.
* `Uplink.Sound`: The account of a loop on a valid stream.
* `Uplink.QuietTick`: No tick drops a read that has taken bytes.

## Theorems

* `readUntil_spec`, `readExact_twice`: What the reads take.
* `cut_framed_short`: An unfinished frame is shorter than its length says.
* `readFrame_cases`: What the reads of a frame come to.
* `pollPlain_polled`, `pollFramed_polled`: What a poll does in each mode.
* `polled_sound`: A poll keeps the account.
* `step_sound`, `run_sound`: So does every step and run without such ticks.
* `drain`: Enough polls take everything.
* `uplink_lossless`: Nothing is lost in runs without such ticks.
* `uplink_lossless_split`: A line in two chunks between heartbeats.
* `tick_drops_partial`: A tick that loses data, in both modes.
-/

namespace MlatBench

namespace Server

open Library

/-- A line ends in a newline; a frame is as long as its prefix says. -/
def complete (framed : Bool) (p : List UInt8) : Bool :=
  if framed then decide (2 ≤ p.length ∧ p.length = 2 + frameLen p)
  else p.getLast? == some newline

theorem complete_nil (framed : Bool) : complete framed [] = false := by
  cases framed <;> rfl

theorem complete_plain (p : List UInt8) :
    complete false p = true ↔ p.getLast? = some newline := by
  simp only [complete, Bool.false_eq_true, if_false, beq_iff_eq]

theorem complete_framed (p : List UInt8) :
    complete true p = true ↔ 2 ≤ p.length ∧ p.length = 2 + frameLen p := by
  simp only [complete, if_true, decide_eq_true_eq]

/-- The length prefix of a frame is read off its first two bytes. -/
theorem frameLen_append (p q : List UInt8) (h : 2 ≤ p.length) :
    frameLen (p ++ q) = frameLen p := by
  have h0 : 0 < p.length := by omega
  have h1 : 1 < p.length := by omega
  simp only [frameLen, List.getD_eq_getElem?_getD, List.getElem?_append_left h0,
    List.getElem?_append_left h1]

/-- The line read takes a piece that either completes the line, or leaves it
    open and ends at the limit or with all there was. -/
theorem readUntil_spec (eof : Bool) (line avail line' rest : List UInt8) (ready : Bool)
    (h : readUntil eof line avail = (line', rest, ready)) :
    ∃ xs, avail = xs ++ rest ∧ line' = line ++ xs ∧
      ((xs ≠ [] ∧ ready = true ∧ cut (complete false) line xs = ([line'], [])) ∨
        (cut (complete false) line xs = ([], line') ∧
          ((ready = true ∧ line'.length = lineLimit) ∨
            (line'.length ≠ lineLimit ∧ rest = [] ∧ ready = eof)))) := by
  induction avail generalizing line with
  | nil =>
      simp only [readUntil, Prod.mk.injEq] at h
      rcases h with ⟨rfl, rfl, rfl⟩
      refine ⟨[], rfl, (List.append_nil _).symm, Or.inr ⟨rfl, ?_⟩⟩
      by_cases hlen : line.length = lineLimit
      · exact Or.inl ⟨by simp [hlen], hlen⟩
      · exact Or.inr ⟨hlen, rfl, by simp [hlen]⟩
  | cons b avail ih =>
      rw [readUntil] at h
      by_cases hlen : line.length = lineLimit
      · rw [if_pos hlen] at h
        simp only [Prod.mk.injEq] at h
        rcases h with ⟨rfl, rfl, rfl⟩
        exact ⟨[], rfl, (List.append_nil _).symm, Or.inr ⟨rfl, Or.inl ⟨rfl, hlen⟩⟩⟩
      · rw [if_neg hlen] at h
        by_cases hb : b = newline
        · rw [if_pos hb] at h
          simp only [Prod.mk.injEq] at h
          rcases h with ⟨rfl, rfl, rfl⟩
          refine ⟨[b], rfl, rfl, Or.inl ⟨List.cons_ne_nil _ _, rfl, ?_⟩⟩
          have hdone : complete false (line ++ [b]) = true := by
            rw [complete_plain, List.getLast?_concat, hb]
          rw [cut, if_pos hdone]
          rfl
        · rw [if_neg hb] at h
          rcases ih (line ++ [b]) h with ⟨xs, hav, hline, hcase⟩
          have hopen : ¬ complete false (line ++ [b]) = true := by
            rw [complete_plain, List.getLast?_concat, Option.some.injEq]
            exact hb
          have hcut : cut (complete false) line (b :: xs) =
              cut (complete false) (line ++ [b]) xs := by
            rw [cut, if_neg hopen]
          refine ⟨b :: xs, by rw [hav]; rfl, by rw [hline, List.append_assoc]; rfl, ?_⟩
          rw [hcut]
          rcases hcase with ⟨_, hready, hc⟩ | hcase
          · exact Or.inl ⟨List.cons_ne_nil _ _, hready, hc⟩
          · exact Or.inr hcase

/-- A frame in the making: no proper part of it is complete. -/
theorem complete_framed_part (p q : List UInt8)
    (h : 2 ≤ (p ++ q).length → (p ++ q).length ≤ 2 + frameLen (p ++ q)) (hq : q ≠ []) :
    complete true p = false := by
  rw [← Bool.not_eq_true, complete_framed]
  rintro ⟨h2, hlen⟩
  have hpos : 0 < q.length := List.length_pos_iff.mpr hq
  rw [frameLen_append p q h2, List.length_append] at h
  omega

/-- What is left over of a framed stream is shorter than its frame. -/
theorem cut_framed_short (acc xs : List UInt8)
    (hacc : 2 ≤ acc.length → acc.length < 2 + frameLen acc) :
    2 ≤ (cut (complete true) acc xs).2.length →
      (cut (complete true) acc xs).2.length < 2 + frameLen (cut (complete true) acc xs).2 := by
  induction xs generalizing acc with
  | nil => exact hacc
  | cons x xs ih =>
      rw [cut]
      by_cases h : complete true (acc ++ [x]) = true
      · rw [if_pos h]
        exact ih [] (fun h => absurd h (by decide))
      · rw [if_neg h]
        refine ih _ fun h2 => ?_
        rw [complete_framed] at h
        -- One byte more reaches the frame's length at most, and then it is complete.
        by_cases hlen : 2 ≤ acc.length
        · have hshort := hacc hlen
          have hsame := frameLen_append acc [x] hlen
          rw [List.length_append, List.length_singleton] at *
          omega
        · rw [List.length_append, List.length_singleton] at *
          omega

namespace Uplink

variable (accepts : List (List UInt8) → List UInt8 → Bool)

/-- What a poll can do: complete a unit, wait with all there was in the buffer,
    or end the loop. -/
inductive Polled (u : Uplink) : Uplink → Prop where
  | unit (xs rest : List UInt8) (havail : u.avail = xs ++ rest) (hne : xs ≠ [])
      (hcut : cut (complete u.framed) u.taken xs = ([u.taken ++ xs], [])) :
      Polled u { u with
        taken := [], avail := rest, processed := u.processed ++ [u.taken ++ xs] }
  | wait (e : Option Ending) (he : e = none ∨ (e = some .eof ∧ u.eof = true))
      (hcut : cut (complete u.framed) u.taken u.avail = ([], u.taken ++ u.avail)) :
      Polled u { u with taken := u.taken ++ u.avail, avail := [], ended := e }
  | lineTooLong (xs rest : List UInt8) (havail : u.avail = xs ++ rest)
      (hframed : u.framed = false) (hlen : (u.taken ++ xs).length = lineLimit)
      (hcut : cut (complete u.framed) u.taken xs = ([], u.taken ++ xs)) :
      Polled u { u with taken := u.taken ++ xs, avail := rest, ended := some .lineTooLong }
  | badFrame (xs rest : List UInt8) (havail : u.avail = xs ++ rest) (hframed : u.framed = true)
      (hrej : accepts u.processed (u.taken ++ xs) = false)
      (hcut : cut (complete u.framed) u.taken xs = ([u.taken ++ xs], [])) :
      Polled u { u with taken := u.taken ++ xs, avail := rest, ended := some .badFrame }

theorem pollPlain_polled (u : Uplink) (hframed : u.framed = false) (hended : u.ended = none)
    (htaken : complete u.framed u.taken = false) : Polled accepts u u.pollPlain := by
  rcases h : readUntil u.eof u.taken u.avail with ⟨line, rest, ready⟩
  rcases readUntil_spec _ _ _ _ _ _ h with ⟨xs, havail, rfl, hcase⟩
  unfold pollPlain
  simp only [h]
  rw [← hframed] at hcase
  rcases hcase with ⟨hne, rfl, hcut⟩ | ⟨hcut, hcase⟩
  · have hlast : (u.taken ++ xs).getLast? = some newline := by
      rw [← complete_plain, ← hframed]
      exact cut_done _ u.taken xs _ (by rw [hcut]; exact List.mem_singleton_self _)
    have hnil : u.taken ++ xs ≠ [] := by
      intro hnil
      exact hne (List.append_eq_nil_iff.mp hnil).2
    rw [if_neg (by decide), if_neg hnil, if_neg (not_not.mpr hlast)]
    exact Polled.unit xs rest havail hne hcut
  · have hlast : (u.taken ++ xs).getLast? ≠ some newline := by
      rw [ne_eq, ← complete_plain, ← hframed, Bool.not_eq_true]
      have hrest := cut_rest _ (complete_nil u.framed) u.taken xs htaken
      rwa [hcut] at hrest
    rcases hcase with ⟨rfl, hlen⟩ | ⟨hlen, rfl, rfl⟩
    · have hnil : u.taken ++ xs ≠ [] := by
        intro hnil
        rw [hnil] at hlen
        exact absurd hlen (by decide)
      rw [if_neg (by decide), if_neg hnil, if_pos hlast, if_pos hlen]
      exact Polled.lineTooLong xs rest havail hframed hlen hcut
    · rw [List.append_nil] at havail
      rw [← havail] at hcut hlast hlen ⊢
      by_cases heof : u.eof = false
      · rw [if_pos heof]
        have hwait : Polled accepts u
            { u with taken := u.taken ++ u.avail, avail := [], ended := none } :=
          Polled.wait none (Or.inl rfl) hcut
        rwa [← hended] at hwait
      · rw [if_neg heof]
        rw [Bool.not_eq_false] at heof
        by_cases hnil : u.taken ++ u.avail = []
        · rw [if_pos hnil]
          exact Polled.wait (some .eof) (Or.inr ⟨rfl, heof⟩) hcut
        · rw [if_neg hnil, if_pos hlast, if_neg hlen]
          exact Polled.wait (some .eof) (Or.inr ⟨rfl, heof⟩) hcut

/-- A frame read up to some length that its prefix does not exceed: nothing in
    it is complete before its end. -/
theorem framed_parts (taken xs ys : List UInt8)
    (hlen : 2 ≤ (taken ++ xs).length → (taken ++ xs).length ≤ 2 + frameLen (taken ++ xs))
    (hpre : ys <+: xs) (hne : ys ≠ xs) : complete true (taken ++ ys) = false := by
  rcases hpre with ⟨zs, rfl⟩
  have hzs : zs ≠ [] := by
    rintro rfl
    exact hne (List.append_nil ys).symm
  rw [← List.append_assoc] at hlen
  exact complete_framed_part _ zs hlen hzs

/-- The framed read takes the bytes to the end of the prefix, then those to the
    end of the payload. -/
theorem readExact_twice (taken avail : List UInt8) (n : Nat)
    (h : ¬ (readExact 2 taken avail).1.length < 2)
    (hn : n = 2 + frameLen (readExact 2 taken avail).1) :
    ∃ xs rest, avail = xs ++ rest ∧
      readExact n (readExact 2 taken avail).1 (readExact 2 taken avail).2 = (taken ++ xs, rest) ∧
      n = 2 + frameLen (taken ++ xs) ∧ 2 ≤ (taken ++ xs).length ∧
      ((taken ++ xs).length < n → rest = []) ∧
      ((taken ++ xs).length ≤ n ∨ xs = []) := by
  have hm : ∃ m, m = n - (readExact 2 taken avail).1.length := ⟨_, rfl⟩
  rcases hm with ⟨m, hm⟩
  refine ⟨avail.take (2 - taken.length + m), avail.drop (2 - taken.length + m),
    (List.take_append_drop _ _).symm, ?_⟩
  have hpay : taken ++ avail.take (2 - taken.length + m) = (readExact 2 taken avail).1 ++
      (avail.drop (2 - taken.length)).take m := by
    rw [readExact, List.take_add, List.append_assoc]
  have hlenb : (readExact 2 taken avail).1.length
      = taken.length + min (2 - taken.length) avail.length := by
    simp only [readExact, List.length_append, List.length_take]
  rw [hpay, frameLen_append _ _ (by omega)]
  refine ⟨?_, hn, ?_, ?_, ?_⟩
  · rw [readExact, ← hm]
    simp only [readExact, List.drop_drop]
  · rw [List.length_append]
    omega
  · intro hlt
    rw [List.length_append, List.length_take, List.length_drop] at hlt
    rw [List.drop_eq_nil_iff]
    omega
  · rw [List.length_append, List.length_take, List.length_drop]
    by_cases hm0 : m = 0
    · by_cases h2 : 2 - taken.length = 0
      · right
        rw [h2, hm0, List.take_zero]
      · left
        omega
    · left
      omega

/-- The two reads of a frame take all there is and leave it short, or stop at its
    end; a frame that is still short leaves nothing complete. -/
theorem readFrame_cases (taken avail : List UInt8)
    (htaken : 2 ≤ taken.length → taken.length < 2 + frameLen taken) :
    (readExact 2 taken avail = (taken ++ avail, []) ∧ (taken ++ avail).length < 2 ∧
      cut (complete true) taken avail = ([], taken ++ avail)) ∨
    (¬ (readExact 2 taken avail).1.length < 2 ∧ ∃ xs rest, avail = xs ++ rest ∧
      readExact (2 + frameLen (readExact 2 taken avail).1) (readExact 2 taken avail).1
        (readExact 2 taken avail).2 = (taken ++ xs, rest) ∧
      frameLen (readExact 2 taken avail).1 = frameLen (taken ++ xs) ∧
      (((taken ++ xs).length < 2 + frameLen (taken ++ xs) ∧ rest = [] ∧
          cut (complete true) taken xs = ([], taken ++ xs)) ∨
        (¬ (taken ++ xs).length < 2 + frameLen (taken ++ xs) ∧ xs ≠ [] ∧
          cut (complete true) taken xs = ([taken ++ xs], [])))) := by
  have hopen : ∀ xs, ((taken ++ xs).length < 2 ∨
      (taken ++ xs).length < 2 + frameLen (taken ++ xs)) →
      cut (complete true) taken xs = ([], taken ++ xs) := by
    intro xs hshort
    refine cut_open _ _ _ fun ys _ hpre => ?_
    by_cases hyx : ys = xs
    · rw [hyx, ← Bool.not_eq_true, complete_framed]
      omega
    · exact framed_parts taken xs ys (by omega) hpre hyx
  by_cases hlenb : (readExact 2 taken avail).1.length < 2
  · left
    have hall : readExact 2 taken avail = (taken ++ avail, []) := by
      simp only [readExact, List.length_append, List.length_take] at hlenb
      rw [readExact, List.take_of_length_le (by omega), List.drop_of_length_le (by omega)]
    rw [hall] at hlenb
    exact ⟨hall, hlenb, hopen avail (Or.inl hlenb)⟩
  · right
    rcases readExact_twice taken avail _ hlenb rfl with
      ⟨xs, rest, havail, hread, hn, h2, hrest, hle⟩
    refine ⟨hlenb, xs, rest, havail, hread, Nat.add_left_cancel hn, ?_⟩
    rw [hn] at hrest hle
    by_cases hshort : (taken ++ xs).length < 2 + frameLen (taken ++ xs)
    · exact Or.inl ⟨hshort, hrest hshort, hopen xs (Or.inr hshort)⟩
    · -- The read stops at the frame's end, and took something to get there.
      have hne : xs ≠ [] := by
        rintro rfl
        rw [List.append_nil] at h2 hshort
        exact hshort (htaken h2)
      have hlen : (taken ++ xs).length = 2 + frameLen (taken ++ xs) := by
        rcases hle with hle | hnil
        · omega
        · exact absurd hnil hne
      refine Or.inr ⟨hshort, hne, ?_⟩
      refine cut_unit _ _ _ hne ((complete_framed _).mpr ⟨h2, hlen⟩) fun ys _ hpre hyx => ?_
      exact framed_parts taken xs ys (by omega) hpre hyx

theorem pollFramed_polled (u : Uplink) (hframed : u.framed = true)
    (htaken : 2 ≤ u.taken.length → u.taken.length < 2 + frameLen u.taken) :
    Polled accepts u (u.pollFramed accepts) := by
  have hending : (if u.eof = true then some Ending.eof else none) = none ∨
      ((if u.eof = true then some Ending.eof else none) = some Ending.eof ∧ u.eof = true) := by
    by_cases heof : u.eof = true
    · exact Or.inr ⟨if_pos heof, heof⟩
    · exact Or.inl (if_neg heof)
  unfold pollFramed
  rcases readFrame_cases u.taken u.avail htaken with ⟨hall, hshort, hcut⟩ |
    ⟨hlenb, xs, rest, havail, hread, _, hcase⟩
  · rw [← hframed] at hcut
    simp only [hall, if_pos hshort]
    exact Polled.wait _ hending hcut
  · rw [← hframed] at hcase
    simp only [if_neg hlenb, hread]
    rcases hcase with ⟨hshort, rfl, hcut⟩ | ⟨hfull, hne, hcut⟩
    · rw [List.append_nil] at havail
      rw [← havail] at hshort hcut ⊢
      rw [if_pos hshort]
      exact Polled.wait _ hending hcut
    · rw [if_neg hfull]
      by_cases hacc : accepts u.processed (u.taken ++ xs) = true
      · rw [if_pos hacc]
        exact Polled.unit xs rest havail hne hcut
      · rw [if_neg hacc]
        exact Polled.badFrame xs rest havail hframed (Bool.not_eq_true _ ▸ hacc) hcut

/-- What was consumed of the stream is what was processed and what the read in
    progress has taken. -/
def Synced (u : Uplink) : Prop :=
  ∃ consumed, u.stream = consumed ++ u.avail ∧
    cut (complete u.framed) [] consumed = (u.processed, u.taken)

/-- A stream without over-long lines, or whose frames all decompress. -/
structure Valid (framed : Bool) (stream : List UInt8) : Prop where
  fits : framed = false → ∀ p, p <+: stream → (cut (complete framed) [] p).2.length < lineLimit
  decodes : framed = true → ∀ pre f, pre ++ [f] <+: segments (complete framed) stream →
    accepts pre f = true

theorem Valid.of_append (framed : Bool) (xs ys : List UInt8)
    (h : Valid accepts framed (xs ++ ys)) : Valid accepts framed xs where
  fits hf p hp := h.fits hf p (hp.trans (List.prefix_append _ _))
  decodes hf pre f hp := h.decodes hf pre f (hp.trans (segments_isPrefix _ _ _))

/-- The account of a loop on a valid stream: it ends with the stream or idle,
    and with the stream only when all of it was taken. -/
structure Sound (u : Uplink) : Prop where
  synced : u.Synced
  ended : u.ended = none ∨ u.ended = some .eof ∨ u.ended = some .idle
  drained : u.ended = some .eof → u.eof = true ∧ u.avail = []

theorem Synced.unfinished (u : Uplink) (h : u.Synced) :
    complete u.framed u.taken = false ∧
      (u.framed = true → 2 ≤ u.taken.length → u.taken.length < 2 + frameLen u.taken) := by
  rcases h with ⟨consumed, _, hcut⟩
  refine ⟨?_, fun hf => ?_⟩
  · have hrest := cut_rest _ (complete_nil u.framed) [] consumed (complete_nil u.framed)
    rwa [hcut] at hrest
  · rw [hf] at hcut
    have hshort := cut_framed_short [] consumed (fun h => absurd h (by decide))
    rwa [hcut] at hshort

theorem poll_polled (u : Uplink) (h : u.Synced) (hended : u.ended = none) :
    Polled accepts u (u.step accepts .poll) := by
  rcases Synced.unfinished u h with ⟨hopen, hshort⟩
  simp only [step, hended, Option.isSome_none, Bool.false_eq_true, if_false]
  by_cases hf : u.framed = true
  · rw [if_pos hf]
    exact pollFramed_polled accepts u hf (hshort hf)
  · rw [if_neg hf]
    exact pollPlain_polled accepts u (Bool.not_eq_true _ ▸ hf) hended hopen

/-- A poll keeps the account, and takes something if there is anything. -/
theorem polled_sound (u u' : Uplink) (hpoll : Polled accepts u u') (h : u.Synced)
    (hended : u.ended = none) (hvalid : Valid accepts u.framed u.stream) :
    Sound u' ∧ u'.ended ≠ some .idle ∧ u'.avail.length ≤ u.avail.length - 1 := by
  rcases h with ⟨consumed, hstream, hcut⟩
  -- Reading on from what was consumed.
  have hmore : ∀ xs, cut (complete u.framed) [] (consumed ++ xs) =
      (u.processed ++ (cut (complete u.framed) u.taken xs).1,
        (cut (complete u.framed) u.taken xs).2) := by
    intro xs
    rw [cut_append, hcut]
  cases hpoll with
  | unit xs rest havail hne hxs =>
      have hnone : ∀ e : Ending, u.ended ≠ some e := by
        intro e
        rw [hended]
        exact (Option.some_ne_none e).symm
      refine ⟨⟨⟨consumed ++ xs, ?_, ?_⟩, Or.inl hended, fun h => absurd h (hnone _)⟩,
        hnone _, ?_⟩
      · rw [List.append_assoc, hstream, havail]
      · refine (hmore xs).trans ?_
        rw [hxs]
      · have hpos := List.length_pos_iff.mpr hne
        rw [havail, List.length_append]
        change rest.length ≤ _
        omega
  | wait e he hxs =>
      refine ⟨⟨⟨consumed ++ u.avail, ?_, ?_⟩, ?_, fun h => ⟨?_, rfl⟩⟩, ?_, Nat.zero_le _⟩
      · rw [List.append_nil, hstream]
      · refine (hmore u.avail).trans ?_
        rw [hxs, List.append_nil]
      · rcases he with he | ⟨he, _⟩
        · exact Or.inl he
        · exact Or.inr (Or.inl he)
      · rcases he with he | ⟨_, heof⟩
        · exact absurd (he.symm.trans h) (by simp only [reduceCtorEq, not_false_eq_true])
        · exact heof
      · rcases he with rfl | ⟨rfl, _⟩ <;> simp only [ne_eq, Option.some.injEq, reduceCtorEq,
          not_false_eq_true]
  | lineTooLong xs rest havail hframed hlen hxs =>
      have hlt := hvalid.fits hframed (consumed ++ xs)
        ⟨rest, by rw [hstream, havail, List.append_assoc]⟩
      rw [hmore, hxs, hlen] at hlt
      exact absurd hlt (Nat.lt_irrefl _)
  | badFrame xs rest havail hframed hrej hxs =>
      have hacc := hvalid.decodes hframed u.processed (u.taken ++ xs) (by
        have hpre := segments_isPrefix (complete u.framed) (consumed ++ xs) rest
        rw [segments, hmore, hxs, List.append_assoc, ← havail, ← hstream] at hpre
        exact hpre)
      rw [hrej] at hacc
      exact absurd hacc Bool.false_ne_true

/-- No tick wins over a read that has taken bytes. -/
def QuietTick (u : Uplink) (e : Event) : Prop :=
  ∀ push, e = .tick push → u.ended = none → u.selecting = true →
    (push = .stats → u.wantsStats = true) → u.taken = []

theorem step_poll_keeps (u : Uplink) :
    (u.step accepts .poll).framed = u.framed ∧ (u.step accepts .poll).stream = u.stream := by
  simp only [step, pollFramed, pollPlain]
  split_ifs <;> exact ⟨rfl, rfl⟩

theorem step_framed (u : Uplink) (e : Event) : (u.step accepts e).framed = u.framed := by
  cases e with
  | arrive chunk =>
      simp only [step]
      split_ifs <;> rfl
  | close => rfl
  | poll => exact (u.step_poll_keeps accepts).1
  | tick push =>
      simp only [step]
      split_ifs <;> rfl
  | idle =>
      simp only [step]
      split_ifs <;> rfl

theorem step_sound (u : Uplink) (e : Event) (hquiet : u.QuietTick e)
    (h : Valid accepts u.framed u.stream → Sound u)
    (hvalid : Valid accepts (u.step accepts e).framed (u.step accepts e).stream) :
    Sound (u.step accepts e) := by
  rw [step_framed] at hvalid
  cases e with
  | arrive chunk =>
      simp only [step] at hvalid ⊢
      by_cases heof : u.eof = true
      · rw [if_pos heof] at hvalid ⊢
        exact h hvalid
      · rw [if_neg heof] at hvalid ⊢
        have hs := h (Valid.of_append accepts _ _ _ hvalid)
        rcases hs.synced with ⟨consumed, hstream, hcut⟩
        refine ⟨⟨consumed, ?_, hcut⟩, hs.ended, fun hend => absurd (hs.drained hend).1 heof⟩
        rw [hstream, List.append_assoc]
  | close =>
      have hs := h hvalid
      exact ⟨hs.synced, hs.ended, fun hend => ⟨rfl, (hs.drained hend).2⟩⟩
  | poll =>
      rw [(u.step_poll_keeps accepts).2] at hvalid
      have hs := h hvalid
      by_cases hend : u.ended = none
      · exact (polled_sound accepts u _ (u.poll_polled accepts hs.synced hend) hs.synced hend
          hvalid).1
      · have hsome : u.ended.isSome = true := Option.isSome_iff_ne_none.mpr hend
        simp only [step, if_pos hsome]
        exact hs
  | tick push =>
      simp only [step] at hvalid ⊢
      by_cases hoff : u.ended.isSome = true ∨ u.selecting = false ∨
          (push = .stats ∧ u.wantsStats = false)
      · rw [if_pos hoff] at hvalid ⊢
        exact h hvalid
      · rw [if_neg hoff] at hvalid ⊢
        simp only [not_or, not_and, Bool.not_eq_true, Option.isSome_eq_false_iff,
          Option.isNone_iff_eq_none, Bool.not_eq_false] at hoff
        rcases hoff with ⟨hend, hsel, hstats⟩
        -- The buffer the tick drops is empty.
        have htaken := hquiet push rfl hend hsel hstats
        have hs := h hvalid
        have hsynced := hs.synced
        unfold Synced at hsynced
        rw [htaken] at hsynced
        exact ⟨hsynced, hs.ended, hs.drained⟩
  | idle =>
      simp only [step] at hvalid ⊢
      by_cases hoff : u.ended.isSome = true ∨ u.selecting = false
      · rw [if_pos hoff] at hvalid ⊢
        exact h hvalid
      · rw [if_neg hoff] at hvalid ⊢
        exact ⟨(h hvalid).synced, Or.inr (Or.inr rfl),
          fun hend => absurd hend (by simp only [Option.some.injEq, reduceCtorEq, not_false_eq_true])⟩

theorem run_framed (u : Uplink) (es : List Event) :
    (exec (step accepts) u es).framed = u.framed := by
  induction es generalizing u with
  | nil => rfl
  | cons e es ih => rw [exec_cons, ih, step_framed]

/-- The account holds after every run without such ticks. -/
theorem run_sound (framed wantsStats : Bool) (es : List Event)
    (hquiet : Along (step accepts) QuietTick (start framed wantsStats) es)
    (hvalid : Valid accepts framed (exec (step accepts) (start framed wantsStats) es).stream) :
    Sound (exec (step accepts) (start framed wantsStats) es) := by
  have hframed := run_framed accepts (start framed wantsStats) es
  refine Along.invariant (step accepts) QuietTick
    (fun u => Valid accepts u.framed u.stream → Sound u)
    (fun u e h hq => u.step_sound accepts e hq h) _ es ?_ hquiet (by rw [hframed]; exact hvalid)
  intro _
  exact ⟨⟨[], rfl, rfl⟩, Or.inl rfl, fun h => absurd h (by simp [start])⟩

/-- Polling as often as there are bytes takes them all. -/
theorem drain (u : Uplink) (n : Nat) (hs : Sound u) (hidle : u.ended ≠ some .idle)
    (hvalid : Valid accepts u.framed u.stream) (hn : u.avail.length ≤ n) :
    Sound (exec (step accepts) u (List.replicate n .poll)) ∧
      (exec (step accepts) u (List.replicate n .poll)).stream = u.stream ∧
      (exec (step accepts) u (List.replicate n .poll)).avail = [] := by
  induction n generalizing u with
  | zero => exact ⟨hs, rfl, List.length_eq_zero_iff.mp (Nat.le_zero.mp hn)⟩
  | succ n ih =>
      rw [List.replicate_succ, exec_cons]
      rcases u.step_poll_keeps accepts with ⟨hframed, hstream⟩
      have hnext : Sound (u.step accepts .poll) ∧ (u.step accepts .poll).ended ≠ some .idle ∧
          (u.step accepts .poll).avail.length ≤ n := by
        rcases hs.ended with hend | hend | hend
        · rcases polled_sound accepts u _ (u.poll_polled accepts hs.synced hend) hs.synced hend
            hvalid with ⟨hs', hidle', hless⟩
          exact ⟨hs', hidle', by omega⟩
        · have hstop : u.step accepts .poll = u := by
            simp only [step, hend, Option.isSome_some, if_true]
          rw [hstop, (hs.drained hend).2]
          exact ⟨hs, hidle, Nat.zero_le n⟩
        · exact absurd hend hidle
      rcases hnext with ⟨hs', hidle', hlen⟩
      rw [← hframed, ← hstream] at hvalid
      rw [← hstream]
      exact ih _ hs' hidle' hvalid hlen

theorem Synced.prefix (u : Uplink) (h : u.Synced) :
    u.processed <+: segments (complete u.framed) u.stream := by
  rcases h with ⟨consumed, hstream, hcut⟩
  have hpre := segments_isPrefix (complete u.framed) consumed u.avail
  rw [segments, hcut, ← hstream] at hpre
  exact hpre

theorem Synced.all (u : Uplink) (h : u.Synced) (hall : u.avail = []) :
    u.processed = segments (complete u.framed) u.stream := by
  rcases h with ⟨consumed, hstream, hcut⟩
  rw [hall, List.append_nil] at hstream
  rw [segments, hstream, hcut]

/-- Without ticks over a read that has begun, what is processed is a first part
    of the stream's lines or frames, and all of them once the read has run on
    everything that arrived. -/
theorem uplink_lossless (framed wantsStats : Bool) (es : List Event)
    (hquiet : Along (step accepts) QuietTick (start framed wantsStats) es)
    (hvalid : Valid accepts framed (exec (step accepts) (start framed wantsStats) es).stream)
    (hidle : (exec (step accepts) (start framed wantsStats) es).ended ≠ some .idle) :
    (exec (step accepts) (start framed wantsStats) es).processed <+:
        segments (complete framed) (exec (step accepts) (start framed wantsStats) es).stream ∧
      ∀ n, (exec (step accepts) (start framed wantsStats) es).avail.length ≤ n →
        (exec (step accepts) (start framed wantsStats) (es ++ List.replicate n .poll)).processed =
          segments (complete framed)
            (exec (step accepts) (start framed wantsStats) es).stream := by
  have hs := run_sound accepts framed wantsStats es hquiet hvalid
  have hframed : (exec (step accepts) (start framed wantsStats) es).framed = framed :=
    run_framed accepts _ es
  refine ⟨?_, fun n hn => ?_⟩
  · have hpre := Synced.prefix _ hs.synced
    rwa [hframed] at hpre
  · rcases drain accepts _ n hs hidle (by rw [hframed]; exact hvalid) hn with
      ⟨hs', hstream, hall⟩
    rw [exec_append, Synced.all _ hs'.synced hall, hstream, run_framed, hframed]

/-- A decompressor that takes every frame. -/
def acceptsAll : List (List UInt8) → List UInt8 → Bool := fun _ _ => true

def ascii (s : String) : List UInt8 :=
  s.toList.map fun c => c.toNat.toUInt8

-- One line of a client, in two chunks.

def lineHead : List UInt8 := ascii "\x7b\"clock_re"

def lineTail : List UInt8 := ascii "set\":true\x7d\n"

/-- The line arrives in two chunks between two heartbeats. -/
def quietRun : List Event :=
  [.tick .heartbeat, .arrive lineHead, .poll, .arrive lineTail, .poll, .tick .heartbeat]

theorem uplink_lossless_split :
    (exec (step acceptsAll) (start false false) (quietRun ++ List.replicate 0 .poll)).processed
      = segments (complete false)
          (exec (step acceptsAll) (start false false) quietRun).stream :=
  (uplink_lossless acceptsAll false false quietRun
    (by
      refine ⟨?_, ?_, ?_, ?_, ?_, ?_, trivial⟩ <;> intro push hpush _ _ _
      case refine_1 => rfl
      case refine_6 => decide +kernel
      all_goals exact absurd hpush (by simp only [reduceCtorEq, not_false_eq_true]))
    (by
      have hlen : (exec (step acceptsAll) (start false false) quietRun).stream.length
          < lineLimit := by decide +kernel
      refine ⟨fun _ p hp => ?_, fun h => absurd h (by decide)⟩
      have hrest := cut_rest_length (complete false) [] p
      have hpre := hp.length_le
      simp only [List.length_nil] at hrest
      omega)
    (by decide +kernel)).2 0 (by decide +kernel)

/-- A heartbeat comes between the two chunks. -/
def tickRun : List Event :=
  [.arrive lineHead, .poll, .tick .heartbeat, .arrive lineTail, .poll]

/-- A heartbeat comes between the two bytes of a length prefix. -/
def tickRunFramed : List Event :=
  [.arrive [0], .poll, .tick .heartbeat, .arrive [1, 7], .poll]

/-- A tick between two chunks loses the first: of the line only the tail is
    processed, of the frame nothing. -/
theorem tick_drops_partial :
    (exec (step acceptsAll) (start false false) tickRun).processed = [lineTail] ∧
      segments (complete false) (exec (step acceptsAll) (start false false) tickRun).stream
        = [lineHead ++ lineTail] ∧
      (exec (step acceptsAll) (start true false) tickRunFramed).processed = [] ∧
      segments (complete true) (exec (step acceptsAll) (start true false) tickRunFramed).stream
        = [[0, 1, 7]] := by
  decide +kernel

end Uplink

end Server

end MlatBench
