import Mathlib.Data.List.Induction
import MlatBench.Core.Batch
import MlatBench.Theory.Downlink
import MlatBench.Theory.Framing

/-!
# Lines Through the Uplink

From the messages a compressing session takes to the lines the server sees.
What was written is frames in a row, each with some lines of the client, and
what is in the batch comes behind them (`Carried`). The compressor and the
decompressor meet, in `Carry`, at what a stream's beginnings decompress to. So
every beginning of what was written gives the first lines, as long as no batch
is longer than the decompressor's first buffer.

## Main definitions

* `Texts`: What some messages come to.
* `Batching.Carried`: The frames, and the lines in them and behind them.
* `Batching.Fits`: A batch that goes out fits the buffer.
* `framesWriter`: A compressor of texts that are known, with their payloads.

## Theorems

* `encodeFrame_flush`: A frame is encoded.
* `sendBatch_cases`: What becomes of a batch.
* `step_carried`, `run_carried`: What a step and a run keep.
* `linesSeen_prefix`: The first frames give the first lines.
* `uplink_lines`: The server sees the client's lines.
* `run_frames`, `readFrames_all`: Messages one by one, and their frames.
* `long_line_cut`: A line that is longer than the buffer, behind a heartbeat.
-/

namespace MlatBench

namespace Framing

open Library Server

variable {τ : Type} (z : Calls UInt8 UInt8 τ) (whole : List UInt8 → Option (List UInt8))
  (enough : Nat → Nat) (Text : List UInt8 → Prop) (At : τ → List UInt8 → List UInt8 → Prop)

/-- A frame is encoded in one call that takes everything, if its payload is not
    too long. -/
theorem encodeFrame_call (s s' : τ) (lines p : List UInt8) (fuel : Nat)
    (hcall : z.call s lines (lines.length + 1024) =
      some (lines.length, p ++ syncTrailer, false, s')) :
    encodeFrame z (fuel + 1) s lines =
      if 65535 < p.length then .error (.tooLarge p.length) else .ok (frameOf p) s' := by
  have hsync : endsWithSync (p ++ syncTrailer) = true :=
    List.isSuffixOf_iff_suffix.mpr (List.suffix_append p syncTrailer)
  have hloop : deflateLoop z (fuel + 1) s lines [] (lines.length + 1024) =
      .ok (p ++ syncTrailer) s' := by
    rw [deflateLoop, List.length_nil, Nat.sub_zero, hcall]
    simp only [Bool.false_eq_true, if_false, List.nil_append]
    rw [if_pos ⟨List.drop_length, hsync⟩]
  have htake : (p ++ syncTrailer).take ((p ++ syncTrailer).length - 4) = p := by
    rw [List.length_append]
    exact List.take_left' (Nat.add_sub_cancel p.length 4).symm
  rw [encodeFrame, hloop]
  simp only [hsync, Bool.true_eq_false, if_false, htake]
  rfl

/-- What a compressor that meets the contract makes of a batch. -/
theorem encodeFrame_flush (h : z.Flushes whole syncTrailer enough Text At) (s : τ)
    (taken given lines : List UInt8) (fuel : Nat) (hs : At s taken given) (hne : lines ≠ [])
    (htext : Text (taken ++ lines)) (hroom : enough lines.length ≤ lines.length + 1024) :
    ∃ p s', whole (given ++ (p ++ syncTrailer)) = some (taken ++ lines) ∧
      At s' (taken ++ lines) (given ++ (p ++ syncTrailer)) ∧
      encodeFrame z (fuel + 1) s lines =
        if 65535 < p.length then .error (.tooLarge p.length) else .ok (frameOf p) s' := by
  rcases h.call s taken given lines (lines.length + 1024) hs hne htext hroom with
    ⟨ys, s', hcall, ⟨p, rfl⟩, hwhole, hs'⟩
  exact ⟨p, s', hwhole, hs', encodeFrame_call z s s' lines p fuel hcall⟩

/-- The compressor that knows what each of some texts comes to. -/
def framesWriter (ts : List (List UInt8 × List UInt8)) : Calls UInt8 UInt8 (Units UInt8 UInt8) :=
  (frameUnits ts).writer

theorem flushes_framesWriter (ts : List (List UInt8 × List UInt8)) (htext : ∀ t ∈ ts, t.2 ≠ [])
    (hroom : (frameUnits ts).coded.length ≤ 1024) :
    (framesWriter ts).Flushes (framesWhole ts) syncTrailer (· + 1024) (frameUnits ts).Text
      (frameUnits ts).WriterAt := by
  refine Units.flushes_writer (frameUnits ts) syncTrailer 1024 (unit_ne_nil ts) (fun u hu => ?_)
    (fun u hu => ?_) hroom
  · rcases List.mem_map.mp hu with ⟨t, ht, rfl⟩
    exact htext t ht
  · rcases List.mem_map.mp hu with ⟨t, _, rfl⟩
    exact List.suffix_append t.1 syncTrailer

theorem encodeFrame_framesWriter (all : List (List UInt8 × List UInt8))
    (t : List UInt8 × List UInt8) (ts : List (List UInt8 × List UInt8)) (fuel : Nat)
    (htext : t.2 ≠ []) (hshort : t.1.length ≤ 1020) :
    encodeFrame (framesWriter all) (fuel + 1) (frameUnits (t :: ts)) t.2 =
      .ok (frameOf t.1) (frameUnits ts) := by
  have hspell : Units.spell (frameUnits (t :: ts)) t.2 = (t.1 ++ syncTrailer, frameUnits ts) := by
    have hunits : frameUnits (t :: ts) = (t.1 ++ syncTrailer, t.2) :: frameUnits ts := rfl
    rw [hunits, Units.spell, if_pos ⟨htext, List.prefix_refl _⟩, List.drop_length]
    cases frameUnits ts with
    | nil => exact congrArg (·, []) (List.append_nil _)
    | cons u us =>
        rw [Units.spell, if_neg fun h => h.1 rfl]
        exact congrArg (·, u :: us) (List.append_nil _)
  have hroom : (t.1 ++ syncTrailer).length ≤ t.2.length + 1024 := by
    rw [List.length_append]
    exact Nat.le_trans (Nat.add_le_add_right hshort _) (Nat.le_add_left 1024 _)
  rw [encodeFrame_call (framesWriter all) (frameUnits (t :: ts)) (frameUnits ts) t.2 t.1 fuel,
    if_neg (by omega)]
  change some (t.2.length, (Units.spell (frameUnits (t :: ts)) t.2).1.take _, false,
    (Units.spell (frameUnits (t :: ts)) t.2).2) = _
  rw [hspell, List.take_of_length_le hroom]

end Framing

namespace Client

open Library Server Framing Proto

/-- Some messages as they are sent. -/
def Texts (toVec : Json → List UInt8) (ms : List ClientMsg) (t : List UInt8) : Prop :=
  ∃ ls, ls <+: ms.map (lineOf toVec) ∧ t = text ls

theorem text_append (ks ls : List (List UInt8)) : text (ks ++ ls) = text ks ++ text ls :=
  List.flatMap_append

theorem text_singleton (l : List UInt8) : text [l] = l ++ [newline] := by
  rw [text, List.flatMap_cons, List.flatMap_nil, List.append_nil]

theorem text_ne_nil (ls : List (List UInt8)) (h : ls ≠ []) : text ls ≠ [] := by
  cases ls with
  | nil => exact absurd rfl h
  | cons l ls =>
      rw [text, List.flatMap_cons, List.append_assoc]
      exact List.append_ne_nil_of_right_ne_nil l (List.cons_ne_nil newline _)

theorem text_flatten (gs : List (List (List UInt8))) : (gs.map text).flatten = text gs.flatten := by
  induction gs with
  | nil => rfl
  | cons g gs ih => rw [List.map_cons, List.flatten_cons, List.flatten_cons, text_append, ih]

namespace Batching

variable {τ : Type} (toVec : Json → List UInt8) (z : Calls UInt8 UInt8 τ)
  (whole : List UInt8 → Option (List UInt8)) (enough : Nat → Nat) (Text : List UInt8 → Prop)
  (At : τ → List UInt8 → List UInt8 → Prop)

/-- What was written is frames with the payloads `ps`, which carry the groups of
    lines `gs`. The lines `rest` are in the batch, and `lost` came when the session
    had failed. -/
structure Carried (s : Batching τ) (ps : List (List UInt8)) (gs : List (List (List UInt8)))
    (rest lost : List (List UInt8)) : Prop where
  wire : s.wire = (ps.map frameOf).flatten
  carry : Carry whole [] [] ps (gs.map text)
  short : ∀ g ∈ gs, (text g).length ≤ 64 * 1024
  batch : s.batch = text rest
  taken : s.taken.map (lineOf toVec) = gs.flatten ++ rest ++ lost
  going : s.halted = none → lost = [] ∧ At s.enc (text gs.flatten) (ps.flatMap (· ++ syncTrailer))
  stuck : rest = [] → lost = []

/-- What becomes of a batch: nothing when it is empty, a frame, or the end of the
    session. -/
theorem sendBatch_cases (h : z.Flushes whole syncTrailer enough Text At)
    (s : Batching τ) (taken given : List UInt8) (fuel : Nat) (hs : At s.enc taken given)
    (htext : Text (taken ++ s.batch))
    (hroom : enough s.batch.length ≤ s.batch.length + 1024) :
    (s.batch = [] ∧ s.sendBatch z (fuel + 1) = s) ∨
    (s.batch ≠ [] ∧ ∃ e, s.sendBatch z (fuel + 1) = { s with halted := some e }) ∨
    (s.batch ≠ [] ∧ ∃ p enc, p.length < 2 ^ 16 ∧
      whole (given ++ (p ++ syncTrailer)) = some (taken ++ s.batch) ∧
      At enc (taken ++ s.batch) (given ++ (p ++ syncTrailer)) ∧
      s.sendBatch z (fuel + 1) =
        { s with enc := enc, batch := [], wire := s.wire ++ frameOf p }) := by
  by_cases hne : s.batch = []
  · exact Or.inl ⟨hne, if_pos hne⟩
  · right
    rcases encodeFrame_flush z whole enough Text At h s.enc taken given s.batch fuel hs hne htext
      hroom with ⟨p, enc, hwhole, henc, hframe⟩
    unfold sendBatch
    rw [if_neg hne, hframe]
    by_cases hlarge : 65535 < p.length
    · rw [if_pos hlarge]
      exact Or.inl ⟨hne, _, rfl⟩
    · rw [if_neg hlarge]
      exact Or.inr ⟨hne, p, enc, by omega, hwhole, henc, rfl⟩

/-- A batch that fits the buffer goes out. -/
theorem sendBatch_carried (h : z.Flushes whole syncTrailer enough Text At) (s : Batching τ)
    (ps : List (List UInt8)) (gs : List (List (List UInt8))) (rest : List (List UInt8))
    (fuel : Nat) (hs : Carried toVec whole At s ps gs rest []) (hgoing : s.halted = none)
    (hfits : s.batch.length ≤ 64 * 1024) (htext : Text (text (gs.flatten ++ rest)))
    (hroom : enough s.batch.length ≤ s.batch.length + 1024) :
    ∃ ps' gs' rest', Carried toVec whole At (s.sendBatch z (fuel + 1)) ps' gs' rest' [] ∧
      ((s.sendBatch z (fuel + 1)).halted = none ∨ rest' ≠ []) := by
  have hat := (hs.going hgoing).2
  have hall : text gs.flatten ++ s.batch = text (gs.flatten ++ rest) := by
    rw [hs.batch, text_append]
  rw [← hall] at htext
  rcases sendBatch_cases z whole enough Text At h s _ _ fuel hat htext hroom with
    ⟨-, hsend⟩ | ⟨hne, e, hsend⟩ | ⟨hne, p, enc, hp, hwhole, henc, hsend⟩
  · rw [hsend]
    exact ⟨ps, gs, rest, hs, Or.inl hgoing⟩
  · rw [hsend]
    refine ⟨ps, gs, rest, { hs with going := fun hno => ?_ }, Or.inr ?_⟩
    · exact absurd hno (Option.some_ne_none e)
    · rintro rfl
      exact hne hs.batch
  · rw [hsend]
    refine ⟨ps ++ [p], gs ++ [rest], [], ⟨?_, ?_, ?_, rfl, ?_, fun _ => ⟨rfl, ?_⟩, fun _ => rfl⟩,
      Or.inl hgoing⟩
    · simp only [hs.wire, List.map_append, List.flatten_append, List.map_cons, List.map_nil,
        List.flatten_cons, List.flatten_nil, List.append_nil]
    · rw [List.map_append]
      refine Carry.concat whole [] [] p (text rest) ps (gs.map text) hs.carry hp ?_
      rw [List.nil_append, List.nil_append, hwhole, text_flatten, hs.batch]
    · intro g hg
      rcases List.mem_append.mp hg with hg | hg
      · exact hs.short g hg
      · rw [List.mem_singleton.mp hg, ← hs.batch]
        exact hfits
    · rw [hs.taken, List.flatten_append, List.flatten_singleton, List.append_nil, List.append_nil]
    · rw [List.flatMap_append, List.flatMap_singleton, List.flatten_append,
        List.flatten_singleton, ← hall]
      exact henc

theorem sendBatch_taken (s : Batching τ) (fuel : Nat) (ms : List ClientMsg) :
    ({ s with taken := ms } : Batching τ).sendBatch z fuel =
      { s.sendBatch z fuel with taken := ms } := by
  unfold sendBatch
  by_cases hne : s.batch = []
  · rw [if_pos hne, if_pos hne]
  · rw [if_neg hne, if_neg hne]
    cases encodeFrame z fuel s.enc s.batch with
    | ok frame enc => rfl
    | error e => rfl
    | running => rfl

theorem sendBatch_keeps (s : Batching τ) (fuel : Nat) :
    (s.sendBatch z fuel).taken = s.taken := by
  have hsame := congrArg Batching.taken (sendBatch_taken z s fuel s.taken)
  exact hsame

/-- A message goes into the batch. -/
theorem Carried.append (s : Batching τ) (ps : List (List UInt8)) (gs : List (List (List UInt8)))
    (rest : List (List UInt8)) (hs : Carried toVec whole At s ps gs rest []) (m : ClientMsg) :
    Carried toVec whole At
      { s with taken := s.taken ++ [m], batch := s.batch ++ toLine toVec m } ps gs
      (rest ++ [lineOf toVec m]) [] where
  wire := hs.wire
  carry := hs.carry
  short := hs.short
  batch := by
    rw [text_append, text_singleton]
    exact congrArg (· ++ toLine toVec m) hs.batch
  taken := by
    rw [List.map_append, hs.taken]
    simp only [List.map_cons, List.map_nil, List.append_nil, List.append_assoc]
  going := hs.going
  stuck _ := rfl

/-- A message is lost when the batch before it has failed. -/
theorem Carried.lose (s : Batching τ) (ps : List (List UInt8)) (gs : List (List (List UInt8)))
    (rest : List (List UInt8)) (hs : Carried toVec whole At s ps gs rest [])
    (hhalted : s.halted ≠ none) (hrest : rest ≠ []) (m : ClientMsg) :
    Carried toVec whole At { s with taken := s.taken ++ [m] } ps gs rest [lineOf toVec m] where
  wire := hs.wire
  carry := hs.carry
  short := hs.short
  batch := hs.batch
  taken := by
    rw [List.map_append, hs.taken, List.append_nil]
    rfl
  going hgoing := absurd hgoing hhalted
  stuck hnil := absurd hnil hrest

/-- The batch goes out. -/
def Sends (s : Batching τ) : Event → Prop
  | .message m => 32 * 1024 < s.batch.length + (toLine toVec m).length
  | .flush => True
  | .heartbeat => False

/-- A batch that goes out fits the buffer of the server. -/
def Fits (s : Batching τ) (e : Event) : Prop :=
  s.halted = none → s.Sends toVec e → s.batch.length ≤ 64 * 1024

theorem step_halted (s : Batching τ) (e : Event) (fuel : Nat) (h : s.halted ≠ none) :
    s.step toVec z fuel e = s := by
  have hsome : s.halted.isSome = true := Option.isSome_iff_ne_none.mpr h
  cases e with
  | message m => exact if_pos hsome
  | flush => exact if_pos hsome
  | heartbeat => exact if_pos hsome

/-- What a step does while the session is up: the message that is taken, if any,
    goes into the batch, when the batch before it was sent or was short enough. -/
theorem step_going (s : Batching τ) (e : Event) (fuel : Nat) (h : s.halted = none) :
    (e = .flush ∧ s.step toVec z fuel e = s.sendBatch z fuel) ∨
    ∃ m s', s.step toVec z fuel e =
        (if s'.halted.isSome then { s' with taken := s'.taken ++ [m] }
          else { s' with taken := s'.taken ++ [m], batch := s'.batch ++ toLine toVec m }) ∧
      (s' = s ∨ (s.Sends toVec e ∧ s' = s.sendBatch z fuel)) := by
  have hnone : s.halted.isSome = false := by rw [h]; rfl
  cases e with
  | message m =>
      right
      refine ⟨m, if 32 * 1024 < s.batch.length + (toLine toVec m).length then s.sendBatch z fuel
        else s, ?_, ?_⟩
      · unfold step
        simp only [hnone, Bool.false_eq_true, if_false]
        by_cases hlong : 32 * 1024 < s.batch.length + (toLine toVec m).length
        · rw [if_pos hlong, if_pos hlong, sendBatch_taken, sendBatch_keeps]
        · rw [if_neg hlong, if_neg hlong, hnone]
          rfl
      · by_cases hlong : 32 * 1024 < s.batch.length + (toLine toVec m).length
        · exact Or.inr ⟨hlong, if_pos hlong⟩
        · exact Or.inl (if_neg hlong)
  | flush =>
      left
      refine ⟨rfl, ?_⟩
      unfold step
      rw [hnone]
      rfl
  | heartbeat =>
      right
      refine ⟨.heartbeat, s, ?_, Or.inl rfl⟩
      unfold step
      rw [hnone]
      rfl

theorem step_taken (s : Batching τ) (e : Event) (fuel : Nat) :
    s.taken <+: (s.step toVec z fuel e).taken := by
  by_cases h : s.halted = none
  · rcases step_going toVec z s e fuel h with ⟨-, hstep⟩ | ⟨m, s', hstep, hs'⟩
    · rw [hstep, sendBatch_keeps]
    · have hsame : s'.taken = s.taken := by
        rcases hs' with rfl | ⟨-, rfl⟩
        · rfl
        · exact sendBatch_keeps z s fuel
      rw [hstep, ← hsame]
      split_ifs <;> exact List.prefix_append _ _
  · rw [step_halted toVec z s e fuel h]

/-- What a step keeps. -/
theorem step_carried (h : z.Flushes whole syncTrailer enough Text At)
    (hroom : ∀ n ≤ 64 * 1024, enough n ≤ n + 1024) (s : Batching τ) (e : Event) (fuel : Nat)
    (hfits : s.Fits toVec e)
    (htext : ∀ ls, ls <+: (s.step toVec z (fuel + 1) e).taken.map (lineOf toVec) → Text (text ls))
    (hs : ∃ ps gs rest lost, Carried toVec whole At s ps gs rest lost) :
    ∃ ps gs rest lost, Carried toVec whole At (s.step toVec z (fuel + 1) e) ps gs rest lost := by
  rcases hs with ⟨ps, gs, rest, lost, hs⟩
  by_cases hgoing : s.halted = none
  · obtain ⟨rfl, -⟩ := hs.going hgoing
    have hsend : s.Sends toVec e → ∃ ps' gs' rest',
        Carried toVec whole At (s.sendBatch z (fuel + 1)) ps' gs' rest' [] ∧
          ((s.sendBatch z (fuel + 1)).halted = none ∨ rest' ≠ []) := by
      intro hsends
      have hfit := hfits hgoing hsends
      refine sendBatch_carried toVec z whole enough Text At h s ps gs rest fuel hs hgoing hfit
        (htext _ ?_) (hroom _ hfit)
      have hmap := (step_taken toVec z s e (fuel + 1)).map (lineOf toVec)
      rwa [hs.taken, List.append_nil] at hmap
    rcases step_going toVec z s e (fuel + 1) hgoing with ⟨rfl, hstep⟩ | ⟨m, s', hstep, hs'⟩
    · rcases hsend trivial with ⟨ps', gs', rest', hcarried, -⟩
      rw [hstep]
      exact ⟨ps', gs', rest', [], hcarried⟩
    · have hcarried : ∃ ps' gs' rest', Carried toVec whole At s' ps' gs' rest' [] ∧
          (s'.halted = none ∨ rest' ≠ []) := by
        rcases hs' with rfl | ⟨hsends, rfl⟩
        · exact ⟨ps, gs, rest, hs, Or.inl hgoing⟩
        · exact hsend hsends
      rcases hcarried with ⟨ps', gs', rest', hcarried, hend⟩
      rw [hstep]
      by_cases hhalted : s'.halted = none
      · rw [if_neg (by rw [hhalted]; decide)]
        exact ⟨ps', gs', _, _, hcarried.append toVec whole At s' ps' gs' rest' m⟩
      · -- The batch before the message could not be sent, and is still there.
        rw [if_pos (Option.isSome_iff_ne_none.mpr hhalted)]
        exact ⟨ps', gs', rest', _,
          hcarried.lose toVec whole At s' ps' gs' rest' hhalted (hend.resolve_left hhalted) m⟩
  · rw [step_halted toVec z s e (fuel + 1) hgoing]
    exact ⟨ps, gs, rest, lost, hs⟩

/-- What a run keeps. -/
theorem run_carried (h : z.Flushes whole syncTrailer enough Text At)
    (hroom : ∀ n ≤ 64 * 1024, enough n ≤ n + 1024) (es : List Event) (fuel : Nat)
    (hfits : Along (step toVec z (fuel + 1)) (Fits toVec) (start z) es)
    (htext : ∀ ls, ls <+: (exec (step toVec z (fuel + 1)) (start z) es).taken.map (lineOf toVec) →
      Text (text ls)) :
    ∃ ps gs rest lost,
      Carried toVec whole At (exec (step toVec z (fuel + 1)) (start z) es) ps gs rest lost := by
  -- From the end: the texts of a shorter run are among those of the whole one.
  induction es using List.reverseRecOn with
  | nil =>
      exact ⟨[], [], [], [], rfl, trivial, fun g hg => absurd hg List.not_mem_nil, rfl, rfl,
        fun _ => ⟨rfl, h.start⟩, fun _ => rfl⟩
  | append_singleton es e ih =>
      rw [along_append] at hfits
      rw [exec_append] at htext ⊢
      have hmore := (step_taken toVec z (exec (step toVec z (fuel + 1)) (start z) es) e
        (fuel + 1)).map (lineOf toVec)
      exact step_carried toVec z whole enough Text At h hroom _ e fuel hfits.2.1 htext
        (ih hfits.1 fun ls hls => htext ls (hls.trans hmore))

/-- A text gives its lines back. -/
theorem frameLines_lines (ls : List (List UInt8)) (h : ∀ l ∈ ls, newline ∉ l ∧ l ≠ []) :
    Downlink.frameLines (text ls) = ls := by
  rw [Downlink.frameLines_text ls fun l hl => (h l hl).1]
  exact List.filter_eq_self.mpr fun l hl => decide_eq_true (h l hl).2

/-- The lines of frames that carry lines. -/
theorem flatMap_frameLines (gs : List (List (List UInt8)))
    (h : ∀ l ∈ gs.flatten, newline ∉ l ∧ l ≠ []) :
    (((gs.map text).map some).flatMap fun chunk => Downlink.frameLines (chunk.getD [])) =
      gs.flatten := by
  induction gs with
  | nil => rfl
  | cons g gs ih =>
      rw [List.map_cons, List.map_cons, List.flatMap_cons, List.flatten_cons,
        ih fun l hl => h l (List.mem_append_right g hl), Option.getD_some,
        frameLines_lines g fun l hl => h l (List.mem_append_left _ hl)]

section

variable {σ : Type} (inflate : Calls UInt8 UInt8 σ) (AtD : σ → List UInt8 → List UInt8 → Prop)

/-- The first frames decompress to the first groups of lines. -/
theorem decodeFrames_prefix (hgrows : Grows whole) (hinflate : inflate.Meets whole AtD) (n : Nat)
    (hn : 2 ≤ n) (s : Batching τ) (ps : List (List UInt8)) (gs : List (List (List UInt8)))
    (rest lost : List (List UInt8)) (hs : Carried toVec whole At s ps gs rest lost)
    (frames : List (List UInt8)) (hframes : frames <+: ps.map frameOf) :
    decodeFrames inflate n inflate.start frames =
      ((gs.take frames.length).map text).map some := by
  obtain ⟨m, rfl⟩ := Nat.exists_eq_add_of_le' hn
  have htake : frames = (ps.take frames.length).map frameOf := by
    rw [List.map_take]
    exact List.prefix_iff_eq_take.mp hframes
  have hcarry := hs.carry.take whole [] [] ps (gs.map text) frames.length
  rw [← List.map_take] at hcarry
  conv => lhs; rw [htake]
  refine decodeFrames_small inflate whole AtD hinflate hgrows inflate.start [] [] _ _ m
    hinflate.start hcarry fun b hb => ?_
  rcases List.mem_map.mp hb with ⟨g, hg, rfl⟩
  exact hs.short g (List.mem_of_mem_take hg)

/-- The lines the server sees of the first frames. -/
theorem linesSeen_prefix (hgrows : Grows whole) (hinflate : inflate.Meets whole AtD) (n : Nat)
    (hn : 2 ≤ n) (hlines : ∀ v, newline ∉ toVec v ∧ toVec v ≠ []) (s : Batching τ)
    (ps : List (List UInt8)) (gs : List (List (List UInt8))) (rest lost : List (List UInt8))
    (hs : Carried toVec whole At s ps gs rest lost) (frames : List (List UInt8))
    (hframes : frames <+: ps.map frameOf) :
    linesSeen inflate n frames = (gs.take frames.length).flatten := by
  rw [linesSeen, decodeFrames_prefix toVec whole At inflate AtD hgrows hinflate n hn s ps gs rest
    lost hs frames hframes]
  refine flatMap_frameLines _ fun l hl => ?_
  have hmem : l ∈ s.taken.map (lineOf toVec) := by
    rw [hs.taken, List.append_assoc]
    refine List.mem_append_left _ ?_
    rcases List.mem_flatten.mp hl with ⟨g, hg, hlg⟩
    exact List.mem_flatten.mpr ⟨g, List.mem_of_mem_take hg, hlg⟩
  rcases List.mem_map.mp hmem with ⟨m, -, rfl⟩
  exact hlines m.toJson

/-- Every frame decompresses behind those before it. -/
theorem valid_frames (hgrows : Grows whole) (hinflate : inflate.Meets whole AtD) (n : Nat)
    (hn : 2 ≤ n) (s : Batching τ) (ps : List (List UInt8)) (gs : List (List (List UInt8)))
    (rest lost : List (List UInt8)) (hs : Carried toVec whole At s ps gs rest lost)
    (stream : List UInt8) (hstream : segments (complete true) stream <+: ps.map frameOf) :
    Uplink.Valid (decodes inflate n) true stream where
  fits hplain := absurd hplain (by decide)
  decodes _ before f hpre := by
    rw [Server.decodes, decodeFrames_prefix toVec whole At inflate AtD hgrows hinflate n hn s ps gs
      rest lost hs _ (hpre.trans hstream), List.all_eq_true]
    intro chunk hchunk
    rcases List.mem_map.mp hchunk with ⟨b, -, rfl⟩
    rfl

/-- The server sees the client's lines: while every batch that goes out fits the
    first buffer of `decode_frame`, and no timer of the server drops a length that
    is read in part, what it sees is always a first part of what the client took,
    and all of it when the batch has gone out and everything has arrived. -/
theorem uplink_lines (hgrows : Grows whole) (hinflate : inflate.Meets whole AtD)
    (hlines : ∀ v, newline ∉ toVec v ∧ toVec v ≠ []) (n : Nat) (hn : 2 ≤ n) (es : List Event)
    (hdeflate : z.Flushes whole syncTrailer enough (Texts toVec (run toVec z n es).taken) At)
    (henough : ∀ k ≤ 64 * 1024, enough k ≤ k + 1024)
    (hfits : Along (step toVec z n) (Fits toVec) (start z) es)
    (wantsStats : Bool) (ds : List Uplink.Event)
    (hquiet : Along (Uplink.step (decodes inflate n)) Uplink.QuietTick
      (Uplink.start true wantsStats) ds)
    (hstream : (readFrames inflate n wantsStats ds).stream <+: (run toVec z n es).wire) :
    linesSeen inflate n (readFrames inflate n wantsStats ds).processed <+:
        (run toVec z n es).taken.map (lineOf toVec) ∧
      ((readFrames inflate n wantsStats ds).stream = (run toVec z n es).wire →
        (readFrames inflate n wantsStats ds).ended ≠ some .idle →
        (run toVec z n es).batch = [] →
        ∀ k, (readFrames inflate n wantsStats ds).avail.length ≤ k →
          linesSeen inflate n
              (readFrames inflate n wantsStats (ds ++ List.replicate k .poll)).processed =
            (run toVec z n es).taken.map (lineOf toVec)) := by
  obtain ⟨m, rfl⟩ := Nat.exists_eq_add_of_le' hn
  rcases run_carried toVec z whole enough _ At hdeflate henough es (m + 1) hfits
    (fun ls hls => ⟨ls, hls, rfl⟩) with ⟨ps, gs, rest, lost, hs⟩
  change Carried toVec whole At (run toVec z (m + 2) es) ps gs rest lost at hs
  have hframes : segments (complete true) (run toVec z (m + 2) es).wire = ps.map frameOf := by
    rw [hs.wire]
    exact segments_frames ps (hs.carry.payload whole [] [] ps (gs.map text))
  have hseen := linesSeen_prefix toVec whole At inflate AtD hgrows hinflate (m + 2) hn hlines _ ps
    gs rest lost hs
  -- What the server gets of the frames decompresses.
  have hseg : segments (complete true) (readFrames inflate (m + 2) wantsStats ds).stream <+:
      ps.map frameOf := by
    rcases hstream with ⟨later, hwire⟩
    rw [← hframes, ← hwire]
    exact segments_isPrefix (complete true) _ later
  have hvalid := valid_frames toVec whole At inflate AtD hgrows hinflate (m + 2) hn _ ps gs rest
    lost hs _ hseg
  have hsound := Uplink.run_sound (decodes inflate (m + 2)) true wantsStats ds hquiet hvalid
  have hframed : (readFrames inflate (m + 2) wantsStats ds).framed = true :=
    Uplink.run_framed (decodes inflate (m + 2)) (Uplink.start true wantsStats) ds
  constructor
  · have hpre : (readFrames inflate (m + 2) wantsStats ds).processed <+: segments
        (complete (readFrames inflate (m + 2) wantsStats ds).framed)
        (readFrames inflate (m + 2) wantsStats ds).stream :=
      Uplink.Synced.prefix _ hsound.synced
    rw [hframed] at hpre
    rw [hseen _ (hpre.trans hseg), hs.taken, List.append_assoc]
    have hgroups : gs.flatten = (gs.take (readFrames inflate (m + 2) wantsStats
        ds).processed.length).flatten ++ (gs.drop (readFrames inflate (m + 2) wantsStats
        ds).processed.length).flatten := by
      rw [← List.flatten_append, List.take_append_drop]
    rw [hgroups, List.append_assoc]
    exact List.prefix_append _ _
  · intro hall hidle hbatch k hk
    rcases Uplink.drain (decodes inflate (m + 2)) (readFrames inflate (m + 2) wantsStats ds) k
      hsound hidle (by rw [hframed]; exact hvalid) hk with ⟨hsound', hstream', havail⟩
    have hprocessed := Uplink.Synced.all _ hsound'.synced havail
    rw [hstream', Uplink.run_framed, hframed, hall, hframes] at hprocessed
    have hrest : rest = [] := by
      by_contra hne
      exact text_ne_nil rest hne (hs.batch.symm.trans hbatch)
    have hcount : (ps.map frameOf).length = gs.length := by
      rw [List.length_map, hs.carry.length whole [] [] ps, List.length_map]
    unfold readFrames at hprocessed ⊢
    rw [exec_append, hprocessed, hseen _ (List.prefix_refl _), hcount, List.take_length, hs.taken,
      hs.stuck hrest, hrest, List.append_nil, List.append_nil]

end

/-- Messages and the payloads they go out in, one in each frame. -/
def messageFrames (ts : List (List UInt8 × ClientMsg)) : List (List UInt8 × List UInt8) :=
  ts.map fun t => (t.1, toLine toVec t.2)

theorem toLine_ne_nil (m : ClientMsg) : toLine toVec m ≠ [] :=
  List.concat_ne_nil newline _

/-- The compressor that knows the frames flushes with every message. -/
theorem flushes_messages (ts : List (List UInt8 × ClientMsg))
    (hroom : (frameUnits (messageFrames toVec ts)).coded.length ≤ 1024) :
    (framesWriter (messageFrames toVec ts)).Flushes (framesWhole (messageFrames toVec ts))
      syncTrailer (· + 1024) (Texts toVec (ts.map Prod.snd))
      (frameUnits (messageFrames toVec ts)).WriterAt := by
  refine (flushes_framesWriter (messageFrames toVec ts) (fun t ht => ?_) hroom).mono ?_
  · rcases List.mem_map.mp ht with ⟨t, _, rfl⟩
    exact toLine_ne_nil toVec t.2
  · rintro _ ⟨ls, hls, rfl⟩
    refine ⟨ls.length, ?_⟩
    rw [List.prefix_iff_eq_take.mp hls, List.length_take, List.map_map, ← List.map_take, text,
      frameUnits, messageFrames, List.map_map, ← List.map_take, Units.plain, List.flatMap_map,
      List.flatMap_map, List.length_map, ← List.take_eq_take_min]
    rfl

/-- A message is taken and flushed; heartbeats come of a timer. -/
def sends : ClientMsg → List Event
  | .heartbeat => [.heartbeat, .flush]
  | m => [.message m, .flush]

/-- A message that goes out in a frame of its own. -/
theorem exec_sends (s : Batching τ) (m : ClientMsg) (fuel : Nat) (p : List UInt8) (enc : τ)
    (hbatch : s.batch = []) (hgo : s.halted = none)
    (hframe : encodeFrame z fuel s.enc (toLine toVec m) = .ok (frameOf p) enc) :
    exec (step toVec z fuel) s (sends m) =
      { s with enc := enc, taken := s.taken ++ [m], wire := s.wire ++ frameOf p } := by
  have hmessage : ∀ e, (e = .message m ∨ e = .heartbeat ∧ m = .heartbeat) →
      s.step toVec z fuel e =
        { s with batch := toLine toVec m, taken := s.taken ++ [m] } := by
    rintro e (rfl | ⟨rfl, rfl⟩)
    · simp only [step, sendBatch, hgo, hbatch, Option.isSome_none, Bool.false_eq_true, if_false,
        if_true, List.nil_append, ite_self]
    · simp only [step, hgo, hbatch, Option.isSome_none, Bool.false_eq_true, if_false,
        List.nil_append]
  have hflush : ({ s with batch := toLine toVec m, taken := s.taken ++ [m] } : Batching τ).step
      toVec z fuel .flush =
        { s with enc := enc, taken := s.taken ++ [m], wire := s.wire ++ frameOf p } := by
    unfold step sendBatch
    simp only [hgo, Option.isSome_none, Bool.false_eq_true, if_false, toLine_ne_nil, hframe,
      hbatch]
  have hsends : sends m = [.message m, .flush] ∨ sends m = [.heartbeat, .flush] ∧ m = .heartbeat := by
    cases m with
    | heartbeat => exact Or.inr ⟨rfl, rfl⟩
    | _ => exact Or.inl rfl
  rcases hsends with heq | ⟨heq, hbeat⟩
  · rw [heq, exec_cons, hmessage _ (Or.inl rfl), exec_cons, exec_nil, hflush]
  · rw [heq, exec_cons, hmessage _ (Or.inr ⟨rfl, hbeat⟩), exec_cons, exec_nil, hflush]

/-- A session whose messages go out one in each frame. -/
theorem run_frames (ts : List (List UInt8 × ClientMsg)) (fuel : Nat)
    (hshort : ∀ t ∈ ts, t.1.length ≤ 1020) :
    run toVec (framesWriter (messageFrames toVec ts)) (fuel + 1) (ts.flatMap fun t => sends t.2) =
      { enc := [], batch := [], taken := ts.map Prod.snd
        wire := (ts.map fun t => frameOf t.1).flatten, halted := none } := by
  -- From any state in between.
  have hrest : ∀ (all us : List (List UInt8 × ClientMsg)) (s : Batching (Units UInt8 UInt8)),
      (∀ t ∈ us, t.1.length ≤ 1020) → s.batch = [] → s.halted = none →
      s.enc = frameUnits (messageFrames toVec us) →
      exec (step toVec (framesWriter (messageFrames toVec all)) (fuel + 1)) s
          (us.flatMap fun t => sends t.2) =
        { enc := [], batch := [], taken := s.taken ++ us.map Prod.snd
          wire := s.wire ++ (us.map fun t => frameOf t.1).flatten, halted := none } := by
    intro all us
    induction us with
    | nil =>
        rintro ⟨enc, batch, taken, wire, halted⟩ _ rfl rfl rfl
        rw [List.flatMap_nil, exec_nil]
        simp only [List.map_nil, List.flatten_nil, List.append_nil]
        rfl
    | cons t us ih =>
        intro s hshort hbatch hgo henc
        have hframe := encodeFrame_framesWriter (messageFrames toVec all) (t.1, toLine toVec t.2)
          (messageFrames toVec us) fuel (toLine_ne_nil toVec t.2) (hshort t List.mem_cons_self)
        rw [List.flatMap_cons, exec_append, exec_sends toVec _ s t.2 (fuel + 1) t.1 _ hbatch hgo
          (henc ▸ hframe)]
        refine (ih { s with
          enc := frameUnits (messageFrames toVec us), taken := s.taken ++ [t.2]
          wire := s.wire ++ frameOf t.1 }
          (fun u hu => hshort u (List.mem_cons_of_mem t hu)) hbatch hgo rfl).trans ?_
        simp only [List.map_cons, List.flatten_cons, List.append_assoc, List.cons_append,
          List.nil_append]
  have hrun := hrest ts ts (start (framesWriter (messageFrames toVec ts))) hshort rfl rfl rfl
  simp only [start, List.nil_append] at hrun
  exact hrun

/-- The server's loop gets frames that decompress. -/
theorem readFrames_all {σ : Type} (inflate : Calls UInt8 UInt8 σ) (n : Nat)
    (ps : List (List UInt8)) (h : ∀ p ∈ ps, p.length < 2 ^ 16)
    (hdecodes : (decodeFrames inflate n inflate.start (ps.map frameOf)).all Option.isSome = true)
    (k : Nat) (hk : (ps.map frameOf).flatten.length ≤ k) :
    (readFrames inflate n false (.arrive (ps.map frameOf).flatten :: List.replicate k .poll)).stream =
        (ps.map frameOf).flatten ∧
      (readFrames inflate n false
        (.arrive (ps.map frameOf).flatten :: List.replicate k .poll)).processed =
        ps.map frameOf := by
  have hseg := segments_frames ps h
  have hvalid : Uplink.Valid (decodes inflate n) true (ps.map frameOf).flatten := by
    refine ⟨fun hplain => absurd hplain (by decide), fun _ before f hpre => ?_⟩
    rw [hseg] at hpre
    rcases hpre with ⟨later, hlater⟩
    rw [← hlater] at hdecodes
    refine List.all_eq_true.mpr fun chunk hchunk => List.all_eq_true.mp hdecodes chunk ?_
    exact (decodeFrames_append inflate n inflate.start (before ++ [f]) later).subset hchunk
  have hsound := Uplink.run_sound (decodes inflate n) true false [.arrive (ps.map frameOf).flatten]
    ⟨fun push hpush => absurd hpush (by simp only [reduceCtorEq, not_false_eq_true]), trivial⟩
    hvalid
  rcases Uplink.drain (decodes inflate n)
    (readFrames inflate n false [.arrive (ps.map frameOf).flatten]) k hsound
    (Option.some_ne_none Ending.idle).symm hvalid hk with ⟨hsound', hstream, havail⟩
  have hprocessed := Uplink.Synced.all _ hsound'.synced havail
  rw [hstream, Uplink.run_framed] at hprocessed
  exact ⟨hstream, hprocessed.trans hseg⟩

/-- What a decompressor that takes a frame at once gives of them. -/
theorem decodeFrames_messages (ts : List (List UInt8 × ClientMsg))
    (hshort : ∀ t ∈ ts, t.1.length ≤ 1020) :
    decodeFrames (greedy (framesWhole (messageFrames toVec ts))) 2 ([], [])
        ((ts.map Prod.fst).map frameOf) =
      (cutAtBuffer [] (ts.map fun t => text [lineOf toVec t.2])).map some := by
  have hpayloads : (messageFrames toVec ts).map Prod.fst = ts.map Prod.fst := List.map_map
  have hlines : (messageFrames toVec ts).map Prod.snd = ts.map fun t => text [lineOf toVec t.2] :=
    List.map_map.trans (List.map_congr_left fun t _ => (text_singleton (lineOf toVec t.2)).symm)
  have hcarry := carry_framesWhole (messageFrames toVec ts) fun t ht => by
    rcases List.mem_map.mp ht with ⟨u, hu, rfl⟩
    exact (hshort u hu).trans_lt (by decide)
  rw [hpayloads, hlines] at hcarry
  exact decodeFrames_greedy _ [] [] [] _ _ 1 hcarry

/-- The lines in a part of a line. -/
theorem frameLines_part (l : List UInt8) (h : newline ∉ l) (hne : l ≠ []) :
    Downlink.frameLines l = [l] := by
  rw [Downlink.frameLines, List.splitOn,
    List.splitOnP_eq_singleton (Downlink.beq_newline l h), List.filter_cons,
    if_pos (decide_eq_true hne), List.filter_nil]

/-- A line that is longer than the buffer is cut in two. -/
theorem cutAtBuffer_line (t l k : List UInt8) (ht : t.length < 64 * 1024)
    (hlong : 64 * 1024 ≤ l.length) (hshort : l.length + k.length + 2 ≤ 2 * (64 * 1024)) :
    cutAtBuffer [] [text [t], text [l], text [k]] =
      [text [t], l.take (64 * 1024), text [l.drop (64 * 1024), k]] := by
  have hrest : text [l.drop (64 * 1024), k] = l.drop (64 * 1024) ++ [newline] ++ (k ++ [newline]) := by
    rw [← List.singleton_append, text_append, text_singleton, text_singleton]
  have hfirst : (t ++ [newline]).length ≤ 64 * 1024 := by
    rwa [List.length_append, List.length_singleton]
  have hlen : (text [l.drop (64 * 1024), k]).length ≤ 64 * 1024 := by
    simp only [hrest, List.length_append, List.length_drop, List.length_singleton]
    omega
  simp only [cutAtBuffer, text_singleton, List.nil_append, List.take_of_length_le hfirst,
    List.drop_eq_nil_of_le hfirst, List.take_append_of_le_length hlong,
    List.drop_append_of_le_length hlong, ← hrest, List.take_of_length_le hlen]

/-- The lines that are seen of it. -/
theorem flatMap_frameLines_cut (t l k : List UInt8) (hlong : 64 * 1024 < l.length)
    (h : ∀ x ∈ [t, l, k], newline ∉ x ∧ x ≠ []) :
    (([text [t], l.take (64 * 1024), text [l.drop (64 * 1024), k]].map some).flatMap fun chunk =>
        Downlink.frameLines (chunk.getD [])) =
      [t, l.take (64 * 1024), l.drop (64 * 1024), k] := by
  have hl := h l (by simp)
  have hfirst : Downlink.frameLines (l.take (64 * 1024)) = [l.take (64 * 1024)] := by
    refine frameLines_part _ (fun hmem => hl.1 (List.mem_of_mem_take hmem))
      (List.ne_nil_of_length_pos ?_)
    rw [List.length_take]
    omega
  have hrest : newline ∉ l.drop (64 * 1024) ∧ l.drop (64 * 1024) ≠ [] := by
    refine ⟨fun hmem => hl.1 (List.mem_of_mem_drop hmem), List.ne_nil_of_length_pos ?_⟩
    rw [List.length_drop]
    omega
  have hlast := frameLines_lines [l.drop (64 * 1024), k] fun x hx => by
    rcases List.mem_cons.mp hx with rfl | hx
    · exact hrest
    · exact h x (List.mem_cons_of_mem t (List.mem_cons_of_mem l hx))
  have hhead := frameLines_lines [t] fun x hx => h x (List.mem_cons.mpr
    (Or.inl (List.mem_singleton.mp hx)))
  simp only [List.map_cons, List.map_nil, List.flatMap_cons, List.flatMap_nil, Option.getD_some,
    hhead, hfirst, hlast, List.append_nil, List.cons_append, List.nil_append]

/-- The payload of a heartbeat behind others. -/
def beatAgain : List UInt8 :=
  [0xaa, 0x56, 0xca, 0x48, 0x4d, 0x2c, 0x2a, 0x49, 0x4a, 0x4d, 0x2c, 0x51, 0xb2, 0xaa, 0xae,
    0xad, 0xe5, 0x02, 0x00]

/-- The payload of a heartbeat that begins the stream. -/
def beatPayload : List UInt8 := [0x78, 0x9c] ++ beatAgain

/-- The payload of a message with eight thousand aircraft between them. -/
def seenPayload : List UInt8 :=
  [0xec, 0xc6, 0xa1, 0x09, 0x00, 0x20, 0x10, 0x00, 0xc0, 0xee, 0x18, 0x9f, 0x9d, 0xc0, 0x55,
    0xc4, 0x60, 0xb0, 0x5a, 0x8c, 0xe2, 0xee, 0x82, 0xe0, 0x16, 0x77, 0xe9, 0x76, 0xac, 0x31,
    0x66, 0x94, 0x1a, 0xfd, 0x89, 0x2c] ++ List.replicate 139 0x22 ++ [0x3f, 0xed, 0xa4, 0x0b]

/-- Heartbeats and messages with aircraft as they are written. -/
def seenVec : Json → List UInt8
  | .obj [("heartbeat", .obj [])] => Uplink.ascii "\x7b\"heartbeat\":\x7b\x7d\x7d"
  | .obj [("seen", .arr items)] =>
    Uplink.ascii "\x7b\"seen\":[" ++
      (List.replicate items.length (Uplink.ascii "\"aaaaaa\",")).flatten.dropLast ++
      Uplink.ascii "]\x7d"
  | _ => Downlink.braces

def manySeen : ClientMsg := .seen (List.replicate 8000 "aaaaaa")

theorem newline_not_mem_item : newline ∉ Uplink.ascii "\"aaaaaa\"," := by decide

/-- What is written is a line. -/
theorem seenVec_line (v : Json) : newline ∉ seenVec v ∧ seenVec v ≠ [] := by
  unfold seenVec
  split
  · exact ⟨by decide, by decide⟩
  · refine ⟨?_, ?_⟩
    · simp only [List.mem_append, not_or]
      refine ⟨⟨by decide, fun hmem => ?_⟩, by decide⟩
      rcases List.mem_flatten.mp (List.dropLast_subset _ hmem) with ⟨l, hl, hin⟩
      rw [(List.mem_replicate.mp hl).2] at hin
      exact newline_not_mem_item hin
    · exact List.append_ne_nil_of_right_ne_nil _ (by decide)
  · exact ⟨by decide, by decide⟩

theorem length_seenVec (addrs : List String) (h : addrs ≠ []) :
    (seenVec (ClientMsg.seen addrs).toJson).length = 9 * addrs.length + 10 := by
  have hvec : seenVec (ClientMsg.seen addrs).toJson = Uplink.ascii "\x7b\"seen\":[" ++
      (List.replicate (addrs.map Json.str).length (Uplink.ascii "\"aaaaaa\",")).flatten.dropLast ++
      Uplink.ascii "]\x7d" := rfl
  have hhead : (Uplink.ascii "\x7b\"seen\":[").length = 9 := by decide
  have hitem : (Uplink.ascii "\"aaaaaa\",").length = 9 := by decide
  have hend : (Uplink.ascii "]\x7d").length = 2 := by decide
  have hsome := List.length_pos_iff.mpr h
  rw [hvec, List.length_append, List.length_append, List.length_dropLast, List.length_flatten,
    List.map_replicate, List.sum_replicate_nat, List.length_map, hhead, hitem, hend]
  omega

/-- The message between two heartbeats. -/
def seenFrames : List (List UInt8 × ClientMsg) :=
  [(beatPayload, .heartbeat), (seenPayload, manySeen), (beatAgain, .heartbeat)]

def seenWhole : List UInt8 → Option (List UInt8) := framesWhole (messageFrames seenVec seenFrames)

def seenDeflate : Calls UInt8 UInt8 (Units UInt8 UInt8) :=
  framesWriter (messageFrames seenVec seenFrames)

/-- Each is in a batch of its own. -/
def longRun : Batching (Units UInt8 UInt8) :=
  run seenVec seenDeflate 2 (seenFrames.flatMap fun t => sends t.2)

/-- Everything arrives, and the loop runs. -/
def longRead : Uplink :=
  readFrames (greedy seenWhole) 2 false (.arrive longRun.wire :: List.replicate 225 .poll)

theorem short_seenFrames : ∀ t ∈ seenFrames, t.1.length ≤ 1020 := by decide +kernel

theorem longRun_eq : longRun =
    { enc := [], batch := [], taken := [.heartbeat, manySeen, .heartbeat]
      wire := ([beatPayload, seenPayload, beatAgain].map frameOf).flatten, halted := none } :=
  run_frames seenVec seenFrames 1 short_seenFrames

theorem length_manySeen : (lineOf seenVec manySeen).length = 72010 := by
  have hsome : List.replicate 8000 "aaaaaa" ≠ [] := List.ne_nil_of_length_pos (by
    rw [List.length_replicate]
    decide)
  have hlen := length_seenVec (List.replicate 8000 "aaaaaa") hsome
  rwa [List.length_replicate] at hlen

/-- The decompressor gives what fits the first buffer, and the rest with the next
    frame. -/
theorem decodeFrames_seen :
    decodeFrames (greedy seenWhole) 2 ([], []) ([beatPayload, seenPayload, beatAgain].map frameOf) =
      [text [lineOf seenVec .heartbeat], (lineOf seenVec manySeen).take (64 * 1024),
        text [(lineOf seenVec manySeen).drop (64 * 1024), lineOf seenVec .heartbeat]].map some := by
  have hbeat : (lineOf seenVec .heartbeat).length = 16 := by decide
  have hlong := length_manySeen
  have hcut := decodeFrames_messages seenVec seenFrames short_seenFrames
  exact hcut.trans (congrArg (List.map some) (cutAtBuffer_line (lineOf seenVec .heartbeat)
    (lineOf seenVec manySeen) (lineOf seenVec .heartbeat) (by omega) (by omega) (by omega)))

theorem longRead_eq : longRead.stream = longRun.wire ∧
    longRead.processed = [beatPayload, seenPayload, beatAgain].map frameOf := by
  rw [longRead, longRun_eq]
  refine readFrames_all (greedy seenWhole) 2 [beatPayload, seenPayload, beatAgain]
    (fun p hp => ?_) ?_ 225 (by decide +kernel)
  · have hshort := short_seenFrames
    rcases List.mem_map.mp (show p ∈ seenFrames.map Prod.fst from hp) with ⟨t, ht, rfl⟩
    exact (hshort t ht).trans_lt (by decide)
  · change (decodeFrames (greedy seenWhole) 2 ([], []) _).all Option.isSome = true
    rw [decodeFrames_seen]
    rfl

/-- The server sees the long line in two. -/
theorem linesSeen_seen : linesSeen (greedy seenWhole) 2 longRead.processed =
    [lineOf seenVec .heartbeat, (lineOf seenVec manySeen).take (64 * 1024),
      (lineOf seenVec manySeen).drop (64 * 1024), lineOf seenVec .heartbeat] := by
  have hlong := length_manySeen
  rw [longRead_eq.2]
  change (decodeFrames (greedy seenWhole) 2 ([], [])
    ([beatPayload, seenPayload, beatAgain].map frameOf)).flatMap _ = _
  rw [decodeFrames_seen]
  refine flatMap_frameLines_cut _ _ _ (by omega) fun x hx => ?_
  rcases List.mem_map.mp (show x ∈ [.heartbeat, manySeen, .heartbeat].map (lineOf seenVec) from hx)
    with ⟨m, -, rfl⟩
  exact seenVec_line m.toJson

/-- Every part meets its contract and everything arrives, and the server sees a
    line in two that the client wrote in one. -/
theorem long_line_cut :
    (∀ v, newline ∉ seenVec v ∧ seenVec v ≠ []) ∧ Grows seenWhole ∧
      (∃ At, (greedy seenWhole).Meets seenWhole At) ∧
      (∃ At, seenDeflate.Flushes seenWhole syncTrailer (· + 1024)
        (Texts seenVec longRun.taken) At) ∧
      longRead.stream = longRun.wire ∧
      longRun.taken = [.heartbeat, manySeen, .heartbeat] ∧
      linesSeen (greedy seenWhole) 2 longRead.processed =
        [lineOf seenVec .heartbeat, (lineOf seenVec manySeen).take (64 * 1024),
          (lineOf seenVec manySeen).drop (64 * 1024), lineOf seenVec .heartbeat] ∧
      ¬ linesSeen (greedy seenWhole) 2 longRead.processed <+:
        longRun.taken.map (lineOf seenVec) := by
  have hgrows : Grows seenWhole := grows_framesWhole (messageFrames seenVec seenFrames)
  have htaken : longRun.taken = [.heartbeat, manySeen, .heartbeat] := congrArg _ longRun_eq
  refine ⟨seenVec_line, hgrows, ⟨_, greedy_meets _ hgrows⟩,
    ⟨(frameUnits (messageFrames seenVec seenFrames)).WriterAt, ?_⟩, longRead_eq.1, htaken,
    linesSeen_seen, fun hpre => ?_⟩
  · rw [htaken]
    exact flushes_messages seenVec seenFrames (by decide +kernel)
  · -- The server sees more lines.
    have hlen := hpre.length_le
    rw [linesSeen_seen, htaken] at hlen
    exact absurd hlen (by simp)

/-- The payload of a clock reset. -/
def resetPayload : List UInt8 :=
  [0x78, 0x9c, 0xaa, 0x56, 0x4a, 0xce, 0xc9, 0x4f, 0xce, 0x8e, 0x2f, 0x4a, 0x2d, 0x4e, 0x2d,
    0x51, 0xb2, 0x52, 0x2a, 0xaa, 0x50, 0xaa, 0xe5, 0x02, 0x00]

def resetVec : Json → List UInt8
  | .obj [("clock_reset", .str "rx")] => Uplink.ascii "\x7b\"clock_reset\":\"rx\"\x7d"
  | _ => Downlink.braces

theorem resetVec_line (v : Json) : newline ∉ resetVec v ∧ resetVec v ≠ [] := by
  unfold resetVec
  split
  · decide
  · decide

def resetFrames : List (List UInt8 × ClientMsg) := [(resetPayload, .clockReset "rx")]

def resetWhole : List UInt8 → Option (List UInt8) := framesWhole (messageFrames resetVec resetFrames)

def resetDeflate : Calls UInt8 UInt8 (Units UInt8 UInt8) :=
  framesWriter (messageFrames resetVec resetFrames)

/-- What the compressor has taken and given. -/
def ResetAt : Units UInt8 UInt8 → List UInt8 → List UInt8 → Prop :=
  (frameUnits (messageFrames resetVec resetFrames)).WriterAt

theorem flushes_resetDeflate : resetDeflate.Flushes resetWhole syncTrailer (· + 1024)
    (Texts resetVec [.clockReset "rx"]) ResetAt :=
  flushes_messages resetVec resetFrames (by decide)

def resetRun : Batching (Units UInt8 UInt8) :=
  run resetVec resetDeflate 2 [.message (.clockReset "rx"), .flush]

theorem resetRun_eq : resetRun =
    { enc := [], batch := [], taken := [.clockReset "rx"], wire := frameOf resetPayload
      halted := none } := by
  have hrun := run_frames resetVec resetFrames 1 (by decide)
  rwa [resetFrames, List.map_singleton, List.map_singleton, List.flatten_singleton] at hrun

/-- The frame arrives in two pieces between two timers. -/
def resetEvents : List Uplink.Event :=
  [.tick .heartbeat, .arrive (resetRun.wire.take 5), .poll, .arrive (resetRun.wire.drop 5), .poll,
    .tick .heartbeat]

theorem uplink_lines_reset :
    linesSeen (greedy resetWhole) 2 (readFrames (greedy resetWhole) 2 false
      (resetEvents ++ List.replicate 0 .poll)).processed =
        resetRun.taken.map (lineOf resetVec) :=
  (uplink_lines resetVec resetDeflate resetWhole (· + 1024) ResetAt (greedy resetWhole) _
    (grows_framesWhole _) (greedy_meets _ (grows_framesWhole _)) resetVec_line 2 (Nat.le_refl 2)
    [.message (.clockReset "rx"), .flush]
    (by
      change Calls.Flushes _ _ _ _ (Texts resetVec resetRun.taken) _
      rw [resetRun_eq]
      exact flushes_resetDeflate)
    (fun k _ => Nat.le_refl _)
    ⟨fun _ _ => by decide +kernel, fun _ _ => by decide +kernel, trivial⟩ false resetEvents
    (by
      refine ⟨?_, ?_, ?_, ?_, ?_, ?_, trivial⟩ <;> intro push hpush _ _ _
      case refine_1 => rfl
      case refine_6 => decide +kernel
      all_goals exact absurd hpush (by simp only [reduceCtorEq, not_false_eq_true]))
    (by decide +kernel)).2
    (by decide +kernel) (by decide +kernel) (by decide +kernel) 0 (by decide +kernel)

end Batching

end Client

end MlatBench
