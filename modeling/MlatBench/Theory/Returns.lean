import MlatBench.Core.Returns
import MlatBench.Theory.Batch
import MlatBench.Theory.Output
import MlatBench.Theory.Select

/-!
# Results Come Back in Order

What the writer meant to write is frames with groups of lines in them, or lines,
and what it wrote is a first part of that, as the last write may have failed. So
what arrives is a first part of a stream that holds the lines taken from the
channel, each with something in it, and the client's loop returns a first part of
these, as long as none of its other branches wins over a call that has taken bytes.

The results among the lines come through one hand: what the listening task has got
is in the lines taken, in the channel or in its hand, in this order. And what it
has got is what was sent since it listens. So the client's results are a part of
the fixes sent, without gaps, from where the connection began to listen.

## Main definitions

* `Numbers.Plain`: Numbers are written in ASCII on one line.
* `Link.Carried`: What was meant to be written, and the lines in it.
* `Returns.Proper`: Lines are short and no call of the client's loop is cut.
* `Returns.Flow`: The invariant.

## Theorems

* `writeBatch_carried`: A batch goes out.
* `Link.streamLines_carried`: The lines in a first part of what was meant.
* `Returns.flow_step`, `Returns.flow_run`: A step and a run.
* `Returns.results_in_order`: What the client gets.
-/

namespace MlatBench

open Library F64 F64Fn Server Client Framing Proto

/-- An ASCII character that does not end a line. -/
def plainChar (c : Char) : Bool := c.toNat < 128 && c != '\n'

/-- Numbers are written in ASCII on one line. -/
def Numbers.Plain {F : Type} (num : Numbers F) : Prop :=
  ∀ k x, (num.fixed k x).toList.all plainChar = true

namespace Server

section

variable {F : Type}

theorem plainChar_numeral (c : Char) (h : isNumeral c = true) : plainChar c = true := by
  have hbounds : 45 ≤ c.toNat ∧ c.toNat ≤ 57 := by
    rw [isNumeral, Bool.or_eq_true, Bool.or_eq_true, beq_iff_eq, beq_iff_eq] at h
    rcases h with (h | rfl) | rfl
    · rw [Char.isDigit, Bool.and_eq_true, decide_eq_true_eq, decide_eq_true_eq] at h
      exact ⟨Nat.le_trans (by decide) h.1, h.2⟩
    · decide
    · decide
  rw [plainChar, Bool.and_eq_true, decide_eq_true_eq, bne_iff_ne]
  refine ⟨by omega, ?_⟩
  rintro rfl
  exact absurd hbounds.1 (by decide)

theorem plainChar_digitChar : ∀ d, d < 16 → plainChar (Nat.digitChar d) = true := by decide

/-- A result is one line of ASCII. -/
theorem plain_resultText (num : Numbers F) (hnum : num.Plain) (row : OutRow F) :
    (resultText num row).toList.all plainChar = true := by
  have hint : ∀ a : Int, (toString a).toList.all plainChar = true := fun a =>
    List.all_eq_true.mpr fun c hc => plainChar_numeral c (isNumeral_int a c hc)
  have hnat : (toString row.n).toList.all plainChar = true := hint row.n
  have hhex : row.icao.toHex.toList.all plainChar = true := by
    refine List.all_eq_true.mpr fun c hc => ?_
    rcases mem_padHex 6 _ c hc with ⟨d, hd, rfl⟩
    exact plainChar_digitChar d hd
  unfold resultText
  simp only [String.toList_append, List.all_append, hnum 3 row.stamp, hnum 5 row.pos.latDeg,
    hnum 5 row.pos.lonDeg, hint, hnat, hhex, Bool.and_true]
  decide +kernel

/-- ASCII on one line has no newline in its bytes. -/
theorem newline_not_mem_ascii (cs : List Char) (h : cs.all plainChar = true) :
    newline ∉ cs.map fun c => UInt8.ofNat c.toNat := by
  intro hin
  rcases List.mem_map.mp hin with ⟨c, hc, hbyte⟩
  have hc := List.all_eq_true.mp h c hc
  rw [plainChar, Bool.and_eq_true, decide_eq_true_eq, bne_iff_ne] at hc
  have hnat := congrArg UInt8.toNat hbyte
  rw [UInt8.toNat_ofNat', Nat.mod_eq_of_lt (by omega)] at hnat
  exact hc.2 (Char.toNat_inj.mp hnat)

/-- Its bytes have no newline, and start with a brace. -/
theorem result_bytes (num : Numbers F) (hnum : num.Plain) (row : OutRow F) :
    newline ∉ asciiBytes (resultText num row) ∧
      nonBlank (asciiBytes (resultText num row)) = true := by
  constructor
  · exact newline_not_mem_ascii _ (plain_resultText num hnum row)
  · unfold resultText asciiBytes
    simp only [String.toList_append, List.map_append, List.append_assoc]
    rfl

end

/-- A line for a client is one line and not blank. -/
theorem DownLine.plain {F : Type} (num : Numbers F) (hnum : num.Plain) (l : DownLine F) :
    newline ∉ l.bytes num ∧ nonBlank (l.bytes num) = true := by
  cases l with
  | result row => exact result_bytes num hnum row
  | other l => exact ⟨l.oneLine, by rw [DownLine.bytes, nonBlank, l.notBlank]; rfl⟩

/-- The results among lines. -/
def resultsOf {F : Type} (ls : List (DownLine F)) : List (OutRow F) :=
  ls.filterMap fun
    | .result row => some row
    | .other _ => none

theorem resultsOf_append {F : Type} (ks ls : List (DownLine F)) :
    resultsOf (ks ++ ls) = resultsOf ks ++ resultsOf ls :=
  List.filterMap_append

namespace Link

section

variable {F τ : Type} (num : Numbers F) (z : Library.Calls UInt8 UInt8 τ)
  (whole : List UInt8 → Option (List UInt8)) (enough : Nat → Nat) (Text : List UInt8 → Prop)
  (At : τ → List UInt8 → List UInt8 → Prop)

/-- What was meant to be written is frames with the payloads `ps`, which carry the
    groups of lines `gs`, and the lines `rest` are in the batch. In plain mode it is
    the lines. -/
structure Carried (s : Link F τ) (ps : List (List UInt8)) (gs : List (List (List UInt8)))
    (rest : List (List UInt8)) : Prop where
  taken : s.taken.map (DownLine.bytes num) = gs.flatten ++ rest
  meant : s.meant = if s.framed then (ps.map frameOf).flatten else text gs.flatten
  batch : s.batch = text rest
  plain : s.framed = false → rest = []
  carry : s.framed = true → Carry whole [] [] ps (gs.map text)
  groups : ∀ g ∈ gs, g ≠ [] ∧ (s.framed = true → (text g).length ≤ 64 * 1024)
  going : s.framed = true → s.done = false →
    At s.enc (text gs.flatten) (ps.flatMap (· ++ syncTrailer))

/-- The lines a writer has taken are written or in its batch. -/
def Carries (s : Link F τ) : Prop :=
  ∃ ps gs rest, Carried num whole At s ps gs rest

/-- A write leaves all but the writer alone, and what it writes is a first part of
    what it is meant to write. -/
structure Writes (s s' : Link F τ) : Prop where
  framed : s'.framed = s.framed
  listener : s'.listener = s.listener
  hand : s'.hand = s.hand
  taken : s'.taken = s.taken
  queue : (s'.queue = s.queue ∧ s'.done = s.done) ∨ (s'.queue = [] ∧ s'.done = true)
  wire : ∃ part bytes, part <+: bytes ∧ s'.wire = s.wire ++ part ∧ s'.meant = s.meant ++ bytes ∧
    (s'.done = false → part = bytes)

theorem writes_refl (s : Link F τ) : Writes s s where
  framed := rfl
  listener := rfl
  hand := rfl
  taken := rfl
  queue := Or.inl ⟨rfl, rfl⟩
  wire := ⟨[], [], List.prefix_refl [], (List.append_nil _).symm, (List.append_nil _).symm,
    fun _ => rfl⟩

theorem write_writes (s t : Link F τ) (bytes : List UInt8) (cut : Option Nat)
    (h : Writes s t) (hw : t.wire = s.wire) (hm : t.meant = s.meant) :
    Writes s (t.write bytes cut) := by
  cases cut with
  | none =>
      exact ⟨h.framed, h.listener, h.hand, h.taken, h.queue, bytes, bytes,
        List.prefix_refl bytes, congrArg (· ++ bytes) hw, congrArg (· ++ bytes) hm, fun _ => rfl⟩
  | some k =>
      exact ⟨h.framed, h.listener, h.hand, h.taken, Or.inr ⟨rfl, rfl⟩,
        bytes.take k, bytes, List.take_prefix k bytes, congrArg (· ++ bytes.take k) hw,
        congrArg (· ++ bytes) hm, fun hno => Bool.noConfusion hno⟩

theorem carried_start (h : z.Flushes whole syncTrailer enough Text At) (framed : Bool)
    (sent : List (OutRow F)) : Carried num whole At (Link.start z framed sent) [] [] [] where
  taken := rfl
  meant := by cases framed <;> rfl
  batch := rfl
  plain _ := rfl
  carry _ := trivial
  groups _ hg := absurd hg List.not_mem_nil
  going _ _ := h.start

/-- A call gives no more than there is room for. -/
def Roomy (z : Library.Calls UInt8 UInt8 τ) : Prop :=
  ∀ s xs room n ys ended s', z.call s xs room = some (n, ys, ended, s') → ys.length ≤ room

/-- A batch of less than 63 KiB goes out as one frame. -/
theorem writeBatch_carried (h : z.Flushes whole syncTrailer enough Text At) (hroomy : Roomy z)
    (henough : ∀ k ≤ 64 * 1024, enough k ≤ k + 1024) (s : Link F τ) (ps : List (List UInt8))
    (gs : List (List (List UInt8))) (rest : List (List UInt8)) (fuel : Nat) (cut : Option Nat)
    (hs : Carried num whole At s ps gs rest) (hframed : s.framed = true) (hgo : s.done = false)
    (hrest : rest ≠ []) (hlen : s.batch.length ≤ 63 * 1024)
    (htext : Text (text (gs.flatten ++ rest))) :
    (∃ p, Carried num whole At (s.writeBatch z (fuel + 1) cut) (ps ++ [p]) (gs ++ [rest]) []) ∧
      Writes s (s.writeBatch z (fuel + 1) cut) ∧ (s.writeBatch z (fuel + 1) cut).batch = [] := by
  have hall : text gs.flatten ++ s.batch = text (gs.flatten ++ rest) := by
    rw [hs.batch, text_append]
  have hne : s.batch ≠ [] := fun hnil => text_ne_nil rest hrest (hs.batch.symm.trans hnil)
  rw [← hall] at htext
  rcases h.call s.enc _ _ s.batch (s.batch.length + 1024) (hs.going hframed hgo) hne htext
    (henough _ (by omega)) with ⟨ys, enc, hcall, ⟨p, rfl⟩, hwhole, henc⟩
  -- The frame fits its length field, as a call gives no more than there is room for.
  have hp : ¬ 65535 < p.length := by
    have hroom := hroomy _ _ _ _ _ _ _ hcall
    have htrailer : syncTrailer.length = 4 := rfl
    rw [List.length_append, htrailer] at hroom
    omega
  have hframe := encodeFrame_call z s.enc enc s.batch p fuel hcall
  rw [if_neg hp] at hframe
  have hwrite : s.writeBatch z (fuel + 1) cut =
      ({ s with enc := enc, batch := [] }).write (frameOf p) cut := by
    rw [writeBatch, hframe]
  have hopen : Writes s { s with enc := enc, batch := [] } :=
    ⟨rfl, rfl, rfl, rfl, Or.inl ⟨rfl, rfl⟩, (writes_refl s).wire⟩
  have hafter : Carried num whole At
      ({ s with enc := enc, batch := [], meant := s.meant ++ frameOf p }) (ps ++ [p]) (gs ++ [rest])
      [] := by
    refine ⟨?_, ?_, rfl, fun _ => rfl, fun _ => ?_, fun g hg => ?_, fun _ _ => ?_⟩
    · rw [List.flatten_append, List.flatten_singleton, List.append_nil]
      exact hs.taken
    · have hmeant := hs.meant
      rw [if_pos hframed] at hmeant
      rw [if_pos hframed, hmeant, List.map_append, List.flatten_append]
      exact congrArg _ (List.append_nil _).symm
    · rw [List.map_append]
      refine Carry.concat whole [] [] p (text rest) ps (gs.map text) (hs.carry hframed)
        (by omega) ?_
      rw [List.nil_append, List.nil_append, hwhole, text_flatten, hs.batch]
    · rcases List.mem_append.mp hg with hg | hg
      · exact hs.groups g hg
      · rw [List.mem_singleton.mp hg, ← hs.batch]
        exact ⟨hrest, fun _ => by omega⟩
    · rw [List.flatMap_append, List.flatMap_singleton, List.flatten_append,
        List.flatten_singleton, ← hall]
      exact henc
  rw [hwrite]
  refine ⟨⟨p, ?_⟩, write_writes s _ _ cut hopen rfl rfl, ?_⟩
  · cases cut with
    | none =>
        exact ⟨hafter.taken, hafter.meant, hafter.batch, hafter.plain, hafter.carry, hafter.groups,
          hafter.going⟩
    | some k =>
        exact ⟨hafter.taken, hafter.meant, hafter.batch, hafter.plain, hafter.carry, hafter.groups,
          fun _ hno => Bool.noConfusion hno⟩
  · cases cut <;> rfl

theorem writeBatch_taken (s : Link F τ) (fuel : Nat) (cut : Option Nat) :
    (s.writeBatch z fuel cut).taken = s.taken := by
  unfold writeBatch
  split
  · cases cut <;> rfl
  · rfl

/-- What is written is only added to. -/
structure Keeps (s s' : Link F τ) : Prop where
  framed : s'.framed = s.framed
  joined : s'.listener.joined = s.listener.joined
  wire : s.wire <+: s'.wire

theorem keeps_refl (s : Link F τ) : Keeps s s :=
  ⟨rfl, rfl, List.prefix_refl _⟩

theorem write_keeps (s : Link F τ) (bytes : List UInt8) (cut : Option Nat) :
    Keeps s (s.write bytes cut) := by
  cases cut <;> exact ⟨rfl, rfl, List.prefix_append _ _⟩

theorem writeBatch_keeps (s : Link F τ) (fuel : Nat) (cut : Option Nat) :
    Keeps s (s.writeBatch z fuel cut) := by
  unfold writeBatch
  cases encodeFrame z fuel s.enc s.batch with
  | ok frame enc =>
      have hwrite := write_keeps { s with enc := enc, batch := [] } frame cut
      exact ⟨hwrite.framed, hwrite.joined, hwrite.wire⟩
  | error e => exact ⟨rfl, rfl, List.prefix_refl _⟩
  | running => exact ⟨rfl, rfl, List.prefix_refl _⟩

theorem flush_keeps (s : Link F τ) (fuel : Nat) (cut : Option Nat) :
    Keeps s (s.flush z fuel cut) := by
  unfold flush
  split_ifs
  · exact keeps_refl s
  · exact writeBatch_keeps z s fuel cut

theorem finish_keeps (s : Link F τ) (fuel : Nat) (cut : Option Nat) :
    Keeps s (s.finish z fuel cut) := by
  unfold finish
  split_ifs
  · exact keeps_refl s
  · have hflush := flush_keeps z s fuel cut
    exact ⟨hflush.framed, hflush.joined, hflush.wire⟩

theorem take_keeps (s : Link F τ) (fuel : Nat) (cut : Option Nat) :
    Keeps s (s.take num z fuel cut) := by
  unfold take
  cases s.queue with
  | nil => exact keeps_refl s
  | cons l queue =>
      simp only []
      split_ifs
      · exact ⟨rfl, rfl, List.prefix_refl _⟩
      · have hbatch := writeBatch_keeps z { s with
          queue := queue, taken := s.taken ++ [l]
          batch := s.batch ++ (l.bytes num ++ [newline]) } fuel cut
        exact ⟨hbatch.framed, hbatch.joined, hbatch.wire⟩
      · have hwrite := write_keeps { s with queue := queue, taken := s.taken ++ [l] }
          (l.bytes num ++ [newline]) cut
        exact ⟨hwrite.framed, hwrite.joined, hwrite.wire⟩

theorem recv_keeps (s : Link F τ) (sent : List (OutRow F)) : Keeps s (s.recv sent) := by
  unfold recv
  split_ifs
  · exact keeps_refl s
  · refine ⟨rfl, ?_, List.prefix_refl _⟩
    change (s.listener.recv publishSlots sent).joined = s.listener.joined
    unfold Listener.recv
    split_ifs <;> rfl

theorem pass_keeps (s : Link F τ) : Keeps s s.pass := by
  unfold pass
  split
  · exact keeps_refl s
  · split_ifs <;> exact ⟨rfl, rfl, List.prefix_refl _⟩

theorem say_keeps (s : Link F τ) (l : ServerLine) : Keeps s (s.say l) := by
  unfold say
  split_ifs <;> exact ⟨rfl, rfl, List.prefix_refl _⟩

/-- The results run through one hand: what the listening task has got is in the lines
    taken, in the channel and in its hand. What was written is what was meant to be,
    up to a write that failed. -/
structure Fed (sent : List (OutRow F)) (s : Link F τ) : Prop where
  follows : s.listener.Follows sent
  results : resultsOf s.taken <+: s.listener.got
  waiting : s.done = false →
    resultsOf (s.taken ++ s.queue) ++ s.hand.toList = s.listener.got
  wire : s.wire <+: s.meant
  uncut : s.done = false → s.wire = s.meant
  idle : s.done = true → s.queue = []

theorem Fed.writes (sent : List (OutRow F)) (s s' : Link F τ) (hs : Fed sent s)
    (hgo : s.done = false) (h : Writes s s') : Fed sent s' := by
  rcases h.wire with ⟨part, bytes, hpart, hwire, hmeant, hall⟩
  have hqueue : s'.done = false → s'.queue = s.queue := by
    intro hdone
    rcases h.queue with ⟨hqueue, -⟩ | ⟨-, hend⟩
    · exact hqueue
    · exact Bool.noConfusion (hend.symm.trans hdone)
  refine ⟨by rw [h.listener]; exact hs.follows, by rw [h.taken, h.listener]; exact hs.results,
    fun hdone => ?_, ?_, fun hdone => ?_, fun hdone => ?_⟩
  · rw [h.taken, h.listener, h.hand, hqueue hdone]
    exact hs.waiting hgo
  · rw [hwire, hmeant, hs.uncut hgo]
    exact (List.prefix_append_right_inj s.meant).mpr hpart
  · rw [hwire, hmeant, hs.uncut hgo, hall hdone]
  · rcases h.queue with ⟨-, hsame⟩ | ⟨hnil, -⟩
    · exact Bool.noConfusion (hgo.symm.trans (hsame.symm.trans hdone))
    · exact hnil

/-- The invariant of the server's side. -/
structure Sound (sent : List (OutRow F)) (s : Link F τ) : Prop extends Fed sent s where
  carries : Carries num whole At s
  small : s.framed = true → s.done = false → s.batch.length < 32 * 1024

/-- The lines a writer has taken may be compressed. -/
def Compressible (s : Link F τ) : Prop :=
  ∀ ls, ls <+: s.taken.map (DownLine.bytes num) → Text (text ls)

section

variable (h : z.Flushes whole syncTrailer enough Text At) (hroomy : Roomy z)
  (henough : ∀ k ≤ 64 * 1024, enough k ≤ k + 1024)
include h hroomy henough

theorem flush_sound (sent : List (OutRow F)) (s : Link F τ) (fuel : Nat) (cut : Option Nat)
    (hs : Sound num whole At sent s) (htext : Compressible num Text s) :
    Sound num whole At sent (s.flush z (fuel + 1) cut) := by
  unfold flush
  by_cases hoff : s.done ∨ s.framed = false ∨ s.batch = []
  · rw [if_pos hoff]
    exact hs
  · rw [if_neg hoff]
    rcases not_or.mp hoff with ⟨hdone, hrest⟩
    rcases not_or.mp hrest with ⟨hframed, hbatch⟩
    have hgo := eq_false_of_ne_true hdone
    have hf := eq_true_of_ne_false hframed
    rcases hs.carries with ⟨ps, gs, rest, hc⟩
    have hne : rest ≠ [] := by
      rintro rfl
      exact hbatch hc.batch
    have hlen := hs.small hf hgo
    rcases writeBatch_carried num z whole enough Text At h hroomy henough s ps gs rest fuel cut hc
      hf hgo hne (by omega) (htext _ (by rw [hc.taken])) with ⟨⟨p, hp⟩, hw, hnil⟩
    refine ⟨hs.toFed.writes sent s _ hgo hw, ⟨_, _, _, hp⟩, fun _ _ => ?_⟩
    rw [hnil]
    exact Nat.zero_lt_succ _

/-- The writer takes a line of less than 31 KiB. -/
theorem take_sound (sent : List (OutRow F)) (s : Link F τ) (fuel : Nat) (cut : Option Nat)
    (hs : Sound num whole At sent s)
    (hshort : ∀ l ∈ s.queue.head?, (l.bytes num).length < 31 * 1024)
    (htext : Compressible num Text (s.take num z (fuel + 1) cut)) :
    Sound num whole At sent (s.take num z (fuel + 1) cut) := by
  cases hqueue : s.queue with
  | nil =>
      have hsame : s.take num z (fuel + 1) cut = s := by rw [take, hqueue]
      rw [hsame]
      exact hs
  | cons l queue =>
      have hgo : s.done = false := by
        by_contra hdone
        have hnil := hs.idle (eq_true_of_ne_false hdone)
        rw [hqueue] at hnil
        exact List.cons_ne_nil l queue hnil
      have hl : (l.bytes num).length < 31 * 1024 := hshort l (by rw [hqueue]; rfl)
      have hwaiting := hs.waiting hgo
      rw [hqueue] at hwaiting
      rcases hs.carries with ⟨ps, gs, rest, hc⟩
      -- The line has left the channel; it is not written yet.
      have hfed : ∀ batch, Fed sent
          { s with queue := queue, taken := s.taken ++ [l], batch := batch } := by
        intro batch
        refine ⟨hs.follows, ?_, fun _ => ?_, hs.wire, hs.uncut, fun hdone => ?_⟩
        · refine ⟨resultsOf queue ++ s.hand.toList, ?_⟩
          rw [← hwaiting, ← List.append_assoc, ← resultsOf_append, List.append_assoc]
          rfl
        · rw [← hwaiting, List.append_assoc]
          rfl
        · exact Bool.noConfusion (hgo.symm.trans hdone)
      have htaken : (s.taken ++ [l]).map (DownLine.bytes num) =
          gs.flatten ++ (rest ++ [l.bytes num]) := by
        rw [List.map_append, hc.taken, List.append_assoc]
        rfl
      unfold take at htext ⊢
      simp only [hqueue] at htext ⊢
      by_cases hf : s.framed = true
      · rw [if_pos hf] at htext ⊢
        have hbatch : s.batch ++ (l.bytes num ++ [newline]) = text (rest ++ [l.bytes num]) := by
          rw [text_append, text_singleton, hc.batch]
        have hsmall := hs.small hf hgo
        have hcarried : Carried num whole At { s with
            queue := queue, taken := s.taken ++ [l]
            batch := s.batch ++ (l.bytes num ++ [newline]) } ps gs (rest ++ [l.bytes num]) :=
          ⟨htaken, hc.meant, hbatch, fun hno => Bool.noConfusion (hf.symm.trans hno), hc.carry,
            hc.groups, hc.going⟩
        by_cases hroom : (s.batch ++ (l.bytes num ++ [newline])).length < 32 * 1024
        · rw [if_pos hroom]
          exact ⟨hfed _, ⟨ps, gs, _, hcarried⟩, fun _ _ => hroom⟩
        · rw [if_neg hroom] at htext ⊢
          rw [Compressible, writeBatch_taken] at htext
          rcases writeBatch_carried num z whole enough Text At h hroomy henough _ ps gs _ fuel cut
            hcarried hf hgo (List.concat_ne_nil _ rest) (by
              simp only [List.length_append, List.length_singleton]
              omega) (htext _ (by rw [htaken])) with ⟨⟨p, hp⟩, hw, hnil⟩
          refine ⟨(hfed _).writes sent _ _ hgo hw, ⟨_, _, _, hp⟩, fun _ _ => ?_⟩
          rw [hnil]
          exact Nat.zero_lt_succ _
      · rw [if_neg hf]
        have hplain := eq_false_of_ne_true hf
        have hmeant := hc.meant
        obtain rfl := hc.plain hplain
        rw [if_neg hf] at hmeant
        rw [List.nil_append] at htaken
        have hafter : Carried num whole At { s with
            queue := queue, taken := s.taken ++ [l]
            meant := s.meant ++ (l.bytes num ++ [newline]) } ps (gs ++ [[l.bytes num]]) [] := by
          refine ⟨?_, ?_, hc.batch, fun _ => rfl, fun hno => absurd hno hf, fun g hg => ?_,
            fun hno => absurd hno hf⟩
          · rw [List.flatten_append, List.flatten_singleton, List.append_nil]
            exact htaken
          · rw [if_neg hf, List.flatten_append, List.flatten_singleton, text_append,
              text_singleton, hmeant]
          · rcases List.mem_append.mp hg with hg | hg
            · exact hc.groups g hg
            · rw [List.mem_singleton.mp hg]
              exact ⟨List.cons_ne_nil _ _, fun hno => absurd hno hf⟩
        have hw : Writes { s with queue := queue, taken := s.taken ++ [l] }
            (({ s with queue := queue, taken := s.taken ++ [l] }).write
              (l.bytes num ++ [newline]) cut) :=
          write_writes _ _ _ cut (writes_refl _) rfl rfl
        refine ⟨(hfed s.batch).writes sent _ _ hgo hw, ⟨ps, gs ++ [[l.bytes num]], [], ?_⟩,
          fun hno => absurd (hw.framed.symm.trans hno) hf⟩
        cases cut with
        | none =>
            exact ⟨hafter.taken, hafter.meant, hafter.batch, hafter.plain, hafter.carry,
              hafter.groups, hafter.going⟩
        | some k =>
            exact ⟨hafter.taken, hafter.meant, hafter.batch, hafter.plain, hafter.carry,
              hafter.groups, fun hno => absurd hno hf⟩

theorem finish_sound (sent : List (OutRow F)) (s : Link F τ) (fuel : Nat) (cut : Option Nat)
    (hs : Sound num whole At sent s) (htext : Compressible num Text s) :
    Sound num whole At sent (s.finish z (fuel + 1) cut) := by
  unfold finish
  split_ifs
  · exact hs
  · have ht := flush_sound num z whole enough Text At h hroomy henough sent s fuel cut hs htext
    rcases ht.carries with ⟨ps, gs, rest, hc⟩
    exact ⟨⟨ht.follows, ht.results, fun hno => Bool.noConfusion hno, ht.wire,
      fun hno => Bool.noConfusion hno, fun _ => rfl⟩, ⟨ps, gs, rest, hc.taken, hc.meant, hc.batch,
      hc.plain, hc.carry, hc.groups, fun _ hno => Bool.noConfusion hno⟩,
      fun _ hno => Bool.noConfusion hno⟩

end

/-- Only the listening task and the channel change. -/
theorem Sound.feed (sent : List (OutRow F)) (s s' : Link F τ) (hs : Sound num whole At sent s)
    (hfed : Fed sent s') (htaken : s'.taken = s.taken) (hmeant : s'.meant = s.meant)
    (hframed : s'.framed = s.framed) (hbatch : s'.batch = s.batch) (henc : s'.enc = s.enc)
    (hdone : s'.done = s.done) : Sound num whole At sent s' := by
  rcases hs.carries with ⟨ps, gs, rest, hc⟩
  refine ⟨hfed, ⟨ps, gs, rest, ?_, ?_, ?_, ?_, ?_, ?_, ?_⟩, ?_⟩
  · rw [htaken]
    exact hc.taken
  · rw [hmeant, hframed]
    exact hc.meant
  · rw [hbatch]
    exact hc.batch
  · rw [hframed]
    exact hc.plain
  · rw [hframed]
    exact hc.carry
  · rw [hframed]
    exact hc.groups
  · rw [hframed, hdone, henc]
    exact hc.going
  · rw [hframed, hdone, hbatch]
    exact hs.small

theorem recv_sound (sent : List (OutRow F)) (s : Link F τ) (hs : Sound num whole At sent s) :
    Sound num whole At sent (s.recv sent) := by
  unfold recv
  by_cases hhand : s.hand.isSome = true
  · rw [if_pos hhand]
    exact hs
  · rw [if_neg hhand]
    refine hs.feed num whole At sent s _ ?_ rfl rfl rfl rfl rfl rfl
    have hnone := Option.not_isSome_iff_eq_none.mp hhand
    have hgot : (s.listener.recv publishSlots sent).got = s.listener.got ++
        ((s.listener.recv publishSlots sent).got[s.listener.got.length]?).toList := by
      have hsame : s.listener.got = s.listener.got ++
          (s.listener.got[s.listener.got.length]?).toList := by
        rw [List.getElem?_eq_none (Nat.le_refl _)]
        exact (List.append_nil _).symm
      unfold Listener.recv
      split_ifs
      · exact hsame
      · exact hsame
      · cases sent[s.listener.next]? with
        | none =>
            simp only [Option.toList_none, List.append_nil]
            exact hsame
        | some row => simp only [Option.toList_some, List.getElem?_concat_length]
    refine ⟨hs.follows.recv publishSlots sent s.listener, ?_, fun hdone => ?_, hs.wire, hs.uncut,
      hs.idle⟩
    · simp only []
      rw [hgot]
      exact hs.results.trans (List.prefix_append _ _)
    · have hwaiting := hs.waiting hdone
      rw [hnone, Option.toList_none, List.append_nil] at hwaiting
      simp only []
      rw [hwaiting]
      exact hgot.symm

theorem pass_sound (sent : List (OutRow F)) (s : Link F τ) (hs : Sound num whole At sent s) :
    Sound num whole At sent s.pass := by
  unfold pass
  cases hhand : s.hand with
  | none => exact hs
  | some row =>
      simp only []
      by_cases hdone : s.done = true
      · rw [if_pos hdone]
        refine hs.feed num whole At sent s _ ?_ rfl rfl rfl rfl rfl rfl
        exact ⟨⟨hs.follows.inside, hs.follows.got⟩, hs.results,
          fun hno => Bool.noConfusion (hdone.symm.trans hno), hs.wire, hs.uncut, hs.idle⟩
      · rw [if_neg hdone]
        split_ifs
        · refine hs.feed num whole At sent s _ ?_ rfl rfl rfl rfl rfl rfl
          have hwaiting := hs.waiting (eq_false_of_ne_true hdone)
          refine ⟨hs.follows, hs.results, fun _ => ?_, hs.wire, hs.uncut,
            fun hno => absurd hno hdone⟩
          rw [← hwaiting, hhand, ← List.append_assoc, resultsOf_append _ [_], List.append_assoc]
          rfl
        · exact hs

theorem say_sound (sent : List (OutRow F)) (s : Link F τ) (l : ServerLine)
    (hs : Sound num whole At sent s) : Sound num whole At sent (s.say l) := by
  unfold say
  by_cases hoff : s.done ∨ s.sending = false ∨ lineSlots ≤ s.queue.length
  · rw [if_pos hoff]
    exact hs
  · rw [if_neg hoff]
    have hdone := (not_or.mp hoff).1
    refine hs.feed num whole At sent s _ ?_ rfl rfl rfl rfl rfl rfl
    refine ⟨hs.follows, hs.results, fun _ => ?_, hs.wire, hs.uncut, fun hno => absurd hno hdone⟩
    rw [← hs.waiting (eq_false_of_ne_true hdone), ← List.append_assoc, resultsOf_append _ [_]]
    exact congrArg (· ++ s.hand.toList) (List.append_nil _)

theorem leave_sound (sent : List (OutRow F)) (s : Link F τ) (hs : Sound num whole At sent s) :
    Sound num whole At sent { s with sending := false } :=
  hs.feed num whole At sent s _ ⟨hs.follows, hs.results, hs.waiting, hs.wire, hs.uncut, hs.idle⟩
    rfl rfl rfl rfl rfl rfl

/-- More is sent. -/
theorem Sound.append (sent more : List (OutRow F)) (s : Link F τ)
    (hs : Sound num whole At sent s) : Sound num whole At (sent ++ more) s :=
  ⟨⟨hs.follows.append sent more s.listener, hs.results, hs.waiting, hs.wire, hs.uncut, hs.idle⟩,
    hs.carries, hs.small⟩

/-- A line as the client's loop gets it. -/
def lineFor (framed : Bool) (l : List UInt8) : List UInt8 :=
  if framed then l else l ++ [newline]

section

variable {σ : Type} (inflate : Library.Calls UInt8 UInt8 σ)
  (AtD : σ → List UInt8 → List UInt8 → Prop)

/-- The frames come back as their groups of lines, one by one. -/
theorem decodeNext_carried (hgrows : Grows whole) (hinflate : inflate.Meets whole AtD) (n : Nat)
    (ps : List (List UInt8)) (gs : List (List (List UInt8)))
    (hcarry : Carry whole [] [] ps (gs.map text))
    (hshort : ∀ g ∈ gs, (text g).length ≤ 64 * 1024) (before : List (List UInt8)) (f : List UInt8)
    (hpre : before ++ [f] <+: ps.map frameOf) :
    ∃ g, gs[before.length]? = some g ∧
      Returns.decodeNext inflate (n + 2) before f = some (text g) := by
  have htake : before ++ [f] = (ps.take (before.length + 1)).map frameOf := by
    rw [List.map_take]
    have heq := List.prefix_iff_eq_take.mp hpre
    rwa [List.length_append, List.length_singleton] at heq
  have hlen : before.length < gs.length := by
    have hle := hpre.length_le
    rw [List.length_append, List.length_singleton, List.length_map,
      hcarry.length whole [] [] ps (gs.map text), List.length_map] at hle
    omega
  have hdecoded := decodeFrames_small inflate whole AtD hinflate hgrows inflate.start [] [] _ _ n
    hinflate.start (hcarry.take whole [] [] ps (gs.map text) (before.length + 1)) (fun b hb => by
      rcases List.mem_map.mp (List.mem_of_mem_take hb) with ⟨g, hg, rfl⟩
      exact hshort g hg)
  refine ⟨gs[before.length], List.getElem?_eq_getElem hlen, ?_⟩
  rw [Returns.decodeNext, htake, hdecoded, List.getLast?_map, ← List.map_take, List.getLast?_map,
    List.getLast?_take, if_neg (Nat.succ_ne_zero _), Nat.add_sub_cancel,
    List.getElem?_eq_getElem hlen]
  rfl

/-- What the client makes of the first frames. -/
theorem contents_carried (hgrows : Grows whole) (hinflate : inflate.Meets whole AtD) (n : Nat)
    (ps : List (List UInt8)) (gs : List (List (List UInt8)))
    (hcarry : Carry whole [] [] ps (gs.map text))
    (hshort : ∀ g ∈ gs, (text g).length ≤ 64 * 1024)
    (hlines : ∀ l ∈ gs.flatten, newline ∉ l ∧ nonBlank l = true) (us : List (List UInt8))
    (hus : us <+: ps.map frameOf) :
    SelectLoop.contents (Returns.decodeNext inflate (n + 2)) [] us =
      (gs.take us.length).flatten := by
  induction us using List.reverseRecOn with
  | nil => rfl
  | append_singleton us u ih =>
      rcases decodeNext_carried whole inflate AtD hgrows hinflate n ps gs hcarry hshort us u hus with
        ⟨g, hg, hdecode⟩
      have hmem := List.mem_of_getElem? hg
      have hplain : ∀ l ∈ g, newline ∉ l ∧ nonBlank l = true := fun l hl =>
        hlines l (List.mem_flatten.mpr ⟨g, hmem, hl⟩)
      have hkeep : Downlink.frameLines (text g) = g := by
        rw [Downlink.frameLines_text g fun l hl => (hplain l hl).1]
        exact List.filter_eq_self.mpr fun l hl => decide_eq_true (Downlink.nonBlank_ne l (hplain l hl).2)
      rw [SelectLoop.contents_append, List.nil_append, ih ((List.prefix_append us [u]).trans hus),
        SelectLoop.contents, hdecode, SelectLoop.contents, List.append_nil, List.length_append,
        List.length_singleton, List.take_add_one, hg, List.flatten_append, Option.toList_some,
        List.flatten_singleton]
      exact congrArg _ hkeep

/-- What arrives is a first part of what was meant: its frames hold lines, and its
    lines are the first of those taken. -/
theorem streamLines_carried (hgrows : Grows whole) (hinflate : inflate.Meets whole AtD)
    (hnum : num.Plain) (n : Nat) (s : Link F τ) (ps : List (List UInt8))
    (gs : List (List (List UInt8))) (rest : List (List UInt8))
    (hs : Carried num whole At s ps gs rest) (stream : List UInt8) (hstream : stream <+: s.meant) :
    SelectLoop.Carries (Returns.decodeNext inflate (n + 2)) s.framed stream ∧
      SelectLoop.Spaceless (Returns.decodeNext inflate (n + 2)) s.framed stream ∧
      SelectLoop.streamLines (Returns.decodeNext inflate (n + 2)) s.framed stream <+:
        s.taken.map (fun l => lineFor s.framed (l.bytes num)) ∧
      (stream = s.meant → rest = [] →
        SelectLoop.streamLines (Returns.decodeNext inflate (n + 2)) s.framed stream =
          s.taken.map (fun l => lineFor s.framed (l.bytes num))) := by
  have hlines : ∀ l ∈ gs.flatten, newline ∉ l ∧ nonBlank l = true := by
    intro l hl
    have hin : l ∈ s.taken.map (DownLine.bytes num) := by
      rw [hs.taken]
      exact List.mem_append_left _ hl
    rcases List.mem_map.mp hin with ⟨d, _, rfl⟩
    exact d.plain num hnum
  have hmeant := hs.meant
  have hall : s.taken.map (fun l => lineFor s.framed (l.bytes num)) =
      (gs.flatten ++ rest).map (lineFor s.framed) := by
    rw [← hs.taken, List.map_map]
    rfl
  rw [hall]
  cases hf : s.framed with
  | true =>
      rw [hf, if_pos rfl] at hmeant
      have hcarry := hs.carry hf
      have hshort : ∀ g ∈ gs, (text g).length ≤ 64 * 1024 := fun g hg => (hs.groups g hg).2 hf
      have hframes : segments (complete true) s.meant = ps.map frameOf := by
        rw [hmeant]
        exact segments_frames ps (hcarry.payload whole [] [] ps (gs.map text))
      have hseg : segments (complete true) stream <+: ps.map frameOf := by
        rcases hstream with ⟨later, hlater⟩
        rw [← hframes, ← hlater]
        exact segments_isPrefix (complete true) stream later
      have hcontents := contents_carried whole inflate AtD hgrows hinflate n ps gs hcarry hshort
        hlines _ hseg
      have hkeep : ∀ k, ((gs.take k).flatten).filter nonBlank = (gs.take k).flatten := by
        intro k
        refine List.filter_eq_self.mpr fun l hl => (hlines l ?_).2
        rcases List.mem_flatten.mp hl with ⟨g, hg, hlg⟩
        exact List.mem_flatten.mpr ⟨g, List.mem_of_mem_take hg, hlg⟩
      have hid : (gs.flatten ++ rest).map (lineFor true) = gs.flatten ++ rest := List.map_id _
      have hseen : SelectLoop.streamLines (Returns.decodeNext inflate (n + 2)) true stream =
          (gs.take (segments (complete true) stream).length).flatten := by
        rw [SelectLoop.streamLines, if_pos rfl, hcontents, hkeep]
      rw [hid, hseen]
      refine ⟨fun _ before f hpre => ?_, fun _ l hl => ?_, ?_, fun heq hrest => ?_⟩
      · rcases decodeNext_carried whole inflate AtD hgrows hinflate n ps gs hcarry hshort before f
          (hpre.trans hseg) with ⟨g, hg, hdecode⟩
        have hmem := List.mem_of_getElem? hg
        rcases List.exists_mem_of_ne_nil g (hs.groups g hmem).1 with ⟨l, hl⟩
        have hplain : ∀ l ∈ g, newline ∉ l ∧ nonBlank l = true := fun l hl =>
          hlines l (List.mem_flatten.mpr ⟨g, hmem, hl⟩)
        refine ⟨text g, hdecode, l, ?_, (hplain l hl).2⟩
        rw [Downlink.frameLines_text g fun l hl => (hplain l hl).1]
        exact List.mem_filter.mpr
          ⟨hl, decide_eq_true (Downlink.nonBlank_ne l (hplain l hl).2)⟩
      · rw [hcontents, ← hkeep] at hl
        exact (List.mem_filter.mp hl).2
      · refine List.IsPrefix.trans ?_ (List.prefix_append gs.flatten rest)
        conv => rhs; rw [← List.take_append_drop (segments (complete true) stream).length gs,
          List.flatten_append]
        exact List.prefix_append _ _
      · have hcount : (ps.map frameOf).length = gs.length := by
          rw [List.length_map, hcarry.length whole [] [] ps, List.length_map]
        rw [heq, hframes, hcount, List.take_length, hrest, List.append_nil]
  | false =>
      rw [hf, if_neg Bool.false_ne_true] at hmeant
      obtain rfl := hs.plain hf
      have hsegs : segments (complete false) s.meant = gs.flatten.map (lineFor false) := by
        rw [hmeant]
        exact Downlink.segments_text gs.flatten fun l hl => (hlines l hl).1
      have hkeep : ∀ ls, ls <+: gs.flatten.map (lineFor false) → ls.filter nonBlank = ls := by
        intro ls hls
        refine List.filter_eq_self.mpr fun l hl => ?_
        rcases List.mem_map.mp (hls.subset hl) with ⟨l', hl', rfl⟩
        exact (Downlink.nonBlank_newline l').trans (hlines l' hl').2
      have hseg : segments (complete false) stream <+: gs.flatten.map (lineFor false) := by
        rcases hstream with ⟨later, hlater⟩
        rw [← hsegs, ← hlater]
        exact segments_isPrefix (complete false) stream later
      rw [List.append_nil, SelectLoop.streamLines, if_neg Bool.false_ne_true, hkeep _ hseg]
      refine ⟨fun hno => Bool.noConfusion hno, fun hno => Bool.noConfusion hno, hseg, fun heq _ => ?_⟩
      rw [heq, hsegs]

end

theorem flush_taken (s : Link F τ) (fuel : Nat) (cut : Option Nat) :
    (s.flush z fuel cut).taken = s.taken := by
  unfold flush
  split_ifs
  · rfl
  · exact writeBatch_taken z s fuel cut

theorem finish_taken (s : Link F τ) (fuel : Nat) (cut : Option Nat) :
    (s.finish z fuel cut).taken = s.taken := by
  unfold finish
  split_ifs
  · rfl
  · exact flush_taken z s fuel cut

theorem take_taken (s : Link F τ) (fuel : Nat) (cut : Option Nat) :
    (s.take num z fuel cut).taken = s.taken ++ s.queue.head?.toList := by
  unfold take
  cases s.queue with
  | nil => exact (List.append_nil _).symm
  | cons l queue =>
      simp only []
      split_ifs
      · rfl
      · exact writeBatch_taken z _ fuel cut
      · cases cut <;> rfl

end

end Link

namespace Returns

/-- A result as `serde_json` reads it, its numbers by what is written of them. -/
def resultJson {F : Type} (q : Nat → F → ℚ) (row : OutRow F) : Json :=
  .obj [("@", .num (q 3 row.stamp)), ("addr", .str row.icao.toHex), ("alt", .num row.altFt),
    ("callsign", .null), ("gdop", .num 0), ("hdop", .num 0), ("lat", .num (q 5 row.pos.latDeg)),
    ("lon", .num (q 5 row.pos.lonDeg)), ("nstations", .num row.n), ("squawk", .null),
    ("tdop", .num 0), ("vdop", .num 0)]

/-- A fix as the client gives it on. -/
def received {F : Type} [F64 F] (q : Nat → F → ℚ) (row : OutRow F) : ResultPos F :=
  { addr := row.icao.val &&& 0xFFFFFF, lat := lit (q 5 row.pos.latDeg)
    lon := lit (q 5 row.pos.lonDeg)
    altFt := toInt (-2 ^ 31) (2 ^ 31 - 1) (lit (row.altFt : ℚ) : F) }

theorem fromJson_resultJson {F : Type} [F64 F] (q : Nat → F → ℚ) (row : OutRow F) :
    ResultPos.fromJson (resultJson q row) = some (received q row) := by
  have haddr : ((resultJson q row).get "addr").bind Json.asStr = some row.icao.toHex := rfl
  have hlat : ((resultJson q row).get "lat").bind Json.asNum = some (q 5 row.pos.latDeg) := rfl
  have hlon : ((resultJson q row).get "lon").bind Json.asNum = some (q 5 row.pos.lonDeg) := rfl
  have halt : ((resultJson q row).get "alt").bind Json.asNum = some (row.altFt : ℚ) := rfl
  unfold ResultPos.fromJson
  rw [haddr, hlat, hlon, halt, Option.bind_some, Icao.toHex, fromStrRadix16_hex06]
  rfl

variable {F τ σ : Type} [F64Fn F] (num : Numbers F) (solver : Solver F)
  (z : Library.Calls UInt8 UInt8 τ) (inflate : Library.Calls UInt8 UInt8 σ)

/-- The lines the writer takes are short, and no branch of the client's loop wins over
    a call that has taken bytes. -/
def Proper (r : Returns F τ) : Event F → Prop
  | .take _ => ∀ l ∈ r.link.queue.head?, (l.bytes num).length < 31 * 1024
  | .client e => SelectLoop.Uncut r.client e
  | _ => True

/-- Lines are only added to those taken. -/
theorem step_taken (fuel : Nat) (r : Returns F τ) (e : Event F) :
    r.link.taken <+: (r.step num solver z inflate fuel e).link.taken := by
  cases e with
  | take cut =>
      rw [step, Link.take_taken]
      exact List.prefix_append _ _
  | flush cut =>
      rw [step, Link.flush_taken]
  | finish cut =>
      rw [step, Link.finish_taken]
  | recv =>
      rw [step]
      unfold Link.recv
      split_ifs <;> exact List.prefix_refl _
  | pass =>
      rw [step]
      unfold Link.pass
      split
      · exact List.prefix_refl _
      · split_ifs <;> exact List.prefix_refl _
  | say l =>
      rw [step]
      unfold Link.say
      split_ifs <;> exact List.prefix_refl _
  | client e => cases e <;> exact List.prefix_refl _
  | _ => exact List.prefix_refl _

section

variable (whole : List UInt8 → Option (List UInt8)) (enough : Nat → Nat)
  (Text : List UInt8 → Prop) (At : τ → List UInt8 → List UInt8 → Prop)
  (AtD : σ → List UInt8 → List UInt8 → Prop)

/-- The invariant: the server's side is sound, what arrived was written, and the
    client's loop has accounted for it. -/
structure Flow (framed : Bool) (joined fuel : Nat) (r : Returns F τ) : Prop where
  sound : Link.Sound num whole At r.mlatd.output.sent r.link
  link : r.link.framed = framed
  down : r.client.down.framed = framed
  joined : r.link.listener.joined = joined
  stream : r.client.stream <+: r.link.wire
  account : SelectLoop.Account (decodeNext inflate fuel) r.client

omit [F64Fn F] in
theorem flow_start (h : z.Flushes whole syncTrailer enough Text At) (framed : Bool) (fuel : Nat)
    (m : Mlatd F) : Flow num inflate whole At framed m.output.sent.length fuel
      (Returns.start z framed m) where
  sound := by
    refine ⟨⟨Listener.follows_join m.output.sent, List.prefix_refl _, fun _ => rfl,
      List.prefix_refl _, fun _ => rfl, fun _ => rfl⟩,
      ⟨[], [], [], Link.carried_start num z whole enough Text At h framed m.output.sent⟩,
      fun _ _ => Nat.zero_lt_succ _⟩
  link := rfl
  down := rfl
  joined := rfl
  stream := List.prefix_refl _
  account := SelectLoop.account_start _ framed

omit [F64Fn F] in
/-- The server's side has changed, and what is written is only added to. -/
theorem Flow.keep (framed : Bool) (joined fuel : Nat) (r : Returns F τ) (link : Link F τ)
    (h : Flow num inflate whole At framed joined fuel r)
    (hsound : Link.Sound num whole At r.mlatd.output.sent link) (hkeep : Link.Keeps r.link link) :
    Flow num inflate whole At framed joined fuel { r with link := link } where
  sound := hsound
  link := hkeep.framed.trans h.link
  down := h.down
  joined := hkeep.joined.trans h.joined
  stream := h.stream.trans hkeep.wire
  account := h.account

omit [F64Fn F] in
/-- The client's loop goes on with bytes that were written. -/
theorem flow_client (hgrows : Grows whole) (hinflate : inflate.Meets whole AtD)
    (hnum : num.Plain) (framed : Bool) (joined n : Nat) (r : Returns F τ)
    (hr : Flow num inflate whole At framed joined (n + 2) r) (e : SelectLoop.Event)
    (huncut : SelectLoop.Uncut r.client e)
    (hstream : (r.client.step (decodeNext inflate (n + 2)) e).stream <+: r.link.wire) :
    Flow num inflate whole At framed joined (n + 2)
      { r with client := r.client.step (decodeNext inflate (n + 2)) e } := by
  have hdown : (r.client.step (decodeNext inflate (n + 2)) e).down.framed = framed :=
    (SelectLoop.step_framed _ r.client e).trans hr.down
  rcases hr.sound.carries with ⟨ps, gs, rest, hc⟩
  have hcarries := (Link.streamLines_carried num whole At inflate AtD hgrows hinflate hnum n r.link
    ps gs rest hc _ (hstream.trans hr.sound.wire)).1
  rw [hr.link, ← hdown] at hcarries
  exact ⟨hr.sound, hr.link, hdown, hr.joined, hstream,
    SelectLoop.step_account _ r.client e huncut (fun _ => hr.account) hcarries⟩

theorem poll_stream (decode : List (List UInt8) → List UInt8 → Option (List UInt8))
    (s : SelectLoop) : (s.step decode .poll).stream = s.stream := by
  by_cases hended : s.ended = none
  · rcases hnext : s.down.nextLine decode with ⟨c, d⟩
    rw [SelectLoop.step_poll decode s hended c d hnext]
  · rw [SelectLoop.step_ended decode s hended]

section

variable (h : z.Flushes whole syncTrailer enough Text At) (hroomy : Link.Roomy z)
  (henough : ∀ k ≤ 64 * 1024, enough k ≤ k + 1024) (hgrows : Grows whole)
  (hinflate : inflate.Meets whole AtD) (hnum : num.Plain)
include h hroomy henough hgrows hinflate hnum

/-- A step keeps the invariant. -/
theorem flow_step (framed : Bool) (joined n : Nat) (r : Returns F τ)
    (hr : Flow num inflate whole At framed joined (n + 2) r) (e : Event F)
    (hproper : r.Proper num e)
    (htext : Link.Compressible num Text (r.step num solver z inflate (n + 2) e).link) :
    Flow num inflate whole At framed joined (n + 2) (r.step num solver z inflate (n + 2) e) := by
  have hclient := flow_client num inflate whole At AtD hgrows hinflate hnum framed joined n r hr
  have hbefore : Link.Compressible num Text r.link := fun ls hls =>
    htext ls (hls.trans ((step_taken num solver z inflate (n + 2) r e).map _))
  have hsound := hr.sound
  cases e with
  | server e =>
      rcases Mlatd.sent_grows num solver r.mlatd e with ⟨more, hmore⟩
      refine ⟨?_, hr.link, hr.down, hr.joined, hr.stream, hr.account⟩
      simp only [step, hmore]
      exact hsound.append num whole At _ more r.link
  | recv =>
      exact hr.keep num inflate whole At framed joined _ r _ (Link.recv_sound num whole At _ _ hsound)
        (Link.recv_keeps _ _)
  | pass =>
      exact hr.keep num inflate whole At framed joined _ r _ (Link.pass_sound num whole At _ _ hsound)
        (Link.pass_keeps _)
  | say l =>
      exact hr.keep num inflate whole At framed joined _ r _
        (Link.say_sound num whole At _ _ l hsound) (Link.say_keeps _ l)
  | leave =>
      exact hr.keep num inflate whole At framed joined _ r _ (Link.leave_sound num whole At _ _ hsound)
        ⟨rfl, rfl, List.prefix_refl _⟩
  | take cut =>
      exact hr.keep num inflate whole At framed joined _ r _
        (Link.take_sound num z whole enough Text At h hroomy henough _ _ (n + 1) cut hsound hproper
          htext) (Link.take_keeps num z _ _ cut)
  | flush cut =>
      exact hr.keep num inflate whole At framed joined _ r _
        (Link.flush_sound num z whole enough Text At h hroomy henough _ _ (n + 1) cut hsound hbefore)
        (Link.flush_keeps z _ _ cut)
  | finish cut =>
      exact hr.keep num inflate whole At framed joined _ r _
        (Link.finish_sound num z whole enough Text At h hroomy henough _ _ (n + 1) cut hsound hbefore)
        (Link.finish_keeps z _ _ cut)
  | arrive k =>
      refine hclient _ trivial ?_
      unfold SelectLoop.step
      simp only []
      split_ifs
      · exact hr.stream
      · -- What arrives comes next in what was written.
        rcases hr.stream with ⟨later, hlater⟩
        simp only [← hlater, List.drop_left]
        exact (List.prefix_append_right_inj _).mpr (List.take_prefix k later)
  | client e =>
      cases e with
      | arrive chunk => exact hr
      | close => exact hclient .close hproper hr.stream
      | poll => exact hclient .poll hproper (by rw [poll_stream]; exact hr.stream)
      | other =>
          refine hclient .other hproper ?_
          unfold SelectLoop.step
          split_ifs <;> exact hr.stream
      | bail =>
          refine hclient .bail hproper ?_
          unfold SelectLoop.step
          split_ifs <;> exact hr.stream

/-- So does a run. -/
theorem flow_run (framed : Bool) (n : Nat) (m : Mlatd F) (es : List (Event F))
    (hproper : Along (step num solver z inflate (n + 2)) (Proper num) (Returns.start z framed m) es)
    (htext : Link.Compressible num Text
      (exec (step num solver z inflate (n + 2)) (Returns.start z framed m) es).link) :
    Flow num inflate whole At framed m.output.sent.length (n + 2)
      (exec (step num solver z inflate (n + 2)) (Returns.start z framed m) es) := by
  -- From the end: the lines of a shorter run are among those of the whole one.
  induction es using List.reverseRecOn with
  | nil => exact flow_start num z inflate whole enough Text At h framed (n + 2) m
  | append_singleton es e ih =>
      rw [along_append] at hproper
      rw [exec_append, exec_cons, exec_nil] at htext ⊢
      refine flow_step num solver z inflate whole enough Text At AtD h hroomy henough hgrows hinflate
        hnum framed _ n _ (ih hproper.1 fun ls hls => ?_) e hproper.2.1 htext
      exact htext ls (hls.trans ((step_taken num solver z inflate (n + 2) _ e).map _))

omit h hroomy henough hgrows hinflate hnum in
/-- The client's loop runs again and again. -/
theorem exec_polls (fuel k : Nat) (r : Returns F τ) :
    (exec (step num solver z inflate fuel) r (List.replicate k (.client .poll))).client =
      exec (SelectLoop.step (decodeNext inflate fuel)) r.client (List.replicate k .poll) := by
  induction k generalizing r with
  | zero => rfl
  | succ k ih =>
      rw [List.replicate_succ, exec_cons, ih, List.replicate_succ, exec_cons]
      rfl

omit [F64Fn F] h hroomy henough hgrows hinflate hnum in
/-- What the client makes of lines. -/
theorem filterMap_lines [F64 F] (framed : Bool) (parse : List UInt8 → Option Json)
    (q : Nat → F → ℚ) (ls : List (DownLine F))
    (hparse : ∀ row ∈ resultsOf ls,
      parse (Link.lineFor framed (asciiBytes (resultText num row))) =
        some (.obj [("result", resultJson q row)]))
    (hother : ∀ l, DownLine.other l ∈ ls →
      (resultOf parse (Link.lineFor framed l.bytes) : Option (ResultPos F)) = none) :
    (ls.map fun l => Link.lineFor framed (l.bytes num)).filterMap (resultOf parse) =
      (resultsOf ls).map (received q) := by
  induction ls with
  | nil => rfl
  | cons l ls ih =>
      have htail := ih (fun row hrow => hparse row (by
          rw [← List.singleton_append, resultsOf_append]
          exact List.mem_append_right _ hrow))
        fun l' hl' => hother l' (List.mem_cons_of_mem l hl')
      rw [List.map_cons, ← List.singleton_append (l := ls), resultsOf_append, List.map_append,
        ← htail]
      cases l with
      | result row =>
          have hone : (resultOf parse (Link.lineFor framed (asciiBytes (resultText num row))) :
              Option (ResultPos F)) = some (received q row) := by
            rw [resultOf, hparse row List.mem_cons_self]
            exact fromJson_resultJson q row
          rw [List.filterMap_cons]
          simp only [DownLine.bytes, hone]
          rfl
      | other l =>
          rw [List.filterMap_cons]
          simp only [DownLine.bytes, hother l List.mem_cons_self]
          rfl

/-- While the lines are short and no branch of the client's loop wins over a call that has
    taken bytes, the lines the loop returns are the first of those that the writer took,
    and the positions it gives on are of the fixes sent since the connection listens,
    without gaps: the first so many of them. When all are on their way and have arrived,
    calls enough give on every one. -/
theorem results_in_order (framed : Bool) (n : Nat) (m : Mlatd F) (es : List (Event F))
    (hproper : Along (step num solver z inflate (n + 2)) (Proper num) (Returns.start z framed m) es)
    (r : Returns F τ)
    (hr : r = exec (step num solver z inflate (n + 2)) (Returns.start z framed m) es)
    (htext : Link.Compressible num Text r.link) (parse : List UInt8 → Option Json)
    (q : Nat → F → ℚ)
    (hparse : ∀ row ∈ r.mlatd.output.sent,
      parse (Link.lineFor framed (asciiBytes (resultText num row))) =
        some (.obj [("result", resultJson q row)]))
    (hother : ∀ l, DownLine.other l ∈ r.link.taken →
      (resultOf parse (Link.lineFor framed l.bytes) : Option (ResultPos F)) = none) :
    (r.client.returned <+: r.link.taken.map fun l => Link.lineFor framed (l.bytes num)) ∧
      (∃ j, r.client.returned.filterMap (resultOf parse) =
        ((r.mlatd.output.sent.drop m.output.sent.length).take j).map (received q)) ∧
      (r.link.listener.next = r.mlatd.output.sent.length → r.link.hand = none →
        r.link.queue = [] → r.link.done = false → r.link.batch = [] →
        r.client.stream = r.link.wire → r.client.ended ≠ some .bailed →
        ∃ k, (exec (step num solver z inflate (n + 2)) r
            (List.replicate k (.client .poll))).client.returned.filterMap (resultOf parse) =
          (r.mlatd.output.sent.drop m.output.sent.length).map (received q)) := by
  have hflow : Flow num inflate whole At framed m.output.sent.length (n + 2) r := by
    rw [hr] at htext ⊢
    exact flow_run num solver z inflate whole enough Text At AtD h hroomy henough hgrows hinflate
      hnum framed n m es hproper htext
  rcases hflow.sound.carries with ⟨ps, gs, rest, hc⟩
  have hwire := hflow.stream.trans hflow.sound.wire
  rcases Link.streamLines_carried num whole At inflate AtD hgrows hinflate hnum n r.link ps gs rest
    hc r.client.stream hwire with ⟨hcarries, hspace, hlines, hall⟩
  rw [hflow.link] at hcarries hspace hlines hall
  have hprefix : r.client.returned <+:
      r.link.taken.map fun l => Link.lineFor framed (l.bytes num) := by
    refine List.IsPrefix.trans ( SelectLoop.Account.prefix _ hflow.account ?_) ?_
    · rw [hflow.down]
      exact hspace
    · rw [hflow.down]
      exact hlines
  -- The results among the lines are the first of those sent.
  have hfollows := hflow.sound.follows
  have hgot : r.link.listener.got <+: r.mlatd.output.sent.drop m.output.sent.length := by
    rw [← hflow.joined, hfollows.got]
    exact List.take_prefix _ _
  have hread : ∀ ls, ls <+: r.link.taken →
      (ls.map fun l => Link.lineFor framed (l.bytes num)).filterMap (resultOf parse) =
        (resultsOf ls).map (received q) := by
    rintro ls ⟨more, hmore⟩
    refine filterMap_lines num framed parse q ls (fun row hrow => hparse row ?_) fun l hl => ?_
    · refine List.mem_of_mem_drop (hgot.subset (hflow.sound.results.subset ?_))
      rw [← hmore, resultsOf_append]
      exact List.mem_append_left _ hrow
    · exact hother l (hmore ▸ List.mem_append_left more hl)
  refine ⟨ hprefix, ?_, ?_⟩
  · have hfirst := List.prefix_iff_eq_take.mp hprefix
    rw [← List.map_take] at hfirst
    have hsome : resultsOf (r.link.taken.take r.client.returned.length) <+:
        r.mlatd.output.sent.drop m.output.sent.length := by
      refine List.IsPrefix.trans ?_ (hflow.sound.results.trans hgot)
      conv => rhs; rw [← List.take_append_drop r.client.returned.length r.link.taken,
        resultsOf_append]
      exact List.prefix_append _ _
    refine ⟨(resultsOf (r.link.taken.take r.client.returned.length)).length, ?_⟩
    calc r.client.returned.filterMap (resultOf parse)
        = ((r.link.taken.take r.client.returned.length).map fun l =>
            Link.lineFor framed (l.bytes num)).filterMap (resultOf parse) :=
          congrArg (List.filterMap (resultOf parse)) hfirst
      _ = (resultsOf (r.link.taken.take r.client.returned.length)).map (received q) :=
          hread _ (List.take_prefix _ _)
      _ = _ := by rw [← List.prefix_iff_eq_take.mp hsome]
  · intro hnext hhand hqueue hdone hbatch hstream hbailed
    have hrest : rest = [] := by
      by_contra hne
      exact text_ne_nil rest hne (hc.batch.symm.trans hbatch)
    have hresults : resultsOf r.link.taken = r.mlatd.output.sent.drop m.output.sent.length := by
      have hwaiting := hflow.sound.waiting hdone
      rw [hqueue, hhand, List.append_nil, Option.toList_none, List.append_nil] at hwaiting
      rw [hwaiting, hfollows.got, hflow.joined]
      refine List.take_of_length_le ?_
      unfold Listener.next at hnext
      rw [hflow.joined] at hnext
      rw [List.length_drop]
      omega
    rcases SelectLoop.drain _ r.client hflow.account hbailed (by rw [hflow.down]; exact hcarries)
      with ⟨k, hk, hsame, havail, hempty⟩
    have hdown := (SelectLoop.run_framed (decodeNext inflate (n + 2)) r.client
      (List.replicate k .poll)).trans hflow.down
    refine ⟨k, ?_⟩
    rw [exec_polls]
    rw [hk.all _ (by rw [hdown, hsame]; exact hspace) havail hempty, hdown, hsame,
      hall (hstream.trans (hflow.sound.uncut hdone)) hrest, hread _ (List.prefix_refl _), hresults]

end

end

section Example

theorem plain_decimals : decimals.Plain := by
  intro k q
  have htext : decimals.fixed k q = String.ofList (fixedDecimal k q) := rfl
  rw [htext, String.toList_ofList]
  exact List.all_eq_true.mpr fun c hc => plainChar_numeral c (isNumeral_fixedDecimal k q c hc)

theorem roomy_framesWriter (ts : List (List UInt8 × List UInt8)) :
    Link.Roomy (framesWriter ts) := by
  rintro s xs room n ys ended s' hcall
  cases hcall
  exact List.length_take_le room _

/-- The payload of the fix of `Mlatd.fixRun` as a line. -/
def fixPayload : List UInt8 :=
  [0x78, 0x9c, 0x4c, 0x8b, 0x31, 0x0e, 0x83, 0x30, 0x10, 0x04, 0x7b, 0x9e, 0xb1, 0xb5, 0x85,
    0x2e, 0xc2, 0x50, 0xb8, 0xca, 0x57, 0x4e, 0x38, 0x22, 0x28, 0x27, 0x9b, 0x70, 0x76, 0x28,
    0x10, 0x7f, 0x0f, 0x58, 0x8a, 0x9c, 0x6e, 0x46, 0xb3, 0xbb, 0x63, 0x7d, 0x68, 0x96, 0x04,
    0xb7, 0xe3, 0x0e, 0x77, 0x23, 0x6a, 0x89, 0xc8, 0x80, 0xbd, 0x5f, 0xe1, 0xd0, 0x8d, 0x83,
    0xb5, 0x16, 0x06, 0xc2, 0xe7, 0xa4, 0xb4, 0xab, 0x4a, 0x0c, 0x7f, 0xc6, 0xd7, 0xbd, 0xeb,
    0x0b, 0x8f, 0x2c, 0xa2, 0xf3, 0x74, 0xe6, 0x90, 0x45, 0x0c, 0xf4, 0x9d, 0x79, 0x7b, 0xfd,
    0xec, 0xe9, 0xe3, 0x52, 0x8e, 0x06, 0x9f, 0x8a, 0xa9, 0xe2, 0x54, 0x31, 0x68, 0xe2, 0x34,
    0xc7, 0xa0, 0x70, 0xf6, 0x38, 0x9a, 0x2f, 0x00]

def fixBytes : List UInt8 :=
  asciiBytes ("\x7b\"result\":\x7b\"@\":100.000,\"addr\":\"3c6444\",\"lat\":0.00000," ++
    "\"lon\":0.00000,\"alt\":35000,\"callsign\":null,\"squawk\":null,\"hdop\":0.0," ++
    "\"vdop\":0.0,\"tdop\":0.0,\"gdop\":0.0,\"nstations\":4\x7d\x7d")

def fixFrames : List (List UInt8 × List UInt8) := [(fixPayload, fixBytes ++ [newline])]

def fixWhole : List UInt8 → Option (List UInt8) := framesWhole fixFrames

def fixDeflate : Library.Calls UInt8 UInt8 (Library.Units UInt8 UInt8) := framesWriter fixFrames

theorem flushes_fixDeflate : fixDeflate.Flushes fixWhole syncTrailer (· + 1024)
    (frameUnits fixFrames).Text (frameUnits fixFrames).WriterAt :=
  flushes_framesWriter fixFrames (by decide +kernel) (by decide +kernel)

/-- The server with the fix in front of the channel. -/
def fixServer : Mlatd ℚ :=
  Mlatd.run decimals namedSolver 1 Nat.one_pos 8 64 true false false
    (Mlatd.fixRun.take (Mlatd.fixRun.length - 3))

/-- The fix goes out in a frame, which arrives in two pieces. -/
def fixEvents : List (Event ℚ) :=
  [.server (.emit 0), .server .output, .recv, .pass, .take none, .flush none, .arrive 60,
    .client .poll, .arrive 200]

def fixReturns : Returns ℚ (Library.Units UInt8 UInt8) :=
  exec (step decimals namedSolver fixDeflate (greedy fixWhole) 2)
    (Returns.start fixDeflate true fixServer) fixEvents

/-- Reads the lines of the fixes sent. -/
def readFix (line : List UInt8) : Option Json :=
  (fixReturns.mlatd.output.sent.find? fun row => asciiBytes (resultText decimals row) = line).map
    fun row => .obj [("result", resultJson rounded row)]

/-- The fix is sent, taken and written, and everything has arrived. -/
theorem fix_arrives :
    (fixReturns.mlatd.output.sent.length = 1 ∧
      fixReturns.link.taken.map (DownLine.bytes decimals) = [fixBytes] ∧
      fixReturns.link.taken.all (fun | .other _ => false | .result _ => true) = true) ∧
    fixReturns.link.listener.next = fixReturns.mlatd.output.sent.length ∧
      fixReturns.link.hand.isNone ∧ fixReturns.link.queue.isEmpty ∧ fixReturns.link.done = false ∧
      fixReturns.link.batch = [] ∧ fixReturns.client.stream = fixReturns.link.wire ∧
      fixReturns.client.ended ≠ some .bailed := by
  decide +kernel

theorem proper_fix : Along (step decimals namedSolver fixDeflate (greedy fixWhole) 2)
    (Proper decimals) (Returns.start fixDeflate true fixServer) fixEvents := by
  refine ⟨trivial, trivial, trivial, trivial, ?_, trivial, trivial, trivial, trivial, trivial⟩
  unfold Proper
  decide +kernel

theorem compressible_fix : Link.Compressible decimals (frameUnits fixFrames).Text
    fixReturns.link := by
  intro ls hls
  rw [fix_arrives.1.2.1] at hls
  rcases List.prefix_cons_iff.mp hls with rfl | ⟨t, rfl, ht⟩
  · exact ⟨0, rfl⟩
  · rw [List.prefix_nil.mp ht]
    exact ⟨1, rfl⟩

theorem readFix_line : ∀ row ∈ fixReturns.mlatd.output.sent,
    readFix (Link.lineFor true (asciiBytes (resultText decimals row))) =
      some (.obj [("result", resultJson rounded row)]) := by
  intro row hrow
  rcases List.length_eq_one_iff.mp fix_arrives.1.1 with ⟨x, hx⟩
  rw [hx, List.mem_singleton] at hrow
  have hfind : [x].find? (fun row => decide (asciiBytes (resultText decimals row) =
      Link.lineFor true (asciiBytes (resultText decimals x)))) = some x :=
    List.find?_cons_of_pos (decide_eq_true rfl)
  rw [hrow, readFix, hx, hfind]
  rfl

theorem no_other_fix (l : ServerLine) : DownLine.other l ∉ fixReturns.link.taken :=
  fun hl => absurd (List.all_eq_true.mp fix_arrives.1.2.2 _ hl) Bool.false_ne_true

theorem results_in_order_fix :
    fixReturns.mlatd.output.sent.length = 1 ∧
      ∃ k, (exec (step decimals namedSolver fixDeflate (greedy fixWhole) 2)
          fixReturns (List.replicate k (.client .poll))).client.returned.filterMap
            (resultOf readFix) =
        (fixReturns.mlatd.output.sent.drop fixServer.output.sent.length).map (received rounded) :=
  ⟨fix_arrives.1.1,
    (results_in_order decimals namedSolver fixDeflate (greedy fixWhole) fixWhole
      (· + 1024) (frameUnits fixFrames).Text (frameUnits fixFrames).WriterAt _
      flushes_fixDeflate
      (roomy_framesWriter fixFrames) (fun _ _ => Nat.le_refl _) (grows_framesWhole _)
      (greedy_meets _ (grows_framesWhole _)) plain_decimals true 0 fixServer fixEvents proper_fix
      fixReturns rfl compressible_fix readFix rounded readFix_line
      fun l hl => absurd hl (no_other_fix l)).2.2
      fix_arrives.2.1 (Option.isNone_iff_eq_none.mp fix_arrives.2.2.1)
      (List.isEmpty_iff.mp fix_arrives.2.2.2.1) fix_arrives.2.2.2.2.1 fix_arrives.2.2.2.2.2.1
      fix_arrives.2.2.2.2.2.2.1 fix_arrives.2.2.2.2.2.2.2⟩

end Example

end Returns

end Server

end MlatBench
