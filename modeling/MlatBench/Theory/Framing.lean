import Mathlib.Data.List.Infix
import MlatBench.Core.Framing
import MlatBench.Library.Units
import MlatBench.Theory.Uplink

/-!
# Frames Read Back

What `decode_frame` gives of frames in a row, with any decompressor that meets
the contract of its calls. The loop ends when the input is taken, and a call that
takes the last of it may have filled the buffer and have more to give. A frame
that fits the first buffer always comes back whole. One that does not fit is cut
by a decompressor that takes its input at once, and the next frame begins with
what is left of it.

## Main definitions

* `frameOf`: The frame of a payload.
* `Carry`: Payloads in a row, and what each decompresses to.
* `cutAtBuffer`: What is read of them by a decompressor that takes a frame at once.
* `framesWhole`: A stream that is known frame by frame.

## Theorems

* `segments_frames`: Frames in a row are read one by one.
* `decodeFrame_small`: A frame that fits the buffer.
* `decodeFrames_greedy`: A decompressor that takes its input at once.
* `decodeFrames_iff`: When frames come back whole with every decompressor.
* `decodeFrames_append`: More frames.
* `decodeFrames_cut`: Frames of which the second does not come back whole.
-/

namespace MlatBench

namespace Framing

open Library Server

/-- The frame of a payload. -/
def frameOf (payload : List UInt8) : List UInt8 := beBytes 2 payload.length ++ payload

theorem length_frameOf (payload : List UInt8) : (frameOf payload).length = 2 + payload.length := by
  rw [frameOf, List.length_append, length_beBytes]

theorem drop_frameOf (payload : List UInt8) : (frameOf payload).drop 2 = payload :=
  List.drop_left' (length_beBytes 2 payload.length)

theorem frameLen_frameOf (payload : List UInt8) (h : payload.length < 2 ^ 16) :
    frameLen (frameOf payload) = payload.length := by
  have hbytes : frameOf payload =
      UInt8.ofNat (payload.length / 256) :: UInt8.ofNat payload.length :: payload := rfl
  rw [hbytes, frameLen, List.getD_cons_zero, List.getD_cons_succ, List.getD_cons_zero,
    UInt8.toNat_ofNat', UInt8.toNat_ofNat']
  omega

/-- What a frame holds goes to the decompressor with the trailer. -/
theorem decodeFrame_frameOf {σ : Type} (z : Calls UInt8 UInt8 σ) (fuel : Nat) (s : σ)
    (payload : List UInt8) (h : payload.length < 2 ^ 16) :
    decodeFrame z fuel s (frameOf payload) =
      inflateLoop z fuel s (payload ++ syncTrailer) [] (64 * 1024) := by
  unfold decodeFrame
  rw [if_neg (by rw [length_frameOf]; omega)]
  simp only []
  rw [if_neg (by rw [drop_frameOf, frameLen_frameOf payload h]; exact not_not.mpr rfl),
    drop_frameOf]

/-- Payloads in a row behind some input, and what each decompresses to with its
    trailer. -/
def Carry (whole : List UInt8 → Option (List UInt8)) :
    List UInt8 → List UInt8 → List (List UInt8) → List (List UInt8) → Prop
  | _, _, [], [] => True
  | taken, given, p :: ps, b :: bs =>
    p.length < 2 ^ 16 ∧ whole (taken ++ (p ++ syncTrailer)) = some (given ++ b) ∧
      Carry whole (taken ++ (p ++ syncTrailer)) (given ++ b) ps bs
  | _, _, _, _ => False

section

variable (whole : List UInt8 → Option (List UInt8))

/-- One more payload. -/
theorem Carry.concat (taken given p b : List UInt8) (ps bs : List (List UInt8))
    (h : Carry whole taken given ps bs) (hp : p.length < 2 ^ 16)
    (hout : whole (taken ++ ps.flatMap (· ++ syncTrailer) ++ (p ++ syncTrailer)) =
      some (given ++ bs.flatten ++ b)) :
    Carry whole taken given (ps ++ [p]) (bs ++ [b]) := by
  induction ps generalizing taken given bs with
  | nil =>
      cases bs with
      | nil =>
          rw [List.flatMap_nil, List.flatten_nil, List.append_nil, List.append_nil] at hout
          exact ⟨hp, hout, trivial⟩
      | cons c bs => exact h.elim
  | cons q ps ih =>
      cases bs with
      | nil => exact h.elim
      | cons c bs =>
          rcases h with ⟨hq, hc, hrest⟩
          refine ⟨hq, hc, ih _ _ bs hrest ?_⟩
          rw [List.flatMap_cons, List.flatten_cons] at hout
          simpa only [List.append_assoc] using hout

/-- The first payloads. -/
theorem Carry.take (taken given : List UInt8) (ps bs : List (List UInt8)) (k : Nat)
    (h : Carry whole taken given ps bs) :
    Carry whole taken given (ps.take k) (bs.take k) := by
  induction ps generalizing taken given bs k with
  | nil =>
      cases bs with
      | nil =>
          rw [List.take_nil]
          trivial
      | cons b bs => exact h.elim
  | cons p ps ih =>
      cases bs with
      | nil => exact h.elim
      | cons b bs =>
          cases k with
          | zero => trivial
          | succ k => exact ⟨h.1, h.2.1, ih _ _ bs k h.2.2⟩

theorem Carry.length (taken given : List UInt8) (ps bs : List (List UInt8))
    (h : Carry whole taken given ps bs) : ps.length = bs.length := by
  induction ps generalizing taken given bs with
  | nil =>
      cases bs with
      | nil => rfl
      | cons b bs => exact h.elim
  | cons p ps ih =>
      cases bs with
      | nil => exact h.elim
      | cons b bs => rw [List.length_cons, List.length_cons, ih _ _ bs h.2.2]

theorem Carry.payload (taken given : List UInt8) (ps bs : List (List UInt8))
    (h : Carry whole taken given ps bs) : ∀ p ∈ ps, p.length < 2 ^ 16 := by
  induction ps generalizing taken given bs with
  | nil => exact fun p hp => absurd hp List.not_mem_nil
  | cons q ps ih =>
      cases bs with
      | nil => exact h.elim
      | cons b bs =>
          intro p hp
          rcases List.mem_cons.mp hp with rfl | hp
          · exact h.1
          · exact ih _ _ bs h.2.2 p hp

end

/-- Frames in a row are read one by one. -/
theorem segments_frames (ps : List (List UInt8)) (h : ∀ p ∈ ps, p.length < 2 ^ 16) :
    segments (complete true) (ps.map frameOf).flatten = ps.map frameOf := by
  induction ps with
  | nil => rfl
  | cons p ps ih =>
      have hlen : (frameOf p).length = 2 + frameLen (frameOf p) := by
        rw [frameLen_frameOf p (h p List.mem_cons_self), length_frameOf]
      have hunit : cut (complete true) [] (frameOf p) = ([frameOf p], []) := by
        refine cut_unit (complete true) [] (frameOf p) ?_ ?_ ?_
        · rw [← List.length_pos_iff]
          omega
        · rw [List.nil_append, complete_framed]
          omega
        · rintro ys - ⟨zs, hzs⟩ hys
          -- A proper part of a frame is not complete.
          refine complete_framed_part ys zs (fun _ => ?_) ?_
          · rw [hzs]
            exact Nat.le_of_eq hlen
          · rintro rfl
            exact hys ((List.append_nil ys).symm.trans hzs)
      have hrest := ih fun q hq => h q (List.mem_cons_of_mem p hq)
      unfold segments at hrest ⊢
      rw [List.map_cons, List.flatten_cons, cut_append, hunit, hrest]
      rfl

/-- Frames that come behind others leave the lines before them as they are. -/
theorem decodeFrames_append {σ : Type} (inflate : Calls UInt8 UInt8 σ) (fuel : Nat) (s : σ)
    (fs gs : List (List UInt8)) :
    decodeFrames inflate fuel s fs <+: decodeFrames inflate fuel s (fs ++ gs) := by
  induction fs generalizing s with
  | nil => exact List.nil_prefix
  | cons f fs ih =>
      rw [List.cons_append, decodeFrames, decodeFrames]
      cases decodeFrame inflate fuel s f with
      | ok bytes s' =>
          simp only [List.cons_prefix_cons, true_and]
          exact ih s'
      | error e => exact List.prefix_refl _
      | running => exact List.prefix_refl _

/-- A prefix that is no shorter is the whole. -/
theorem eq_of_append_prefix (given ys b : List UInt8) (h : given ++ ys <+: given ++ b)
    (hlen : b.length ≤ ys.length) : ys = b :=
  ((List.prefix_append_right_inj given).mp h).eq_of_length_le hlen

section

variable {σ : Type} (z : Calls UInt8 UInt8 σ) (whole : List UInt8 → Option (List UInt8))
  (At : σ → List UInt8 → List UInt8 → Prop)

/-- When everything is given and input is left, one more call takes it. -/
theorem inflateLoop_rest (h : z.Meets whole At) (hgrows : Grows whole) (s : σ)
    (taken given rest b : List UInt8) (len fuel : Nat) (hlen : b.length < len)
    (hs : At s taken (given ++ b)) (hout : whole (taken ++ rest) = some (given ++ b)) :
    ∃ s', inflateLoop z (fuel + 1) s rest b len = .ok b s' ∧
      At s' (taken ++ rest) (given ++ b) := by
  rcases h.call s taken (given ++ b) rest (len - b.length) (given ++ b) hs hout with
    ⟨n, ys, ended, s', hcall, _, hroom, ⟨rfl, hall, hs'⟩ | ⟨rfl, hs', hleft⟩⟩
  · have hnone : ys = [] := List.append_right_eq_self.mp hall
    subst hnone
    refine ⟨s', ?_, hs'⟩
    rw [inflateLoop, hcall]
    simp only [if_true, List.append_nil]
  · have hnone : ys = [] := by
      have hpre := h.prefix hgrows s' (taken ++ rest.take n) (rest.drop n) _ (given ++ b) hs' (by
        rw [List.append_assoc, List.take_append_drop, hout])
      refine List.append_right_eq_self.mp (hpre.eq_of_length_le ?_)
      have hlen : ((given ++ b) ++ ys).length = (given ++ b).length + ys.length :=
        List.length_append
      omega
    subst hnone
    have hn := (hleft (by rw [List.length_nil]; omega)).1
    rw [hn, List.take_length, List.append_nil] at hs'
    refine ⟨s', ?_, hs'⟩
    rw [inflateLoop, hcall]
    simp only [Bool.false_eq_true, if_false, List.append_nil]
    rw [if_pos (by rw [hn, List.drop_length])]

/-- A frame that fits the buffer comes back whole. -/
theorem decodeFrame_small (h : z.Meets whole At) (hgrows : Grows whole) (s : σ)
    (taken given p b : List UInt8) (fuel : Nat) (hs : At s taken given) (hp : p.length < 2 ^ 16)
    (hout : whole (taken ++ (p ++ syncTrailer)) = some (given ++ b))
    (hb : b.length ≤ 64 * 1024) :
    ∃ s', decodeFrame z (fuel + 2) s (frameOf p) = .ok b s' ∧
      At s' (taken ++ (p ++ syncTrailer)) (given ++ b) := by
  rw [decodeFrame_frameOf z (fuel + 2) s p hp]
  rcases h.call s taken given (p ++ syncTrailer) (64 * 1024) (given ++ b) hs hout with
    ⟨n, ys, ended, s', hcall, hn, hroom, ⟨rfl, hall, hs'⟩ | ⟨rfl, hs', hleft⟩⟩
  · obtain rfl : ys = b := List.append_cancel_left hall
    refine ⟨s', ?_, hs'⟩
    rw [inflateLoop, List.length_nil, Nat.sub_zero, hcall]
    simp only [if_true, List.nil_append]
  · -- With room left everything is given; without, it is as long as the frame.
    obtain rfl : ys = b := by
      by_cases hfull : ys.length < 64 * 1024
      · exact List.append_cancel_left (hleft hfull).2
      · have hpre := h.prefix hgrows s' (taken ++ (p ++ syncTrailer).take n)
          ((p ++ syncTrailer).drop n) _ (given ++ b) hs' (by
            rw [List.append_assoc, List.take_append_drop, hout])
        exact eq_of_append_prefix given ys b hpre (by omega)
    by_cases hrest : (p ++ syncTrailer).drop n = []
    · have htake : (p ++ syncTrailer).take n = p ++ syncTrailer := by
        conv => rhs; rw [← List.take_append_drop n (p ++ syncTrailer), hrest, List.append_nil]
      rw [htake] at hs'
      refine ⟨s', ?_, hs'⟩
      rw [inflateLoop, List.length_nil, Nat.sub_zero, hcall]
      simp only [Bool.false_eq_true, if_false, List.nil_append, if_pos hrest]
    · rcases inflateLoop_rest z whole At h hgrows s' (taken ++ (p ++ syncTrailer).take n) given
        ((p ++ syncTrailer).drop n) ys (64 * 1024 + 64 * 1024) fuel (by omega) hs' (by
          rw [List.append_assoc, List.take_append_drop, hout]) with ⟨s'', hloop, hs''⟩
      rw [List.append_assoc, List.take_append_drop] at hs''
      refine ⟨s'', ?_, hs''⟩
      rw [inflateLoop, List.length_nil, Nat.sub_zero, hcall]
      simp only [Bool.false_eq_true, if_false, List.nil_append, if_neg hrest]
      exact hloop

/-- Frames that fit the buffer come back whole. -/
theorem decodeFrames_small (h : z.Meets whole At) (hgrows : Grows whole) (s : σ)
    (taken given : List UInt8) (ps bs : List (List UInt8)) (fuel : Nat) (hs : At s taken given)
    (hcarry : Carry whole taken given ps bs) (hbs : ∀ b ∈ bs, b.length ≤ 64 * 1024) :
    decodeFrames z (fuel + 2) s (ps.map frameOf) = bs.map some := by
  induction ps generalizing s taken given bs with
  | nil =>
      cases bs with
      | nil => rfl
      | cons b bs => exact hcarry.elim
  | cons p ps ih =>
      cases bs with
      | nil => exact hcarry.elim
      | cons b bs =>
          rcases hcarry with ⟨hp, hout, hrest⟩
          rcases decodeFrame_small z whole At h hgrows s taken given p b fuel hs hp hout
            (hbs b List.mem_cons_self) with ⟨s', hframe, hs'⟩
          rw [List.map_cons, decodeFrames, hframe]
          simp only [List.map_cons]
          rw [ih s' _ _ bs hs' hrest fun b' hb' => hbs b' (List.mem_cons_of_mem b hb')]

end

variable (whole : List UInt8 → Option (List UInt8))

/-- A decompressor that takes its input at once gives what fits the buffer. -/
theorem decodeFrame_greedy (taken given p b : List UInt8) (fuel : Nat) (hp : p.length < 2 ^ 16)
    (hout : whole (taken ++ (p ++ syncTrailer)) = some (given ++ b)) :
    decodeFrame (greedy whole) (fuel + 1) (taken, given) (frameOf p) =
      .ok (b.take (64 * 1024)) (taken ++ (p ++ syncTrailer), given ++ b.take (64 * 1024)) := by
  have hcall := greedy_call whole taken (p ++ syncTrailer) given (given ++ b) (64 * 1024) hout
  rw [List.drop_left] at hcall
  rw [decodeFrame_frameOf _ _ _ p hp, inflateLoop, List.length_nil, Nat.sub_zero, hcall]
  simp only [Bool.false_eq_true, if_false, List.nil_append, List.drop_length, if_true]

/-- What a decompressor gives that takes a frame at once: the first of what is due,
    and the rest in front of what the next frame holds. -/
def cutAtBuffer (due : List UInt8) : List (List UInt8) → List (List UInt8)
  | [] => []
  | b :: bs =>
    (due ++ b).take (64 * 1024) :: cutAtBuffer ((due ++ b).drop (64 * 1024)) bs

theorem decodeFrames_greedy (taken given due : List UInt8) (ps bs : List (List UInt8))
    (fuel : Nat) (hcarry : Carry whole taken (given ++ due) ps bs) :
    decodeFrames (greedy whole) (fuel + 1) (taken, given) (ps.map frameOf) =
      (cutAtBuffer due bs).map some := by
  induction ps generalizing taken given due bs with
  | nil =>
      cases bs with
      | nil => rfl
      | cons b bs => exact hcarry.elim
  | cons p ps ih =>
      cases bs with
      | nil => exact hcarry.elim
      | cons b bs =>
          rcases hcarry with ⟨hp, hout, hrest⟩
          rw [List.append_assoc] at hout hrest
          -- What was not given is due behind what was.
          have hleft : given ++ (due ++ b) = given ++ (due ++ b).take (64 * 1024) ++
              (due ++ b).drop (64 * 1024) := by
            rw [List.append_assoc, List.take_append_drop]
          rw [hleft] at hrest
          rw [List.map_cons, decodeFrames,
            decodeFrame_greedy whole taken given p (due ++ b) fuel hp hout]
          simp only [cutAtBuffer, List.map_cons]
          rw [ih _ _ _ bs hrest]

/-- Frames are given whole only if each fits the buffer. -/
theorem cutAtBuffer_eq (bs : List (List UInt8)) (h : cutAtBuffer [] bs = bs) :
    ∀ b ∈ bs, b.length ≤ 64 * 1024 := by
  induction bs with
  | nil => exact fun b hb => absurd hb List.not_mem_nil
  | cons b bs ih =>
      rw [cutAtBuffer, List.nil_append, List.cons.injEq] at h
      have hb : b.length ≤ 64 * 1024 := by
        have hlen := congrArg List.length h.1
        rw [List.length_take] at hlen
        omega
      rw [List.drop_eq_nil_of_le hb] at h
      intro b' hb'
      rcases List.mem_cons.mp hb' with rfl | hb'
      · exact hb
      · exact ih h.2 b' hb'

/-- Frames in a row come back whole with every decompressor that meets the
    contract just when each fits the first buffer. -/
theorem decodeFrames_iff (hgrows : Grows whole) (ps bs : List (List UInt8))
    (hcarry : Carry whole [] [] ps bs) :
    (∀ (σ : Type) (z : Calls UInt8 UInt8 σ) (At : σ → List UInt8 → List UInt8 → Prop),
      z.Meets whole At → ∃ fuel, ∀ n, fuel ≤ n →
        decodeFrames z n z.start (ps.map frameOf) = bs.map some) ↔
    ∀ b ∈ bs, b.length ≤ 64 * 1024 := by
  constructor
  · intro hall
    rcases hall _ (greedy whole) _ (greedy_meets whole hgrows) with ⟨fuel, hfuel⟩
    have hgreedy := decodeFrames_greedy whole [] [] [] ps bs fuel hcarry
    refine cutAtBuffer_eq bs (List.map_injective_iff.mpr (fun _ _ => Option.some.inj) ?_)
    exact hgreedy.symm.trans (hfuel (fuel + 1) (Nat.le_succ fuel))
  · intro hbs σ z At h
    refine ⟨2, fun n hn => ?_⟩
    obtain ⟨m, rfl⟩ := Nat.exists_eq_add_of_le' hn
    exact decodeFrames_small z whole At h hgrows z.start [] [] ps bs m h.start hcarry hbs

/-- Payloads and what they come to, as units of a stream. -/
def frameUnits (ts : List (List UInt8 × List UInt8)) : Units UInt8 UInt8 :=
  ts.map fun t => (t.1 ++ syncTrailer, t.2)

/-- What the beginnings of a stream of frames come to. -/
def framesWhole (ts : List (List UInt8 × List UInt8)) : List UInt8 → Option (List UInt8) :=
  (frameUnits ts).whole

theorem unit_ne_nil (ts : List (List UInt8 × List UInt8)) : ∀ u ∈ frameUnits ts, u.1 ≠ [] := by
  intro u hu
  rcases List.mem_map.mp hu with ⟨t, _, rfl⟩
  exact List.append_ne_nil_of_right_ne_nil _ (by decide)

theorem grows_framesWhole (ts : List (List UInt8 × List UInt8)) : Grows (framesWhole ts) :=
  Units.grows_whole (frameUnits ts) (unit_ne_nil ts)

theorem carry_framesWhole (ts : List (List UInt8 × List UInt8))
    (h : ∀ t ∈ ts, t.1.length < 2 ^ 16) :
    Carry (framesWhole ts) [] [] (ts.map Prod.fst) (ts.map Prod.snd) := by
  -- Frame by frame, behind those that were read.
  suffices hbehind : ∀ done rest, ts = done ++ rest →
      Carry (framesWhole ts) (frameUnits done).coded (frameUnits done).plain (rest.map Prod.fst)
        (rest.map Prod.snd) from hbehind [] ts rfl
  intro done rest hts
  induction rest generalizing done with
  | nil => trivial
  | cons t rest ih =>
      have hnext : frameUnits (done ++ [t]) = frameUnits done ++ [(t.1 ++ syncTrailer, t.2)] :=
        List.map_append
      have hcoded : (frameUnits (done ++ [t])).coded =
          (frameUnits done).coded ++ (t.1 ++ syncTrailer) := by
        rw [hnext, Units.coded_append, Units.coded_singleton]
      have hplain : (frameUnits (done ++ [t])).plain = (frameUnits done).plain ++ t.2 := by
        rw [hnext, Units.plain_append, Units.plain_singleton]
      have hsplit : ts = (done ++ [t]) ++ rest := by
        rw [hts, List.append_assoc]
        rfl
      have hread := Units.whole_append (frameUnits (done ++ [t])) (frameUnits rest) []
      rw [Units.grows_whole _ (unit_ne_nil rest) |>.nil, List.append_nil, Option.map_some,
        List.append_nil, hcoded, hplain] at hread
      refine ⟨h t (by rw [hts]; exact List.mem_append_right _ List.mem_cons_self), ?_, ?_⟩
      · rw [hsplit]
        exact (congrArg (fun us => Units.whole us _) List.map_append).trans hread
      · rw [← hcoded, ← hplain]
        exact ih (done ++ [t]) hsplit

/-- The payload of two braces on a line. -/
def bracesPayload : List UInt8 := [0x78, 0x9c, 0xaa, 0xae, 0xe5, 0x02, 0x00]

def bracesLine : List UInt8 := [0x7b, 0x7d, newline]

/-- The payload of one line of seventy thousand bytes behind them. -/
def longPayload : List UInt8 :=
  [0xec, 0xc1, 0x21, 0x01, 0x00, 0x00, 0x00, 0x02, 0xa0, 0xee, 0x4b, 0xff, 0x9f, 0xf0, 0x84, 0x11,
    0x28] ++ List.replicate 67 0x00 ++ [0xf0, 0x96, 0x01]

def longLine : List UInt8 := List.replicate 69999 0x61 ++ [newline]

def longFrames : List (List UInt8 × List UInt8) :=
  [(bracesPayload, bracesLine), (longPayload, longLine)]

/-- The long line is cut by a decompressor that takes its frame at once. -/
theorem decodeFrames_cut :
    ¬ ∀ (σ : Type) (z : Calls UInt8 UInt8 σ) (At : σ → List UInt8 → List UInt8 → Prop),
      z.Meets (framesWhole longFrames) At → ∃ fuel, ∀ n, fuel ≤ n →
        decodeFrames z n z.start [frameOf bracesPayload, frameOf longPayload] =
          [some bracesLine, some longLine] := by
  intro hall
  rcases hall _ (greedy (framesWhole longFrames)) _
    (greedy_meets _ (grows_framesWhole longFrames)) with ⟨fuel, hfuel⟩
  have hcut := decodeFrames_greedy (framesWhole longFrames) [] [] []
    [bracesPayload, longPayload] [bracesLine, longLine] fuel
    (carry_framesWhole longFrames (by decide))
  have hsame := hcut.symm.trans (hfuel (fuel + 1) (Nat.le_succ fuel))
  have hsmall := cutAtBuffer_eq [bracesLine, longLine]
    (List.map_injective_iff.mpr (fun _ _ => Option.some.inj) hsame) longLine (by simp)
  rw [longLine, List.length_append, List.length_replicate] at hsmall
  exact absurd hsmall (by decide)

/-- Two braces come back whole. -/
theorem decodeFrames_iff_braces : ∃ fuel, ∀ n, fuel ≤ n →
    decodeFrames (greedy (framesWhole [(bracesPayload, bracesLine)])) n ([], [])
      [frameOf bracesPayload] = [some bracesLine] :=
  (decodeFrames_iff (framesWhole [(bracesPayload, bracesLine)]) (grows_framesWhole _)
    [bracesPayload] [bracesLine]
    (carry_framesWhole [(bracesPayload, bracesLine)] (by decide))).mpr (by decide) _
    (greedy (framesWhole [(bracesPayload, bracesLine)])) _ (greedy_meets _ (grows_framesWhole _))

end Framing

end MlatBench
