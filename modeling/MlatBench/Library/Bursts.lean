import MlatBench.Library.Lfsr
import Mathlib.Data.List.Basic

/-!
# Bursts Of Errors

A shift register fed bit by bit. Bits that are not more than the register is wide
are the same as a word added at its top before the shifts, with the first bit on
top (`foldl_feedBit`), so they leave something if one of them is set. What comes
before a burst and behind it are only shifts, and no shift loses anything.

## Main definitions

* `topBit`, `feedBit`: One bit added at the top, then one shift.
* `place`: Bits as a word, the first on top.
* `wordBits`: The bits of a word, the first from the top.
* `InWindow`: Bits that are set only within a window.

## Theorems

* `inWindow_iff`: Nothing before the window and nothing behind it.
* `feed_xor`, `foldl_feed_xor`: Feeding is linear.
* `foldl_feedBit`: A few bits are a word.
* `feed_eq_foldl`: A byte is eight bits.
* `foldl_feedBit_ne_zero`: A burst leaves something.
-/

namespace MlatBench

namespace Library

/-- A bit at the top of a word. -/
def topBit (w : Nat) (b : Bool) : BitVec w :=
  if b then BitVec.twoPow w (w - 1) else 0#w

/-- One bit added at the top of the register, then one shift. -/
def feedBit {w : Nat} (g c : BitVec w) (b : Bool) : BitVec w :=
  lfsr g (c ^^^ topBit w b)

/-- Bits as a word, the first on top. -/
def place (w : Nat) : List Bool → BitVec w
  | [] => 0#w
  | b :: bs => topBit w b ^^^ (place w bs >>> 1)

/-- The bits of a word, the first from the top. -/
def wordBits {n : Nat} (x : BitVec n) : List Bool :=
  (List.range n).map x.getMsbD

/-- Bits that are set only within a window. -/
def InWindow (bits : List Bool) (start width : Nat) : Prop :=
  ∀ i, bits[i]? = some true → start ≤ i ∧ i < start + width

/-- No bit is set before the window, and none behind it. -/
theorem inWindow_iff (bits : List Bool) (start width : Nat) :
    InWindow bits start width ↔ true ∉ bits.take start ∧ true ∉ bits.drop (start + width) := by
  constructor
  · intro hin
    constructor
    · intro hmem
      rcases List.mem_iff_getElem?.mp hmem with ⟨i, hi⟩
      rw [List.getElem?_take] at hi
      split_ifs at hi with hlt
      exact absurd (hin i hi).1 (by omega)
    · intro hmem
      rcases List.mem_iff_getElem?.mp hmem with ⟨i, hi⟩
      rw [List.getElem?_drop] at hi
      exact absurd (hin _ hi).2 (by omega)
  · rintro ⟨hbefore, hbehind⟩ i hi
    constructor
    · by_contra hlt
      refine hbefore (List.mem_iff_getElem?.mpr ⟨i, ?_⟩)
      rw [List.getElem?_take, if_pos (by omega), hi]
    · by_contra hge
      refine hbehind (List.mem_iff_getElem?.mpr ⟨i - (start + width), ?_⟩)
      rw [List.getElem?_drop, ← hi]
      congr 1
      omega

instance (bits : List Bool) (start width : Nat) : Decidable (InWindow bits start width) :=
  decidable_of_iff _ (inWindow_iff bits start width).symm

theorem feed_xor {w : Nat} (g c c' : BitVec w) (b b' : BitVec 8) :
    feed g (c ^^^ c') (b ^^^ b') = feed g c b ^^^ feed g c' b' := by
  unfold feed
  rw [← iterate_lfsr_xor, BitVec.setWidth_xor, BitVec.shiftLeft_xor_distrib]
  congr 1
  ac_rfl

/-- Two messages of one length are fed side by side. -/
theorem foldl_feed_xor {w : Nat} (g : BitVec w) (bs bs' : List (BitVec 8))
    (h : bs.length = bs'.length) (c c' : BitVec w) :
    (List.zipWith (· ^^^ ·) bs bs').foldl (feed g) (c ^^^ c') =
      bs.foldl (feed g) c ^^^ bs'.foldl (feed g) c' := by
  induction bs generalizing bs' c c' with
  | nil =>
      rw [List.eq_nil_of_length_eq_zero h.symm]
      rfl
  | cons b bs ih =>
      cases bs' with
      | nil => exact absurd h (Nat.succ_ne_zero _)
      | cons b' bs' =>
          rw [List.zipWith_cons_cons, List.foldl_cons, List.foldl_cons, List.foldl_cons, feed_xor,
            ih bs' (Nat.succ.inj h)]

/-- A word that is not zero has a bit set. -/
theorem true_mem_wordBits {n : Nat} (x : BitVec n) (h : x ≠ 0#n) : true ∈ wordBits x := by
  by_contra hclear
  refine h (BitVec.eq_of_getMsbD_eq fun i hi => ?_)
  rw [BitVec.getMsbD_zero]
  cases hbit : x.getMsbD i with
  | false => rfl
  | true => exact absurd (List.mem_map.mpr ⟨i, List.mem_range.mpr hi, hbit⟩) hclear

theorem getMsbD_topBit (w : Nat) (b : Bool) (i : Nat) (hi : i < w) :
    (topBit w b).getMsbD i = (decide (i = 0) && b) := by
  unfold topBit
  cases b with
  | false => rw [if_neg Bool.false_ne_true, BitVec.getMsbD_zero, Bool.and_false]
  | true =>
      have htop : w - (w - 1) - 1 = 0 := by omega
      rw [if_pos rfl, BitVec.getMsbD_twoPow, htop, decide_eq_true (show w - 1 < w by omega),
        Bool.true_and, Bool.and_true]

/-- Counted from the top, the word has the bits that were placed. -/
theorem getMsbD_place (w : Nat) (bs : List Bool) (i : Nat) (hi : i < w) :
    (place w bs).getMsbD i = bs.getD i false := by
  induction bs generalizing i with
  | nil => rw [place, BitVec.getMsbD_zero, List.getD_nil]
  | cons b bs ih =>
      rw [place, BitVec.getMsbD_xor, BitVec.getMsbD_ushiftRight, getMsbD_topBit w b i hi,
        decide_eq_true hi, Bool.true_and]
      cases i with
      | zero => cases b <;> rfl
      | succ i =>
          rw [Nat.add_sub_cancel, ih i (by omega), List.getD_cons_succ]
          simp only [Nat.succ_ne_zero, decide_false, Bool.false_and, Bool.false_xor,
            show ¬ i + 1 < 1 by omega, Bool.not_false, Bool.true_and]

/-- A word whose lowest bit is clear comes back when it is moved down and shifted. -/
theorem lfsr_ushiftRight {w : Nat} (g x : BitVec w) (h : x.getLsbD 0 = false) :
    lfsr g (x >>> 1) = x := by
  have hmsb : (x >>> 1).msb = false := by
    rw [BitVec.msb_eq_getMsbD_zero, BitVec.getMsbD_ushiftRight, decide_eq_true Nat.one_pos,
      Bool.not_true, Bool.false_and, Bool.and_false]
  -- Moved down its top is clear, so the shift only moves it up again.
  rw [lfsr_eq_shiftLeft g _ hmsb]
  refine BitVec.eq_of_getLsbD_eq fun i hi => ?_
  rw [BitVec.getLsbD_shiftLeft, BitVec.getLsbD_ushiftRight]
  cases i with
  | zero =>
      rw [h, decide_eq_true Nat.one_pos, Bool.not_true, Bool.and_false, Bool.false_and]
  | succ i =>
      rw [Nat.add_sub_cancel, Nat.add_comm 1 i]
      simp only [hi, decide_true, Bool.true_and, show ¬ i + 1 < 1 by omega, decide_false,
        Bool.not_false]

/-- Bits that are not more than the register is wide are a word added at the top
    before the shifts. -/
theorem foldl_feedBit {w : Nat} (g : BitVec w) (bs : List Bool) (c : BitVec w)
    (h : bs.length ≤ w) : bs.foldl (feedBit g) c = (lfsr g)^[bs.length] (c ^^^ place w bs) := by
  induction bs generalizing c with
  | nil =>
      rw [List.foldl_nil, List.length_nil, place, BitVec.xor_zero]
      rfl
  | cons b bs ih =>
      rw [List.length_cons] at h
      rw [List.foldl_cons, ih _ (by omega), List.length_cons, Function.iterate_succ_apply, place,
        feedBit, ← BitVec.xor_assoc, lfsr_xor g (c ^^^ topBit w b)]
      -- The rest is shorter than the register, so its lowest bit is clear.
      have hlow : (place w bs).getLsbD 0 = false := by
        have hlast := getMsbD_place w bs (w - 1) (by omega)
        rw [BitVec.getMsbD_eq_getLsbD, decide_eq_true (show w - 1 < w by omega), Bool.true_and,
          Nat.sub_self, List.getD_eq_getElem?_getD, List.getElem?_eq_none (by omega)] at hlast
        exact hlast
      rw [lfsr_ushiftRight g _ hlow]

/-- Of a word that is not too wide for the register, the bits are the word. -/
theorem place_wordBits {w n : Nat} (x : BitVec n) (h : n ≤ w) :
    place w (wordBits x) = x.setWidth w <<< (w - n) := by
  refine BitVec.eq_of_getMsbD_eq fun i hi => ?_
  rw [getMsbD_place w _ i hi, BitVec.getMsbD_shiftLeft, BitVec.getMsbD_setWidth]
  unfold wordBits
  by_cases hin : i < n
  · rw [List.getD_eq_getElem?_getD, List.getElem?_map, List.getElem?_range hin, Option.map_some,
      Option.getD_some, decide_eq_true (by omega), Bool.true_and]
    congr 1
    omega
  · rw [List.getD_eq_getElem?_getD,
      List.getElem?_eq_none (by rw [List.length_map, List.length_range]; omega),
      BitVec.getMsbD_of_ge x _ (by omega), Bool.and_false]
    rfl

/-- A byte is fed bit by bit. -/
theorem feed_eq_foldl {w : Nat} (g c : BitVec w) (b : BitVec 8) (h : 8 ≤ w) :
    feed g c b = (wordBits b).foldl (feedBit g) c := by
  have hlen : (wordBits b).length = 8 := by rw [wordBits, List.length_map, List.length_range]
  rw [foldl_feedBit g _ c (by omega), hlen, place_wordBits b h]
  rfl

theorem foldl_feed {w : Nat} (g : BitVec w) (h : 8 ≤ w) (bytes : List (BitVec 8)) (c : BitVec w) :
    bytes.foldl (feed g) c = (bytes.flatMap wordBits).foldl (feedBit g) c := by
  induction bytes generalizing c with
  | nil => rfl
  | cons b bytes ih =>
      rw [List.foldl_cons, ih, List.flatMap_cons, List.foldl_append, feed_eq_foldl g c b h]

/-- Clear bits only shift. -/
theorem foldl_feedBit_clear {w : Nat} (g : BitVec w) (bs : List Bool) (c : BitVec w)
    (h : true ∉ bs) : bs.foldl (feedBit g) c = (lfsr g)^[bs.length] c := by
  induction bs generalizing c with
  | nil => rfl
  | cons b bs ih =>
      cases b with
      | true => exact absurd List.mem_cons_self h
      | false =>
          rw [List.foldl_cons, ih _ fun hmem => h (List.mem_cons_of_mem _ hmem), List.length_cons,
            Function.iterate_succ_apply, feedBit, topBit, if_neg Bool.false_ne_true,
            BitVec.xor_zero]

theorem iterate_lfsr_zero {w : Nat} (g : BitVec w) (n : Nat) : (lfsr g)^[n] 0#w = 0#w := by
  induction n with
  | zero => rfl
  | succ n ih => rw [Function.iterate_succ_apply, lfsr_zero, ih]

/-- A burst leaves something: it is a word with a bit set, and shifts before it and
    behind it. -/
theorem foldl_feedBit_ne_zero {w : Nat} (g : BitVec w) (hg : g.getLsbD 0 = true) (bits : List Bool)
    (start : Nat) (hset : true ∈ bits) (hin : InWindow bits start w) :
    bits.foldl (feedBit g) 0#w ≠ 0#w := by
  have hsplit : bits = bits.take start ++ ((bits.drop start).take w ++ bits.drop (start + w)) := by
    rw [← List.drop_drop, List.take_append_drop, List.take_append_drop]
  rcases (inWindow_iff bits start w).mp hin with ⟨hbefore, hbehind⟩
  have hinside : true ∈ (bits.drop start).take w := by
    rw [hsplit, List.mem_append, List.mem_append] at hset
    exact (hset.resolve_left hbefore).resolve_right hbehind
  have hlen : ((bits.drop start).take w).length ≤ w := List.length_take_le _ _
  -- A bit that is set is set in the word.
  have hword : place w ((bits.drop start).take w) ≠ 0#w := by
    intro hzero
    rcases List.mem_iff_getElem?.mp hinside with ⟨i, hi⟩
    have hlt : i < w := lt_of_lt_of_le (List.getElem?_eq_some_iff.mp hi).1 hlen
    have hbit := getMsbD_place w ((bits.drop start).take w) i hlt
    rw [hzero, BitVec.getMsbD_zero, List.getD_eq_getElem?_getD, hi] at hbit
    exact absurd hbit Bool.false_ne_true
  -- The clear bits before find the register empty, and those behind lose nothing.
  rw [hsplit, List.foldl_append, List.foldl_append, foldl_feedBit_clear g _ _ hbefore,
    iterate_lfsr_zero, foldl_feedBit g _ _ hlen, BitVec.zero_xor, foldl_feedBit_clear g _ _ hbehind]
  exact fun hzero => hword ((iterate_lfsr_eq_zero_iff g hg _ _).mp
    ((iterate_lfsr_eq_zero_iff g hg _ _).mp hzero))

end Library

end MlatBench
