import Mathlib.Algebra.Group.Nat.Defs
import Mathlib.Data.Nat.Basic
import Mathlib.Data.List.Basic

/-!
# Hexadecimal Text

Numbers and byte strings written in base sixteen and read back. Digits are
written in lower case and read in either, numbers may be padded with leading
zeros, and bytes take two digits each.

Reading is a left fold that gives up at the first character that is not a
digit, so the reader of a concatenation is the reader of the second part
started from the value of the first (`readDigits_append`). The round trip for
numbers is an induction on the quotient by sixteen, the one for bytes an
induction on the list.

## Main definitions

* `hexVal`: The value of one digit.
* `readDigits`: Digits read onto an accumulator.
* `padHex`, `padHexUpper`: A number padded with zeros to a width, in either case.
* `readHex`: A number read from text, with an optional plus sign.
* `plainDigits`: The digits without a sign, leading zeros and case.
* `hexByte`: The two digits of a byte.
* `hexEncode`: The digits of a byte string.
* `hexDecode`: Bytes read from an even number of digits.

## Theorems

* `hexVal_digitChar`: A written digit reads back as its value.
* `readDigits_append`: Reading a concatenation.
* `readDigits_zeros`: Leading zeros do not count.
* `readDigits_toDigits`: A written number reads back.
* `mem_toDigits`, `mem_padHex`: A written number consists of digits.
* `readHex_padHex`: A padded number reads back.
* `padHex_injective`: Distinct numbers have distinct texts.
* `plainDigits_eq`: The plain digits are those of the number.
* `readHex_eq_iff`: Texts of the same number.
* `length_padHex`: A number that fits has the width it is padded to.
* `toUpper_padHex_injective`: Distinct numbers have distinct texts in upper case.
* `map_toLower_padHex`: A padded number is in lower case.
* `hexDecode_hexEncode`: A written byte string reads back.
-/

namespace MlatBench

namespace Library

/-- The value of a digit of either case. -/
def hexVal (c : Char) : Option Nat :=
  if '0' ≤ c ∧ c ≤ '9' then some (c.toNat - '0'.toNat)
  else if 'a' ≤ c ∧ c ≤ 'f' then some (c.toNat - 'a'.toNat + 10)
  else if 'A' ≤ c ∧ c ≤ 'F' then some (c.toNat - 'A'.toNat + 10)
  else none

/-- Digits read onto an accumulator; the first foreign character ends it. -/
def readDigits (acc : Nat) : List Char → Option Nat
  | [] => some acc
  | c :: cs =>
    match hexVal c with
    | none => none
    | some v => readDigits (acc * 16 + v) cs

/-- A number in lower case, padded with leading zeros to a width. -/
def padHex (width n : Nat) : String :=
  String.ofList ((Nat.toDigits 16 n).leftpad width '0')

/-- The same in upper case. -/
def padHexUpper (width n : Nat) : String :=
  String.ofList ((padHex width n).toList.map Char.toUpper)

/-- A number read from text. One leading plus sign is allowed, an empty digit
    string is not. -/
def readHex (s : String) : Option Nat :=
  match s.toList with
  | [] => none
  | ['+'] => none
  | '+' :: cs => readDigits 0 cs
  | cs => readDigits 0 cs

/-- The digits of a number, after a sign. -/
def unsigned (cs : List Char) : List Char :=
  if cs.head? = some '+' then cs.tail else cs

/-- The digits that make a number what it is: no sign, no leading zeros, and in
    lower case. -/
def plainDigits (cs : List Char) : List Char :=
  ((unsigned cs).dropWhile (· = '0')).map Char.toLower

theorem hexVal_digitChar : ∀ d, d < 16 → hexVal (Nat.digitChar d) = some d := by
  decide

theorem digitChar_ne_plus : ∀ d, d < 16 → Nat.digitChar d ≠ '+' := by
  decide

theorem readDigits_append (xs : List Char) : ∀ (acc v : Nat) (ys : List Char),
    readDigits acc xs = some v → readDigits acc (xs ++ ys) = readDigits v ys := by
  induction xs with
  | nil =>
      intro acc v ys h
      simp only [readDigits, Option.some.injEq] at h
      rw [h, List.nil_append]
  | cons c cs ih =>
      intro acc v ys h
      rw [List.cons_append]
      simp only [readDigits] at h ⊢
      cases hc : hexVal c with
      | none => rw [hc] at h; exact absurd h (by simp only [reduceCtorEq, not_false_eq_true])
      | some d =>
          rw [hc] at h
          exact ih _ v ys h

theorem readDigits_zeros (k : Nat) (cs : List Char) :
    readDigits 0 (List.replicate k '0' ++ cs) = readDigits 0 cs := by
  induction k with
  | zero => rfl
  | succ k ih =>
      rw [List.replicate_succ, List.cons_append, readDigits]
      exact ih

/-- A written number reads back, by induction on the quotient by sixteen. -/
theorem readDigits_toDigits (n : Nat) : readDigits 0 (Nat.toDigits 16 n) = some n := by
  induction n using Nat.strong_induction_on with
  | _ n ih =>
    rw [Nat.toDigits_eq_if (by decide)]
    by_cases h : n < 16
    · rw [if_pos h, readDigits, hexVal_digitChar n h]
      simp only [readDigits, Nat.zero_mul, Nat.zero_add]
    · have hquot := ih (n / 16) (by omega)
      rw [if_neg h, readDigits_append _ 0 _ _ hquot, readDigits,
        hexVal_digitChar _ (Nat.mod_lt _ (by decide))]
      simp only [readDigits, Option.some.injEq]
      omega

/-- A written number consists of digits. -/
theorem mem_toDigits (n : Nat) (c : Char) (h : c ∈ Nat.toDigits 16 n) :
    ∃ d, d < 16 ∧ c = Nat.digitChar d := by
  induction n using Nat.strong_induction_on with
  | _ n ih =>
    rw [Nat.toDigits_eq_if (by decide)] at h
    by_cases hlt : n < 16
    · rw [if_pos hlt, List.mem_singleton] at h
      exact ⟨n, hlt, h⟩
    · rw [if_neg hlt, List.mem_append, List.mem_singleton] at h
      rcases h with h | h
      · exact ih (n / 16) (by omega) h
      · exact ⟨n % 16, Nat.mod_lt _ (by decide), h⟩

theorem mem_padHex (width n : Nat) (c : Char) (h : c ∈ (padHex width n).toList) :
    ∃ d, d < 16 ∧ c = Nat.digitChar d := by
  rw [padHex, String.toList_ofList, List.leftpad, List.mem_append] at h
  rcases h with h | h
  · exact ⟨0, by decide, List.eq_of_mem_replicate h⟩
  · exact mem_toDigits n c h

/-- A padded number reads back: the padding is leading zeros, and no written
    number starts with a sign. -/
theorem readHex_padHex (width n : Nat) : readHex (padHex width n) = some n := by
  have hread : readDigits 0 ((Nat.toDigits 16 n).leftpad width '0') = some n := by
    rw [List.leftpad, readDigits_zeros, readDigits_toDigits]
  have hplus : '+' ∉ (Nat.toDigits 16 n).leftpad width '0' := by
    intro hc
    rcases mem_padHex width n '+' (by rwa [padHex, String.toList_ofList]) with ⟨d, hd, heq⟩
    exact digitChar_ne_plus d hd heq.symm
  have hne : (Nat.toDigits 16 n).leftpad width '0' ≠ [] := by
    intro hc
    rw [List.leftpad, List.append_eq_nil_iff] at hc
    exact Nat.toDigits_ne_nil hc.2
  unfold readHex padHex
  rw [String.toList_ofList]
  -- Neither the empty text nor a sign is possible, so the last branch reads.
  split
  · rename_i h; exact absurd h hne
  · rename_i h; exact absurd (h ▸ List.mem_cons_self) hplus
  · rename_i cs _ h; exact absurd (h ▸ List.mem_cons_self) hplus
  · exact hread

theorem padHex_injective (width : Nat) : Function.Injective (padHex width) := by
  intro a b h
  have hread := readHex_padHex width a
  rw [h, readHex_padHex, Option.some.injEq] at hread
  exact hread.symm

theorem hexVal_ascii : ∀ n, n < 103 → ∀ d ∈ hexVal (Char.ofNat n),
    d < 16 ∧ (Char.ofNat n).toLower = Nat.digitChar d ∧ (d = 0 → Char.ofNat n = '0') := by
  decide +kernel

/-- A digit in lower case is the one that is written, and only one is zero. -/
theorem toLower_of_hexVal (c : Char) (d : Nat) (h : hexVal c = some d) :
    d < 16 ∧ c.toLower = Nat.digitChar d ∧ (d = 0 → c = '0') := by
  have hascii : c.toNat < 103 := by
    by_contra hge
    have hbound : ∀ b : Char, c ≤ b → c.toNat ≤ b.toNat := fun _ hb => hb
    have h9 : ¬ ('0' ≤ c ∧ c ≤ '9') := fun hc => hge (Nat.lt_of_le_of_lt (hbound '9' hc.2) (by decide))
    have hf : ¬ ('a' ≤ c ∧ c ≤ 'f') := fun hc => hge (Nat.lt_of_le_of_lt (hbound 'f' hc.2) (by decide))
    have hF : ¬ ('A' ≤ c ∧ c ≤ 'F') := fun hc => hge (Nat.lt_of_le_of_lt (hbound 'F' hc.2) (by decide))
    rw [hexVal, if_neg h9, if_neg hf, if_neg hF] at h
    exact absurd h (Option.some_ne_none d).symm
  have hc := hexVal_ascii c.toNat hascii d (by rwa [Char.ofNat_toNat])
  rwa [Char.ofNat_toNat] at hc

theorem le_of_readDigits (cs : List Char) (acc n : Nat) (h : readDigits acc cs = some n) :
    acc ≤ n := by
  induction cs generalizing acc with
  | nil =>
      simp only [readDigits, Option.some.injEq] at h
      exact Nat.le_of_eq h
  | cons c cs ih =>
      rw [readDigits] at h
      cases hc : hexVal c with
      | none =>
          rw [hc] at h
          exact absurd h (Option.some_ne_none n).symm
      | some d =>
          simp only [hc] at h
          have hle := ih (acc * 16 + d) h
          omega

/-- Digits read onto a number follow those of the number. -/
theorem toDigits_append_of_readDigits (cs : List Char) (acc n : Nat) (hacc : 0 < acc)
    (h : readDigits acc cs = some n) :
    Nat.toDigits 16 acc ++ cs.map Char.toLower = Nat.toDigits 16 n := by
  induction cs generalizing acc with
  | nil =>
      simp only [readDigits, Option.some.injEq] at h
      rw [h, List.map_nil, List.append_nil]
  | cons c cs ih =>
      rw [readDigits] at h
      cases hc : hexVal c with
      | none =>
          rw [hc] at h
          exact absurd h (Option.some_ne_none n).symm
      | some d =>
          simp only [hc] at h
          rcases toLower_of_hexVal c d hc with ⟨hd, hlower, _⟩
          have hnext := ih (acc * 16 + d) (by omega) h
          have hdigit : Nat.toDigits 16 (16 * acc + d) = Nat.toDigits 16 acc ++ [Nat.digitChar d] := by
            rw [← Nat.toDigits_append_toDigits (by decide) hacc hd, Nat.toDigits_of_lt_base hd]
          rw [Nat.mul_comm, hdigit, List.append_assoc] at hnext
          rw [List.map_cons, hlower]
          exact hnext

/-- The plain digits of a text are those of the number it reads as. -/
theorem plainDigits_eq (cs : List Char) (n : Nat) (h : readDigits 0 (unsigned cs) = some n) :
    plainDigits cs = if n = 0 then [] else Nat.toDigits 16 n := by
  unfold plainDigits
  -- Leading zeros do not count, so what is left reads as the same number.
  have hzeros : ∀ cs : List Char, readDigits 0 (cs.dropWhile (· = '0')) = readDigits 0 cs := by
    intro cs
    induction cs with
    | nil => rfl
    | cons c cs ih =>
        rw [List.dropWhile_cons]
        by_cases hc : c = '0'
        · rw [if_pos (decide_eq_true hc), ih, hc]
          rfl
        · rw [if_neg (fun h => hc (of_decide_eq_true h))]
  rw [← hzeros] at h
  have hhead := List.head?_dropWhile_not (fun c => decide (c = '0')) (unsigned cs)
  cases hrest : (unsigned cs).dropWhile (· = '0') with
  | nil =>
      rw [hrest, readDigits, Option.some.injEq] at h
      rw [if_pos h.symm, List.map_nil]
  | cons c rest =>
      rw [hrest] at h hhead
      have hc0 : c ≠ '0' := by
        rintro rfl
        simp only [List.head?_cons, decide_true, Bool.true_eq_false] at hhead
      rw [readDigits] at h
      cases hc : hexVal c with
      | none =>
          rw [hc] at h
          exact absurd h (Option.some_ne_none n).symm
      | some d =>
          simp only [hc, Nat.zero_mul, Nat.zero_add] at h
          rcases toLower_of_hexVal c d hc with ⟨hd, hlower, hzero⟩
          have hpos : 0 < d := Nat.pos_of_ne_zero fun h0 => hc0 (hzero h0)
          have hdigits := toDigits_append_of_readDigits rest d n hpos h
          have hn : n ≠ 0 := by
            rintro rfl
            exact absurd (le_of_readDigits rest d 0 h) (by omega)
          rw [if_neg hn, List.map_cons, hlower, ← hdigits, Nat.toDigits_of_lt_base hd]
          rfl

/-- A number read from text is read from its digits. -/
theorem readDigits_of_readHex (s : String) (n : Nat) (h : readHex s = some n) :
    readDigits 0 (unsigned s.toList) = some n := by
  unfold readHex at h
  unfold unsigned
  split at h
  · exact absurd h (Option.some_ne_none n).symm
  · exact absurd h (Option.some_ne_none n).symm
  · next cs hcs =>
      rw [hcs, List.head?_cons, if_pos rfl, List.tail_cons]
      exact h
  · next cs hcs =>
      rw [if_neg]
      · exact h
      · intro hhead
        rcases List.head?_eq_some_iff.mp hhead with ⟨tail, htail⟩
        exact hcs tail htail

/-- Two texts read as the same number exactly if their plain digits are the same. -/
theorem readHex_eq_iff (s t : String) (m n : Nat) (hs : readHex s = some m) (ht : readHex t = some n) :
    m = n ↔ plainDigits s.toList = plainDigits t.toList := by
  rw [plainDigits_eq _ m (readDigits_of_readHex s m hs),
    plainDigits_eq _ n (readDigits_of_readHex t n ht)]
  refine ⟨fun h => by rw [h], fun h => ?_⟩
  by_cases hm : m = 0
  · by_cases hn : n = 0
    · rw [hm, hn]
    · rw [if_pos hm, if_neg hn] at h
      exact absurd h.symm Nat.toDigits_ne_nil
  · by_cases hn : n = 0
    · rw [if_neg hm, if_pos hn] at h
      exact absurd h Nat.toDigits_ne_nil
    · rw [if_neg hm, if_neg hn] at h
      have hread := readDigits_toDigits m
      rw [h, readDigits_toDigits, Option.some.injEq] at hread
      exact hread.symm

theorem length_padHex (width n : Nat) (hw : 0 < width) (h : n < 16 ^ width) :
    (padHex width n).toList.length = width := by
  rw [padHex, String.toList_ofList, List.length_leftpad]
  exact Nat.max_eq_left ((Nat.length_toDigits_le_iff (by decide) hw).mpr h)

/-- Upper case loses nothing of a padded number. -/
theorem toLower_toUpper_digitChar :
    ∀ d, d < 16 → (Nat.digitChar d).toUpper.toLower = Nat.digitChar d := by
  decide

theorem toUpper_padHex_injective (width m n : Nat)
    (h : (padHex width m).toList.map Char.toUpper = (padHex width n).toList.map Char.toUpper) :
    m = n := by
  have hlower : ∀ k : Nat, ((padHex width k).toList.map Char.toUpper).map Char.toLower =
      (padHex width k).toList := by
    intro k
    rw [List.map_map]
    refine (List.map_congr_left fun c hc => ?_).trans (List.map_id _)
    rcases mem_padHex width k c hc with ⟨d, hd, rfl⟩
    exact toLower_toUpper_digitChar d hd
  have hlist := congrArg (List.map Char.toLower) h
  rw [hlower, hlower] at hlist
  exact padHex_injective width (String.toList_inj.mp hlist)

theorem toLower_digitChar : ∀ d, d < 16 → (Nat.digitChar d).toLower = Nat.digitChar d := by
  decide

/-- A padded number stays as it is in lower case. -/
theorem map_toLower_padHex (width n : Nat) :
    (padHex width n).toList.map Char.toLower = (padHex width n).toList := by
  refine (List.map_congr_left fun c hc => ?_).trans (List.map_id _)
  rcases mem_padHex width n c hc with ⟨d, hd, rfl⟩
  exact toLower_digitChar d hd

/-- The two lower-case digits of a byte, high half first. -/
def hexByte (b : UInt8) : List Char :=
  [Nat.digitChar (b.toNat / 16), Nat.digitChar (b.toNat % 16)]

/-- The digits of a byte string. -/
def hexEncode (bs : List UInt8) : String :=
  String.ofList (bs.flatMap hexByte)

/-- Bytes read two digits at a time; an odd length or a foreign character is
    refused. -/
def hexBytes : List Char → Option (List UInt8)
  | [] => some []
  | [_] => none
  | a :: b :: cs =>
    match hexVal a, hexVal b, hexBytes cs with
    | some x, some y, some bs => some (UInt8.ofNat (x * 16 + y) :: bs)
    | _, _, _ => none

/-- Bytes read from text. -/
def hexDecode (s : String) : Option (List UInt8) := hexBytes s.toList

theorem hexDecode_hexEncode (bs : List UInt8) : hexDecode (hexEncode bs) = some bs := by
  unfold hexDecode hexEncode
  rw [String.toList_ofList]
  induction bs with
  | nil => rfl
  | cons b bs ih =>
      have hlt : b.toNat < 256 := b.toNat_lt
      rw [List.flatMap_cons, hexByte, List.cons_append, List.cons_append, List.nil_append, hexBytes,
        hexVal_digitChar _ (by omega), hexVal_digitChar _ (by omega), ih]
      have hsum : b.toNat / 16 * 16 + b.toNat % 16 = b.toNat := by omega
      simp only [hsum, UInt8.ofNat_toNat]

end Library

end MlatBench
