import Mathlib.Data.List.Basic
import MlatBench.Library.Calls

/-!
# Streams of Units

A code that is a table: each unit of the stream comes to something when all of it
is there, and what follows comes behind. It is read by any transducer that works in
calls, and written by one that knows the table: what it takes are the texts of the
next units, and it gives the units.

## Main definitions

* `Units`: The table, in the order of the stream.
* `Units.coded`, `Units.plain`: All units, and what they come to.
* `Units.whole`: What a beginning of the stream comes to.
* `Units.writer`: The transducer that gives the units of texts.

## Theorems

* `grows_whole`: More input comes to more.
* `whole_append`: The first units.
* `spell_take`: The units of the next texts.
* `flushes_writer`: The writer flushes with every unit.
-/

namespace MlatBench

namespace Library

/-- Units in the order of a stream, each with what it comes to. -/
abbrev Units (α β : Type*) := List (List α × List β)

namespace Units

variable {α β : Type*}

/-- The units. -/
def coded (us : Units α β) : List α := us.flatMap Prod.fst

/-- What they come to. -/
def plain (us : Units α β) : List β := us.flatMap Prod.snd

theorem coded_append (us vs : Units α β) : coded (us ++ vs) = coded us ++ coded vs :=
  List.flatMap_append

theorem plain_append (us vs : Units α β) : plain (us ++ vs) = plain us ++ plain vs :=
  List.flatMap_append

theorem coded_singleton (u : List α) (b : List β) : coded [(u, b)] = u :=
  List.flatMap_singleton Prod.fst (u, b)

theorem plain_singleton (u : List α) (b : List β) : plain [(u, b)] = b :=
  List.flatMap_singleton Prod.snd (u, b)

section Reading

variable [DecidableEq α]

/-- What a beginning of the stream comes to: what the units come to that are there. -/
def whole : Units α β → List α → Option (List β)
  | [], xs => if xs = [] then some [] else none
  | (u, b) :: us, xs =>
    if u <+: xs then (whole us (xs.drop u.length)).map (b ++ ·)
    else if xs <+: u then some [] else none

/-- Units that are there come first. -/
theorem whole_append (us vs : Units α β) (xs : List α) :
    whole (us ++ vs) (us.coded ++ xs) = (whole vs xs).map (us.plain ++ ·) := by
  induction us with
  | nil =>
      change whole vs xs = (whole vs xs).map id
      rw [Option.map_id_apply]
  | cons p us ih =>
      rcases p with ⟨u, b⟩
      have hcoded : coded ((u, b) :: us) ++ xs = u ++ (coded us ++ xs) := by
        rw [coded, List.flatMap_cons, List.append_assoc]
        rfl
      rw [hcoded, List.cons_append, whole, if_pos (List.prefix_append _ _), List.drop_left, ih,
        Option.map_map]
      refine congrArg (fun f => Option.map f (whole vs xs)) (funext fun ys => ?_)
      rw [Function.comp_apply, plain, plain, List.flatMap_cons, List.append_assoc]

/-- A stream of units that are not empty comes to more when it grows. -/
theorem grows_whole (us : Units α β) (hne : ∀ p ∈ us, p.1 ≠ []) : Grows us.whole := by
  constructor
  · cases us with
    | nil => exact if_pos rfl
    | cons p us =>
        have hp := hne p List.mem_cons_self
        rw [whole, if_neg fun hpre => hp (List.prefix_nil.mp hpre), if_pos List.nil_prefix]
  · intro xs ys out h
    induction us generalizing xs out with
    | nil =>
        unfold whole at h
        by_cases hnil : xs ++ ys = []
        · rw [(List.append_eq_nil_iff.mp hnil).1]
          exact ⟨[], if_pos rfl, List.nil_prefix⟩
        · rw [if_neg hnil] at h
          exact absurd h (Option.some_ne_none out).symm
    | cons p us ih =>
        rcases p with ⟨u, b⟩
        unfold whole at h ⊢
        by_cases hthere : u <+: xs
        · -- The first unit is there, and what follows grows.
          rcases hthere with ⟨zs, rfl⟩
          rw [if_pos ((List.prefix_append u zs).trans (List.prefix_append _ ys)), List.append_assoc,
            List.drop_left] at h
          rcases Option.map_eq_some_iff.mp h with ⟨out', hout, rfl⟩
          rcases ih (fun p hp => hne p (List.mem_cons_of_mem _ hp)) zs out' hout with
            ⟨part, hpart, hpre⟩
          refine ⟨b ++ part, ?_, (List.prefix_append_right_inj b).mpr hpre⟩
          rw [if_pos (List.prefix_append u zs), List.drop_left, hpart, Option.map_some]
        · have hbegun : xs <+: u := by
            by_cases hall : u <+: xs ++ ys
            · exact (List.prefix_or_prefix_of_prefix hall (List.prefix_append xs ys)).resolve_left
                hthere
            · rw [if_neg hall] at h
              by_cases hmore : xs ++ ys <+: u
              · exact (List.prefix_append xs ys).trans hmore
              · rw [if_neg hmore] at h
                exact absurd h (Option.some_ne_none out).symm
          rw [if_neg hthere, if_pos hbegun]
          exact ⟨[], rfl, List.nil_prefix⟩

end Reading

section Writing

variable [DecidableEq β]

/-- The next units, as far as the text goes, and those behind them. -/
def spell : Units α β → List β → List α × Units α β
  | [], _ => ([], [])
  | (u, b) :: us, xs =>
    if xs ≠ [] ∧ b <+: xs then
      let (ys, rest) := spell us (xs.drop b.length)
      (u ++ ys, rest)
    else ([], (u, b) :: us)

/-- The transducer that takes texts of units and gives the units, as far as there is
    room. -/
def writer (us : Units α β) : Calls β α (Units α β) where
  start := us
  call s xs room := some (xs.length, (spell s xs).1.take room, false, (spell s xs).2)

/-- What the writer has taken and given: so many units. -/
def WriterAt (us : Units α β) (s : Units α β) (taken : List β) (given : List α) : Prop :=
  ∃ done, us = done ++ s ∧ taken = plain done ∧ given = coded done

/-- The texts that end with a unit. -/
def Text (us : Units α β) (t : List β) : Prop :=
  ∃ k, t = plain (us.take k)

/-- Texts of the next units are spelled by them. -/
theorem spell_take (us : Units α β) (hne : ∀ p ∈ us, p.2 ≠ []) (k : Nat) :
    spell us (plain (us.take k)) = (coded (us.take k), us.drop k) := by
  induction us generalizing k with
  | nil =>
      rw [List.take_nil, List.drop_nil]
      rfl
  | cons p us ih =>
      rcases p with ⟨u, b⟩
      cases k with
      | zero => exact if_neg fun h => h.1 rfl
      | succ k =>
          have hb : b ≠ [] := hne (u, b) List.mem_cons_self
          have hplain : plain (((u, b) :: us).take (k + 1)) = b ++ plain (us.take k) := by
            rw [List.take_succ_cons, plain, List.flatMap_cons]
            rfl
          rw [hplain, spell, if_pos ⟨List.append_ne_nil_of_left_ne_nil hb _, List.prefix_append _ _⟩,
            List.drop_left, ih (fun p hp => hne p (List.mem_cons_of_mem _ hp)) k,
            List.take_succ_cons, List.drop_succ_cons, coded, coded, List.flatMap_cons]

/-- The writer flushes, if every unit ends with the trailer and all have room. -/
theorem flushes_writer [DecidableEq α] (us : Units α β) (trailer : List α) (room : Nat)
    (hunit : ∀ p ∈ us, p.1 ≠ []) (htext : ∀ p ∈ us, p.2 ≠ []) (hend : ∀ p ∈ us, trailer <:+ p.1)
    (hroom : us.coded.length ≤ room) :
    us.writer.Flushes us.whole trailer (· + room) us.Text us.WriterAt where
  start := ⟨[], rfl, rfl, rfl⟩
  call := by
    rintro s _ _ xs avail ⟨done, rfl, rfl, rfl⟩ hne ⟨k, hk⟩ havail
    -- The text goes on behind the units that are done.
    obtain ⟨j, rfl⟩ : ∃ j, xs = plain (s.take j) := by
      rcases Nat.le_total k done.length with hle | hge
      · rw [List.take_append_of_le_length hle] at hk
        have hlen := congrArg List.length hk
        have hpart : (plain done).length = (plain (done.take k)).length +
            (plain (done.drop k)).length := by
          rw [← List.length_append, ← plain_append, List.take_append_drop]
        rw [List.length_append] at hlen
        exact absurd (List.length_eq_zero_iff.mp (by omega)) hne
      · refine ⟨k - done.length, ?_⟩
        rw [List.take_append, List.take_of_length_le hge, plain_append] at hk
        exact List.append_cancel_left hk
    have hspell := spell_take s (fun p hp => htext p (List.mem_append_right done hp)) j
    have hshort : (coded (s.take j)).length ≤ avail := by
      have hall : (coded (done ++ s)).length =
          (coded done).length + (coded (s.take j)).length + (coded (s.drop j)).length := by
        conv => lhs; rw [← List.take_append_drop j s]
        rw [coded_append, coded_append, List.length_append, List.length_append, Nat.add_assoc]
      omega
    have hdone : done ++ s = (done ++ s.take j) ++ s.drop j := by
      rw [List.append_assoc, List.take_append_drop]
    refine ⟨coded (s.take j), s.drop j, ?_, ?_, ?_, done ++ s.take j, hdone,
      (plain_append done _).symm, (coded_append done _).symm⟩
    · change some ((plain (s.take j)).length, (spell s (plain (s.take j))).1.take avail, false,
        (spell s (plain (s.take j))).2) = _
      rw [hspell, List.take_of_length_le hshort]
    · -- There is a last unit, which has the trailer.
      rcases List.eq_nil_or_concat (s.take j) with hnil | ⟨init, p, hlast⟩
      · rw [hnil] at hne
        exact absurd rfl hne
      · have hp : p ∈ s := by
          refine List.mem_of_mem_take (?_ : p ∈ s.take j)
          rw [hlast, List.concat_eq_append]
          exact List.mem_concat_self
        rw [hlast, List.concat_eq_append, coded_append, coded_singleton]
        exact (hend p (List.mem_append_right done hp)).trans (List.suffix_append _ _)
    · have hread := whole_append (done ++ s.take j) (s.drop j) []
      have hnone := (grows_whole (s.drop j) fun p hp =>
        hunit p (List.mem_append_right done (List.mem_of_mem_drop hp))).nil
      rw [List.append_nil, hnone, Option.map_some, List.append_nil] at hread
      rw [hdone, ← coded_append, ← plain_append]
      exact hread

end Writing

end Units

end Library

end MlatBench
