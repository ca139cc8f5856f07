import MlatBench.Core.Expand
import MlatBench.Theory.Stamps

/-!
# Addresses Of A Scenario

Validation refuses two aircraft of one text, but what comes after works with the
numbers the texts read as, and a number has many texts: either case, leading
zeros, a plus sign, white space around it. So a scenario that is valid may have
two aircraft of one address. They do not if no text that is written out names the
address of another aircraft in another way; the texts that are counted do not.

## Main definitions

* `addressDigits`: The digits that make an address what it is.
* `icaoTexts`: The texts of the written and of the counted aircraft.

## Theorems

* `fromHex_eq_iff`: Texts of one address.
* `expandGenerate_icaos`: The texts of the expanded scenario.
* `checkAll_aircraft`: What validation looks at.
* `addresses_distinct_iff`: When the addresses of a valid scenario are distinct.
* `lower_case_twin`: A written address in lower case meets a counted one.
-/

namespace MlatBench

open Library

/-- The digits that make an address what it is. -/
def addressDigits (s : String) : List Char := plainDigits (trim s).toList

/-- Texts that read as addresses read as the same one exactly if they have the same
    digits. -/
theorem fromHex_eq_iff (s t : String) (hs : (Icao.fromHex s).isSome = true)
    (ht : (Icao.fromHex t).isSome = true) :
    Icao.fromHex s = Icao.fromHex t ↔ addressDigits s = addressDigits t := by
  have hread : ∀ s : String, (Icao.fromHex s).isSome = true →
      ∃ n, readHex (trim s) = some n ∧ n ≤ 0xFFFFFF ∧
        Icao.fromHex s = some ⟨UInt32.ofNat n⟩ := by
    intro s hs
    unfold Icao.fromHex at hs ⊢
    cases hread : readHex (trim s) with
    | none =>
        rw [hread] at hs
        exact absurd hs Bool.false_ne_true
    | some n =>
        simp only [hread] at hs
        by_cases hn : n ≤ 0xFFFFFF
        · exact ⟨n, rfl, hn, if_pos hn⟩
        · rw [if_neg hn] at hs
          exact absurd hs Bool.false_ne_true
  rcases hread s hs with ⟨m, hm, hmle, hs⟩
  rcases hread t ht with ⟨n, hn, hnle, ht⟩
  rw [hs, ht, Option.some.injEq, Icao.mk.injEq, addressDigits, addressDigits,
    ← readHex_eq_iff (trim s) (trim t) m n hm hn]
  refine ⟨fun h => ?_, fun h => by rw [h]⟩
  have hnat := congrArg UInt32.toNat h
  rw [UInt32.toNat_ofNat', UInt32.toNat_ofNat'] at hnat
  omega

namespace Sim

open F64 F64Fn F64Ln

/-- The digits a counted address is written with. -/
def upperDigits : List Char := "0123456789ABCDEF".toList

theorem mem_padHexUpper (width n : Nat) (c : Char) (h : c ∈ (padHexUpper width n).toList) :
    c ∈ upperDigits := by
  rw [padHexUpper, String.toList_ofList, List.mem_map] at h
  rcases h with ⟨a, ha, rfl⟩
  rcases mem_padHex width n a ha with ⟨d, hd, rfl⟩
  have hall : ∀ d, d < 16 → (Nat.digitChar d).toUpper ∈ upperDigits := by decide
  exact hall d hd

/-- A counted text has nothing about it that does not count. -/
theorem addressDigits_counted (a : Char) (cs : List Char) (ha : a = 'A' ∨ a = 'B')
    (hcs : ∀ c ∈ cs, c ∈ upperDigits) :
    addressDigits (String.ofList (a :: cs)) = (a :: cs).map Char.toLower := by
  have hmem : ∀ c ∈ a :: cs, c ∈ upperDigits := by
    intro c hc
    rcases List.mem_cons.mp hc with rfl | hc
    · rcases ha with rfl | rfl <;> decide
    · exact hcs c hc
  have hspace : ∀ c ∈ upperDigits, isWhiteSpace c = false :=
    List.forall_iff_forall_mem.mp (by decide)
  have htrim : ∀ l : List Char, (∀ c ∈ l, c ∈ upperDigits) → l.dropWhile isWhiteSpace = l := by
    intro l hl
    cases l with
    | nil => rfl
    | cons c l =>
        rw [List.dropWhile_cons, hspace c (hl c List.mem_cons_self)]
        rfl
  have hsame : (trim (String.ofList (a :: cs))).toList = a :: cs := by
    rw [trim, String.toList_ofList, String.toList_ofList, htrim _ hmem,
      htrim _ fun c hc => hmem c (List.mem_reverse.mp hc), List.reverse_reverse]
  have hplain : unsigned (a :: cs) = a :: cs ∧ (a :: cs).dropWhile (· = '0') = a :: cs := by
    rcases ha with rfl | rfl <;> exact ⟨rfl, rfl⟩
  rw [addressDigits, hsame, plainDigits, hplain.1, hplain.2]

/-- The texts that are counted. -/
def countedTexts {F : Type} (g : GenerateSpec F) : List String :=
  (List.range g.aircraftAdsb.toNat).map adsbIcao ++
    (List.range g.aircraftModes.toNat).map modesIcao

/-- The texts of the written and of the counted aircraft. -/
def icaoTexts {F : Type} (sc : Scenario F) (g : Option (GenerateSpec F)) : List String :=
  sc.aircraft.map (·.icao) ++ (g.map countedTexts).getD []

theorem ofList_cons_eq (s : String) :
    String.ofList ('A' :: s.toList) = "A" ++ s ∧ String.ofList ('B' :: s.toList) = "B" ++ s := by
  constructor
  · rw [← String.toList_inj, String.toList_ofList, String.toList_append]
    rfl
  · rw [← String.toList_inj, String.toList_ofList, String.toList_append]
    rfl

/-- Counted texts of one address are the same text. -/
theorem counted_eq_of_digits {F : Type} (g : GenerateSpec F) (s t : String)
    (hs : s ∈ countedTexts g) (ht : t ∈ countedTexts g) (h : addressDigits s = addressDigits t) :
    s = t := by
  have hform : ∀ s ∈ countedTexts g, ∃ a cs, (a = 'A' ∨ a = 'B') ∧ (∀ c ∈ cs, c ∈ upperDigits) ∧
      s = String.ofList (a :: cs) := by
    intro s hs
    rcases List.mem_append.mp hs with hs | hs
    · rcases List.mem_map.mp hs with ⟨i, _, rfl⟩
      exact ⟨'A', _, Or.inl rfl, mem_padHexUpper 5 _, (ofList_cons_eq _).1.symm⟩
    · rcases List.mem_map.mp hs with ⟨i, _, rfl⟩
      exact ⟨'B', _, Or.inr rfl, mem_padHexUpper 5 _, (ofList_cons_eq _).2.symm⟩
  rcases hform s hs with ⟨a, cs, ha, hcs, rfl⟩
  rcases hform t ht with ⟨b, ds, hb, hds, rfl⟩
  rw [addressDigits_counted a cs ha hcs, addressDigits_counted b ds hb hds] at h
  -- Back in upper case they are what they were.
  have hupper : ∀ c ∈ upperDigits, c.toLower.toUpper = c :=
    List.forall_iff_forall_mem.mp (by decide)
  have hmem : ∀ a cs, (a = 'A' ∨ a = 'B') → (∀ c ∈ cs, c ∈ upperDigits) →
      ((a :: cs).map Char.toLower).map Char.toUpper = a :: cs := by
    intro a cs ha hcs
    rw [List.map_map]
    refine (List.map_congr_left fun c hc => ?_).trans (List.map_id _)
    rcases List.mem_cons.mp hc with rfl | hc
    · rcases ha with rfl | rfl <;> rfl
    · exact hupper c (hcs c hc)
  rw [← hmem a cs ha hcs, h, hmem b ds hb hds]

theorem map_drawEach {α β R : Type} (draw : Nat → R → α × R) (f : α → β) (g : Nat → β)
    (h : ∀ i rng, f (draw i rng).1 = g i) (is : List Nat) (rng : R) :
    (drawEach draw is rng).1.map f = is.map g := by
  induction is generalizing rng with
  | nil => rfl
  | cons i is ih =>
      rw [drawEach, List.map_cons, List.map_cons, h, ih]

section

variable {F R : Type} [F64Ln F]

theorem genAdsb_icao (rand : Rand F R) (g : GenerateSpec F) (i : Nat) (rng : R) :
    (genAdsb rand g i rng).1.icao = adsbIcao i := by
  unfold genAdsb
  exact Eq.refl (adsbIcao i)

theorem genModes_icao (rand : Rand F R) (g : GenerateSpec F) (i : Nat) (rng : R) :
    (genModes rand g i rng).1.icao = modesIcao i := by
  unfold genModes
  exact Eq.refl (modesIcao i)

/-- Whatever is drawn, the texts are these. -/
theorem expandGenerate_icaos (rand : Rand F R) (sc : Scenario F) (g : Option (GenerateSpec F)) :
    (sc.expandGenerate rand g).aircraft.map (·.icao) = icaoTexts sc g := by
  cases g with
  | none => exact (List.append_nil _).symm
  | some g =>
      rw [Scenario.expandGenerate]
      simp only [List.map_append]
      rw [map_drawEach _ _ adsbIcao (genAdsb_icao rand g),
        map_drawEach _ _ modesIcao (genModes_icao rand g), List.append_assoc]
      rfl

end

/-- Validation wants every text to read as an address, and no text twice. -/
theorem checkAll_aircraft {F : Type} [F64 F] (as : List (AircraftSpec F)) (seen : List String) :
    checkAll AircraftSpec.icao AircraftSpec.validate seen as = .ok () ↔
      (∀ a ∈ as, (Icao.fromHex a.icao).isSome = true) ∧ (as.map (·.icao)).Nodup ∧
        ∀ a ∈ as, a.icao ∉ seen := by
  induction as generalizing seen with
  | nil => simp only [checkAll, List.not_mem_nil, false_imp_iff, implies_true, List.map_nil,
      List.nodup_nil, and_self]
  | cons a as ih =>
      rw [checkAll, AircraftSpec.validate]
      simp only [List.forall_mem_cons, List.map_cons, List.nodup_cons]
      cases hread : Icao.fromHex a.icao with
      | none =>
          simp only [if_true, reduceCtorEq, Option.isSome_none, Bool.false_eq_true, false_and]
      | some x =>
          simp only [reduceCtorEq, if_false, Option.isSome_some, true_and]
          by_cases hseen : a.icao ∈ seen
          · simp only [hseen, if_true, reduceCtorEq, not_true, false_and, and_false]
          · simp only [hseen, if_false, not_false_eq_true, true_and]
            rw [ih]
            -- The first text is not one of the others, either way round.
            have hfirst : (∀ b ∈ as, b.icao ∉ a.icao :: seen) ↔
                a.icao ∉ as.map (·.icao) ∧ ∀ b ∈ as, b.icao ∉ seen := by
              simp only [List.mem_cons, not_or, List.mem_map, not_exists, not_and]
              exact ⟨fun h => ⟨fun b hb => (h b hb).1, fun b hb => (h b hb).2⟩,
                fun h b hb => ⟨h.1 b hb, h.2 b hb⟩⟩
            rw [hfirst]
            constructor
            · rintro ⟨hdefined, hnodup, hnot, hothers⟩
              exact ⟨hdefined, ⟨hnot, hnodup⟩, hothers⟩
            · rintro ⟨hdefined, ⟨hnot, hnodup⟩, hothers⟩
              exact ⟨hdefined, hnodup, hnot, hothers⟩

theorem validate_aircraft {F : Type} [F64 F] (sc : Scenario F) (h : sc.validate = .ok ()) :
    (∀ a ∈ sc.aircraft, (Icao.fromHex a.icao).isSome = true) ∧
      (sc.aircraft.map (·.icao)).Nodup := by
  unfold Scenario.validate at h
  split_ifs at h
  cases hreceivers : checkAll ReceiverSpec.id ReceiverSpec.validate [] sc.receivers with
  | error e =>
      rw [hreceivers] at h
      cases h
  | ok u =>
      rw [hreceivers] at h
      have hall := (checkAll_aircraft sc.aircraft []).mp h
      exact ⟨hall.1, hall.2.1⟩

/-- The addresses of a valid scenario are all defined. They are distinct if and only
    if no text that is written out has the digits of another aircraft's. -/
theorem addresses_distinct_iff {F R : Type} [F64Ln F] (rand : Rand F R) (sc : Scenario F)
    (g : Option (GenerateSpec F)) (h : (sc.expandGenerate rand g).validate = .ok ()) :
    (∀ a ∈ (sc.expandGenerate rand g).aircraft, (Icao.fromHex a.icao).isSome = true) ∧
      (((sc.expandGenerate rand g).aircraft.map fun a => Icao.fromHex a.icao).Nodup ↔
        ∀ s ∈ sc.aircraft.map (·.icao), ∀ t ∈ icaoTexts sc g,
          addressDigits s = addressDigits t → s = t) := by
  rcases validate_aircraft _ h with ⟨hdefined, hnodup⟩
  refine ⟨hdefined, ?_⟩
  rw [expandGenerate_icaos] at hnodup
  have hmap : (sc.expandGenerate rand g).aircraft.map (fun a => Icao.fromHex a.icao) =
      (icaoTexts sc g).map Icao.fromHex := by
    rw [← expandGenerate_icaos rand sc g, List.map_map, Function.comp_def]
  have hread : ∀ s ∈ icaoTexts sc g, (Icao.fromHex s).isSome = true := by
    intro s hs
    rw [← expandGenerate_icaos rand sc g] at hs
    rcases List.mem_map.mp hs with ⟨a, ha, rfl⟩
    exact hdefined a ha
  rw [hmap, List.nodup_map_iff_inj_on hnodup]
  constructor
  · intro hinj s hs t ht hdigits
    have hs' : s ∈ icaoTexts sc g := List.mem_append_left _ hs
    exact hinj s hs' t ht ((fromHex_eq_iff s t (hread s hs') (hread t ht)).mpr hdigits)
  · intro hwritten s hs t ht heq
    have hdigits := (fromHex_eq_iff s t (hread s hs) (hread t ht)).mp heq
    -- One of the two is written out, or both are counted.
    rcases List.mem_append.mp hs with hs' | hs'
    · exact hwritten s hs' t ht hdigits
    · rcases List.mem_append.mp ht with ht' | ht'
      · exact (hwritten t ht' s hs hdigits.symm).symm
      · cases g with
        | none => exact absurd hs' List.not_mem_nil
        | some g => exact counted_eq_of_digits g s t hs' ht' hdigits

section Example

/-- The first draws of the stream. -/
def generateDraws : List Nat :=
  [4175926595521707, 3235512069561467, 3115051358662022, 2493214373477610, 2317448941522232,
    1924139308628115, 1889400445120939, 3257475506634668, 3210570720883265, 3866676531532204,
    68603424438784, 1971679698949661, 187682173532690]

def generateRand : Rand ℚ (List Nat) where
  rngFor seed name := if seed = 189 ∧ name = "generate" then generateDraws else []
  genRange := uniform
  genRangeInclusive := uniform

/-- One aircraft of each kind around a place. -/
def oneOfEach : GenerateSpec ℚ :=
  { receivers := 0, aircraftAdsb := 1, aircraftModes := 1, center := (47, 8), radiusKm := 100
    gpsFraction := 1 / 10 }

theorem eq_ok_of_isOk {ε : Type} (r : Except ε Unit) (h : r.isOk = true) : r = .ok () := by
  cases r with
  | error e => exact absurd h Bool.false_ne_true
  | ok u => rfl

/-- Beside an aircraft of another address, all is well. -/
theorem addresses_distinct_near :
    (((second [near]).expandGenerate generateRand (some oneOfEach)).aircraft.map fun a =>
      Icao.fromHex a.icao).Nodup := by
  refine ((addresses_distinct_iff generateRand (second [near]) (some oneOfEach)
    (eq_ok_of_isOk _ (by decide +kernel))).2).mpr ?_
  decide +kernel

/-- The written address is that of the first counted aircraft, in lower case. -/
theorem lower_case_twin :
    ((second [standing "a10000" 0 30000]).expandGenerate generateRand
        (some oneOfEach)).validate = .ok () ∧
      (((second [standing "a10000" 0 30000]).expandGenerate generateRand
        (some oneOfEach)).aircraft.map fun a => (a.icao, Icao.fromHex a.icao)) =
          [("a10000", some ⟨0xA10000⟩), ("A10000", some ⟨0xA10000⟩), ("B20000", some ⟨0xB20000⟩)] :=
  ⟨eq_ok_of_isOk _ (by decide +kernel), by decide +kernel⟩

end Example

end Sim

end MlatBench
