import MlatBench.Core.Locards
import MlatBench.Library.Decimal
import MlatBench.Theory.Pairs

/-!
# Importing Twice

The capture of an import should be a function of its inputs. Two hash maps are
gone through when it is written. Whether an aircraft is held out goes into the
scenario in the order of the one; the clients go into the manifest in the order of
the other, and each takes the next latency of a stream of random numbers. So the
capture is the same for all orders only if there is nothing to order: one client
at most, and no two aircraft that differ in the scenario.

Aircraft differ there unless they have the same address, of which the numbers of a
recording give 2^24, and drew the same.

## Main definitions

* `reached`, `met`, `Heard`: The rows that are looked at, the aircraft in them, and
  the sensors whose stamps are used.
* `drawAll`: The draws, one for each aircraft.
* `SameTexts`, `OneClient`: The condition.
* `clientIds`: The ids in the manifest.

## Theorems

* `rowsFrom_coins`: Who is held out.
* `rowsFrom_clients`: Who is a client.
* `texts_swap`: Two aircraft that may change places are written alike.
* `write_isSome`: A capture is written.
* `texts_of_orders`, `orders_of_texts`, `client_of_orders`: What orders show.
* `capture_deterministic_iff`: When the capture is the same for all orders.
* `capture_differs`: Two sensors and two aircraft.
-/

namespace MlatBench

namespace Locards

open Library F64 F64Fn Modes Sim

section

variable {F R : Type} [F64Fn F]

/-- The row is not later than the duration. -/
def reached (durationS : Nat) (row : Row F) : Bool :=
  match row.tServer with
  | some t => ¬ lit durationS < t
  | none => false

/-- The row has its truth and two stamps. -/
def usable {G : Type} (row : Row G) : Bool :=
  row.lat.isSome ∧ row.lon.isSome ∧ row.baroM.isSome ∧ 2 ≤ row.meas.length

/-- The altitude of the row can be encoded. -/
def encodable (row : Row F) : Bool :=
  (row.baroM.bind fun baroM => altStep (quantize25ft (baroM * mToFt))).isSome

/-- The rows that count. -/
def counted (durationS : Nat) (rows : List (Row F)) : List (Row F) :=
  (rows.takeWhile (reached durationS)).filter usable

/-- The aircraft in them, in order. -/
def met (durationS : Nat) (rows : List (Row F)) : List UInt32 :=
  (counted durationS rows).filterMap (·.acId)

/-- A stamp of the sensor is used. -/
def Heard (sensors : Nat → Option (Sensor F)) (durationS : Nat) (rows : List (Row F))
    (serial : Nat) : Prop :=
  (sensors serial).isSome = true ∧
    ∃ row ∈ counted durationS rows, encodable row = true ∧ serial ∈ row.meas.map Prod.fst

/-- The draws for aircraft, each drawn for when it is first met. -/
def drawAll (rand : Rand F R) (holdoutFrac : F) (st : Import F R) (acs : List UInt32) :
    Import F R :=
  acs.foldl (fun st ac => (st.draw rand holdoutFrac ac).2) st

/-- Who is held out so far, and the stream the next draw is from. -/
def SameCoins {G : Type} (st st' : Import G R) : Prop :=
  st.holdout = st'.holdout ∧ st.rng = st'.rng

theorem SameCoins.draw {st st' : Import F R} (h : SameCoins st st') (rand : Rand F R)
    (holdoutFrac : F) (ac : UInt32) :
    SameCoins (st.draw rand holdoutFrac ac).2 (st'.draw rand holdoutFrac ac).2 := by
  unfold Import.draw
  rw [h.1, h.2]
  cases st'.holdout ac with
  | none => exact ⟨rfl, rfl⟩
  | some held => exact h

/-- What is noted, turned and stamped after the draw changes nothing about it. -/
theorem use_coins (rand : Rand F R) (sensors : Nat → Option (Sensor F)) (holdoutFrac : F)
    (st : Import F R) (row : Row F) (t : F) (acId : UInt32) (lat lon baroM : F) :
    SameCoins (st.use rand sensors holdoutFrac row t acId lat lon baroM)
      (st.draw rand holdoutFrac acId).2 := by
  have hstamps : ∀ (s : Sent F) (meas : List (Nat × F)) (st : Import F R),
      SameCoins (meas.foldl (Import.stamp sensors s) st) st := by
    intro s meas st
    refine List.foldlRecOn (motive := fun st' : Import F R => SameCoins st' st) _ _ ⟨rfl, rfl⟩ ?_
    intro st' hst' m _
    unfold Import.stamp
    split_ifs
    · exact hst'
    · exact hst'
  have hturn : ∀ (st : Import F R) (held : Bool), SameCoins (st.turn held acId).2 st := by
    intro st held
    unfold Import.turn
    split_ifs <;> exact ⟨rfl, rfl⟩
  unfold Import.use
  simp only []
  split
  · split_ifs
    · exact hturn _ _
    · exact hturn _ _
  · have hst := hstamps
    refine ⟨(hst _ _ _).1.trans ?_, (hst _ _ _).2.trans ?_⟩
    · split_ifs
      · exact (hturn _ _).1
      · exact (hturn _ _).1
    · split_ifs
      · exact (hturn _ _).2
      · exact (hturn _ _).2

theorem take_coins (rand : Rand F R) (sensors : Nat → Option (Sensor F)) (holdoutFrac : F)
    (st dr : Import F R) (row : Row F) (t : F) (acId : UInt32) (h : SameCoins st dr) :
    SameCoins (st.take rand sensors holdoutFrac row t acId)
      (if usable row then (dr.draw rand holdoutFrac acId).2 else dr) := by
  unfold Import.take usable
  cases hlat : row.lat with
  | none => exact h
  | some lat =>
      cases hlon : row.lon with
      | none => exact h
      | some lon =>
          cases hbaro : row.baroM with
          | none => exact h
          | some baroM =>
              simp only [Option.isSome_some, true_and, decide_eq_true_eq]
              by_cases hfew : row.meas.length < 2
              · rw [if_pos hfew, if_neg (by omega)]
                exact h
              · rw [if_neg hfew, if_pos (by omega)]
                have huse := use_coins rand sensors holdoutFrac st row t acId lat lon baroM
                have hdraw := h.draw rand holdoutFrac acId
                exact ⟨huse.1.trans hdraw.1, huse.2.trans hdraw.2⟩

/-- A row that is later than the duration ends the rows, and so does none else. -/
theorem counted_cons (durationS : Nat) (row : Row F) (rows : List (Row F)) (t : F)
    (ht : row.tServer = some t) :
    counted durationS (row :: rows) =
      if lit durationS < t then []
      else if usable row then row :: counted durationS rows else counted durationS rows := by
  have hreached : reached durationS row = decide (¬ lit durationS < t) := by
    rw [reached, ht]
  rw [counted, List.takeWhile_cons, hreached]
  by_cases hlate : (lit durationS : F) < t
  · rw [if_pos hlate, if_neg (by simp only [hlate, not_true, decide_false]; exact Bool.false_ne_true)]
    rfl
  · rw [if_neg hlate, if_pos (decide_eq_true hlate), List.filter_cons]
    rfl

/-- One row at a time: where all rows lead is where the first and then the others
    lead, or the first is too late. -/
theorem rowsFrom_cons (rand : Rand F R) (sensors : Nat → Option (Sensor F)) (durationS : Nat)
    (holdoutFrac : F) (row : Row F) (rows : List (Row F)) (st st' : Import F R)
    (h : rowsFrom rand sensors durationS holdoutFrac st (row :: rows) = some st') :
    ∃ t, row.tServer = some t ∧ (lit durationS < t ∧ st' = st ∨
      ¬ lit durationS < t ∧ ∃ acId, row.acId = some acId ∧
        rowsFrom rand sensors durationS holdoutFrac
          (st.take rand sensors holdoutFrac row t acId) rows = some st') := by
  unfold rowsFrom at h
  cases ht : row.tServer with
  | none =>
      rw [ht] at h
      exact absurd h (Option.some_ne_none st').symm
  | some t =>
      simp only [ht] at h
      refine ⟨t, rfl, ?_⟩
      by_cases hlate : lit durationS < t
      · rw [if_pos hlate] at h
        exact Or.inl ⟨hlate, (Option.some.inj h).symm⟩
      · rw [if_neg hlate] at h
        cases hac : row.acId with
        | none =>
            rw [hac] at h
            exact absurd h (Option.some_ne_none st').symm
        | some acId =>
            simp only [hac] at h
            exact Or.inr ⟨hlate, acId, rfl, h⟩

/-- Who is held out is drawn when an aircraft is first met, in that order. -/
theorem rowsFrom_coins (rand : Rand F R) (sensors : Nat → Option (Sensor F)) (durationS : Nat)
    (holdoutFrac : F) (rows : List (Row F)) (st st' dr : Import F R) (hdr : SameCoins st dr)
    (h : rowsFrom rand sensors durationS holdoutFrac st rows = some st') :
    SameCoins st' (drawAll rand holdoutFrac dr (met durationS rows)) := by
  induction rows generalizing st dr with
  | nil =>
      cases h
      exact hdr
  | cons row rows ih =>
      rcases rowsFrom_cons rand sensors durationS holdoutFrac row rows st st' h with
        ⟨t, ht, ⟨hlate, rfl⟩ | ⟨hlate, acId, hac, hrest⟩⟩
      · rw [met, counted_cons durationS row rows t ht, if_pos hlate]
        exact hdr
      · have htake := take_coins rand sensors holdoutFrac st dr row t acId hdr
        rw [met, counted_cons durationS row rows t ht, if_neg hlate]
        by_cases husable : usable row = true
        · rw [if_pos husable] at htake
          rw [if_pos husable, List.filterMap_cons, hac]
          exact ih _ _ htake hrest
        · rw [if_neg husable] at htake
          rw [if_neg husable]
          exact ih _ _ htake hrest

/-- The aircraft that have a draw are those that were met. -/
theorem drawAll_isSome (rand : Rand F R) (holdoutFrac : F) (st : Import F R) (acs : List UInt32)
    (ac : UInt32) :
    ((drawAll rand holdoutFrac st acs).holdout ac).isSome = true ↔
      (st.holdout ac).isSome = true ∨ ac ∈ acs := by
  induction acs generalizing st with
  | nil => simp only [drawAll, List.foldl_nil, List.not_mem_nil, or_false]
  | cons a acs ih =>
      have hdraw : ((st.draw rand holdoutFrac a).2.holdout ac).isSome = true ↔
          (st.holdout ac).isSome = true ∨ ac = a := by
        unfold Import.draw
        cases ha : st.holdout a with
        | some held =>
            simp only []
            refine ⟨Or.inl, fun h => h.elim id ?_⟩
            rintro rfl
            rw [ha, Option.isSome_some]
        | none =>
            simp only []
            by_cases hac : ac = a
            · rw [hac, Function.update_self]
              simp only [Option.isSome_some, or_true]
            · rw [Function.update_of_ne hac]
              simp only [hac, or_false]
      rw [drawAll, List.foldl_cons]
      refine (ih _).trans ?_
      rw [hdraw, List.mem_cons, or_assoc]

/-- A stamp makes a client of its sensor, if it is known. -/
theorem stamps_isSome (sensors : Nat → Option (Sensor F)) (s : Sent F) (meas : List (Nat × F))
    (st : Import F R) (serial : Nat) :
    ((meas.foldl (Import.stamp sensors s) st).clients serial).isSome = true ↔
      (st.clients serial).isSome = true ∨
        (sensors serial).isSome = true ∧ serial ∈ meas.map Prod.fst := by
  induction meas generalizing st with
  | nil => simp only [List.foldl_nil, List.map_nil, List.not_mem_nil, and_false, or_false]
  | cons m meas ih =>
      have hstamp : ((st.stamp sensors s m).clients serial).isSome = true ↔
          (st.clients serial).isSome = true ∨ (sensors serial).isSome = true ∧ serial = m.1 := by
        unfold Import.stamp
        by_cases hknown : (sensors m.1).isSome = true
        · rw [if_pos hknown]
          by_cases hm : serial = m.1
          · rw [hm]
            simp only [Function.update_self, Option.isSome_some, hknown, and_self, or_true]
          · simp only [Function.update_of_ne hm, hm, and_false, or_false]
        · rw [if_neg hknown]
          refine ⟨Or.inl, fun h => h.elim id ?_⟩
          rintro ⟨hserial, rfl⟩
          exact absurd hserial hknown
      rw [List.foldl_cons, ih, hstamp, List.map_cons, List.mem_cons, and_or_left, or_assoc]

/-- Whether there is a frame is a matter of the altitude alone. -/
theorem frame_isSome (icao : Icao) (odd : Option Bool) (lat lon baroM : F) :
    (Import.frame icao odd lat lon baroM).isSome = (altStep (quantize25ft (baroM * mToFt))).isSome := by
  unfold Import.frame
  cases odd with
  | none =>
      simp only [df4, ac13]
      cases altStep (quantize25ft (baroM * mToFt)) <;> rfl
  | some odd =>
      simp only [df17AirbornePosition, ac12]
      cases altStep (quantize25ft (baroM * mToFt)) <;> rfl

theorem take_clients (rand : Rand F R) (sensors : Nat → Option (Sensor F)) (holdoutFrac : F)
    (st : Import F R) (row : Row F) (t : F) (acId : UInt32) (serial : Nat) :
    ((st.take rand sensors holdoutFrac row t acId).clients serial).isSome = true ↔
      (st.clients serial).isSome = true ∨ (sensors serial).isSome = true ∧ usable row = true ∧
        encodable row = true ∧ serial ∈ row.meas.map Prod.fst := by
  unfold Import.take usable encodable
  cases hlat : row.lat with
  | none => simp only [Option.isSome_none, Bool.false_eq_true, false_and, decide_false, and_false, or_false]
  | some lat =>
      cases hlon : row.lon with
      | none => simp only [Option.isSome_none, Bool.false_eq_true, false_and, and_false, decide_false, or_false]
      | some lon =>
          cases hbaro : row.baroM with
          | none => simp only [Option.isSome_none, Bool.false_eq_true, false_and, and_false, decide_false, or_false]
          | some baroM =>
              simp only [Option.isSome_some, true_and, decide_eq_true_eq, Option.bind_some]
              by_cases hfew : row.meas.length < 2
              · rw [if_pos hfew]
                have hnot : ¬ 2 ≤ row.meas.length := by omega
                simp only [hnot, false_and, and_false, or_false]
              · rw [if_neg hfew]
                have hmany : 2 ≤ row.meas.length := by omega
                rcases use_spec rand sensors holdoutFrac st row t acId lat lon baroM with
                  ⟨odd, st', hsame, huse⟩
                rw [huse]
                have hframe := frame_isSome (⟨0x100000 + acId⟩ : Icao) odd lat lon baroM
                rw [← hframe]
                cases Import.frame (⟨0x100000 + acId⟩ : Icao) odd lat lon baroM with
                | none => simp only [hsame, Option.isSome_none, Bool.false_eq_true, false_and,
                    and_false, or_false]
                | some f =>
                    simp only [Option.isSome_some, hmany, true_and]
                    rw [stamps_isSome, hsame]

/-- The clients are those whose stamps were used. -/
theorem rowsFrom_clients (rand : Rand F R) (sensors : Nat → Option (Sensor F)) (durationS : Nat)
    (holdoutFrac : F) (rows : List (Row F)) (st st' : Import F R) (serial : Nat)
    (h : rowsFrom rand sensors durationS holdoutFrac st rows = some st') :
    (st'.clients serial).isSome = true ↔
      (st.clients serial).isSome = true ∨ Heard sensors durationS rows serial := by
  induction rows generalizing st with
  | nil =>
      cases h
      simp only [Heard, counted, List.takeWhile_nil, List.filter_nil, List.not_mem_nil, false_and,
        exists_false, and_false, or_false]
  | cons row rows ih =>
      unfold Heard
      rcases rowsFrom_cons rand sensors durationS holdoutFrac row rows st st' h with
        ⟨t, ht, ⟨hlate, rfl⟩ | ⟨hlate, acId, hac, hrest⟩⟩
      · rw [counted_cons durationS row rows t ht, if_pos hlate]
        simp only [List.not_mem_nil, false_and, exists_false, and_false, or_false]
      · rw [ih _ hrest, take_clients, counted_cons durationS row rows t ht, if_neg hlate, or_assoc]
        refine or_congr_right ?_
        unfold Heard
        rw [← and_or_left]
        refine and_congr_right fun _ => ?_
        -- The first row is one of those that count, or it is none.
        by_cases husable : usable row = true
        · simp only [husable, true_and, if_true, List.exists_mem_cons_iff]
        · simp only [husable, false_and, false_or, Bool.false_eq_true, if_false]

/-- A client is called by the number of its sensor. -/
theorem sensorsOf_user (rows : List (SensorRow F)) (sensors : Nat → Option (Sensor F))
    (h : sensorsOf rows = some sensors) (serial : Nat) (sensor : Sensor F)
    (hs : sensors serial = some sensor) : sensor.user = "os-" ++ toString serial := by
  induction rows generalizing sensors with
  | nil =>
      cases h
      exact absurd hs (Option.some_ne_none sensor).symm
  | cons row rows ih =>
      unfold sensorsOf at h
      split at h
      · next n lat lon _ _ _ =>
          rcases Option.map_eq_some_iff.mp h with ⟨later, hlater, rfl⟩
          rcases Option.or_eq_some_iff.mp hs with hold | ⟨_, hnew⟩
          · exact ih later hlater hold
          · split_ifs at hnew with hn
            rw [← Option.some.inj hnew, hn]
      · exact absurd h (Option.some_ne_none sensors).symm

theorem toString_injective (m n : Nat) (h : toString m = toString n) : m = n := by
  have hread := fun k : Nat => readNat_toDigits k
  have hlist : Nat.toDigits 10 m = Nat.toDigits 10 n := by
    have := congrArg String.toList h
    rwa [show (toString m).toList = Nat.toDigits 10 m from String.toList_ofList,
      show (toString n).toList = Nat.toDigits 10 n from String.toList_ofList] at this
  exact Option.some.inj ((hread m).symm.trans ((congrArg readNat hlist).trans (hread n)))

/-- The digits of an address, six of them. -/
theorem toHex_eq (icao : Icao) :
    ∃ n, n < 2 ^ 24 ∧ icao.toHex = padHex 6 n := by
  refine ⟨(icao.val &&& 0xFFFFFF).toNat, ?_, rfl⟩
  rw [UInt32.toNat_and]
  exact Nat.lt_of_le_of_lt Nat.and_le_right (by decide)

/-- Two aircraft whose texts may change places have the same. -/
theorem texts_swap (a b : UInt32) (held held' : Bool) (rest : String)
    (h : aircraftText a held ++ (aircraftText b held' ++ rest) =
      aircraftText b held' ++ (aircraftText a held ++ rest)) :
    (⟨0x100000 + a⟩ : Icao).toHex = (⟨0x100000 + b⟩ : Icao).toHex ∧ held = held' := by
  rcases toHex_eq ⟨0x100000 + a⟩ with ⟨m, hm, hhex⟩
  rcases toHex_eq ⟨0x100000 + b⟩ with ⟨n, hn, hhex'⟩
  have hlist := congrArg String.toList h
  unfold aircraftText toUppercase at hlist
  simp only [String.toList_append, String.toList_ofList, List.append_assoc, hhex, hhex'] at hlist
  -- Both begin alike, and then come six digits each.
  have hdigits := List.append_inj (List.append_cancel_left hlist) (by
    rw [List.length_map, List.length_map, length_padHex 6 m (by decide) hm,
      length_padHex 6 n (by decide) hn])
  have hmn : m = n := toUpper_padHex_injective 6 m n hdigits.1
  refine ⟨by rw [hhex, hhex', hmn], ?_⟩
  -- After the digits the kinds differ in the first letter.
  have hkinds := List.append_cancel_left hdigits.2
  cases held <;> cases held' <;> first | rfl | exact absurd (List.cons.inj hkinds).1 (by decide)

/-- The clients are written in the order they are gone through, by the numbers of
    their sensors. -/
theorem writeClients_ids (rand : Rand F R) (rows : List (SensorRow F))
    (sensors : Nat → Option (Sensor F)) (hsensors : sensorsOf rows = some sensors) (rng : R)
    (es : List (Nat × ClientAcc F)) (files : List (ClientFile F))
    (h : writeClients rand sensors rng es = some files) :
    files.map (fun f => f.entry.id) = es.map fun e => "os-" ++ toString e.1 := by
  induction es generalizing rng files with
  | nil =>
      cases h
      rfl
  | cons e es ih =>
      rcases e with ⟨serial, acc⟩
      unfold writeClients at h
      cases hs : sensors serial with
      | none =>
          rw [hs] at h
          exact absurd h (Option.some_ne_none files).symm
      | some sensor =>
          simp only [hs] at h
          rcases Option.map_eq_some_iff.mp h with ⟨more, hmore, rfl⟩
          rw [List.map_cons, List.map_cons, ih _ more hmore]
          exact congrArg (· :: _) (sensorsOf_user rows sensors hsensors serial sensor hs)

theorem writeClients_isSome (rand : Rand F R) (sensors : Nat → Option (Sensor F)) (rng : R)
    (es : List (Nat × ClientAcc F)) (h : ∀ e ∈ es, (sensors e.1).isSome = true) :
    (writeClients rand sensors rng es).isSome = true := by
  induction es generalizing rng with
  | nil => rfl
  | cons e es ih =>
      rcases e with ⟨serial, acc⟩
      rcases Option.isSome_iff_exists.mp (h _ List.mem_cons_self) with ⟨sensor, hs⟩
      unfold writeClients
      simp only [hs, Option.isSome_map]
      exact ih _ fun e he => h e (List.mem_cons_of_mem _ he)

/-- Two aircraft in the order given, and in the other one. -/
theorem scenarioText_swap (seed durationS : Nat) (a b : UInt32 × Bool)
    (rest : List (UInt32 × Bool))
    (h : scenarioText seed durationS (a :: b :: rest) = scenarioText seed durationS (b :: a :: rest)) :
    (⟨0x100000 + a.1⟩ : Icao).toHex = (⟨0x100000 + b.1⟩ : Icao).toHex ∧ a.2 = b.2 := by
  refine texts_swap a.1 b.1 a.2 b.2 (String.join (rest.map fun h => aircraftText h.1 h.2)) ?_
  have hlist := congrArg String.toList h
  rw [scenarioText, scenarioText, String.toList_append, String.toList_append] at hlist
  have hjoin := List.append_cancel_left hlist
  refine String.toList_inj.mp ?_
  simpa only [List.map_cons, String.toList_join, List.flatMap_cons, String.toList_append] using hjoin

theorem aircraftText_congr (a b : UInt32) (held held' : Bool)
    (hhex : (⟨0x100000 + a⟩ : Icao).toHex = (⟨0x100000 + b⟩ : Icao).toHex) (hheld : held = held') :
    aircraftText a held = aircraftText b held' := by
  unfold aircraftText
  rw [hhex, hheld]

/-- Aircraft that are all written alike may come in any order. -/
theorem scenarioText_eq (seed durationS : Nat) (es es' : List (UInt32 × Bool)) (text : String)
    (hlength : es.length = es'.length) (h : ∀ e ∈ es, aircraftText e.1 e.2 = text)
    (h' : ∀ e ∈ es', aircraftText e.1 e.2 = text) :
    scenarioText seed durationS es = scenarioText seed durationS es' := by
  have hmap : ∀ es : List (UInt32 × Bool), (∀ e ∈ es, aircraftText e.1 e.2 = text) →
      (es.map fun e => aircraftText e.1 e.2) = List.replicate es.length text := by
    intro es hes
    refine List.eq_replicate_iff.mpr ⟨List.length_map _, fun t ht => ?_⟩
    rcases List.mem_map.mp ht with ⟨e, he, rfl⟩
    exact hes e he
  rw [scenarioText, scenarioText, hmap es h, hmap es' h', hlength]

/-- The aircraft that were met all have the same address, as far as it is written,
    and drew the same. -/
def SameTexts (rand : Rand F R) (seed durationS : Nat) (holdoutFrac : F) (rows : List (Row F)) :
    Prop :=
  let drawn := drawAll rand holdoutFrac (.init (rand.rngFor seed "locards/holdout"))
    (met durationS rows)
  ∀ a ∈ met durationS rows, ∀ b ∈ met durationS rows,
    (⟨0x100000 + a⟩ : Icao).toHex = (⟨0x100000 + b⟩ : Icao).toHex ∧
      drawn.holdout a = drawn.holdout b

/-- No two sensors have stamps that are used. -/
def OneClient (sensors : Nat → Option (Sensor F)) (durationS : Nat) (rows : List (Row F)) : Prop :=
  ∀ m n, Heard sensors durationS rows m → Heard sensors durationS rows n → m = n

section

variable (rand : Rand F R) (seed durationS : Nat) (holdoutFrac : F)
  (sensorRows : List (SensorRow F)) (rows : List (Row F)) (sensors : Nat → Option (Sensor F))
  (st : Import F R) (hsensors : sensorsOf sensorRows = some sensors)
  (himport : importRows rand seed durationS holdoutFrac sensorRows rows = some st)

include hsensors himport

theorem importRows_holdout : st.holdout =
    (drawAll rand holdoutFrac (.init (rand.rngFor seed "locards/holdout"))
      (met durationS rows)).holdout := by
  unfold importRows at himport
  simp only [hsensors] at himport
  exact (rowsFrom_coins rand sensors durationS holdoutFrac rows _ st _ ⟨rfl, rfl⟩ himport).1

theorem holdout_isSome (ac : UInt32) :
    (st.holdout ac).isSome = true ↔ ac ∈ met durationS rows := by
  rw [importRows_holdout rand seed durationS holdoutFrac sensorRows rows sensors st hsensors
    himport, drawAll_isSome]
  exact or_iff_right Bool.false_ne_true

theorem clients_isSome (serial : Nat) :
    (st.clients serial).isSome = true ↔ Heard sensors durationS rows serial := by
  unfold importRows at himport
  simp only [hsensors] at himport
  rw [rowsFrom_clients rand sensors durationS holdoutFrac rows _ st serial himport]
  exact or_iff_right Bool.false_ne_true

/-- A capture is written. -/
theorem write_isSome (sha256 : String → String) (i : Iteration st.holdout)
    (k : Iteration st.clients) :
    (st.write rand sha256 seed durationS sensors i k).isSome = true := by
  unfold Import.write
  rw [Option.isSome_map]
  refine writeClients_isSome rand sensors _ _ fun e he => ?_
  have hclient : (st.clients e.1).isSome = true := by
    rw [(k.mem_entries e).mp he, Option.isSome_some]
  exact ((clients_isSome rand seed durationS holdoutFrac sensorRows rows sensors st hsensors himport
    e.1).mp hclient).1

/-- The maps have orders. -/
theorem orders : Nonempty (Iteration st.holdout) ∧ Nonempty (Iteration st.clients) := by
  refine ⟨Iteration.exists_of_cover (met durationS rows) fun ac hac => ?_,
    Iteration.exists_of_cover
      ((counted durationS rows).flatMap fun row => row.meas.map Prod.fst) fun serial hs => ?_⟩
  · exact (holdout_isSome rand seed durationS holdoutFrac sensorRows rows sensors st hsensors
      himport ac).mp hac
  · rcases (clients_isSome rand seed durationS holdoutFrac sensorRows rows sensors st hsensors
      himport serial).mp hs with ⟨_, row, hrow, _, hmem⟩
    exact List.mem_flatMap.mpr ⟨row, hrow, hmem⟩

end

/-- The ids of clients in the manifest. -/
def clientIds (es : List (Nat × ClientAcc F)) : List String :=
  es.map fun e => "os-" ++ toString e.1

/-- If no order of the flags shows, no two aircraft are written apart. -/
theorem texts_of_orders (seed durationS : Nat) {holdout : UInt32 → Option Bool}
    (i : Iteration holdout) (h : ∀ i j : Iteration holdout,
      scenarioText seed durationS i.entries = scenarioText seed durationS j.entries)
    (a b : UInt32) (ha : (holdout a).isSome = true) (hb : (holdout b).isSome = true) :
    (⟨0x100000 + a⟩ : Icao).toHex = (⟨0x100000 + b⟩ : Icao).toHex ∧ holdout a = holdout b := by
  by_cases hab : a = b
  · rw [hab]
    exact ⟨rfl, rfl⟩
  · rcases i.exists_two a b ha hb hab with ⟨rest, i, j, hi, hj⟩
    rcases Option.isSome_iff_exists.mp ha with ⟨held, hheld⟩
    rcases Option.isSome_iff_exists.mp hb with ⟨held', hheld'⟩
    have htexts := h i j
    rw [Iteration.entries, Iteration.entries, hi, hj] at htexts
    simp only [List.filterMap_cons, hheld, hheld', Option.map_some] at htexts
    have hswap := scenarioText_swap seed durationS (a, held) (b, held') _ htexts
    have hdraw : held = held' := hswap.2
    exact ⟨hswap.1, by rw [hheld, hheld', hdraw]⟩

/-- And if no two aircraft are written apart, no order shows. -/
theorem orders_of_texts (seed durationS : Nat) {holdout : UInt32 → Option Bool}
    (h : ∀ a b, (holdout a).isSome = true → (holdout b).isSome = true →
      (⟨0x100000 + a⟩ : Icao).toHex = (⟨0x100000 + b⟩ : Icao).toHex ∧ holdout a = holdout b)
    (i j : Iteration holdout) :
    scenarioText seed durationS i.entries = scenarioText seed durationS j.entries := by
  have hlength : i.entries.length = j.entries.length := by
    rw [i.length_entries, j.length_entries]
    exact (i.perm j).length_eq
  have hall : ∀ (i j : Iteration holdout), ∀ e ∈ i.entries, ∀ e' ∈ j.entries,
      aircraftText e.1 e.2 = aircraftText e'.1 e'.2 := by
    intro i j e he e' he'
    have hheld := (i.mem_entries e).mp he
    have hheld' := (j.mem_entries e').mp he'
    have hboth := h e.1 e'.1 (by rw [hheld, Option.isSome_some]) (by rw [hheld', Option.isSome_some])
    rw [hheld, hheld', Option.some.injEq] at hboth
    exact aircraftText_congr e.1 e'.1 e.2 e'.2 hboth.1 hboth.2
  cases hi : i.entries with
  | nil =>
      rw [hi, List.length_nil] at hlength
      rw [List.eq_nil_of_length_eq_zero hlength.symm]
  | cons e es =>
      rw [← hi]
      have he : e ∈ i.entries := hi ▸ List.mem_cons_self
      exact scenarioText_eq seed durationS _ _ (aircraftText e.1 e.2) hlength
        (fun e' he' => hall i i e' he' e he) fun e' he' => hall j i e' he' e he

omit [F64Fn F] in
/-- If no order of the clients shows, there is no second one. -/
theorem client_of_orders {clients : Nat → Option (ClientAcc F)} (k : Iteration clients)
    (h : ∀ k l : Iteration clients, clientIds k.entries = clientIds l.entries) (m n : Nat)
    (hm : (clients m).isSome = true) (hn : (clients n).isSome = true) : m = n := by
  by_contra hmn
  rcases k.exists_two m n hm hn hmn with ⟨rest, k, l, hk, hl⟩
  rcases Option.isSome_iff_exists.mp hm with ⟨acc, hacc⟩
  rcases Option.isSome_iff_exists.mp hn with ⟨acc', hacc'⟩
  have hids := h k l
  rw [Iteration.entries, Iteration.entries, hk, hl] at hids
  simp only [clientIds, List.filterMap_cons, hacc, hacc', Option.map_some, List.map_cons] at hids
  -- The first client in the manifest is the one or the other.
  have hfirst := congrArg String.toList (List.cons.inj hids).1
  rw [String.toList_append, String.toList_append] at hfirst
  exact hmn (toString_injective m n (String.toList_inj.mp (List.append_cancel_left hfirst)))

/-- Captures that are the same have the scenario and the client ids in the same order. -/
theorem Import.write_same (rand : Rand F R) (sha256 : String → String) (seed durationS : Nat)
    (sensorRows : List (SensorRow F)) (sensors : Nat → Option (Sensor F))
    (hsensors : sensorsOf sensorRows = some sensors) (st : Import F R)
    (i j : Iteration st.holdout) (k l : Iteration st.clients)
    (hsome : (st.write rand sha256 seed durationS sensors i k).isSome = true)
    (h : st.write rand sha256 seed durationS sensors i k =
      st.write rand sha256 seed durationS sensors j l) :
    scenarioText seed durationS i.entries = scenarioText seed durationS j.entries ∧
      clientIds k.entries = clientIds l.entries := by
  rcases Option.isSome_iff_exists.mp hsome with ⟨c, hc⟩
  have hc' := h.symm.trans hc
  rcases Option.map_eq_some_iff.mp hc with ⟨files, hfiles, rfl⟩
  rcases Option.map_eq_some_iff.mp hc' with ⟨files', hfiles', heq⟩
  have hclients : files' = files := congrArg Capture.clients heq
  refine ⟨(congrArg Capture.scenario heq).symm, ?_⟩
  rw [clientIds, clientIds, ← writeClients_ids rand sensorRows sensors hsensors _ _ files hfiles,
    ← writeClients_ids rand sensorRows sensors hsensors _ _ files' hfiles', hclients]

/-- The capture is the same for all orders of the two maps if and only if there is
    one client at most and the aircraft are all written alike. -/
theorem capture_deterministic_iff (rand : Rand F R) (sha256 : String → String)
    (seed durationS : Nat) (holdoutFrac : F) (sensorRows : List (SensorRow F)) (rows : List (Row F))
    (sensors : Nat → Option (Sensor F)) (st : Import F R)
    (hsensors : sensorsOf sensorRows = some sensors)
    (himport : importRows rand seed durationS holdoutFrac sensorRows rows = some st) :
    (∀ (i j : Iteration st.holdout) (k l : Iteration st.clients),
        st.write rand sha256 seed durationS sensors i k =
          st.write rand sha256 seed durationS sensors j l) ↔
      SameTexts rand seed durationS holdoutFrac rows ∧ OneClient sensors durationS rows := by
  have hholdout := importRows_holdout rand seed durationS holdoutFrac sensorRows rows sensors st
    hsensors himport
  have hmet := holdout_isSome rand seed durationS holdoutFrac sensorRows rows sensors st hsensors
    himport
  have hheard := clients_isSome rand seed durationS holdoutFrac sensorRows rows sensors st hsensors
    himport
  constructor
  · intro h
    rcases orders rand seed durationS holdoutFrac sensorRows rows sensors st hsensors himport with
      ⟨⟨i⟩, ⟨k⟩⟩
    have hsame : ∀ (i j : Iteration st.holdout) (k l : Iteration st.clients),
        scenarioText seed durationS i.entries = scenarioText seed durationS j.entries ∧
          clientIds k.entries = clientIds l.entries := fun i j k l =>
      st.write_same rand sha256 seed durationS sensorRows sensors hsensors i j k l
        (write_isSome rand seed durationS holdoutFrac sensorRows rows sensors st hsensors himport
          sha256 i k) (h i j k l)
    constructor
    · intro a ha b hb
      rw [← hholdout]
      exact texts_of_orders seed durationS i (fun i j => (hsame i j k k).1) a b ((hmet a).mpr ha)
        ((hmet b).mpr hb)
    · intro m n hm hn
      exact client_of_orders k (fun k l => (hsame i i k l).2) m n ((hheard m).mpr hm)
        ((hheard n).mpr hn)
  · rintro ⟨htexts, hclient⟩ i j k l
    have hkeys := k.keys_eq l fun a b ha hb => hclient a b ((hheard a).mp ha) ((hheard b).mp hb)
    have hentries : k.entries = l.entries := by
      rw [Iteration.entries, Iteration.entries, hkeys]
    have hscenario : scenarioText seed durationS i.entries =
        scenarioText seed durationS j.entries := by
      refine orders_of_texts seed durationS (fun a b ha hb => ?_) i j
      rw [hholdout]
      exact htexts a ((hmet a).mp ha) b ((hmet b).mp hb)
    unfold Import.write
    rw [hentries, hscenario]

end

section Example

/-- The first draws of the streams, as numbers of 2^-52. -/
def importDraws : String → List Nat
  | "locards/holdout" => [1596826749797305, 3771342530264812]
  | "locards/net" => [2237779797671557, 700928572005598]
  | _ => []

def importRand : Rand ℚ (List Nat) where
  rngFor seed name := if seed = 1 then importDraws name else []
  genRange := uniform
  genRangeInclusive := uniform

/-- A position of an aircraft at 9000 m, heard by some sensors. -/
def importRow (ac : UInt32) (t : ℚ) (serials : List Nat) : Row ℚ :=
  { tServer := some t, acId := some ac, lat := some (1 / 10), lon := some (1 / 2), baroM := some 9000
    meas := serials.map fun serial => (serial, t * 10 ^ 9) }

/-- One aircraft, and only one of the sensors known. -/
theorem capture_deterministic_single :
    ∃ sensors st, sensorsOf twoSensors = some sensors ∧
      importRows importRand 1 60 (1 / 2 : ℚ) twoSensors [importRow 7 1 [1, 9]] = some st ∧
      ∀ (i j : Iteration st.holdout) (k l : Iteration st.clients),
        st.write importRand id 1 60 sensors i k = st.write importRand id 1 60 sensors j l := by
  rcases Option.isSome_iff_exists.mp (show (sensorsOf twoSensors).isSome = true by decide +kernel)
    with ⟨sensors, hsensors⟩
  rcases Option.isSome_iff_exists.mp (show (importRows importRand 1 60 (1 / 2 : ℚ) twoSensors
    [importRow 7 1 [1, 9]]).isSome = true by decide +kernel) with ⟨st, hst⟩
  refine ⟨sensors, st, hsensors, hst, ?_⟩
  refine (capture_deterministic_iff importRand id 1 60 (1 / 2) twoSensors [importRow 7 1 [1, 9]]
    sensors st hsensors hst).mpr ⟨?_, ?_⟩
  · have hmet : met 60 [importRow 7 1 [1, 9]] = [7] := by decide +kernel
    intro a ha b hb
    rw [hmet, List.mem_singleton] at ha hb
    rw [ha, hb]
    exact ⟨rfl, rfl⟩
  · have hunknown : ∀ sensors ∈ sensorsOf twoSensors, (sensors 9).isSome = false := by
      decide +kernel
    -- The other stamp is of a sensor that is not known.
    have hone : ∀ n, Heard sensors 60 [importRow 7 1 [1, 9]] n → n = 1 := by
      rintro n ⟨hknown, row, hrow, _, hn⟩
      have hcounted : counted 60 [importRow 7 1 [1, 9]] = [importRow 7 1 [1, 9]] := rfl
      rw [hcounted, List.mem_singleton] at hrow
      rw [hrow] at hn
      rcases List.mem_pair.mp hn with rfl | rfl
      · rfl
      · rw [hunknown sensors hsensors] at hknown
        exact absurd hknown Bool.false_ne_true
    intro m n hm hn
    rw [hone m hm, hone n hn]

/-- What can be told apart in a capture: the scenario, the clients of the manifest,
    and the times of the records of one of them. -/
def told (user : String) (c : Capture ℚ) : String × List String × List (List Nat) :=
  (c.scenario, c.manifest.clients.map (·.id),
    (c.clients.filter fun f => f.entry.id = user).map fun f => f.records.map Prod.fst)

/-- The same of what is written in given orders of keys. -/
def toldOf (sensors : Nat → Option (Sensor ℚ)) (st : Import ℚ (List Nat)) (acs : List UInt32)
    (serials : List Nat) (user : String) : Option (String × List String × List (List Nat)) :=
  (writeClients importRand sensors (importRand.rngFor 1 "locards/net")
    (serials.filterMap fun k => (st.clients k).map fun v => (k, v))).map fun files =>
      (scenarioText 1 60 (acs.filterMap fun k => (st.holdout k).map fun v => (k, v)),
        (files.map (·.entry)).map (·.id),
        (files.filter fun f => f.entry.id = user).map fun f => f.records.map Prod.fst)

theorem map_told_write (sensors : Nat → Option (Sensor ℚ)) (st : Import ℚ (List Nat))
    (i : Iteration st.holdout) (k : Iteration st.clients) (user : String) :
    (st.write importRand id 1 60 sensors i k).map (told user) =
      toldOf sensors st i.keys k.keys user := by
  unfold Import.write toldOf
  rw [Option.map_map]
  rfl

/-- Two aircraft and two sensors: in the other orders the aircraft and the clients
    change places, and the first sensor's records are sent 14 ms earlier. -/
theorem capture_differs :
    ∃ sensors st, sensorsOf twoSensors = some sensors ∧
      importRows importRand 1 60 (1 / 2 : ℚ) twoSensors
        [importRow 7 1 [1, 2], importRow 8 2 [1, 2]] = some st ∧
      ∃ (i j : Iteration st.holdout) (k l : Iteration st.clients) (c d : Capture ℚ),
        st.write importRand id 1 60 sensors i k = some c ∧
          st.write importRand id 1 60 sensors j l = some d ∧ c.scenario ≠ d.scenario ∧
          (told "os-1" c).2 = (["os-1", "os-2"], [[1029875477, 1029875477, 2029875477]]) ∧
          (told "os-1" d).2 = (["os-2", "os-1"], [[1016225496, 1016225496, 2016225496]]) := by
  rcases Option.isSome_iff_exists.mp (show (sensorsOf twoSensors).isSome = true by decide +kernel)
    with ⟨sensors, hsensors⟩
  rcases Option.isSome_iff_exists.mp (show (importRows importRand 1 60 (1 / 2 : ℚ) twoSensors
    [importRow 7 1 [1, 2], importRow 8 2 [1, 2]]).isSome = true by decide +kernel) with ⟨st, hst⟩
  have htold : ∀ sensors ∈ sensorsOf twoSensors, ∀ st ∈ importRows importRand 1 60 (1 / 2 : ℚ)
      twoSensors [importRow 7 1 [1, 2], importRow 8 2 [1, 2]],
      (toldOf sensors st [7, 8] [1, 2] "os-1").map Prod.snd =
          some (["os-1", "os-2"], [[1029875477, 1029875477, 2029875477]]) ∧
        (toldOf sensors st [8, 7] [2, 1] "os-1").map Prod.snd =
          some (["os-2", "os-1"], [[1016225496, 1016225496, 2016225496]]) ∧
        (toldOf sensors st [7, 8] [1, 2] "os-1").map Prod.fst ≠
          (toldOf sensors st [8, 7] [2, 1] "os-1").map Prod.fst := by decide +kernel
  have hmet : met 60 [importRow 7 1 [1, 2], importRow 8 2 [1, 2]] = [7, 8] := by decide +kernel
  have hholdout : ∀ ac, ac ∈ ([7, 8] : List UInt32) ↔ (st.holdout ac).isSome = true := by
    intro ac
    rw [holdout_isSome importRand 1 60 (1 / 2) twoSensors _ sensors st hsensors hst, hmet]
  have hboth : ∀ sensors ∈ sensorsOf twoSensors,
      (sensors 1).isSome = true ∧ (sensors 2).isSome = true := by decide +kernel
  have hclients : ∀ n, n ∈ [1, 2] ↔ (st.clients n).isSome = true := by
    intro n
    rw [clients_isSome importRand 1 60 (1 / 2) twoSensors _ sensors st hsensors hst]
    have hcounted : counted 60 [importRow 7 1 [1, 2], importRow 8 2 [1, 2]] =
        [importRow 7 1 [1, 2], importRow 8 2 [1, 2]] := rfl
    rw [Heard, hcounted]
    constructor
    · intro hn
      have hknown : (sensors n).isSome = true := by
        rcases List.mem_pair.mp hn with rfl | rfl
        · exact (hboth sensors hsensors).1
        · exact (hboth sensors hsensors).2
      exact ⟨hknown, importRow 7 1 [1, 2], List.mem_cons_self, by decide +kernel, hn⟩
    · rintro ⟨_, row, hrow, _, hn⟩
      rcases List.mem_pair.mp hrow with rfl | rfl
      · exact hn
      · exact hn
  let i : Iteration st.holdout := ⟨[7, 8], by decide, hholdout⟩
  let k : Iteration st.clients := ⟨[1, 2], by decide, hclients⟩
  let j := i.reorder [8, 7] (List.Perm.swap 7 8 [])
  let l := k.reorder [2, 1] (List.Perm.swap 1 2 [])
  have hwritten := write_isSome importRand 1 60 (1 / 2) twoSensors _ sensors st hsensors hst id
  rcases Option.isSome_iff_exists.mp (hwritten i k) with ⟨c, hc⟩
  rcases Option.isSome_iff_exists.mp (hwritten j l) with ⟨d, hd⟩
  have hfirst := map_told_write sensors st i k "os-1"
  have hsecond := map_told_write sensors st j l "os-1"
  rw [hc, Option.map_some] at hfirst
  rw [hd, Option.map_some] at hsecond
  rcases htold sensors hsensors st hst with ⟨hone, htwo, hne⟩
  refine ⟨sensors, st, hsensors, hst, i, j, k, l, c, d, hc, hd, fun heq => hne ?_, ?_, ?_⟩
  · change (toldOf sensors st i.keys k.keys "os-1").map Prod.fst =
      (toldOf sensors st j.keys l.keys "os-1").map Prod.fst
    rw [← hfirst, ← hsecond]
    exact congrArg some heq
  · change (toldOf sensors st i.keys k.keys "os-1").map Prod.snd = _ at hone
    rw [← hfirst] at hone
    exact Option.some.inj hone
  · change (toldOf sensors st j.keys l.keys "os-1").map Prod.snd = _ at htwo
    rw [← hsecond] at htwo
    exact Option.some.inj htwo

end Example

end Locards

end MlatBench
