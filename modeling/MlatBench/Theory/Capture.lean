import MlatBench.Core.Capture

/-!
# Captures Read Back

A stream of records is read back as it was written, whatever its payloads look
like: every field has its width, and the header line ends at its newline because
JSON text has none. A stream that is cut is read up to the cut. A cut within a
record shows as an error, but for a cut within the time, which looks like the
end of the stream.

## Main definitions

* `Fits`: A payload whose length can be written.
* `cut`: Where in a stream a number of bytes ends.
* `Reported`: What is read of a cut stream.

## Theorems

* `next_bytes`, `calls_serialise`: Records are read back.
* `clientFile_roundtrip`: A stream is read back.
* `next_torn`: A record that is cut.
* `reported_iff`: Which cuts are reported.
-/

namespace MlatBench

namespace Capture

open Library

/-- The length of the payload can be written. -/
def Fits (r : Record) : Prop :=
  r.payload.length < 2 ^ 32

instance (r : Record) : Decidable (Fits r) :=
  inferInstanceAs (Decidable (_ < _))

theorem readExact_append (a z : List UInt8) (n : Nat) (h : a.length = n) :
    readExact n (a ++ z) = some (a, z) := by
  subst h
  unfold readExact
  rw [if_pos (by rw [List.length_append]; omega), List.take_left, List.drop_left]

theorem readExact_short (n : Nat) (z : List UInt8) (h : z.length < n) : readExact n z = none :=
  if_neg (by omega)

namespace RecordIter

/-- A record is read back, and the rest is left. -/
theorem next_bytes (r : Record) (h : Fits r) (z : List UInt8) :
    next (r.bytes ++ z) = (some (.ok r), z) := by
  have htime : leValue (leBytes 8 r.tNanos.toNat) = r.tNanos.toNat :=
    leValue_leBytes 8 _ (r.tNanos.toNat_lt)
  have hlen : leValue (leBytes 4 (r.payload.length % 2 ^ 32)) = r.payload.length := by
    rw [Nat.mod_eq_of_lt h, leValue_leBytes 4 _ h]
  unfold next Record.bytes
  simp only [List.append_assoc]
  rw [readExact_append _ _ 8 (length_leBytes 8 _)]
  simp only []
  rw [readExact_append [r.kind] _ 1 rfl]
  simp only []
  rw [readExact_append _ _ 4 (length_leBytes 4 _)]
  simp only []
  rw [readExact_append r.payload z _ hlen.symm, htime, UInt64.ofNat_toNat]
  rfl

theorem calls_serialise (rs : List Record) (h : ∀ r ∈ rs, Fits r) (z : List UInt8) (n : Nat) :
    calls (rs.length + n) (serialise rs ++ z) =
      rs.map (fun r => some (.ok r)) ++ calls n z := by
  induction rs with
  | nil =>
      rw [List.length_nil, Nat.zero_add]
      rfl
  | cons r rs ih =>
      have hlen : (r :: rs).length + n = (rs.length + n) + 1 := by
        rw [List.length_cons]
        omega
      have hcons : serialise (r :: rs) ++ z = r.bytes ++ (serialise rs ++ z) := by
        rw [serialise, List.flatMap_cons, List.append_assoc]
        rfl
      rw [hlen, hcons, calls, next_bytes r (h r List.mem_cons_self), List.map_cons,
        List.cons_append, ih fun r' hr' => h r' (List.mem_cons_of_mem r hr')]

theorem calls_end : calls 1 [] = [none] := rfl

end RecordIter

/-- A line of text is read up to its newline. -/
theorem readLine_utf8 (s : String) (hraw : newline ∉ utf8 s) (z : List UInt8) :
    readLine (utf8 s ++ newline :: z) = .ok (utf8 s ++ [newline], z) := by
  have hstop : ∀ b ∈ utf8 s, decide (b ≠ newline) = true := by
    intro b hb
    rw [decide_eq_true_eq]
    rintro rfl
    exact hraw hb
  have htake : (utf8 s ++ newline :: z).takeWhile (· ≠ newline) = utf8 s := by
    rw [List.takeWhile_append_of_pos hstop]
    exact List.append_nil _
  have hdrop : (utf8 s ++ newline :: z).dropWhile (· ≠ newline) = newline :: z := by
    rw [List.dropWhile_append_of_pos hstop]
    rfl
  -- The line is the text with a newline, which is text.
  have hvalid : (ByteArray.mk (utf8 s ++ [newline]).toArray).IsValidUTF8 := by
    have hbytes : ByteArray.mk (utf8 s ++ [newline]).toArray = (s ++ "\n").toByteArray := by
      rw [String.toByteArray_append]
      apply ByteArray.ext
      rw [ByteArray.data_append]
      apply Array.ext'
      rw [Array.toList_append]
      rfl
    rw [hbytes]
    exact (s ++ "\n").isValidUTF8
  unfold readLine
  rw [htake, hdrop]
  exact if_pos hvalid

/-- A stream is read back: its records, and then the end. -/
theorem clientFile_roundtrip (json : Json → String) (hraw : ∀ v, newline ∉ utf8 (json v))
    (id : String) (rs : List Record) (h : ∀ r ∈ rs, Fits r) :
    ∃ z, clientRecords (clientFile json id rs) = .ok z ∧
      RecordIter.calls (rs.length + 1) z = rs.map (fun r => some (.ok r)) ++ [none] := by
  refine ⟨serialise rs, ?_, ?_⟩
  · unfold clientRecords clientFile clientWriter
    rw [List.append_assoc, List.append_assoc, readExact_append mbcMagic _ 4 rfl]
    simp only [ne_eq, not_true_eq_false, if_false]
    rw [List.singleton_append, readLine_utf8 _ (hraw _)]
  · have hcalls := RecordIter.calls_serialise rs h [] 1
    rw [List.append_nil, RecordIter.calls_end] at hcalls
    exact hcalls

/-- The header as it is written for one client. -/
def stationJson : Json → String
  | .obj [("id", .str "rx-000")] => "\x7b\"id\":\"rx-000\"\x7d"
  | _ => "null"

theorem newline_not_mem_stationJson (v : Json) : newline ∉ utf8 (stationJson v) := by
  unfold stationJson
  split
  · decide
  · decide

/-- A stream whose payload looks like the magic and a newline. -/
theorem clientFile_roundtrip_station : ∃ z,
    clientRecords (clientFile stationJson "rx-000"
      [⟨0, recConnect, mbcMagic ++ [newline]⟩, ⟨0x8000000000000000, 0x7f, []⟩]) = .ok z ∧
    RecordIter.calls 3 z = [some (.ok ⟨0, recConnect, mbcMagic ++ [newline]⟩),
      some (.ok ⟨0x8000000000000000, 0x7f, []⟩), none] :=
  clientFile_roundtrip stationJson newline_not_mem_stationJson "rx-000"
    [⟨0, recConnect, mbcMagic ++ [newline]⟩, ⟨0x8000000000000000, 0x7f, []⟩] (by decide)

/-- Where in the records a number of bytes ends: how many are complete, and how
    many bytes of the next one there are. -/
def cut : List Record → Nat → Nat × Nat
  | [], n => (0, n)
  | r :: rs, n =>
    if n < r.bytes.length then (0, n)
    else ((cut rs (n - r.bytes.length)).1 + 1, (cut rs (n - r.bytes.length)).2)

/-- The complete records are read, and then comes the end if the cut is between
    records, and an error if it is within one. -/
def Reported (rs : List Record) (n : Nat) : Prop :=
  ∃ last, RecordIter.calls ((cut rs n).1 + 1) ((serialise rs).take n) =
      (rs.take (cut rs n).1).map (fun r => some (.ok r)) ++ [last] ∧
    ((cut rs n).2 = 0 → last = none) ∧ ((cut rs n).2 ≠ 0 → ∃ e, last = some (.error e))

theorem length_bytes (r : Record) : r.bytes.length = 13 + r.payload.length := by
  unfold Record.bytes
  simp only [List.length_append, length_leBytes, List.length_singleton]
  omega

/-- A record that is cut: within the time it is the end, later an error. -/
theorem next_torn (r : Record) (h : Fits r) (n : Nat) (hn : n < r.bytes.length) :
    (n < 8 → (RecordIter.next (r.bytes.take n)).1 = none) ∧
    (8 ≤ n → (RecordIter.next (r.bytes.take n)).1 = some (.error .unexpectedEof)) := by
  have htake : (r.bytes.take n).length = n := by
    rw [List.length_take]
    omega
  have hlen : leValue (leBytes 4 (r.payload.length % 2 ^ 32)) = r.payload.length := by
    rw [Nat.mod_eq_of_lt h, leValue_leBytes 4 _ h]
  rw [length_bytes] at hn
  unfold RecordIter.next
  constructor
  · intro hshort
    rw [readExact_short 8 _ (by omega)]
  · intro hlong
    obtain ⟨m, rfl⟩ := Nat.exists_eq_add_of_le hlong
    have hsplit : r.bytes.take (8 + m) = leBytes 8 r.tNanos.toNat ++
        ([r.kind] ++ (leBytes 4 (r.payload.length % 2 ^ 32) ++ r.payload)).take m := by
      unfold Record.bytes
      rw [List.take_append, length_leBytes, List.take_of_length_le (by rw [length_leBytes]; omega)]
      congr 2
      omega
    rw [hsplit, readExact_append _ _ 8 (length_leBytes 8 _)]
    simp only []
    rcases Nat.eq_zero_or_pos m with rfl | hm
    · rfl
    · obtain ⟨m, rfl⟩ := Nat.exists_eq_add_of_le' hm
      rw [List.singleton_append, List.take_succ_cons, ← List.singleton_append,
        readExact_append [r.kind] _ 1 rfl]
      simp only []
      by_cases hfour : m < 4
      · rw [readExact_short 4]
        rw [List.length_take, List.length_append, length_leBytes]
        omega
      · obtain ⟨k, rfl⟩ := Nat.exists_eq_add_of_le (Nat.le_of_not_lt hfour)
        have hpay : (leBytes 4 (r.payload.length % 2 ^ 32) ++ r.payload).take (4 + k) =
            leBytes 4 (r.payload.length % 2 ^ 32) ++ r.payload.take k := by
          rw [List.take_append, length_leBytes,
            List.take_of_length_le (by rw [length_leBytes]; omega)]
          congr 2
          omega
        rw [hpay, readExact_append _ _ 4 (length_leBytes 4 _)]
        simp only []
        rw [hlen, readExact_short]
        rw [List.length_take]
        omega

/-- A cut is reported unless it is within the time of a record. -/
theorem reported_iff (rs : List Record) (h : ∀ r ∈ rs, Fits r) (n : Nat)
    (hn : n < (serialise rs).length) :
    Reported rs n ↔ ¬ (0 < (cut rs n).2 ∧ (cut rs n).2 < 8) := by
  induction rs generalizing n with
  | nil => exact absurd hn (Nat.not_lt_zero n)
  | cons r rs ih =>
      have hcons : serialise (r :: rs) = r.bytes ++ serialise rs := List.flatMap_cons
      rw [hcons, List.length_append] at hn
      by_cases hfirst : n < r.bytes.length
      · -- The cut is in the first record, or before it.
        have hcut : cut (r :: rs) n = (0, n) := if_pos hfirst
        have htake : (serialise (r :: rs)).take n = r.bytes.take n := by
          rw [hcons, List.take_append_of_le_length hfirst.le]
        unfold Reported
        rw [hcut, htake]
        have htorn := next_torn r (h r List.mem_cons_self) n hfirst
        have hcalls : RecordIter.calls 1 (r.bytes.take n) =
            [(RecordIter.next (r.bytes.take n)).1] := rfl
        simp only [Nat.zero_add, List.take_zero, List.map_nil, List.nil_append, hcalls,
          List.cons.injEq, and_true]
        constructor
        · rintro ⟨last, hlast, _, herr⟩ ⟨hpos, hshort⟩
          rcases herr hpos.ne' with ⟨e, he⟩
          rw [htorn.1 hshort] at hlast
          rw [← hlast] at he
          exact absurd he (Option.some_ne_none _).symm
        · intro hcond
          refine ⟨_, rfl, fun hzero => ?_, fun hne => ?_⟩
          · exact htorn.1 (by omega)
          · exact ⟨_, htorn.2 (by omega)⟩
      · have hrest := ih (fun r' hr' => h r' (List.mem_cons_of_mem r hr')) (n - r.bytes.length)
          (by omega)
        have hcut : cut (r :: rs) n = ((cut rs (n - r.bytes.length)).1 + 1,
            (cut rs (n - r.bytes.length)).2) := if_neg hfirst
        have htake : (serialise (r :: rs)).take n =
            r.bytes ++ (serialise rs).take (n - r.bytes.length) := by
          rw [hcons, List.take_append, List.take_of_length_le (Nat.le_of_not_lt hfirst)]
        rw [hcut]
        refine Iff.trans ?_ hrest
        unfold Reported
        rw [hcut, htake]
        have hcalls : ∀ k z, RecordIter.calls (k + 1 + 1) (r.bytes ++ z) =
            some (.ok r) :: RecordIter.calls (k + 1) z := by
          intro k z
          rw [RecordIter.calls, RecordIter.next_bytes r (h r List.mem_cons_self)]
        simp only [hcalls, List.take_succ_cons, List.map_cons, List.cons_append, List.cons.injEq,
          true_and]

/-- A cut after three bytes of a record reads as the end of the stream. -/
theorem torn_time_unreported : ¬ Reported [⟨7, recC2s, [newline]⟩] 3 := by
  rintro ⟨last, hcalls, _, herr⟩
  rcases herr (by decide) with ⟨e, rfl⟩
  have hfirst := List.head_eq_of_cons_eq hcalls
  exact Option.some_ne_none _ hfirst.symm

/-- A cut within the payload is reported. -/
theorem reported_iff_payload : Reported [⟨7, recC2s, [newline, newline]⟩] 14 :=
  (reported_iff [⟨7, recC2s, [newline, newline]⟩] (by decide) 14 (by decide)).mpr (by decide)

end Capture

end MlatBench
