import MlatBench.Core.Csv
import MlatBench.Library.Lists
import MlatBench.Theory.Coverage
import MlatBench.Theory.Fixes

/-!
# Reading the Results Back

A fix written as a line reads back as its row: the ten columns the reader looks at
are numbers and an address, which have no comma in them, and stand in front of the
names. What the names do is behind those ten columns, in the same line, as long
as it is one line.

A line feed in a name starts another line, and the reader takes it for a row if it
has ten columns of which the right ones read as numbers and an address
(`looksLikeRow`). A file reads back as its fixes exactly if no name does that
(`results_read_back_iff`).

## Main definitions

* `RoundTrip`: What is written reads back at the precision it is written with.
* `formatted`: The row of a fix.
* `strays`: The lines that line feeds in the names start.
* `looksLikeRow`: The reader takes a line for a row.
* `published`: The fixes of a run.
* `Addressed`: The pending groups have addresses of 24 bits.

## Theorems

* `parseRow_isSome`: What the reader takes for a row.
* `published_plain`: Addresses and counts of the fixes of a run.
* `parse_csvLine`: What a line reads back as.
* `results_read_back_iff`: When a file reads back as its fixes.
-/

namespace MlatBench

open Library F64 F64Fn Server

namespace Metrics

section

variable {F : Type} [F64Fn F]

/-- What is written reads back at the precision it is written with, and has no
    comma or white space in it. -/
structure RoundTrip (num : Numbers F) (printed : Nat → F → F) : Prop where
  fixed : ∀ k x, num.parse (num.fixed k x) = some (printed k x)
  int : ∀ a : Int, num.parse (toString a) = some (lit a)
  plain : ∀ k x, ∀ c ∈ (num.fixed k x).toList, c ≠ ',' ∧ isWhiteSpace c = false

/-- The row of a fix. -/
def formatted (printed : Nat → F → F) (row : OutRow F) : ResultRow F :=
  { tWall := printed 3 row.stamp, icao := row.icao
    lat := printed 5 row.pos.latDeg, lon := printed 5 row.pos.lonDeg
    altFt := some (lit row.altFt), errEstM := some (printed 1 row.errM)
    nReceivers := some row.n, distinctReceivers := some row.n }

/-- The lines that line feeds in the names of a fix start. -/
def strays {G : Type} (row : OutRow G) : List String :=
  (lines (namesOn row).toList).tail.map String.ofList

/-- A line has ten columns of which the first, the fifth and the sixth read as
    numbers and the second as an address. -/
def looksLikeRow {G : Type} (num : Numbers G) (line : String) : Prop :=
  10 ≤ (columns line).length ∧ (num.parse ((columns line).getD 0 "")).isSome = true ∧
    (Icao.fromHex ((columns line).getD 1 "")).isSome = true ∧
    (num.parse ((columns line).getD 4 "")).isSome = true ∧
    (num.parse ((columns line).getD 5 "")).isSome = true

instance {G : Type} (num : Numbers G) (line : String) : Decidable (looksLikeRow num line) :=
  inferInstanceAs (Decidable (_ ∧ _))

/-- What the reader takes for a row. -/
theorem parseRow_isSome {G : Type} (num : Numbers G) (line : String) :
    (parseRow num line).isSome = true ↔ looksLikeRow num line := by
  unfold parseRow looksLikeRow
  simp only []
  by_cases hfew : (columns line).length < 10
  · rw [if_pos hfew]
    exact ⟨fun h => absurd h Bool.false_ne_true, fun h => absurd h.1 (Nat.not_le.mpr hfew)⟩
  · rw [if_neg hfew]
    -- Any of the four columns that does not read ends it.
    cases num.parse ((columns line).getD 0 "") <;> cases Icao.fromHex ((columns line).getD 1 "") <;>
      cases num.parse ((columns line).getD 4 "") <;> cases num.parse ((columns line).getD 5 "") <;>
      simp only [Option.isSome_none, Option.isSome_some, Bool.false_eq_true, and_false, and_true,
        Nat.not_lt.mp hfew]

/-- The columns of a fix the reader looks at, with those between them. -/
def heads {G : Type} (num : Numbers G) (row : OutRow G) : List String :=
  [num.fixed 3 row.stamp, row.icao.toHex, "", "", num.fixed 5 row.pos.latDeg,
    num.fixed 5 row.pos.lonDeg, toString row.altFt, num.fixed 1 row.errM, toString row.n,
    toString row.n]

/-- The beginning of a line, with the commas. -/
def headText {G : Type} (num : Numbers G) (row : OutRow G) : List Char :=
  ((heads num row).map String.toList).flatMap fun col => col ++ [',']

theorem csvLine_toList {G : Type} (num : Numbers G) (row : OutRow G) :
    (csvLine num row).toList = headText num row ++ (namesOn row).toList := by
  have hcomma : ",".toList = [','] := rfl
  have hthree : ",,,".toList = [',', ',', ','] := rfl
  have hnil : "".toList = [] := rfl
  unfold csvLine headText heads
  simp only [String.toList_append, List.map_cons, List.map_nil, List.flatMap_cons, List.flatMap_nil,
    hcomma, hthree, hnil, List.append_assoc, List.cons_append, List.nil_append]

theorem plain_numeral (c : Char) (h : isNumeral c = true) : c ≠ ',' ∧ isWhiteSpace c = false := by
  have hbounds : 45 ≤ c.toNat ∧ c.toNat ≤ 57 := by
    rw [isNumeral, Bool.or_eq_true, Bool.or_eq_true, beq_iff_eq, beq_iff_eq] at h
    rcases h with (h | rfl) | rfl
    · rw [Char.isDigit, Bool.and_eq_true, decide_eq_true_eq, decide_eq_true_eq] at h
      have hlo : 48 ≤ c.toNat := h.1
      exact ⟨by omega, h.2⟩
    · decide
    · decide
  refine ⟨?_, ?_⟩
  · rintro rfl
    exact absurd hbounds (by decide)
  · rw [isWhiteSpace, decide_eq_false_iff_not]
    omega

theorem plain_hex : ∀ d, d < 16 →
    Nat.digitChar d ≠ ',' ∧ isWhiteSpace (Nat.digitChar d) = false := by
  decide

theorem plain_heads (num : Numbers F) (printed : Nat → F → F) (hnum : RoundTrip num printed)
    (row : OutRow F) :
    ∀ col ∈ heads num row, ∀ c ∈ col.toList, c ≠ ',' ∧ isWhiteSpace c = false := by
  have hint : ∀ a : Int, ∀ c ∈ (toString a).toList, c ≠ ',' ∧ isWhiteSpace c = false :=
    fun a c hc => plain_numeral c (isNumeral_int a c hc)
  have hhex : ∀ c ∈ row.icao.toHex.toList, c ≠ ',' ∧ isWhiteSpace c = false := by
    intro c hc
    rcases mem_padHex 6 _ c hc with ⟨d, hd, rfl⟩
    exact plain_hex d hd
  have hnone : ∀ c ∈ "".toList, c ≠ ',' ∧ isWhiteSpace c = false :=
    fun c hc => absurd hc List.not_mem_nil
  unfold heads
  simp only [List.forall_mem_cons]
  exact ⟨hnum.plain _ _, hhex, hnone, hnone, hnum.plain _ _, hnum.plain _ _, hint row.altFt,
    hnum.plain _ _, hint row.n, hint row.n, fun _ h => absurd h List.not_mem_nil⟩

theorem dropWhile_of_forall {α : Type} (p : α → Bool) (xs : List α) (h : ∀ x ∈ xs, p x = false) :
    xs.dropWhile p = xs := by
  cases xs with
  | nil => rfl
  | cons x xs =>
      rw [List.dropWhile_cons, h x List.mem_cons_self, if_neg Bool.false_ne_true]

/-- Nothing is trimmed where there is no white space. -/
theorem trim_plain (s : String) (h : ∀ c ∈ s.toList, isWhiteSpace c = false) : trim s = s := by
  rw [trim, dropWhile_of_forall isWhiteSpace s.toList h, dropWhile_of_forall isWhiteSpace _
    fun c hc => h c (List.mem_reverse.mp hc), List.reverse_reverse, String.ofList_toList]

/-- An address of 24 bits reads back. -/
theorem fromHex_toHex (icao : Icao) (h : icao.val.toNat < 2 ^ 24) :
    Icao.fromHex icao.toHex = some icao := by
  have htrim : trim icao.toHex = icao.toHex := by
    refine trim_plain _ fun c hc => ?_
    rcases mem_padHex 6 _ c hc with ⟨d, hd, rfl⟩
    exact (plain_hex d hd).2
  -- The mask takes nothing off.
  have hmask : (icao.val &&& 0xFFFFFF).toNat = icao.val.toNat := by
    have hones : (0xFFFFFF : UInt32).toNat = 2 ^ 24 - 1 := rfl
    rw [UInt32.toNat_and, hones, Nat.and_two_pow_sub_one_eq_mod, Nat.mod_eq_of_lt h]
  rw [Icao.fromHex, htrim, Icao.toHex, Proto.hex06, readHex_padHex, hmask]
  simp only []
  rw [if_pos (Nat.le_of_lt_succ h), UInt32.ofNat_toNat]

theorem parseCount_toString (n : Nat) (h : n ≤ 16) : parseCount (toString n) = some n := by
  have hplain : ∀ c ∈ (toString n).toList, isWhiteSpace c = false :=
    fun c hc => (plain_numeral c (isNumeral_int n c hc)).2
  rw [parseCount, trim_plain _ hplain, Nat.toString_eq_repr, Nat.toList_repr]
  exact readBelow_toDigits _ n (by omega)

theorem columns_headText (num : Numbers F) (printed : Nat → F → F) (hnum : RoundTrip num printed)
    (row : OutRow F) (rest : List Char) : columns (String.ofList (headText num row ++ rest)) =
      heads num row ++ columns (String.ofList rest) := by
  have hcomma : ∀ col ∈ (heads num row).map String.toList, ',' ∉ col := by
    intro col hcol hc
    rcases List.mem_map.mp hcol with ⟨head, hhead, rfl⟩
    exact (plain_heads num printed hnum row head hhead ',' hc).1 rfl
  -- No head has a comma in it, so each is a column of its own.
  rw [columns, columns, String.toList_ofList, String.toList_ofList, headText,
    splitOn_prepend ',' _ hcomma, List.map_append, List.map_map]
  have hid : ∀ cols : List String, cols.map (String.ofList ∘ String.toList) = cols := by
    intro cols
    refine (List.map_congr_left fun col _ => ?_).trans (List.map_id cols)
    exact String.ofList_toList
  rw [hid]

/-- A line that starts with the columns of a fix reads as its row. -/
theorem parseRow_headText (num : Numbers F) (printed : Nat → F → F) (hnum : RoundTrip num printed)
    (row : OutRow F) (hrow : row.icao.val.toNat < 2 ^ 24 ∧ row.n ≤ 16) (rest : List Char) :
    parseRow num (String.ofList (headText num row ++ rest)) = some (formatted printed row) := by
  have hcols := columns_headText num printed hnum row rest
  have htrim : ∀ col ∈ heads num row, trim col = col := fun col hcol =>
    trim_plain col fun c hc => (plain_heads num printed hnum row col hcol c hc).2
  unfold heads at hcols htrim
  simp only [List.forall_mem_cons] at htrim
  rcases htrim with ⟨_, _, _, _, _, _, halt, herr, _⟩
  unfold parseRow
  rw [hcols]
  simp only [List.cons_append, List.nil_append, List.length_cons, List.getD_cons_zero,
    List.getD_cons_succ]
  -- What the reader looks at stands in the heads, so the names do not matter.
  rw [if_neg (by omega), hnum.fixed, fromHex_toHex row.icao hrow.1, hnum.fixed, hnum.fixed]
  simp only []
  rw [halt, herr, hnum.int, hnum.fixed, parseCount_toString row.n hrow.2]
  rfl

/-- The lines of a fix: its own, and those that line feeds in the names start. -/
theorem lines_csvLine (num : Numbers F) (printed : Nat → F → F) (hnum : RoundTrip num printed)
    (row : OutRow F) : ∃ rest, (lines (csvLine num row).toList).map String.ofList =
      String.ofList (headText num row ++ rest) :: strays row := by
  have hplain : ∀ c ∈ headText num row, isWhiteSpace c = false := by
    intro c hc
    rcases List.mem_flatMap.mp hc with ⟨col, hcol, hc⟩
    rcases List.mem_map.mp hcol with ⟨head, hhead, rfl⟩
    rcases List.mem_append.mp hc with hc | hc
    · exact (plain_heads num printed hnum row head hhead c hc).2
    · rw [List.mem_singleton.mp hc]
      decide
  -- The first line can end no sooner than in the names.
  have hfeed : '\n' ∉ headText num row := fun hc => absurd (hplain _ hc) (by decide)
  have hreturn : (headText num row).getLast? ≠ some '\r' := fun hlast =>
    absurd (hplain _ (List.mem_of_getLast? hlast)) (by decide)
  have hne : (namesOn row).toList ≠ [] := by
    rw [namesOn, String.toList_append, String.toList_append, String.toList_append,
      String.toList_append]
    exact List.append_ne_nil_of_right_ne_nil _ (List.cons_ne_nil _ _)
  refine ⟨(lines (namesOn row).toList).headD [], ?_⟩
  rw [csvLine_toList, lines_prepend _ _ hfeed hreturn hne, List.map_cons, strays]

/-- A fix reads back as its row, and the strays that look like one. -/
theorem parse_csvLine (num : Numbers F) (printed : Nat → F → F) (hnum : RoundTrip num printed)
    (row : OutRow F) (hrow : row.icao.val.toNat < 2 ^ 24 ∧ row.n ≤ 16) :
    ((lines (csvLine num row).toList).map String.ofList).filterMap (parseRow num) =
      formatted printed row :: (strays row).filterMap (parseRow num) := by
  rcases lines_csvLine num printed hnum row with ⟨rest, heq⟩
  rw [heq, List.filterMap_cons_some (parseRow_headText num printed hnum row hrow rest)]

/-- A file reads back as its fixes exactly if no stray looks like a row. -/
theorem parse_file_iff (num : Numbers F) (printed : Nat → F → F) (hnum : RoundTrip num printed)
    (rows : List (OutRow F)) (hrows : ∀ row ∈ rows, row.icao.val.toNat < 2 ^ 24 ∧ row.n ≤ 16) :
    parseResultsCsv num (String.join (rows.map (csvLine num))) = rows.map (formatted printed) ↔
      ∀ row ∈ rows, ∀ line ∈ strays row, ¬ looksLikeRow num line := by
  have hends : ∀ row : OutRow F, endsLine (csvLine num row).toList = true := by
    intro row
    have hlast : (namesOn row).toList = ("\"" ++ String.intercalate "," row.users ++ "\"," ++
        toString (row.n - 4) ++ ",").toList ++ ['\n'] := by
      rw [namesOn]
      simp only [String.toList_append, List.append_assoc]
      rfl
    rw [csvLine_toList, hlast, ← List.append_assoc]
    exact endsLine_concat _
  -- Every fix ends with a line feed, so the file is cut fix by fix.
  have hparse : parseResultsCsv num (String.join (rows.map (csvLine num))) =
      rows.flatMap fun row => formatted printed row :: (strays row).filterMap (parseRow num) := by
    rw [parseResultsCsv, String.toList_join, List.flatMap_map, lines_flatMap _ _ fun row _ => hends row,
      List.map_flatMap, List.filterMap_flatMap]
    exact List.flatMap_congr fun row hrow => parse_csvLine num printed hnum row (hrows row hrow)
  rw [hparse, flatMap_cons_eq_map_iff]
  refine forall₂_congr fun row _ => ?_
  rw [List.filterMap_eq_nil_iff]
  refine forall₂_congr fun line _ => ?_
  rw [← parseRow_isSome, Bool.not_eq_true, Option.isSome_eq_false_iff, Option.isNone_iff_eq_none]

end

end Metrics

section Published

variable {F : Type} [F64Fn F]

/-- The fixes of a run of the shard's loop. -/
def published (solver : Solver F) (shardId : Nat) (mlatAdsb emitFiltered : Bool)
    (es : List (State.Event F)) : List (OutRow F) :=
  fixes (exec (State.step solver) (State.new shardId mlatAdsb emitFiltered) es).out

/-- The pending groups have addresses of 24 bits. -/
def Addressed {G : Type} (s : State G) : Prop :=
  ∀ key g, s.groups key = some g → g.icao.val.toNat < 2 ^ 24

theorem Addressed.congr {G : Type} {s : State G} (h : Addressed s) (s' : State G)
    (hgroups : ∀ key g, s'.groups key = some g → s.groups key = some g) : Addressed s' :=
  fun key g hkey => h key g (hgroups key g hkey)

theorem Addressed.onMlat {s : State F} (h : Addressed s) (now : Nat) (r : RxRef) (tCounts : F)
    (mHex : String) (atScaled : F) : Addressed (s.onMlat now r tCounts mHex atScaled) := by
  rcases s.onMlat_cases now r tCounts mHex atScaled with heq | ⟨_, alts, g, ⟨_, hicao⟩, heq⟩
  · rw [heq]
    exact h
  · rw [heq]
    intro key g' hkey
    by_cases hne : key = mHex
    · simp only [hne, Function.update_self, Option.some.injEq] at hkey
      rw [← hkey]
      -- A new group has the address just parsed, an old one keeps its own.
      cases hold : s.groups mHex with
      | none => exact hicao
      | some old => exact h mHex old hold
    · simp only [Function.update_of_ne hne] at hkey
      exact h key g' hkey

theorem clockReset_groups {G : Type} (s : State G) (r : RxRef) :
    (s.clockReset r).groups = s.groups := by
  unfold State.clockReset
  split_ifs <;> rfl

theorem trainWith_groups (s : State F) (me other : Reporter F) :
    (s.trainWith me other).groups = s.groups := by
  unfold State.trainWith
  split_ifs <;> rfl

theorem joinSync_groups (s : State F) (now : Nat) (r : RxRef) (te tO : F)
    (key : String × String) : (s.joinSync now r te tO key).groups = s.groups := by
  unfold State.joinSync
  simp only []
  split_ifs
  · rfl
  · refine List.foldlRecOn _ _ (motive := fun s' : State F => s'.groups = s.groups) rfl ?_
    exact fun s' h other _ => (trainWith_groups s' _ other).trans h

theorem Addressed.onSync {s : State F} (h : Addressed s) (now : Nat) (r : RxRef) (et ot : F)
    (emHex omHex : String) (atScaled : F) :
    Addressed (s.onSync now r et ot emHex omHex atScaled) := by
  unfold State.onSync
  by_cases hlive : s.live r = false
  · rw [if_pos hlive]
    exact h
  · rw [if_neg hlive]
    cases State.syncEvent (F := F) emHex omHex with
    | none => exact h
    | some d =>
        rcases d with ⟨de, pe, po⟩
        simp only []
        generalize (⟨pe.1, pe.2, _⟩ : Geodetic F) = geo
        have hnote : Addressed (s.noteAdsb de geo atScaled) := h
        intro key g hkey
        rw [joinSync_groups] at hkey
        -- Groups change only if the message is passed on to be located.
        split_ifs at hkey
        · exact hnote.onMlat now r et emHex atScaled key g hkey
        · exact hnote key g hkey

/-- The pending groups of a run have addresses of 24 bits. -/
theorem addressed_step (solver : Solver F) (s : State F) (e : State.Event F) (h : Addressed s) :
    Addressed (s.step solver e) := by
  unfold State.step
  split_ifs
  · exact h
  · cases e with
    | add info =>
        exact h.congr _ fun key g hkey => (State.sheds_addReceiver s info).groups ▸ hkey
    | remove r =>
        exact h.congr _ fun key g hkey => (State.sheds_removeReceiver s r).groups ▸ hkey
    | reset r => exact h.congr _ fun key g hkey => (clockReset_groups s r) ▸ hkey
    | sync now r et ot emHex omHex atScaled => exact h.onSync now r et ot emHex omHex atScaled
    | mlat now r tCounts mHex atScaled => exact h.onMlat now r tCounts mHex atScaled
    | stats r => exact h.congr _ fun key g hkey => (State.quiet_receiverStats s r).groups ▸ hkey
    | sweep now window order clock =>
        exact h.congr _ (s.sweep_calls solver (fun _ => True) now window order clock
          fun _ _ _ _ _ _ _ => trivial).2

/-- The fixes of a run have addresses of 24 bits and come from sixteen receivers
    at most. -/
theorem published_plain (solver : Solver F) (shardId : Nat) (mlatAdsb emitFiltered : Bool)
    (es : List (State.Event F)) :
    ∀ row ∈ published solver shardId mlatAdsb emitFiltered es,
      row.icao.val.toNat < 2 ^ 24 ∧ row.n ≤ 16 := by
  suffices h : Addressed (exec (State.step solver) (State.new shardId mlatAdsb emitFiltered) es) ∧
      ∀ row ∈ published solver shardId mlatAdsb emitFiltered es,
        row.icao.val.toNat < 2 ^ 24 ∧ row.n ≤ 16 from h.2
  unfold published
  induction es using List.reverseRecOn with
  | nil =>
      refine ⟨fun key g hkey => ?_, fun row hrow => ?_⟩
      · exact absurd hkey (Option.some_ne_none g).symm
      · exact absurd hrow List.not_mem_nil
  | append_singleton es e ih =>
      rw [exec_append, exec_cons, exec_nil]
      refine ⟨addressed_step solver _ e ih.1, fun row hrow => ?_⟩
      -- A fix is an old one, or of a call for a group that was pending.
      rcases (step_calls solver _ e (fun icao => icao.val.toNat < 2 ^ 24) ih.1).fixes solver _ _ _ row
        hrow with hold | ⟨c, ⟨hicao, _⟩, heq, hn⟩
      · exact ih.2 row hold
      · rw [heq]
        exact ⟨hicao, hn⟩

/-- The file of a run reads back as the fixes of the run exactly if in none of them
    a line feed in a name starts a line that looks like a row. -/
theorem results_read_back_iff (num : Numbers F) (printed : Nat → F → F)
    (hnum : Metrics.RoundTrip num printed) (solver : Solver F) (shardId : Nat)
    (mlatAdsb emitFiltered : Bool) (es : List (State.Event F)) :
    Metrics.parseResultsCsv num (String.join
        ((published solver shardId mlatAdsb emitFiltered es).map (csvLine num))) =
      (published solver shardId mlatAdsb emitFiltered es).map (Metrics.formatted printed) ↔
      ∀ row ∈ published solver shardId mlatAdsb emitFiltered es,
        ∀ line ∈ Metrics.strays row, ¬ Metrics.looksLikeRow num line :=
  Metrics.parse_file_iff num printed hnum _
    (published_plain solver shardId mlatAdsb emitFiltered es)

end Published

section Example

/-- Decimal numbers. -/
def decimals : Numbers ℚ :=
  { fixed := fun k q => String.ofList (fixedDecimal k q), parse := fun s => readDecimal s.toList }

theorem roundTrip_decimals : Metrics.RoundTrip decimals rounded := by
  refine ⟨fun k q => ?_, fun a => readDecimal_int a, fun k q c hc => ?_⟩
  · have hread : decimals.parse (decimals.fixed k q) =
        readDecimal (String.ofList (fixedDecimal k q)).toList := rfl
    rw [hread, String.toList_ofList]
    exact readDecimal_fixedDecimal k q
  · have htext : decimals.fixed k q = String.ofList (fixedDecimal k q) := rfl
    rw [htext, String.toList_ofList] at hc
    exact Metrics.plain_numeral c (isNumeral_fixedDecimal k q c hc)

/-- A receiver under a name, all of them at one place. -/
def namedRx (user : String) : ReceiverInfo ℚ :=
  { user := user, geo := ⟨0, 0, 0⟩, ecef := ⟨0, 0, 0⟩, freqHz := 12000000, gps := false
    jitterS := 15 / 100000000 }

/-- Four receivers train their models on the position messages of an aircraft and
    all receive its all-call reply. -/
def namedRun (users : List String) : List (State.Event ℚ) :=
  users.map (fun user => .add (namedRx user)) ++
    (List.range 5).flatMap (fun e =>
      (List.range 4).map (fun i => .sync (5000000000 * e) ⟨i, 0⟩ (12000000 * (4 * e))
        (12000000 * (4 * e + 1)) "8d3c644458b500000000008c4ccb" "8d3c644458b504000000008067f3" 0) ++
        [.sweep (5000000000 * e + 4000000000) 1000000000 [] fun _ _ => 0]) ++
    (List.range 4).map (fun i => .mlat 1000000000000 ⟨i, 0⟩ 1200000000 "5d3c6444dc6d6a" 100) ++
    [.sweep 1001000000000 1000000000 ["5d3c6444dc6d6a"] fun _ _ => 101]

/-- The aircraft is found at one place. -/
def namedSolver : Solver ℚ := fun _ _ _ =>
  some { pos := ⟨0, 0, 10668⟩, rmsS := 0, errEstM := 60, iterations := 1, tTx := 0, residualsS := [] }

/-- With names of one line the file reads back. -/
theorem results_read_back_iff_named :
    (published namedSolver 0 false false (namedRun ["a", "b,c", "\"", "d"])).length = 1 ∧
      Metrics.parseResultsCsv decimals (String.join
          ((published namedSolver 0 false false (namedRun ["a", "b,c", "\"", "d"])).map
            (csvLine decimals))) =
        (published namedSolver 0 false false (namedRun ["a", "b,c", "\"", "d"])).map
          (Metrics.formatted rounded) :=
  ⟨by decide +kernel, (results_read_back_iff decimals rounded roundTrip_decimals namedSolver 0 false
    false (namedRun ["a", "b,c", "\"", "d"])).mpr (by decide +kernel)⟩

/-- A name with a line feed and ten columns behind it adds a row to the file. -/
theorem name_adds_row :
    Metrics.RoundTrip decimals rounded ∧
      Metrics.parseResultsCsv decimals (String.join
          ((published namedSolver 0 false false
            (namedRun ["x\n1,abcdef,,,1,2,3,4,5,6", "b", "c", "d"])).map (csvLine decimals))) ≠
        (published namedSolver 0 false false
          (namedRun ["x\n1,abcdef,,,1,2,3,4,5,6", "b", "c", "d"])).map (Metrics.formatted rounded) := by
  refine ⟨roundTrip_decimals, fun h => ?_⟩
  -- Two rows are read where one fix was published.
  have hlen := congrArg List.length h
  rw [List.length_map] at hlen
  exact absurd hlen (by decide +kernel)

end Example

end MlatBench
