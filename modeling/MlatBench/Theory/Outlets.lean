import MlatBench.Core.Outlets
import MlatBench.Theory.Altitude
import MlatBench.Theory.Returns
import MlatBench.Theory.Resync
import MlatBench.Theory.Sbs

/-!
# What Other Programs Read

A task's stream is made of whole messages, the last of which may be cut by a socket
that failed. So the lines that are complete in a first part of a stream of SBS rows
read as the positions the task got, in order, and the decoder finds in a stream of
Beast messages, however it is cut into pieces, their pairs of frames and nothing
else: a keepalive is a message that the decoder drops.

What a task got is a part of what was sent without gaps. It ends when the next
position is gone or a write fails, and only then.

## Main definitions

* `sbsRow`, `sbsOf`: A row and what it reads as.
* `pairReceptions`: A position as the decoder finds it.
* `Mlatd.ReadsRows`: What is read of the rows of `mlatd`.
* `Outlet.Sound`: The invariant.
* `Outlet.Reads`: What is read of a stream.

## Theorems

* `parseLine_sbsRow`: A row is read back.
* `rows_read`: A stream of rows.
* `scan_units`: A stream of Beast messages.
* `Mlatd.sbs_reads`: The programs behind `mlatd`.
* `Outlets.outlet_reads`: The programs behind `mlatc`.
-/

namespace MlatBench

open Library F64 F64Fn Framing Server Client

namespace Proto

/-- A row of the columns that differ. -/
def sbsRow (hex date time alt lat lon : String) : String :=
  "MSG,3,1,1," ++ hex ++ ",1," ++ date ++ "," ++ time ++ "," ++ date ++ "," ++ time ++ ",," ++
    alt ++ ",,," ++ lat ++ "," ++ lon ++ ",,,,,,0\r\n"

/-- Its columns but the last. -/
def sbsColumns (hex date time alt lat lon : String) : List (List Char) :=
  ["MSG", "3", "1", "1", hex, "1", date, time, date, time, "", alt, "", "", lat, lon, "", "", "",
    "", ""].map String.toList

theorem sbsRow_toList (hex date time alt lat lon : String) :
    (sbsRow hex date time alt lat lon).toList =
      (sbsColumns hex date time alt lat lon).flatMap (· ++ [',']) ++ ['0', '\r', '\n'] := by
  unfold sbsRow sbsColumns
  simp only [String.toList_append, List.map_cons, List.map_nil, List.flatMap_cons, List.flatMap_nil,
    List.append_assoc, List.append_nil]
  rfl

/-- The end of a row is trimmed. -/
theorem trimEnd_row (xs : List Char) :
    trimEnd (String.ofList (xs ++ ['0', '\r', '\n'])) = String.ofList (xs ++ ['0']) := by
  have hfeed : isWhiteSpace '\n' = true := by decide
  have hreturn : isWhiteSpace '\r' = true := by decide
  have hzero : isWhiteSpace '0' = false := by decide
  have hback : (xs ++ ['0', '\r', '\n']).reverse = '\n' :: '\r' :: '0' :: xs.reverse :=
    List.reverse_append
  rw [trimEnd, String.toList_ofList, hback, List.dropWhile_cons_of_pos hfeed,
    List.dropWhile_cons_of_pos hreturn, List.dropWhile_cons_of_neg (by rw [hzero]; decide),
    List.reverse_cons, List.reverse_reverse]

/-- A row is one line of ASCII. -/
theorem sbsRow_line (hex date time alt lat lon : String)
    (hplain : ∀ s ∈ [hex, date, time, alt, lat, lon], s.toList.all plainChar = true) :
    ∃ init, (sbsRow hex date time alt lat lon).toList = init ++ ['\n'] ∧
      init.all plainChar = true := by
  simp only [List.mem_cons, List.not_mem_nil, or_false, forall_eq_or_imp, forall_eq] at hplain
  rcases hplain with ⟨hex', date', time', alt', lat', lon'⟩
  refine ⟨(sbsColumns hex date time alt lat lon).flatMap (· ++ [',']) ++ ['0', '\r'], ?_, ?_⟩
  · rw [sbsRow_toList, List.append_assoc]
    rfl
  · have hcols : ∀ col ∈ sbsColumns hex date time alt lat lon, col.all plainChar = true := by
      intro col hcol
      simp only [sbsColumns, List.map_cons, List.map_nil, List.mem_cons, List.not_mem_nil,
        or_false] at hcol
      rcases hcol with rfl | rfl | rfl | rfl | rfl | rfl | rfl | rfl | rfl | rfl | rfl | rfl | rfl |
        rfl | rfl | rfl | rfl | rfl | rfl | rfl | rfl <;> first | assumption | decide
    rw [List.all_append, List.all_flatMap, Bool.and_eq_true]
    refine ⟨List.all_eq_true.mpr fun col hcol => ?_, by decide⟩
    rw [List.all_append, hcols col hcol]
    decide

section

variable {F : Type} (num : Numbers F) (lower : String → String)

/-- A row is read back: nothing in its columns is a comma, and the address has
    something in it. -/
theorem parseLine_sbsRow (hex date time alt lat lon : String)
    (hcomma : ∀ s ∈ [hex, date, time, alt, lat, lon], ',' ∉ s.toList)
    (hhex : lower (trim hex) ≠ "") :
    parseLine num lower (sbsRow hex date time alt lat lon) =
      some { icaoHex := lower (trim hex), altFt := num.parse (trim alt)
             lat := num.parse (trim lat), lon := num.parse (trim lon) } := by
  have hcols : ∀ col ∈ sbsColumns hex date time alt lat lon, ',' ∉ col := by
    intro col hcol
    simp only [List.mem_cons, List.not_mem_nil, or_false, forall_eq_or_imp, forall_eq] at hcomma
    rcases hcomma with ⟨hex', date', time', alt', lat', lon'⟩
    simp only [sbsColumns, List.map_cons, List.map_nil, List.mem_cons, List.not_mem_nil,
      or_false] at hcol
    rcases hcol with rfl | rfl | rfl | rfl | rfl | rfl | rfl | rfl | rfl | rfl | rfl | rfl | rfl |
      rfl | rfl | rfl | rfl | rfl | rfl | rfl | rfl <;> first | assumption | decide
  have hsplit : (trimEnd (sbsRow hex date time alt lat lon)).toList.splitOn ',' =
      sbsColumns hex date time alt lat lon ++ [['0']] := by
    rw [← String.ofList_toList (s := sbsRow hex date time alt lat lon), sbsRow_toList, trimEnd_row,
      String.toList_ofList, splitOn_prepend ',' _ hcols]
    rfl
  have hmap : ∀ s : String, String.ofList s.toList = s := fun s => String.ofList_toList
  unfold parseLine
  rw [hsplit]
  simp only [sbsColumns, List.map_append, List.map_cons, List.map_nil, hmap]
  refine (if_neg (not_or.mpr ⟨not_not.mpr rfl, Nat.not_lt.mpr (Nat.le_of_ble_eq_true rfl)⟩)).trans ?_
  exact if_neg hhex

/-- ASCII letters in lower case. -/
def Lowers (lower : String → String) : Prop :=
  ∀ s : String, (∀ c ∈ s.toList, c.toNat < 128) →
    lower s = String.ofList (s.toList.map Char.toLower)

theorem upper_digitChar : ∀ d, d < 16 → (Nat.digitChar d).toUpper ≠ ',' ∧
    isWhiteSpace (Nat.digitChar d).toUpper = false ∧
    plainChar (Nat.digitChar d).toUpper = true := by
  decide

theorem mem_padHexUpper (width n : Nat) (c : Char) (hc : c ∈ (padHexUpper width n).toList) :
    ∃ d < 16, c = (Nat.digitChar d).toUpper := by
  rw [padHexUpper, String.toList_ofList, List.mem_map] at hc
  rcases hc with ⟨c', hc', rfl⟩
  rcases mem_padHex width n c' hc' with ⟨d, hd, rfl⟩
  exact ⟨d, hd, rfl⟩

/-- An address in upper case comes back in lower case. -/
theorem lower_padHexUpper (hlower : Lowers lower) (n : Nat) :
    lower (trim (padHexUpper 6 n)) = padHex 6 n ∧ padHex 6 n ≠ "" := by
  have htrim : trim (padHexUpper 6 n) = padHexUpper 6 n := by
    refine Metrics.trim_plain _ fun c hc => ?_
    rcases mem_padHexUpper 6 n c hc with ⟨d, hd, rfl⟩
    exact (upper_digitChar d hd).2.1
  have hascii : ∀ c ∈ (padHexUpper 6 n).toList, c.toNat < 128 := by
    intro c hc
    rcases mem_padHexUpper 6 n c hc with ⟨d, hd, rfl⟩
    have hplain := (upper_digitChar d hd).2.2
    rw [plainChar, Bool.and_eq_true, decide_eq_true_eq] at hplain
    exact hplain.1
  refine ⟨?_, fun hnil => ?_⟩
  · rw [htrim, hlower _ hascii, padHexUpper, String.toList_ofList, List.map_map]
    refine (congrArg String.ofList ?_).trans String.ofList_toList
    refine (List.map_congr_left fun c hc => ?_).trans (List.map_id _)
    rcases mem_padHex 6 n c hc with ⟨d, hd, rfl⟩
    exact toLower_toUpper_digitChar d hd
  · have hlen : 6 ≤ (padHex 6 n).toList.length := by
      rw [padHex, String.toList_ofList, List.length_leftpad]
      exact Nat.le_max_left _ _
    rw [hnil] at hlen
    exact absurd hlen (by decide)

/-- Bytes as ASCII text. -/
def ofAscii (bytes : List UInt8) : String :=
  String.ofList (bytes.map fun b => Char.ofNat b.toNat)

theorem ofAscii_asciiBytes (s : String) (h : ∀ c ∈ s.toList, c.toNat < 128) :
    ofAscii (Server.asciiBytes s) = s := by
  rw [ofAscii, Server.asciiBytes, List.map_map]
  refine (congrArg String.ofList ?_).trans String.ofList_toList
  refine (List.map_congr_left fun c hc => ?_).trans (List.map_id _)
  have hbyte : (UInt8.ofNat c.toNat).toNat = c.toNat := by
    rw [UInt8.toNat_ofNat', Nat.mod_eq_of_lt (Nat.lt_trans (h c hc) (by decide))]
  rw [Function.comp_apply, hbyte, Char.ofNat_toNat]
  rfl

/-- The positions of the lines of a stream that are complete. -/
def readRows (stream : List UInt8) : List (SbsPosition F) :=
  (segments (complete false) stream).filterMap fun l => parseLine num lower (ofAscii l)

/-- Of a first part of a stream of rows, the rows that are there with their newline are
    read, and no more. -/
theorem rows_read {α : Type} (row : α → String) (read : α → SbsPosition F) (xs : List α)
    (hline : ∀ x ∈ xs, ∃ init, (row x).toList = init ++ ['\n'] ∧ init.all plainChar = true)
    (hparse : ∀ x ∈ xs, parseLine num lower (row x) = some (read x)) (stream : List UInt8)
    (hstream : stream <+: xs.flatMap fun x => Server.asciiBytes (row x)) :
    readRows num lower stream = (xs.take (stream.count newline)).map read ∧
      (stream = (xs.flatMap fun x => Server.asciiBytes (row x)) →
        stream.count newline = xs.length) := by
  have hbytes : ∀ x ∈ xs, newline ∉ (Server.asciiBytes (row x)).dropLast ∧
      (Server.asciiBytes (row x)).dropLast ++ [newline] = Server.asciiBytes (row x) ∧
      ofAscii (Server.asciiBytes (row x)) = row x := by
    intro x hx
    rcases hline x hx with ⟨init, hrow, hinit⟩
    have heq : Server.asciiBytes (row x) =
        (init.map fun c => UInt8.ofNat c.toNat) ++ [newline] := by
      rw [Server.asciiBytes, hrow, List.map_append]
      rfl
    refine ⟨?_, ?_, ofAscii_asciiBytes _ fun c hc => ?_⟩
    · rw [heq, List.dropLast_concat]
      exact Server.newline_not_mem_ascii init hinit
    · rw [heq, List.dropLast_concat]
    · rw [hrow, List.mem_append, List.mem_singleton] at hc
      rcases hc with hc | rfl
      · have hplain := List.all_eq_true.mp hinit c hc
        rw [plainChar, Bool.and_eq_true, decide_eq_true_eq] at hplain
        exact hplain.1
      · decide
  have htext : (xs.flatMap fun x => Server.asciiBytes (row x)) =
      text (xs.map fun x => (Server.asciiBytes (row x)).dropLast) := by
    rw [text, List.flatMap_map]
    exact List.flatMap_congr fun x hx => (hbytes x hx).2.1.symm
  have hwhole : segments (complete false) (xs.flatMap fun x => Server.asciiBytes (row x)) =
      xs.map fun x => Server.asciiBytes (row x) := by
    rw [htext, Downlink.segments_text, List.map_map]
    · exact List.map_congr_left fun x hx => (hbytes x hx).2.1
    · intro l hl
      rcases List.mem_map.mp hl with ⟨x, hx, rfl⟩
      exact (hbytes x hx).1
  have hread : ∀ ys, ys <+: xs → (ys.map fun x => Server.asciiBytes (row x)).filterMap
      (fun l => parseLine num lower (ofAscii l)) = ys.map read := by
    intro ys hys
    rw [List.filterMap_map, ← List.filterMap_eq_map]
    refine List.filterMap_congr fun x hx => ?_
    have hx := hys.subset hx
    rw [Function.comp_apply, (hbytes x hx).2.2, hparse x hx]
    rfl
  -- The reader finds as many rows as there are newlines.
  have hcount : ∀ acc zs, (cut (complete false) acc zs).1.length = zs.count newline := by
    refine length_cut (complete false) newline fun acc x => ?_
    rw [Bool.eq_iff_iff, complete_plain, List.getLast?_concat, Option.some.injEq, decide_eq_true_iff]
  refine ⟨?_, fun heq => ?_⟩
  · rcases hstream with ⟨later, hlater⟩
    have hseg : segments (complete false) stream <+: xs.map fun x => Server.asciiBytes (row x) := by
      rw [← hwhole, ← hlater]
      exact segments_isPrefix (complete false) stream later
    have htake := List.prefix_iff_eq_take.mp hseg
    rw [← List.map_take] at htake
    rw [readRows, htake, hread _ (List.take_prefix _ _)]
    exact congrArg (fun k => (xs.take k).map read) (hcount [] stream)
  · have hlen := congrArg List.length hwhole
    rw [← heq, List.length_map] at hlen
    exact (hcount [] stream).symm.trans hlen

/-- A position as it is read from a row. -/
def sbsOf [F64 F] (printed : Nat → F → F) (addr : Nat) (altFt : Int) (lat lon : F) :
    SbsPosition F :=
  { icaoHex := padHex 6 addr, altFt := some (lit altFt), lat := some (printed 5 lat)
    lon := some (printed 5 lon) }

variable [F64Fn F] (printed : Nat → F → F) (hnum : Metrics.RoundTrip num printed)
include hnum

/-- A row of a position reads as the position. -/
theorem parseLine_position (hlower : Lowers lower) (addr : Nat) (date time : String)
    (hdate : ',' ∉ date.toList) (htime : ',' ∉ time.toList) (altFt : Int) (lat lon : F) :
    parseLine num lower (sbsRow (padHexUpper 6 addr) date time (toString altFt) (num.fixed 5 lat)
      (num.fixed 5 lon)) = some (sbsOf printed addr altFt lat lon) := by
  have hhex := lower_padHexUpper lower hlower addr
  have hint : ∀ c ∈ (toString altFt).toList, c ≠ ',' ∧ isWhiteSpace c = false := fun c hc =>
    Metrics.plain_numeral c (isNumeral_int altFt c hc)
  rw [parseLine_sbsRow num lower _ date time _ _ _ ?_ (by rw [hhex.1]; exact hhex.2), hhex.1,
    Metrics.trim_plain _ fun c hc => (hint c hc).2,
    Metrics.trim_plain _ fun c hc => (hnum.plain 5 lat c hc).2,
    Metrics.trim_plain _ fun c hc => (hnum.plain 5 lon c hc).2, hnum.int, hnum.fixed, hnum.fixed]
  · rfl
  · simp only [List.forall_mem_cons]
    refine ⟨fun hc => ?_, hdate, htime, fun hc => (hint _ hc).1 rfl, fun hc => (hnum.plain 5 lat _ hc).1 rfl,
      fun hc => (hnum.plain 5 lon _ hc).1 rfl, fun _ h => absurd h List.not_mem_nil⟩
    rcases mem_padHexUpper 6 addr _ hc with ⟨d, hd, hcomma⟩
    exact (upper_digitChar d hd).1 hcomma.symm

end

end Proto

namespace Server

/-- A padded number has digits and a sign. -/
theorem plain_padInt (w : Nat) (n : Int) :
    (padInt w n).toList.all (fun c => plainChar c && c != ',') = true := by
  have hdigits : ∀ k m : Nat, ((Nat.toDigits 10 m).leftpad k '0').all
      (fun c => plainChar c && c != ',') = true := by
    intro k m
    refine List.all_eq_true.mpr fun c hc => ?_
    have hdigit := isDigit_leftpad k m c hc
    have hnumeral : isNumeral c = true := by rw [isNumeral, hdigit]; rfl
    rw [plainChar_numeral c hnumeral, Bool.true_and, bne_iff_ne]
    exact (Metrics.plain_numeral c hnumeral).1
  unfold padInt
  split_ifs
  · simp only [String.toList_append, List.all_append, String.toList_ofList, hdigits, Bool.and_true]
    decide
  · rw [String.toList_ofList, hdigits]

/-- The date and the time are columns. -/
theorem plain_sbsDatetime {F : Type} [F64 F] (unix : F) (texts : String × String)
    (h : sbsDatetime unix = some texts) :
    (texts.1.toList.all (fun c => plainChar c && c != ',') = true) ∧
      texts.2.toList.all (fun c => plainChar c && c != ',') = true := by
  rcases Option.map_eq_some_iff.mp h with ⟨⟨m, rem⟩, _, rfl⟩
  simp only [String.toList_append, List.all_append, plain_padInt, Bool.and_true, Bool.true_and]
  decide

/-- A fix as it is read from its row. -/
def sbsRead {F : Type} [F64 F] (printed : Nat → F → F) (row : OutRow F) : Proto.SbsPosition F :=
  Proto.sbsOf printed (row.icao.val &&& 0xFFFFFF).toNat row.altFt row.pos.latDeg row.pos.lonDeg

section

variable {F : Type} [F64Fn F] (num : Numbers F) (lower : String → String)
  (printed : Nat → F → F) (hnum : Metrics.RoundTrip num printed) (hplain : num.Plain)
  (hlower : Proto.Lowers lower)
include hnum hplain hlower

/-- A fix is one row, and read back. -/
theorem sbsLine_read (row : OutRow F) :
    ∃ line, sbsLine num row = some line ∧
      (∃ init, line.toList = init ++ ['\n'] ∧ init.all plainChar = true) ∧
      Proto.parseLine num lower line = some (sbsRead printed row) := by
  rcases Option.isSome_iff_exists.mp (sbsDatetime_isSome row.stamp) with ⟨⟨date, time⟩, htexts⟩
  have hrow : sbsLine num row = some (Proto.sbsRow
      (padHexUpper 6 (row.icao.val &&& 0xFFFFFF).toNat) date time (toString row.altFt)
      (num.fixed 5 row.pos.latDeg) (num.fixed 5 row.pos.lonDeg)) := by
    unfold sbsLine
    rw [htexts]
    rfl
  have hcolumn : ∀ s : String, s.toList.all (fun c => plainChar c && c != ',') = true →
      s.toList.all plainChar = true ∧ ',' ∉ s.toList := by
    intro s hs
    refine ⟨List.all_eq_true.mpr fun c hc => ?_, fun hc => ?_⟩
    · exact (Bool.and_eq_true_iff.mp (List.all_eq_true.mp hs c hc)).1
    · exact absurd (List.all_eq_true.mp hs _ hc) (by decide)
  have htext := plain_sbsDatetime row.stamp _ htexts
  have hdate := hcolumn date htext.1
  have htime := hcolumn time htext.2
  refine ⟨_, hrow, Proto.sbsRow_line _ _ _ _ _ _ ?_, Proto.parseLine_position num lower printed
    hnum hlower _ date time hdate.2 htime.2 _ _ _⟩
  simp only [List.forall_mem_cons]
  refine ⟨List.all_eq_true.mpr fun c hc => ?_, hdate.1, htime.1,
    List.all_eq_true.mpr fun c hc => plainChar_numeral c (isNumeral_int _ c hc), hplain 5 _,
    hplain 5 _, fun _ h => absurd h List.not_mem_nil⟩
  rcases Proto.mem_padHexUpper 6 _ c hc with ⟨d, hd, rfl⟩
  exact (Proto.upper_digitChar d hd).2.2

/-- The rows of fixes are read back. -/
theorem sbsLines_read (rows : List (OutRow F)) (stream : List UInt8)
    (hstream : stream <+: rows.flatMap fun row => (sbsBytes num row).getD []) :
    Proto.readRows num lower stream =
        (rows.take (stream.count newline)).map (sbsRead printed) ∧
      (stream = (rows.flatMap fun row => (sbsBytes num row).getD []) →
        stream.count newline = rows.length) := by
  have hbytes : (rows.flatMap fun row => (sbsBytes num row).getD []) =
      rows.flatMap fun row => asciiBytes ((sbsLine num row).getD "") := by
    refine List.flatMap_congr fun row _ => ?_
    rcases sbsLine_read num lower printed hnum hplain hlower row with ⟨line, heq, _⟩
    rw [sbsBytes, heq]
    rfl
  rw [hbytes] at hstream ⊢
  refine Proto.rows_read num lower (fun row => (sbsLine num row).getD "") (sbsRead printed) rows
    (fun row _ => ?_) (fun row _ => ?_) stream hstream
  · rcases sbsLine_read num lower printed hnum hplain hlower row with ⟨line, heq, hone, _⟩
    simp only [heq]
    exact hone
  · rcases sbsLine_read num lower printed hnum hplain hlower row with ⟨line, heq, _, hread⟩
    simp only [heq]
    exact hread

namespace Mlatd

/-- What a program that reads rows gets: fixes without gaps, and of what it wrote down,
    in a first part and in all of it, the fixes of the rows that are complete. -/
structure ReadsRows (sent : List (OutRow F)) (f : Feed (OutRow F) UInt8) : Prop where
  window : f.listener.got = (sent.drop f.listener.joined).take f.listener.got.length
  rows : ∀ stream, stream <+: f.wire → Proto.readRows num lower stream =
    (f.listener.got.take (stream.count newline)).map (sbsRead printed)
  allRows : f.failed = false →
    Proto.readRows num lower f.wire = f.listener.got.map (sbsRead printed)

theorem readsRows_of_sound (sent : List (OutRow F)) (f : Feed (OutRow F) UInt8)
    (h : f.Sound sent (sbsBytes num) none) : ReadsRows num lower printed sent f := by
  rcases h.rows (sbsBytes num) sent f with ⟨hpre, hwire⟩
  have hread := fun stream hstream =>
    sbsLines_read num lower printed hnum hplain hlower f.listener.got stream hstream
  refine ⟨h.follows.got, fun stream hstream => (hread stream (hstream.trans hpre)).1,
    fun hgo => ?_⟩
  rw [(hread f.wire hpre).1, (hread f.wire hpre).2 (hwire hgo), List.take_length]

/-- Whatever happens, a program that reads rows from `mlatd` gets the fixes sent since
    it connected, without gaps, and the rows that have arrived read as them. Its task ends
    at a turn just when the program is behind by more than is kept or its write fails;
    else turns enough bring all. -/
theorem sbs_reads (solver : Solver F) (nShards : Nat) (hpos : 0 < nShards) (baseDeg : F)
    (cap : Nat) (csv filtered selfTruth : Bool) (es : List (Event F)) (m : Mlatd F)
    (hm : m = run num solver nShards hpos baseDeg cap csv filtered selfTruth es)
    (f : Feed (OutRow F) UInt8) (hf : f ∈ m.consumers) :
    ReadsRows num lower printed m.output.sent f ∧
      (∀ cut, (f.stopped = true → f.turn publishSlots m.output.sent (sbsBytes num) cut = f) ∧
        (f.stopped = false →
          ((f.turn publishSlots m.output.sent (sbsBytes num) cut).stopped = true ↔
            f.listener.next + publishSlots < m.output.sent.length ∨
              cut.isSome = true ∧ f.listener.next < m.output.sent.length))) ∧
      (f.stopped = false → m.output.sent.length ≤ f.listener.next + publishSlots →
        Proto.readRows num lower
            ((Feed.turn publishSlots m.output.sent (sbsBytes num) none)^[publishSlots] f).wire =
          (m.output.sent.drop f.listener.joined).map (sbsRead printed)) := by
  have hsound : f.Sound m.output.sent (sbsBytes num) none := by
    rw [hm] at hf ⊢
    exact (ordered_run num solver nShards hpos baseDeg cap csv filtered selfTruth es).consumers f hf
  have hbytes : ∀ row : OutRow F, (sbsBytes num row).isSome = true := by
    intro row
    rcases sbsLine_read num lower printed hnum hplain hlower row with ⟨line, heq, _⟩
    rw [sbsBytes, heq]
    rfl
  refine ⟨readsRows_of_sound num lower printed hnum hplain hlower _ f hsound,
    fun cut => ⟨Feed.turn_stopped publishSlots _ (sbsBytes num) cut f, fun hstopped => ?_⟩,
    fun hstopped hnear => ?_⟩
  · rw [Feed.turn_stopped_iff publishSlots _ (sbsBytes num) cut f hstopped]
    refine or_congr Iff.rfl (and_congr Iff.rfl ?_)
    rcases Nat.lt_or_ge f.listener.next m.output.sent.length with hlt | hge
    · rw [List.getElem?_eq_getElem hlt, Option.bind_some]
      exact iff_of_true (hbytes _) hlt
    · rw [List.getElem?_eq_none hge]
      exact iff_of_false Bool.false_ne_true (Nat.not_lt.mpr hge)
  · rcases Feed.turns_all publishSlots m.output.sent (sbsBytes num) none f hsound hstopped
      hnear with ⟨hsound', hgo, hgot⟩
    rw [(readsRows_of_sound num lower printed hnum hplain hlower _ _ hsound').allRows hgo, hgot]

end Mlatd

end

end Server

namespace Client

open Beast Modes

section

variable {F : Type} [F64Fn F]

/-- A position as the decoder finds it: the two frames, under the counter that says
    where they are from. -/
def pairReceptions (p : ResultPos F) : List Reception :=
  match df18PositionPair ⟨p.addr⟩ p.altFt p.lat p.lon with
  | none => []
  | some (even, odd) =>
    [{ counts12mhz := mlatCounts.toNat, frame := even },
      { counts12mhz := mlatCounts.toNat, frame := odd }]

/-- What is written: a position, or a keepalive. -/
def unitBytes : Option (ResultPos F) → List UInt8
  | none => beastKeepalive
  | some p => p.beastBytes.getD []

/-- A keepalive is dropped. -/
theorem next_keepalive (rest : List UInt8) :
    decoder.next (beastKeepalive ++ rest) = some (beastKeepalive.length, none) := by
  have hbytes : beastKeepalive = escape :: 0x31 :: escaped (List.replicate 9 0) := by decide
  have htype : frameLen 0x31 = some 2 := by decide
  have hread : readPayload (6 + 1 + 2) [] 2 (escaped (List.replicate 9 0) ++ rest) =
      .complete (2 + (escaped (List.replicate 9 (0 : UInt8))).length) (List.replicate 9 0) := by
    rw [readPayload_escaped _ _ [] 2 rest (by decide), readPayload_full _ _ _ _ (by decide),
      List.nil_append]
  rw [hbytes, List.cons_append, List.cons_append, next_escape, parseAt]
  simp only [htype, hread, if_true]
  rfl

/-- A pair is found. -/
theorem scan_position (p : ResultPos F) :
    decoder.scan (p.beastBytes.getD []) = (pairReceptions p, []) := by
  unfold ResultPos.beastBytes pairReceptions
  cases hpair : df18PositionPair ⟨p.addr⟩ p.altFt p.lat p.lon with
  | none => exact Decoder.scan_none decoder [] rfl
  | some pair =>
      rcases length_positionPair _ _ _ _ _ hpair with ⟨heven, hodd⟩
      have hscan := scan_messages [⟨mlatCounts, 0, pair.1, by decide, Or.inr heven⟩,
        ⟨mlatCounts, 0, pair.2, by decide, Or.inr hodd⟩]
      simp only [List.flatMap_cons, List.flatMap_nil, Message.bytes, encode_mlat pair.1 heven,
        encode_mlat pair.2 hodd] at hscan
      exact hscan

/-- What is written is found, and nothing else. -/
theorem scan_units (units : List (Option (ResultPos F))) :
    decoder.scan (units.flatMap unitBytes) = ((units.filterMap id).flatMap pairReceptions, []) := by
  induction units with
  | nil => exact Decoder.scan_none decoder [] rfl
  | cons u units ih =>
      cases u with
      | none =>
          rw [List.flatMap_cons, unitBytes, Decoder.scan_some decoder _ _ _ (next_keepalive _),
            List.drop_left, ih]
          rfl
      | some p =>
          rw [List.flatMap_cons, unitBytes, Decoder.scan_append decoder decoder_stable,
            scan_position, List.nil_append, ih]
          rfl

/-- The altitude a frame carries: the step below, or the lowest. -/
def carriedAlt (altFt : Int) : Int :=
  max (-1000) (altFt - altFt % 25)

theorem altStep_carriedAlt (altFt : Int) (hlo : -1024 ≤ altFt) (hhi : altFt < 50200) :
    altStep altFt = altStep (carriedAlt altFt) := by
  unfold carriedAlt
  rcases Int.lt_or_le altFt (-1000) with hlow | hin
  · -- Less than a step below the lowest one, the quotient is zero.
    have hzero : (altFt + 1000).tdiv 25 = 0 := by
      have hopp : (altFt + 1000).tdiv 25 = -((-(altFt + 1000)) / 25) := by
        rw [← Int.tdiv_eq_ediv_of_nonneg (by omega), Int.neg_tdiv, Int.neg_neg]
      omega
    rw [max_eq_left (by omega), altStep, wrap32_of_mem _ (by omega) (by omega), hzero]
    rfl
  · rw [max_eq_right (by omega), altStep_floor altFt hin hhi]

/-- A position is found if its altitude can be encoded, and then both frames are whole
    and carry it. -/
theorem pairReceptions_carried (p : ResultPos F) (haddr : p.addr.toNat < 2 ^ 24)
    (hlo : -2 ^ 31 ≤ p.altFt) (hhi : p.altFt < 2 ^ 31) :
    (-1024 ≤ p.altFt ∧ p.altFt < 50200 → ∃ frame : Bool → List UInt8,
      pairReceptions p = [{ counts12mhz := mlatCounts.toNat, frame := frame false },
        { counts12mhz := mlatCounts.toNat, frame := frame true }] ∧
      ∀ odd, dfOf (frame odd) = some 18 ∧ crc24 (frame odd) = 0 ∧
        positionFields (frame odd) = carried ⟨p.addr⟩ (carriedAlt p.altFt) p.lat p.lon odd) ∧
      (¬ (-1024 ≤ p.altFt ∧ p.altFt < 50200) → pairReceptions p = []) := by
  constructor
  · rintro ⟨hlow, hhigh⟩
    have halt : Modes.Encodable (carriedAlt p.altFt) := by
      unfold carriedAlt Modes.Encodable
      omega
    have hsame : df18PositionPair ⟨p.addr⟩ p.altFt p.lat p.lon =
        df18PositionPair ⟨p.addr⟩ (carriedAlt p.altFt) p.lat p.lon := by
      unfold df18PositionPair ac12
      rw [altStep_carriedAlt p.altFt hlow hhigh]
    rcases fields_df18 ⟨p.addr⟩ haddr (carriedAlt p.altFt) halt p.lat p.lon with
      ⟨frame, hpair, hfields⟩
    refine ⟨frame, ?_, fun odd => ⟨(hfields odd).1, (hfields odd).2.1, (hfields odd).2.2.2⟩⟩
    rw [pairReceptions, hsame, hpair]
  · intro hout
    have hnone : ac12 p.altFt = none := by
      rw [ac12, Option.map_eq_none_iff, ← Option.not_isSome_iff_eq_none,
        altStep_isSome p.altFt hlo hhi]
      exact hout
    have hpair : df18PositionPair ⟨p.addr⟩ p.altFt p.lat p.lon = none := by
      unfold df18PositionPair
      rw [hnone]
    rw [pairReceptions, hpair]

end

namespace Outlet

variable {F : Type} [F64Fn F] (num : Numbers F)

/-- What is written in between. -/
def filler : Format → Option (List UInt8)
  | .basestation => none
  | .beast => some beastKeepalive

/-- The invariant: the task got a part of what was sent, and wrote that, with
    keepalives, up to a write that failed. -/
def Sound (sent : List (ResultPos F)) (o : Outlet F) : Prop :=
  o.toFeed.Sound sent (written num o.format) (filler o.format)

/-- A keepalive. -/
theorem Sound.keepalive (sent : List (ResultPos F)) (cut : Option Nat) (o : Outlet F)
    (h : Sound num sent o) : Sound num sent (o.keepalive cut) := by
  rcases o with ⟨feed, format⟩
  cases format with
  | basestation => exact h
  | beast => exact Feed.Sound.fill (written num .beast) sent beastKeepalive cut feed h

/-- What is read of what a task wrote, in a first part of its stream and in all of it:
    of rows the positions, of Beast messages the pairs of frames. -/
structure Reads (lower : String → String) (printed : Nat → F → F) (sent : List (ResultPos F))
    (o : Outlet F) : Prop where
  window : o.listener.got = (sent.drop o.listener.joined).take o.listener.got.length
  rows : o.format = .basestation → ∀ stream, stream <+: o.wire → Proto.readRows num lower stream =
    (o.listener.got.take (stream.count newline)).map fun p =>
      Proto.sbsOf printed p.addr.toNat p.altFt p.lat p.lon
  allRows : o.format = .basestation → o.failed = false →
    Proto.readRows num lower o.wire = o.listener.got.map fun p =>
      Proto.sbsOf printed p.addr.toNat p.altFt p.lat p.lon
  pairs : o.format = .beast → ∀ chunks : List (List UInt8), chunks.flatten <+: o.wire →
    (({} : BeastDecoder).feedAll chunks).2 <+: o.listener.got.flatMap pairReceptions
  allPairs : o.format = .beast → o.failed = false → ∀ chunks : List (List UInt8),
    chunks.flatten = o.wire →
      ({} : BeastDecoder).feedAll chunks = (⟨[]⟩, o.listener.got.flatMap pairReceptions)

variable (lower : String → String) (printed : Nat → F → F)
  (hnum : Metrics.RoundTrip num printed) (hplain : num.Plain) (hlower : Proto.Lowers lower)
include hnum hplain hlower

omit [F64Fn F] hnum hplain hlower in
/-- A position as a row, without a date. -/
theorem sbsLine_row (p : ResultPos F) :
    p.sbsLine num = Proto.sbsRow (padHexUpper 6 p.addr.toNat) "" "" (toString p.altFt)
      (num.fixed 5 p.lat) (num.fixed 5 p.lon) := by
  refine String.toList_inj.mp ?_
  unfold ResultPos.sbsLine Proto.sbsRow
  simp only [String.toList_append, List.append_assoc]
  rfl

omit [F64Fn F] hnum hlower in
theorem sbsLine_line (p : ResultPos F) :
    ∃ init, (p.sbsLine num).toList = init ++ ['\n'] ∧ init.all plainChar = true := by
  rw [sbsLine_row]
  refine Proto.sbsRow_line _ _ _ _ _ _ ?_
  simp only [List.forall_mem_cons]
  refine ⟨List.all_eq_true.mpr fun c hc => ?_, rfl, rfl, List.all_eq_true.mpr fun c hc =>
    plainChar_numeral c (isNumeral_int _ c hc), hplain 5 _, hplain 5 _,
    fun _ h => absurd h List.not_mem_nil⟩
  rcases Proto.mem_padHexUpper 6 _ c hc with ⟨d, hd, rfl⟩
  exact (Proto.upper_digitChar d hd).2.2

omit hplain in
theorem parseLine_sbsLine (p : ResultPos F) : Proto.parseLine num lower (p.sbsLine num) =
    some (Proto.sbsOf printed p.addr.toNat p.altFt p.lat p.lon) := by
  rw [sbsLine_row]
  exact Proto.parseLine_position num lower printed hnum hlower _ "" "" (by decide) (by decide) _ _ _

/-- What is read of the rows of a sound task. -/
theorem Sound.readsRows (sent : List (ResultPos F)) (feed : Feed (ResultPos F) UInt8)
    (h : feed.Sound sent (written num .basestation) none) (stream : List UInt8)
    (hstream : stream <+: feed.wire) :
    Proto.readRows num lower stream = ((feed.listener.got.take (stream.count newline)).map fun p =>
        Proto.sbsOf printed p.addr.toNat p.altFt p.lat p.lon) ∧
      (feed.failed = false → feed.wire.count newline = feed.listener.got.length) := by
  have hbytes : ∀ p : ResultPos F,
      (written num .basestation p).getD [] = Server.asciiBytes (p.sbsLine num) := fun p => by
    rw [written, Option.getD_some]
  rcases h.rows (written num .basestation) sent feed with ⟨hpre, hwire⟩
  simp only [hbytes] at hpre hwire
  have hread := Proto.rows_read num lower (fun p : ResultPos F => p.sbsLine num)
    (fun p => Proto.sbsOf printed p.addr.toNat p.altFt p.lat p.lon) feed.listener.got
    (fun p _ => sbsLine_line num hplain p)
    (fun p _ => parseLine_sbsLine num lower printed hnum hlower p)
  exact ⟨(hread stream (hstream.trans hpre)).1, fun hgo => (hread feed.wire hpre).2 (hwire hgo)⟩

omit hnum hplain hlower in
/-- What is read of the messages of a sound task. -/
theorem Sound.readsPairs (sent : List (ResultPos F)) (feed : Feed (ResultPos F) UInt8)
    (h : feed.Sound sent (written num .beast) (some beastKeepalive)) :
    (∀ chunks : List (List UInt8), chunks.flatten <+: feed.wire →
      (({} : BeastDecoder).feedAll chunks).2 <+: feed.listener.got.flatMap pairReceptions) ∧
      (feed.failed = false → ∀ chunks : List (List UInt8), chunks.flatten = feed.wire →
        ({} : BeastDecoder).feedAll chunks = (⟨[]⟩, feed.listener.got.flatMap pairReceptions)) := by
  rcases h.wrote with ⟨units, hunits, -, hpre, hwire⟩
  have hunit : units.flatMap (Feed.piece (written num .beast) (some beastKeepalive)) =
      units.flatMap unitBytes :=
    List.flatMap_congr fun u _ => by cases u <;> rfl
  rw [hunit] at hpre hwire
  refine ⟨fun chunks hchunks => ?_, fun hgo chunks hchunks => ?_⟩
  · rcases hchunks.trans hpre with ⟨later, hlater⟩
    have hscan : (decoder.scan (units.flatMap unitBytes)).1 =
        (units.filterMap id).flatMap pairReceptions := congrArg Prod.fst (scan_units units)
    rw [← hunits, ← hscan, ← hlater, Decoder.scan_append decoder decoder_stable,
      BeastDecoder.feedAll_flatten, BeastDecoder.feed]
    exact List.prefix_append _ _
  · rw [BeastDecoder.feedAll_flatten, BeastDecoder.feed, hchunks, hwire hgo]
    simp only [List.nil_append, scan_units, hunits]

/-- What is read of a sound task's stream. -/
theorem Sound.reads (sent : List (ResultPos F)) (o : Outlet F) (h : Sound num sent o) :
    Reads num lower printed sent o := by
  rcases o with ⟨feed, format⟩
  cases format with
  | basestation =>
      have hrows := Sound.readsRows num lower printed hnum hplain hlower sent feed h
      refine ⟨h.follows.got, fun _ stream hstream => (hrows stream hstream).1, fun _ hgo => ?_,
        fun hformat => Format.noConfusion hformat, fun hformat => Format.noConfusion hformat⟩
      have hall := hrows feed.wire (List.prefix_refl _)
      rw [hall.1, hall.2 hgo, List.take_length]
  | beast =>
      have hpairs := Sound.readsPairs num sent feed h
      exact ⟨h.follows.got, fun hformat => Format.noConfusion hformat,
        fun hformat => Format.noConfusion hformat, fun _ => hpairs.1, fun _ => hpairs.2⟩

omit hnum hplain hlower in
/-- Turns of a task are turns of its feed. -/
theorem iterate_turn (sent : List (ResultPos F)) (n : Nat) (o : Outlet F) :
    ((turn num sent none)^[n] o).toFeed =
      (Feed.turn resultSlots sent (written num o.format) none)^[n] o.toFeed := by
  induction n generalizing o with
  | zero => rfl
  | succ n ih => exact ih (o.turn num sent none)

end Outlet

namespace Outlets

variable {F : Type} [F64Fn F] (num : Numbers F)

/-- All tasks are sound. -/
theorem sound_step (s : Outlets F) (e : Event F) (h : ∀ o ∈ s.outlets, o.Sound num s.sent) :
    ∀ o ∈ (s.step num e).outlets, o.Sound num (s.step num e).sent := by
  cases e with
  | publish p =>
      exact fun o ho => (h o ho).append (Outlet.written num o.format) _ s.sent [p] o.toFeed
  | subscribe format =>
      intro o ho
      rcases List.mem_append.mp ho with ho | ho
      · exact h o ho
      · rw [List.mem_singleton.mp ho]
        exact Feed.sound_join (Outlet.written num format) (Outlet.filler format) s.sent
  | turn k cut =>
      exact forall_mem_modify (fun o => o.Sound num s.sent) (Outlet.turn num s.sent cut) s.outlets
        k h fun o ho =>
          Feed.Sound.turn (Outlet.written num o.format) _ resultSlots s.sent cut o.toFeed ho
  | keepalive k cut =>
      exact forall_mem_modify (fun o => o.Sound num s.sent) _ s.outlets k h fun o ho =>
        ho.keepalive num s.sent cut o

theorem sound_run (es : List (Event F)) :
    ∀ o ∈ (exec (step num) {} es).outlets, o.Sound num (exec (step num) {} es).sent := by
  unfold exec
  refine List.foldlRecOn es (motive := fun s : Outlets F => ∀ o ∈ s.outlets, o.Sound num s.sent) _
    (fun o ho => absurd ho List.not_mem_nil) ?_
  exact fun s h e _ => sound_step num s e h

/-- Whatever happens, a program behind `mlatc` reads positions sent since it connected,
    without gaps: of rows the positions as they are written, of Beast messages the pairs
    of frames that carry them. A position goes out as frames if its altitude can be
    encoded. A task that is not behind by more than is kept gets all. -/
theorem outlet_reads (lower : String → String) (printed : Nat → F → F)
    (hnum : Metrics.RoundTrip num printed) (hplain : num.Plain) (hlower : Proto.Lowers lower)
    (es : List (Event F)) (o : Outlet F) (ho : o ∈ (exec (step num) {} es).outlets) :
    o.Reads num lower printed (exec (step num) {} es).sent ∧
      (∀ p ∈ o.listener.got, p.addr.toNat < 2 ^ 24 → -2 ^ 31 ≤ p.altFt → p.altFt < 2 ^ 31 →
        (-1024 ≤ p.altFt ∧ p.altFt < 50200 → ∃ frame : Bool → List UInt8,
          pairReceptions p = [{ counts12mhz := mlatCounts.toNat, frame := frame false },
            { counts12mhz := mlatCounts.toNat, frame := frame true }] ∧
          ∀ odd, dfOf (frame odd) = some 18 ∧ crc24 (frame odd) = 0 ∧
            positionFields (frame odd) = carried ⟨p.addr⟩ (carriedAlt p.altFt) p.lat p.lon odd) ∧
        (¬ (-1024 ≤ p.altFt ∧ p.altFt < 50200) → pairReceptions p = [])) ∧
      (o.failed = false → o.listener.ended = false →
        (exec (step num) {} es).sent.length ≤ o.listener.next + resultSlots →
        ((Outlet.turn num (exec (step num) {} es).sent none)^[resultSlots] o).listener.got =
          (exec (step num) {} es).sent.drop o.listener.joined) := by
  have h := sound_run num es o ho
  refine ⟨h.reads num lower printed hnum hplain hlower _ o,
    fun p _ haddr hlo hhi => pairReceptions_carried p haddr hlo hhi, fun hgo hended hnear => ?_⟩
  rw [Outlet.iterate_turn num _ _ o]
  exact (Feed.turns_all resultSlots _ (Outlet.written num o.format) _ o.toFeed h
    (Bool.or_eq_false_iff.mpr ⟨hgo, hended⟩) hnear).2.2

end Outlets

end Client

section Example

/-- Lower case of ASCII letters. -/
def asciiLower (s : String) : String := String.ofList (s.toList.map Char.toLower)

theorem lowers_asciiLower : Proto.Lowers asciiLower := fun _ _ => rfl

theorem headD_mem {α : Type} (xs : List α) (d : α) (h : 0 < xs.length) : xs.headD d ∈ xs := by
  cases xs with
  | nil => exact absurd h (Nat.lt_irrefl 0)
  | cons x xs => exact List.mem_cons_self

namespace Server

namespace Mlatd

/-- A program that reads rows while the fix of `fixRun` goes out. -/
def rowsProgram : Feed (OutRow ℚ) UInt8 :=
  (run decimals namedSolver 1 Nat.one_pos 8 64 true false false fixRun).consumers.headD
    (Feed.join [])

theorem sbs_reads_fix :
    rowsProgram.listener.got.length = 1 ∧
      Proto.readRows decimals asciiLower rowsProgram.wire =
        rowsProgram.listener.got.map (sbsRead rounded) ∧
      ∀ k, (rowsProgram.turn publishSlots
        (run decimals namedSolver 1 Nat.one_pos 8 64 true false false fixRun).output.sent
        (sbsBytes decimals) (some k)).stopped = false := by
  have hreads := sbs_reads decimals asciiLower rounded roundTrip_decimals Returns.plain_decimals
    lowers_asciiLower namedSolver 1 Nat.one_pos 8 64 true false false fixRun _ rfl rowsProgram
    (headD_mem _ _ (by decide +kernel))
  have hall : rowsProgram.listener.next =
      (run decimals namedSolver 1 Nat.one_pos 8 64 true false false fixRun).output.sent.length := by
    decide +kernel
  refine ⟨by decide +kernel, hreads.1.allRows (by decide +kernel), fun k => ?_⟩
  -- There is nothing more to write, so no write fails.
  rw [← Bool.not_eq_true, (hreads.2.1 (some k)).2 (by decide +kernel)]
  omega

end Mlatd

end Server

namespace Client

namespace Outlets

/-- A program of each kind connects; one reads both positions and a keepalive between
    them, the other the second position. -/
def twoPrograms : List (Event ℚ) :=
  [.subscribe .beast, .publish ⟨0x3c6444, 472 / 10, -3 / 2, 35012⟩, .turn 0 none,
    .keepalive 0 none, .subscribe .basestation, .publish ⟨0x40621d, 52, 39 / 10, 38000⟩,
    .turn 1 none, .turn 0 none]

def beastProgram : Outlet ℚ :=
  (exec (step decimals) {} twoPrograms).outlets.headD ⟨Library.Feed.join [], .beast⟩

theorem outlet_reads_beast :
    beastProgram.listener.got.length = 2 ∧
      beastProgram.Reads decimals asciiLower rounded (exec (step decimals) {} twoPrograms).sent :=
  ⟨by decide +kernel,
    (outlet_reads decimals asciiLower rounded roundTrip_decimals Server.Returns.plain_decimals
      lowers_asciiLower twoPrograms beastProgram (headD_mem _ _ (by decide +kernel))).1⟩

end Outlets

end Client

end Example

end MlatBench
