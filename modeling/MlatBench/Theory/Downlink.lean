import MlatBench.Core.Downlink
import MlatBench.Theory.Uplink

/-!
# Plain and Framed Downlinks

What call after call gives, in the two modes. In plain mode it is every line
that is not blank. In framed mode it is every line that is not empty, up to the
first frame that has none: such a frame looks like the end of the stream. So the
modes agree on the same lines just when no line of white space comes before such
a frame, and nothing but white space behind it.

## Main definitions

* `nonBlank`: A line with more than white space.
* `text`: Lines as they are sent.
* `Encodes`: Frames that carry groups of lines.
* `Agree`: The modes give the same lines, and the same end.

## Theorems

* `nextPlain_spec`: A call in plain mode.
* `lines_plain`, `lines_framed`: Call after call.
* `agree_iff`: When the modes agree.
-/

namespace MlatBench

namespace Client

open Library Server

/-- More than white space. -/
def nonBlank (l : List UInt8) : Bool := !l.all isAsciiWhitespace

/-- Lines as they are sent. -/
def text (ls : List (List UInt8)) : List UInt8 := ls.flatMap (· ++ [newline])

namespace Downlink

/-- A call in plain mode takes lines of the stream, blank ones and then one that
    is not, or all that is there. -/
theorem nextPlain_spec (eof : Bool) (line avail : List UInt8) :
    ∃ xs, avail = xs ++ (nextPlain eof line avail).2.2.2 ∧
      cut (complete false) line xs =
        ((nextPlain eof line avail).2.1, (nextPlain eof line avail).2.2.1) ∧
      (((nextPlain eof line avail).1 = (if eof then .closed else .pending) ∧
          (nextPlain eof line avail).2.2.2 = [] ∧
          (nextPlain eof line avail).2.1.filter nonBlank = []) ∨
        ∃ l, (nextPlain eof line avail).1 = .line l ∧ (nextPlain eof line avail).2.2.1 = [] ∧
          (nextPlain eof line avail).2.1.filter nonBlank = [l]) := by
  induction avail generalizing line with
  | nil => exact ⟨[], rfl, rfl, Or.inl ⟨rfl, rfl, rfl⟩⟩
  | cons b rest ih =>
      rw [nextPlain]
      by_cases hb : b = newline
      · have hdone : complete false (line ++ [b]) = true := by
          rw [complete_plain, List.getLast?_concat, hb]
        rw [if_pos hb]
        by_cases hblank : (line ++ [b]).all isAsciiWhitespace = true
        · have hskip : nonBlank (line ++ [b]) = false := by
            rw [nonBlank, hblank]
            rfl
          rcases ih [] with ⟨xs, havail, hcut, hcase⟩
          rw [if_pos hblank]
          refine ⟨b :: xs, congrArg (b :: ·) havail, ?_, ?_⟩
          · rw [cut, if_pos hdone, hcut]
          · simp only [List.filter_cons, hskip, Bool.false_eq_true, if_false]
            exact hcase
        · have hkeep : nonBlank (line ++ [b]) = true := by
            rw [nonBlank, eq_false_of_ne_true hblank]
            rfl
          rw [if_neg hblank]
          refine ⟨[b], rfl, ?_, Or.inr ⟨_, rfl, rfl, ?_⟩⟩
          · rw [cut, if_pos hdone]
            rfl
          · simp only [List.filter_cons, hkeep, if_true, List.filter_nil]
      · have hopen : ¬ complete false (line ++ [b]) = true := by
          rw [complete_plain, List.getLast?_concat, Option.some.injEq]
          exact hb
        rw [if_neg hb]
        rcases ih (line ++ [b]) with ⟨xs, havail, hcut, hcase⟩
        refine ⟨b :: xs, congrArg (b :: ·) havail, ?_, hcase⟩
        rw [cut, if_neg hopen, hcut]

variable (decode : List (List UInt8) → List UInt8 → Option (List UInt8))

/-- A call in plain mode ends the stream's bytes without a line, or gives one. -/
theorem nextLine_plain (d : Downlink) (hframed : d.framed = false) (hqueue : d.queue = []) :
    ∃ xs rest read taken, d.avail = xs ++ rest ∧ cut (complete false) d.taken xs = (read, taken) ∧
      ((d.nextLine decode = (if d.eof then .closed else .pending,
          { d with avail := [], taken := taken, read := d.read ++ read, queue := [] }) ∧
          rest = [] ∧ read.filter nonBlank = []) ∨
        ∃ l, d.nextLine decode = (.line l,
          { d with avail := rest, taken := [], read := d.read ++ read, queue := [] }) ∧
          taken = [] ∧ read.filter nonBlank = [l]) := by
  have hnext : d.nextLine decode = ((nextPlain d.eof d.taken d.avail).1,
      { d with
        avail := (nextPlain d.eof d.taken d.avail).2.2.2
        taken := (nextPlain d.eof d.taken d.avail).2.2.1
        read := d.read ++ (nextPlain d.eof d.taken d.avail).2.1
        queue := [] }) := by
    unfold nextLine
    rw [hqueue, hframed]
    rfl
  rcases nextPlain_spec d.eof d.taken d.avail with ⟨xs, havail, hcut, hcase⟩
  refine ⟨xs, _, _, _, havail, hcut, ?_⟩
  rcases hcase with ⟨hcall, hrest, hnone⟩ | ⟨l, hcall, htaken, hone⟩
  · left
    rw [hnext, hcall, hrest]
    exact ⟨rfl, rfl, hnone⟩
  · right
    refine ⟨l, ?_, htaken, hone⟩
    rw [hnext, hcall, htaken]

/-- Call after call in plain mode, at the end of the stream. -/
theorem lines_plain (d : Downlink) (hframed : d.framed = false) (heof : d.eof = true)
    (hqueue : d.queue = []) (n : Nat)
    (hn : ((cut (complete false) d.taken d.avail).1.filter nonBlank).length < n) :
    d.lines decode n = ((cut (complete false) d.taken d.avail).1.filter nonBlank, .closed) := by
  induction n generalizing d with
  | zero => exact absurd hn (Nat.not_lt_zero _)
  | succ n ih =>
      rcases nextLine_plain decode d hframed hqueue with
        ⟨xs, rest, read, taken, havail, hcut, hcase⟩
      have hwhole : (cut (complete false) d.taken d.avail).1.filter nonBlank =
          read.filter nonBlank ++ (cut (complete false) taken rest).1.filter nonBlank := by
        rw [havail, cut_append, hcut, List.filter_append]
      rw [hwhole] at hn ⊢
      rcases hcase with ⟨hnext, rfl, hnone⟩ | ⟨l, hnext, rfl, hone⟩
      · rw [lines, hnext, heof, hnone]
        rfl
      · rw [hone, List.singleton_append, List.length_cons] at hn
        rw [lines, hnext, hone]
        simp only []
        rw [ih { d with avail := rest, taken := [], read := d.read ++ read, queue := [] } hframed
          heof rfl (Nat.lt_of_succ_lt_succ hn)]
        rfl

/-- A frame at the front of the stream is read. -/
theorem nextFramed_frame (d : Downlink) (f rest : List UInt8) (htaken : d.taken = [])
    (havail : d.avail = f ++ rest) (hf : complete true f = true) (bytes : List UInt8)
    (hdecode : decode d.read f = some bytes) :
    d.nextFramed decode =
      (match frameLines bytes with
        | [] => .closed
        | l :: _ => .line l,
        { d with
          taken := [], avail := rest, read := d.read ++ [f]
          queue := match frameLines bytes with
            | [] => d.queue
            | _ :: queue => queue }) := by
  rcases (complete_framed f).mp hf with ⟨htwo, hlen⟩
  have hhead : readExact 2 d.taken d.avail = (f.take 2, f.drop 2 ++ rest) := by
    rw [readExact, htaken, havail, List.nil_append, List.length_nil, Nat.sub_zero,
      List.take_append_of_le_length htwo, List.drop_append_of_le_length htwo]
  have htake : (f.take 2).length = 2 := by
    rw [List.length_take]
    omega
  have hprefix : frameLen (f.take 2) = frameLen f := by
    conv => rhs; rw [← List.take_append_drop 2 f]
    rw [frameLen_append _ _ (by omega)]
  have hbody : readExact (2 + frameLen (f.take 2)) (f.take 2) (f.drop 2 ++ rest) = (f, rest) := by
    have hdrop : (f.drop 2).length = 2 + frameLen (f.take 2) - (f.take 2).length := by
      rw [List.length_drop, hprefix, htake, hlen]
    rw [readExact, ← hdrop, List.take_left, List.drop_left, List.take_append_drop]
  unfold nextFramed
  rw [hhead]
  simp only []
  rw [if_neg (by omega), hbody]
  simp only []
  rw [if_neg (by omega), hdecode]
  cases hlines : frameLines bytes with
  | nil => simp only [hlines]
  | cons l queue => simp only [hlines]

theorem beq_newline (l : List UInt8) (h : newline ∉ l) : ∀ b ∈ l, (b == newline) = false := by
  intro b hb
  rw [beq_eq_false_iff_ne]
  rintro rfl
  exact h hb

/-- The lines of a frame that carries lines. -/
theorem frameLines_text (g : List (List UInt8)) (h : ∀ l ∈ g, newline ∉ l) :
    frameLines (text g) = g.filter (· ≠ []) := by
  induction g with
  | nil => rfl
  | cons l g ih =>
      have hplain := beq_newline l (h l List.mem_cons_self)
      have htext : text (l :: g) = l ++ newline :: text g := by
        rw [text, List.flatMap_cons, List.append_assoc]
        rfl
      have hsplit : (l ++ newline :: text g).splitOn newline = [l] ++ (text g).splitOn newline := by
        unfold List.splitOn
        rw [List.splitOnP_append_cons (p := fun b => b == newline) l (text g)
          (beq_self_eq_true newline), List.splitOnP_eq_singleton hplain]
      have hrest := ih fun l' hl' => h l' (List.mem_cons_of_mem l hl')
      unfold frameLines at hrest ⊢
      rw [htext, hsplit, List.filter_append, hrest, ← List.filter_append, List.singleton_append]

/-- The lines of a plain stream. -/
theorem segments_text (ls : List (List UInt8)) (h : ∀ l ∈ ls, newline ∉ l) :
    segments (complete false) (text ls) = ls.map (· ++ [newline]) := by
  induction ls with
  | nil => rfl
  | cons l ls ih =>
      have hrest := ih fun l' hl' => h l' (List.mem_cons_of_mem l hl')
      have hunit : cut (complete false) [] (l ++ [newline]) = ([l ++ [newline]], []) := by
        refine cut_unit (complete false) [] _ (List.concat_ne_nil newline l) ?_ ?_
        · rw [List.nil_append, complete_plain, List.getLast?_concat]
        · intro ys hne hpre hys
          rw [List.nil_append, ← Bool.not_eq_true, complete_plain]
          intro hlast
          -- A proper part of the line does not end in a newline.
          have hpart : ys <+: l := by
            rcases List.prefix_concat_iff.mp hpre with heq | hpart
            · exact absurd heq hys
            · exact hpart
          exact h l List.mem_cons_self (hpart.subset (List.mem_of_getLast? hlast))
      have htext : text (l :: ls) = (l ++ [newline]) ++ text ls := List.flatMap_cons
      unfold segments at hrest ⊢
      rw [htext, cut_append, hunit, hrest]
      rfl

/-- Frames that carry groups of lines, one each, behind other frames. -/
def Encodes : List (List UInt8) → List (List UInt8) → List (List (List UInt8)) → Prop
  | _, [], [] => True
  | before, f :: fs, g :: gs =>
    complete true f = true ∧ decode before f = some (text g) ∧ Encodes (before ++ [f]) fs gs
  | _, _, _ => False

/-- A group with a line that is not empty. -/
def hasLine (g : List (List UInt8)) : Bool := g.any (· ≠ [])

/-- What is left in the queue comes first. -/
theorem lines_queue (d : Downlink) (q : List (List UInt8)) (hqueue : d.queue = q) (n : Nat) :
    d.lines decode (q.length + n) =
      (q ++ (({ d with queue := [] } : Downlink).lines decode n).1,
        (({ d with queue := [] } : Downlink).lines decode n).2) := by
  induction q generalizing d with
  | nil =>
      have hsame : ({ d with queue := [] } : Downlink) = d := by rw [← hqueue]
      rw [List.length_nil, Nat.zero_add, hsame]
      rfl
  | cons l q ih =>
      have hnext : d.nextLine decode = (.line l, { d with queue := q }) := by
        unfold nextLine
        rw [hqueue]
      have hlen : (l :: q).length + n = (q.length + n) + 1 := by
        rw [List.length_cons]
        omega
      rw [hlen, lines, hnext]
      simp only []
      rw [ih { d with queue := q } rfl]
      rfl

theorem filter_of_hasLine_false (g : List (List UInt8)) (h : hasLine g = false) :
    g.filter (· ≠ []) = [] := by
  rw [List.filter_eq_nil_iff]
  intro l hl hne
  rw [hasLine, List.any_eq_false] at h
  exact h l hl hne

/-- Call after call in framed mode: the lines of the frames before the first
    frame without one. -/
theorem lines_framed (fs : List (List UInt8)) (gs : List (List (List UInt8))) (d : Downlink)
    (hframed : d.framed = true) (heof : d.eof = true) (htaken : d.taken = [])
    (hqueue : d.queue = []) (havail : d.avail = fs.flatten) (hfs : Encodes decode d.read fs gs)
    (hgs : ∀ g ∈ gs, ∀ l ∈ g, newline ∉ l) (n : Nat)
    (hn : ((gs.takeWhile hasLine).flatten.filter (· ≠ [])).length ≤ n) :
    d.lines decode (n + 1) = ((gs.takeWhile hasLine).flatten.filter (· ≠ []), .closed) := by
  induction fs generalizing gs d n with
  | nil =>
      cases gs with
      | nil =>
          have hnext : d.nextLine decode =
              (.closed, { d with taken := [], avail := [] }) := by
            unfold nextLine nextFramed
            rw [hqueue, hframed, htaken, havail, heof]
            rfl
          rw [lines, hnext]
          rfl
      | cons g gs => exact hfs.elim
  | cons f fs ih =>
      cases gs with
      | nil => exact hfs.elim
      | cons g gs =>
          rcases hfs with ⟨hf, hdecode, hrest⟩
          have hlines := frameLines_text g (hgs g List.mem_cons_self)
          have hnext : d.nextLine decode = d.nextFramed decode := by
            unfold nextLine
            rw [hqueue, hframed]
            rfl
          rw [nextFramed_frame decode d f fs.flatten htaken havail hf _ hdecode, hlines] at hnext
          by_cases hg : hasLine g = true
          · rw [List.takeWhile_cons_of_pos hg, List.flatten_cons, List.filter_append] at hn ⊢
            cases hq : g.filter (· ≠ []) with
            | nil =>
                rw [hasLine, List.any_eq_true] at hg
                rcases hg with ⟨l, hl, hne⟩
                have hmem : l ∈ g.filter (· ≠ []) := List.mem_filter.mpr ⟨hl, hne⟩
                rw [hq] at hmem
                exact absurd hmem List.not_mem_nil
            | cons l q =>
                rw [hq] at hn hnext
                rw [List.cons_append, List.length_cons, List.length_append] at hn
                obtain ⟨m, rfl⟩ : ∃ m, n = q.length + (m + 1) := ⟨n - q.length - 1, by omega⟩
                rw [lines, hnext]
                simp only []
                rw [lines_queue decode _ q rfl, ih gs { d with
                  taken := [], avail := fs.flatten, read := d.read ++ [f], queue := [] }
                  hframed heof rfl rfl rfl hrest
                  (fun g' hg' => hgs g' (List.mem_cons_of_mem g hg')) m (by omega)]
                rfl
          · -- The first frame without a line.
            have hnone := filter_of_hasLine_false g (eq_false_of_ne_true hg)
            rw [hnone] at hnext
            rw [List.takeWhile_cons_of_neg hg, lines, hnext]
            rfl

/-- A reader at a stream that is all there and has ended. -/
def ofStream (framed : Bool) (stream : List UInt8) : Downlink :=
  { new framed with avail := stream, eof := true }

/-- With calls enough, both modes give the same lines, up to the newline, and
    end the same way. -/
def Agree (frames : List (List UInt8)) (groups : List (List (List UInt8))) : Prop :=
  ∃ k, ∀ n, k ≤ n →
    (((ofStream false (text groups.flatten)).lines decode n).1.map List.dropLast,
      ((ofStream false (text groups.flatten)).lines decode n).2) =
    (ofStream true frames.flatten).lines decode n

theorem nonBlank_newline (l : List UInt8) : nonBlank (l ++ [newline]) = nonBlank l := by
  have hspace : isAsciiWhitespace newline = true := by decide
  rw [nonBlank, List.all_append, nonBlank, List.all_cons, hspace]
  simp only [List.all_nil, Bool.and_true]

theorem filter_lines (ls : List (List UInt8)) :
    ((ls.map (· ++ [newline])).filter nonBlank).map List.dropLast = ls.filter nonBlank := by
  induction ls with
  | nil => rfl
  | cons l ls ih =>
      rw [List.map_cons, List.filter_cons, nonBlank_newline, List.filter_cons]
      by_cases hl : nonBlank l = true
      · rw [if_pos hl, if_pos hl, List.map_cons, ih, List.dropLast_concat]
      · rw [if_neg hl, if_neg hl, ih]

theorem nonBlank_ne (l : List UInt8) (h : nonBlank l = true) : l ≠ [] := by
  rintro rfl
  exact absurd h (by decide)

/-- Call after call in plain mode, on lines as they are sent. -/
theorem lines_text (ls : List (List UInt8)) (h : ∀ l ∈ ls, newline ∉ l) (n : Nat)
    (hn : ((ls.map (· ++ [newline])).filter nonBlank).length < n) :
    (ofStream false (text ls)).lines decode n =
      ((ls.map (· ++ [newline])).filter nonBlank, .closed) := by
  have hseg : (cut (complete false) [] (text ls)).1 = ls.map (· ++ [newline]) := segments_text ls h
  have hcalls := lines_plain decode (ofStream false (text ls)) rfl rfl rfl n
  change ((cut (complete false) [] (text ls)).1.filter nonBlank).length < n →
    _ = ((cut (complete false) [] (text ls)).1.filter nonBlank, Call.closed) at hcalls
  rw [hseg] at hcalls
  exact hcalls hn

/-- The lines that are not blank, before a place and behind it, are those before
    it that are not empty. -/
theorem filter_append_iff (before behind : List (List UInt8)) :
    before.filter nonBlank ++ behind.filter nonBlank = before.filter (· ≠ []) ↔
      (∀ l ∈ before, l ≠ [] → nonBlank l = true) ∧ ∀ l ∈ behind, nonBlank l = false := by
  have hsame : (∀ l ∈ before, l ≠ [] → nonBlank l = true) →
      before.filter nonBlank = before.filter (· ≠ []) := by
    intro hbefore
    refine List.filter_congr fun l hl => ?_
    rw [Bool.eq_iff_iff, decide_eq_true_eq]
    exact ⟨nonBlank_ne l, hbefore l hl⟩
  constructor
  · intro heq
    have hbefore : ∀ l ∈ before, l ≠ [] → nonBlank l = true := by
      intro l hl hne
      have hmem : l ∈ before.filter (· ≠ []) := List.mem_filter.mpr ⟨hl, decide_eq_true hne⟩
      rw [← heq] at hmem
      rcases List.mem_append.mp hmem with hmem | hmem
      · exact (List.mem_filter.mp hmem).2
      · exact (List.mem_filter.mp hmem).2
    refine ⟨hbefore, fun l hl => eq_false_of_ne_true fun hb => ?_⟩
    rw [hsame hbefore, List.append_right_eq_self] at heq
    exact List.not_mem_nil (heq ▸ List.mem_filter.mpr ⟨hl, hb⟩)
  · rintro ⟨hbefore, hbehind⟩
    have hnone : behind.filter nonBlank = [] := by
      rw [List.filter_eq_nil_iff]
      intro l hl hb
      rw [hbehind l hl] at hb
      exact Bool.false_ne_true hb
    rw [hnone, List.append_nil, hsame hbefore]

/-- The modes agree just when no line of white space comes before the first
    frame without a line, and nothing but white space behind it. -/
theorem agree_iff (frames : List (List UInt8)) (groups : List (List (List UInt8)))
    (hlines : ∀ g ∈ groups, ∀ l ∈ g, newline ∉ l) (hframes : Encodes decode [] frames groups) :
    Agree decode frames groups ↔
      (∀ l ∈ (groups.takeWhile hasLine).flatten, l ≠ [] → nonBlank l = true) ∧
      ∀ l ∈ (groups.dropWhile hasLine).flatten, nonBlank l = false := by
  have hall : ∀ l ∈ groups.flatten, newline ∉ l := by
    intro l hl
    rcases List.mem_flatten.mp hl with ⟨g, hg, hmem⟩
    exact hlines g hg l hmem
  have hplain := lines_text decode groups.flatten hall
  have hframed := lines_framed decode frames groups (ofStream true frames.flatten) rfl rfl rfl
    rfl rfl hframes hlines
  -- The lines of the stream are those before such a frame and those behind.
  have hsplit : groups.flatten.filter nonBlank =
      (groups.takeWhile hasLine).flatten.filter nonBlank ++
        (groups.dropWhile hasLine).flatten.filter nonBlank := by
    rw [← List.filter_append, ← List.flatten_append, List.takeWhile_append_dropWhile]
  rw [← filter_append_iff, ← hsplit]
  constructor
  · rintro ⟨k, hk⟩
    have hboth := hk (k + ((groups.flatten.map (· ++ [newline])).filter nonBlank).length +
      ((groups.takeWhile hasLine).flatten.filter (· ≠ [])).length + 1) (by omega)
    rw [hplain _ (by omega), hframed _ (by omega), filter_lines] at hboth
    exact congrArg Prod.fst hboth
  · intro heq
    refine ⟨((groups.flatten.map (· ++ [newline])).filter nonBlank).length +
      ((groups.takeWhile hasLine).flatten.filter (· ≠ [])).length + 1, fun n hn => ?_⟩
    obtain ⟨n, rfl⟩ : ∃ m, n = m + 1 := ⟨n - 1, by omega⟩
    rw [hplain _ (by omega), hframed n (by omega), filter_lines, heq]

/-- A frame with an empty line, as the encoder makes it, and one behind it with
    two braces. -/
def keepaliveFrame : List UInt8 := [0x00, 0x05, 0x78, 0x9c, 0xe2, 0x02, 0x00]

def bracesFrame : List UInt8 := [0x00, 0x05, 0xaa, 0xae, 0xe5, 0x02, 0x00]

def braces : List UInt8 := [0x7b, 0x7d]

/-- What a decompressor makes of the two. -/
def inflateTwo (before : List (List UInt8)) (f : List UInt8) : Option (List UInt8) :=
  if before = [] ∧ f = keepaliveFrame then some [newline]
  else if before = [keepaliveFrame] ∧ f = bracesFrame then some (braces ++ [newline])
  else none

/-- A frame without a line ends the framed stream. -/
theorem keepalive_ends : ¬ Agree inflateTwo [keepaliveFrame, bracesFrame] [[[]], [braces]] := by
  rintro ⟨k, hk⟩
  have hplain := lines_text inflateTwo [[], braces] (by decide) (k + 2) (by
    change 1 < k + 2
    omega)
  have hframed := lines_framed inflateTwo [keepaliveFrame, bracesFrame] [[[]], [braces]]
    (ofStream true [keepaliveFrame, bracesFrame].flatten) rfl rfl rfl rfl rfl
    ⟨by decide, by decide, by decide, by decide, trivial⟩ (by decide) (k + 1) (Nat.zero_le _)
  have hboth := hk (k + 2) (by omega)
  change (((ofStream false (text [[], braces])).lines inflateTwo (k + 2)).1.map List.dropLast,
    ((ofStream false (text [[], braces])).lines inflateTwo (k + 2)).2) = _ at hboth
  rw [hplain, hframed] at hboth
  exact absurd hboth (by decide)

/-- A frame with both lines. -/
def bothFrame : List UInt8 := [0x00, 0x08, 0x78, 0x9c, 0xe2, 0xaa, 0xae, 0xe5, 0x02, 0x00]

def inflateBoth (before : List (List UInt8)) (f : List UInt8) : Option (List UInt8) :=
  if before = [] ∧ f = bothFrame then some (newline :: braces ++ [newline]) else none

/-- An empty line in a frame with another. -/
theorem agree_iff_both : Agree inflateBoth [bothFrame] [[[], braces]] :=
  (agree_iff inflateBoth [bothFrame] [[[], braces]] (by decide)
    ⟨by decide, by decide, trivial⟩).mpr (by decide)

end Downlink

end Client

end MlatBench
