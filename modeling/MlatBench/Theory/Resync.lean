import MlatBench.Theory.Waiting

/-!
# The Decoder Finds Its Place Again

A doubled escape byte and a byte that is none are the units of a written
payload. The decoder can come to stand on the second half of a doubled byte, but
only outside a message, where it looks at every byte; a payload is always
read from between two units. So the next escape byte that starts a message is
never taken for half of a doubled one, and the decoder stops at it, whatever it
has read before: of the messages behind any bytes only the first can be lost.

## Main definitions

* `Starts`: A message starts here.
* `Leads`: The scan comes to a place.
* `Message`: A message that can be written.

## Theorems

* `leads_units`: Units are read up to the next message.
* `next_none`: What waits at the end of any bytes.
* `leads_garbage`: Any bytes and a message are read up to the next one.
* `resync`: Messages behind any bytes.
-/

namespace MlatBench

namespace Client

open Library

namespace Beast

/-- A message starts here: its type is no escape byte. -/
def Starts (m : List UInt8) : Prop :=
  ∃ t rest, m = escape :: t :: rest ∧ t ≠ escape

/-- A payload that is not full stops at the start of a message. -/
theorem readPayload_starts (want : Nat) (acc : List UInt8) (i : Nat) (m : List UInt8)
    (hm : Starts m) (h : ¬ want ≤ acc.length) : readPayload want acc i m = .truncated i := by
  rcases hm with ⟨t, rest, rfl, ht⟩
  rw [readPayload.eq_def]
  simp only [if_neg h, if_true, if_neg ht]

/-- The scan comes to a place, whatever it has given before. -/
def Leads (xs m : List UInt8) : Prop :=
  ∃ out, decoder.scan xs = (out ++ (decoder.scan m).1, (decoder.scan m).2)

theorem Leads.refl (m : List UInt8) : Leads m m := ⟨[], rfl⟩

theorem Leads.trans {xs ys m : List UInt8} (h : Leads xs ys) (h' : Leads ys m) : Leads xs m := by
  rcases h with ⟨out, hout⟩
  rcases h' with ⟨out', hout'⟩
  exact ⟨out ++ out', by rw [hout, hout', List.append_assoc]⟩

/-- One turn of the scan. -/
theorem Leads.turn {xs m : List UInt8} (n : Nat) (r : Option Reception)
    (hnext : decoder.next xs = some (n, r)) (h : Leads (xs.drop n) m) : Leads xs m :=
  Leads.trans ⟨r.toList, Decoder.scan_some decoder xs n r hnext⟩ h

/-- An escape byte before anything but a type is skipped. -/
theorem leads_stray (t : UInt8) (rest m : List UInt8) (ht : frameLen t = none)
    (h : Leads (t :: rest) m) : Leads (escape :: t :: rest) m := by
  refine Leads.turn 1 none ?_ h
  rw [next_escape, parseAt]
  simp only [ht]

/-- A message among units is complete before the next message or given up at
    it: either way the scan comes to stand between two units. -/
theorem leads_payload (t : UInt8) (len : Nat) (ht : frameLen t = some len) (q m : List UInt8)
    (hm : Starts m) :
    ∃ r, r.length ≤ q.length ∧ Leads (escape :: t :: (escaped q ++ m)) (escaped r ++ m) := by
  by_cases hshort : q.length < 6 + 1 + len
  · refine ⟨[], Nat.zero_le _, ?_⟩
    have hread : (readPayload (6 + 1 + len) [] 2 (escaped q ++ m)).stop =
        some (2 + (escaped q).length) := by
      rw [readPayload_escaped _ q [] 2 m (by rw [List.length_nil]; omega),
        readPayload_starts _ _ _ m hm (by rw [List.nil_append]; omega)]
      rfl
    rcases next_stop t _ len _ ht hread with ⟨r, hnext⟩
    refine Leads.turn _ r hnext ?_
    rw [Nat.add_comm 2, List.drop_succ_cons, List.drop_succ_cons, List.drop_left]
    exact Leads.refl m
  · refine ⟨q.drop (6 + 1 + len), by rw [List.length_drop]; omega, ?_⟩
    have hsplit : escaped q = escaped (q.take (6 + 1 + len)) ++ escaped (q.drop (6 + 1 + len)) := by
      rw [← escaped_append, List.take_append_drop]
    have htake : (q.take (6 + 1 + len)).length = 6 + 1 + len := by
      rw [List.length_take]
      omega
    have hread : (readPayload (6 + 1 + len) [] 2 (escaped q ++ m)).stop =
        some (2 + (escaped (q.take (6 + 1 + len))).length) := by
      rw [hsplit, List.append_assoc, readPayload_escaped _ _ [] 2 _ (by
        rw [List.length_nil, htake]
        omega), readPayload_full _ _ _ _ (by rw [List.nil_append, htake])]
      rfl
    rcases next_stop t _ len _ ht hread with ⟨r, hnext⟩
    refine Leads.turn _ r hnext ?_
    rw [Nat.add_comm 2, List.drop_succ_cons, List.drop_succ_cons, hsplit, List.append_assoc,
      List.drop_left]
    exact Leads.refl _

/-- From between two units, and from the second half of a doubled byte, the
    scan comes to the next message. By induction on the units left: a doubled
    byte is entered at its second half, and left for what is behind it. -/
theorem leads_units (q m : List UInt8) (hm : Starts m) :
    Leads (escaped q ++ m) m ∧ Leads (escape :: (escaped q ++ m)) m := by
  induction hlen : q.length using Nat.strong_induction_on generalizing q with
  | _ len ih =>
      have hwhole : Leads (escaped q ++ m) m := by
        cases q with
        | nil => exact Leads.refl m
        | cons b q =>
            have hq := ih q.length (by rw [← hlen, List.length_cons]; omega) q rfl
            by_cases hb : b = escape
            · subst hb
              rw [escaped_cons_escape]
              exact leads_stray escape _ m rfl hq.2
            · rw [escaped_cons_plain b q hb]
              exact Leads.turn 1 none (next_plain b _ hb) hq.1
      refine ⟨hwhole, ?_⟩
      cases q with
      | nil =>
          rcases hm with ⟨t, rest, rfl, ht⟩
          exact leads_stray escape _ _ rfl (Leads.refl _)
      | cons b q =>
          by_cases hb : b = escape
          · subst hb
            rw [escaped_cons_escape] at hwhole ⊢
            exact leads_stray escape _ m rfl hwhole
          · rw [escaped_cons_plain b q hb] at hwhole ⊢
            cases htype : frameLen b with
            | none => exact leads_stray b _ m htype hwhole
            | some len' =>
                rcases leads_payload b len' htype q m hm with ⟨r, hr, hlead⟩
                rw [List.length_cons] at hlen
                exact hlead.trans (ih r.length (by omega) r rfl).1

/-- What waits is nothing, or an escape byte and units, the last maybe half. -/
theorem next_none (b : List UInt8) (h : decoder.next b = none) :
    b = [] ∨ ∃ p, b = escape :: escaped p ∨ b = escape :: (escaped p ++ [escape]) := by
  rcases next_waits b h with hnil | hone | ⟨type, len, p, hlen, _, hp⟩
  · exact Or.inl hnil
  · exact Or.inr ⟨[], Or.inl hone⟩
  · -- A type is a unit of its own.
    refine Or.inr ⟨type :: p, ?_⟩
    rw [escaped_cons_plain type p (frameLen_some type len hlen).2]
    exact hp

/-- A message that can be written: the counter has 48 bits, and the frame is a
    short or a long one. -/
structure Message where
  counts12mhz : UInt64
  signal : UInt8
  frame : List UInt8
  counts_lt : counts12mhz.toNat < 2 ^ 48
  length_frame : frame.length = 7 ∨ frame.length = 14

def Message.bytes (m : Message) : List UInt8 := encode m.counts12mhz m.signal m.frame

def Message.reception (m : Message) : Reception :=
  { counts12mhz := m.counts12mhz.toNat, frame := m.frame }

/-- The type of a message and its payload. -/
def Message.type (m : Message) : UInt8 := if m.frame.length = 7 then 0x32 else 0x33

def Message.payload (m : Message) : List UInt8 :=
  (beBytes 8 m.counts12mhz.toNat).drop 2 ++ ([m.signal] ++ m.frame)

theorem Message.type_ne (m : Message) : m.type ≠ escape := by
  unfold type
  split_ifs
  · decide
  · decide

theorem Message.bytes_units (m : Message) : m.bytes = escape :: escaped (m.type :: m.payload) := by
  rw [escaped_cons_plain m.type _ m.type_ne]
  rfl

theorem Message.starts (m : Message) (rest : List UInt8) : Starts (m.bytes ++ rest) := by
  refine ⟨m.type, escaped m.payload ++ rest, ?_, m.type_ne⟩
  rw [m.bytes_units, escaped_cons_plain m.type _ m.type_ne]
  rfl

theorem Message.frameLen_type (m : Message) : frameLen m.type = some m.frame.length := by
  unfold type
  rcases m.length_frame with hseven | hfourteen
  · rw [if_pos hseven, hseven]
    rfl
  · rw [if_neg (by omega), hfourteen]
    rfl

theorem Message.length_payload (m : Message) : m.payload.length = 6 + 1 + m.frame.length := by
  unfold payload
  rw [List.length_append, List.length_append, List.length_drop, length_beBytes,
    List.length_singleton, Nat.add_assoc]

/-- A message is read back. -/
theorem Message.next_bytes (m : Message) (rest : List UInt8) :
    decoder.next (m.bytes ++ rest) = some (m.bytes.length, some m.reception) := by
  have hbytes : m.bytes = escape :: m.type :: escaped m.payload := rfl
  have hread : readPayload (6 + 1 + m.frame.length) [] 2 (escaped m.payload ++ rest) =
      .complete (2 + (escaped m.payload).length) m.payload := by
    rw [readPayload_escaped _ m.payload [] 2 rest (by
      rw [m.length_payload, List.length_nil, Nat.zero_add]),
      readPayload_full _ _ _ _ (by rw [List.nil_append, m.length_payload]), List.nil_append]
  have hlong : m.frame.length ≠ 2 := by
    rcases m.length_frame with hseven | hfourteen
    · omega
    · omega
  have hcounts : beCounts (m.payload.take 6) = m.counts12mhz.toNat := by
    have hsix : m.payload.take 6 = beBytes 6 m.counts12mhz.toNat := by
      rw [← drop_beBytes 6 2]
      exact List.take_left' (by rw [List.length_drop, length_beBytes])
    rw [hsix]
    exact beValue_beBytes 6 _ m.counts_lt
  have hframe : m.payload.drop 7 = m.frame := by
    unfold payload
    rw [← List.append_assoc]
    exact List.drop_left' (by
      rw [List.length_append, List.length_drop, length_beBytes, List.length_singleton])
  rw [hbytes, List.cons_append, List.cons_append, next_escape, parseAt]
  simp only [m.frameLen_type, hread, if_neg hlong, hcounts, hframe]
  rw [List.length_cons, List.length_cons, Nat.add_comm 2]
  rfl

/-- Messages are read back, one for one. -/
theorem scan_messages (ms : List Message) :
    decoder.scan (ms.flatMap Message.bytes) = (ms.map Message.reception, []) := by
  induction ms with
  | nil => exact Decoder.scan_none decoder [] rfl
  | cons m ms ih =>
      rw [List.flatMap_cons, Decoder.scan_some decoder _ _ _ (m.next_bytes _), List.drop_left, ih]
      rfl

/-- Any bytes and a message behind them are read up to the next message. What
    the bytes leave waiting takes the message's first byte as the half it lacks,
    or stops there. -/
theorem leads_garbage (g : List UInt8) (m : Message) (rest : List UInt8) (hrest : Starts rest) :
    Leads (g ++ (m.bytes ++ rest)) rest := by
  have hwait : Leads (g ++ (m.bytes ++ rest)) ((decoder.scan g).2 ++ (m.bytes ++ rest)) :=
    ⟨(decoder.scan g).1, Decoder.scan_append decoder decoder_stable g _⟩
  have hfirst : Leads (m.bytes ++ rest) rest := by
    rw [m.bytes_units, List.cons_append]
    exact (leads_units (m.type :: m.payload) rest hrest).2
  refine hwait.trans ?_
  rcases next_none _ (Decoder.scan_rest decoder g) with hnil | ⟨p, hunits | hhalf⟩
  · rw [hnil, List.nil_append]
    exact hfirst
  · rw [hunits, List.cons_append]
    exact (leads_units p (m.bytes ++ rest) (m.starts rest)).2.trans hfirst
  · have hjoin : (decoder.scan g).2 ++ (m.bytes ++ rest) =
        escape :: (escaped (p ++ escape :: m.type :: m.payload) ++ rest) := by
      rw [hhalf, m.bytes_units, escaped_append, escaped_cons_escape]
      simp only [List.cons_append, List.append_assoc, List.nil_append]
    rw [hjoin]
    exact (leads_units _ rest hrest).2

end Beast

open Beast

theorem beastServe_bytes (m : Message) (h : m.signal = 0xA0) :
    beastServe m.counts12mhz m.frame = m.bytes := by
  rw [beastServe, ← h]
  rfl

/-- The counter of a position that was computed. -/
def mlatCounts : UInt64 := 0xFF004D4C4154

theorem length_positionPair {F : Type} [F64Fn F] (icao : Icao) (altFt : Int) (lat lon : F)
    (pair : List UInt8 × List UInt8)
    (h : Modes.df18PositionPair icao altFt lat lon = some pair) :
    pair.1.length = 14 ∧ pair.2.length = 14 := by
  unfold Modes.df18PositionPair at h
  split at h
  · exact nomatch h
  · rw [Option.some_inj] at h
    subst h
    exact ⟨rfl, rfl⟩

/-- The bytes before a position's frame are those of a message without signal. -/
theorem encode_mlat (f : List UInt8) (h : f.length = 14) :
    encode mlatCounts 0 f =
      [0x1a, 0x33, 0xff, 0x00, 0x4d, 0x4c, 0x41, 0x54, 0x00] ++ escaped f := by
  have hcounts : escaped ((beBytes 8 mlatCounts.toNat).drop 2 ++ [0]) =
      [0xff, 0x00, 0x4d, 0x4c, 0x41, 0x54, 0x00] := by decide
  rw [encode, if_neg (by omega), ← List.append_assoc _ [0] f, escaped_append, hcounts]
  rfl

/-- A position is written as two messages. -/
theorem beastBytes_messages {F : Type} [F64Fn F] (p : ResultPos F) (out : List UInt8)
    (h : p.beastBytes = some out) :
    ∃ even odd : Message, out = [even, odd].flatMap Message.bytes ∧
      ∀ m ∈ [even, odd], m.counts12mhz = mlatCounts ∧ m.signal = 0 := by
  unfold ResultPos.beastBytes at h
  rw [Option.map_eq_some_iff] at h
  rcases h with ⟨⟨even, odd⟩, hpair, rfl⟩
  rcases length_positionPair _ _ _ _ _ hpair with ⟨heven, hodd⟩
  refine ⟨⟨mlatCounts, 0, even, by decide, Or.inr heven⟩,
    ⟨mlatCounts, 0, odd, by decide, Or.inr hodd⟩, ?_, ?_⟩
  · simp only [List.flatMap_cons, List.flatMap_nil, Message.bytes]
    rw [encode_mlat even heven, encode_mlat odd hodd]
  · intro m hm
    rcases List.mem_cons.mp hm with rfl | hm
    · exact ⟨rfl, rfl⟩
    · rw [List.mem_singleton.mp hm]
      exact ⟨rfl, rfl⟩

/-- However the stream is cut into pieces: messages are read back, one for one,
    and behind any bytes all but the first are, and nothing is left waiting. What
    is served and what goes to other programs are such messages. -/
theorem resync :
    (∀ (ms : List Message) (chunks : List (List UInt8)),
      chunks.flatten = ms.flatMap Message.bytes →
      ({} : BeastDecoder).feedAll chunks = (⟨[]⟩, ms.map Message.reception)) ∧
    (∀ (g : List UInt8) (m₁ m₂ : Message) (ms : List Message) (chunks : List (List UInt8)),
      chunks.flatten = g ++ (m₁ :: m₂ :: ms).flatMap Message.bytes →
      ∃ out, ({} : BeastDecoder).feedAll chunks =
        (⟨[]⟩, out ++ (m₂ :: ms).map Message.reception)) ∧
    (∀ m : Message, m.signal = 0xA0 → beastServe m.counts12mhz m.frame = m.bytes) ∧
    ∀ {F : Type} [F64Fn F] (p : ResultPos F) (out : List UInt8), p.beastBytes = some out →
      ∃ even odd : Message, out = [even, odd].flatMap Message.bytes ∧
        ∀ m ∈ [even, odd], m.counts12mhz = mlatCounts ∧ m.signal = 0 := by
  refine ⟨fun ms chunks hchunks => ?_, fun g m₁ m₂ ms chunks hchunks => ?_,
    fun m hm => beastServe_bytes m hm, fun p out h => beastBytes_messages p out h⟩
  · rw [BeastDecoder.feedAll_flatten, hchunks, BeastDecoder.feed]
    simp only [List.nil_append, scan_messages]
  · have hstarts : Starts ((m₂ :: ms).flatMap Message.bytes) := by
      rw [List.flatMap_cons]
      exact m₂.starts _
    rcases leads_garbage g m₁ _ hstarts with ⟨out, hout⟩
    rw [scan_messages] at hout
    refine ⟨out, ?_⟩
    rw [BeastDecoder.feedAll_flatten, hchunks, List.flatMap_cons, BeastDecoder.feed]
    simp only [List.nil_append, hout]

/-- A message whose frame is escape bytes only. -/
def escapes : Message := ⟨5, 0xA0, List.replicate 7 0x1a, by decide, by decide⟩

/-- A half doubled byte before two such messages, byte by byte. -/
theorem resync_half : ∃ out, ({} : BeastDecoder).feedAll
    (([0x1a, 0x33, 0x1a] ++ (escapes.bytes ++ escapes.bytes)).map ([·])) =
      (⟨[]⟩, out ++ [escapes.reception]) :=
  resync.2.1 [0x1a, 0x33, 0x1a] escapes escapes [] _ (by decide)

end Client

end MlatBench
