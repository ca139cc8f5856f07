import MlatBench.Core.Tap
import MlatBench.Library.Runs
import MlatBench.Theory.Capture

/-!
# Replays Send What Was Sent

What a client sends is in the file, the reader's buffer or the socket, in this
order and each byte once, whatever the pieces and whatever the server sends in
between. When the client has closed and the pump has come to its end, all of it
is in the file and went upstream, and a replay of the file sends it again.

## Main definitions

* `clientBytes`: What a file says the client sent.
* `Tap.taken`: What was read from the client.
* `Tap.Intact`: No byte is lost, repeated or out of place.

## Theorems

* `Tap.intact_step`: One event.
* `Tap.ends`: The pump comes to its end.
* `feedClient_file`: A replay writes the client's bytes.
* `Tap.replay_exec`: After any events.
-/

namespace MlatBench

namespace Capture

open Library

/-- The payloads of the client's records. -/
def c2sBytes (rs : List Record) : List UInt8 :=
  (rs.filter fun r => r.kind = recC2s).flatMap (·.payload)

/-- What a file says the client sent: the connect record, and the client's. -/
def clientBytes : List Record → List UInt8
  | [] => []
  | r :: rs => r.payload ++ c2sBytes rs

theorem clientBytes_append (rs : List Record) (r : Record) (h : rs ≠ []) :
    clientBytes (rs ++ [r]) =
      clientBytes rs ++ (if r.kind = recC2s then r.payload else []) := by
  cases rs with
  | nil => exact absurd rfl h
  | cons first rs =>
      have hlast : c2sBytes [r] = if r.kind = recC2s then r.payload else [] := by
        unfold c2sBytes
        by_cases hkind : r.kind = recC2s
        · simp only [List.filter_cons, List.filter_nil, hkind, decide_true, if_true,
            List.flatMap_cons, List.flatMap_nil, List.append_nil]
        · simp only [List.filter_cons, List.filter_nil, hkind, decide_false, Bool.false_eq_true,
            if_false, List.flatMap_nil]
      have hsplit : c2sBytes (rs ++ [r]) = c2sBytes rs ++ c2sBytes [r] := by
        unfold c2sBytes
        rw [List.filter_append, List.flatMap_append]
      rw [List.cons_append, clientBytes, clientBytes, hsplit, hlast, List.append_assoc]

namespace Tap

/-- What was read from the client, but for what is in the reader's buffer. -/
def taken (s : Tap) : List UInt8 :=
  if s.phase = .greeting then s.handshake else clientBytes s.file

/-- No byte is lost, repeated or out of place. -/
structure Intact (s : Tap) : Prop where
  whole : s.taken ++ (s.rbuf ++ s.socket) = s.sent
  forwarded : s.upstream ++ s.inFlight = clientBytes s.file
  -- Before the first line is complete nothing is recorded.
  greeting : s.phase = .greeting → s.file = [] ∧ s.rbuf = []
  connected : s.phase ≠ .greeting → s.phase ≠ .failed →
    ∃ r rs, s.file = r :: rs ∧ r.kind = recConnect
  -- The pump ends when there is nothing left to read.
  ended : s.phase = .ended → s.closed = true ∧ s.rbuf = [] ∧ s.socket = [] ∧ s.inFlight = []

theorem intact_start : Intact start :=
  ⟨rfl, rfl, fun _ => ⟨rfl, rfl⟩, fun h => absurd rfl h, fun h => nomatch h⟩

/-- A record behind the connect record. -/
theorem Intact.record {s : Tap} (h : Intact s) (t : UInt64) (kind : UInt8) (payload : List UInt8)
    (hkind : kind ≠ recC2s) (hphase : s.phase ≠ .greeting) (hfile : s.file ≠ []) :
    Intact (s.record t kind payload) := by
  have hsame : clientBytes (s.file ++ [⟨t, kind, payload⟩]) = clientBytes s.file := by
    rw [clientBytes_append s.file _ hfile, if_neg hkind, List.append_nil]
  refine ⟨?_, ?_, fun hg => absurd hg hphase, fun _ hf => ?_, h.ended⟩
  · have hwhole := h.whole
    rw [taken, if_neg hphase] at hwhole
    change (if s.phase = .greeting then s.handshake else
      clientBytes (s.file ++ [⟨t, kind, payload⟩])) ++ (s.rbuf ++ s.socket) = s.sent
    rw [if_neg hphase, hsame, hwhole]
  · change s.upstream ++ s.inFlight = clientBytes (s.file ++ [⟨t, kind, payload⟩])
    rw [hsame, h.forwarded]
  · rcases h.connected hphase hf with ⟨r, rs, hcons, hr⟩
    refine ⟨r, rs ++ [⟨t, kind, payload⟩], ?_, hr⟩
    change s.file ++ [_] = _
    rw [hcons, List.cons_append]

theorem available_append (s : Tap) (n capacity : Nat) :
    s.available n capacity ++ s.socket.drop (s.available n capacity).length = s.socket := by
  have hlen : (s.available n capacity).length = min (max 1 (min n capacity)) s.socket.length :=
    List.length_take
  have hdrop : s.socket.drop (min (max 1 (min n capacity)) s.socket.length) =
      s.socket.drop (max 1 (min n capacity)) := by
    by_cases hle : max 1 (min n capacity) ≤ s.socket.length
    · rw [Nat.min_eq_left hle]
    · rw [Nat.min_eq_right (by omega), List.drop_length, List.drop_of_length_le (by omega)]
  rw [hlen, hdrop]
  exact List.take_append_drop _ s.socket

theorem available_eq_nil (s : Tap) (n capacity : Nat) (h : s.available n capacity = []) :
    s.socket = [] := by
  rcases List.take_eq_nil_iff.mp h with hzero | hnil
  · omega
  · exact hnil

/-- A piece with a newline is a line, its newline and what is behind it. -/
theorem line_append (z : List UInt8) (h : newline ∈ z) :
    z.takeWhile (· ≠ newline) ++ ([newline] ++
      z.drop ((z.takeWhile (· ≠ newline)).length + 1)) = z := by
  induction z with
  | nil => exact absurd h List.not_mem_nil
  | cons b z ih =>
      by_cases hb : b = newline
      · rw [hb, List.takeWhile_cons_of_neg (by decide)]
        rfl
      · have hz : newline ∈ z := by
          rcases List.mem_cons.mp h with heq | hz
          · exact absurd heq.symm hb
          · exact hz
        rw [List.takeWhile_cons_of_pos (by rwa [decide_eq_true_eq]), List.length_cons,
          List.drop_succ_cons, List.cons_append, ih hz]

/-- The first line, with what is read behind it. -/
theorem intact_greet (s : Tap) (t : UInt64) (line : List UInt8) (hfile : s.file = [])
    (hup : s.upstream = []) (hsent : line ++ (s.rbuf ++ s.socket) = s.sent) :
    Intact (s.greet t line) := by
  have hbytes : clientBytes (s.file ++ [⟨t, recConnect, line⟩]) = line := by
    rw [hfile]
    exact List.append_nil line
  refine ⟨?_, ?_, fun hg => ?_, fun _ _ => ?_, fun he => ?_⟩
  · change clientBytes (s.file ++ [⟨t, recConnect, line⟩]) ++ (s.rbuf ++ s.socket) = s.sent
    rw [hbytes, hsent]
  · change s.upstream ++ line = clientBytes (s.file ++ [⟨t, recConnect, line⟩])
    rw [hbytes, hup, List.nil_append]
  · exact nomatch hg
  · refine ⟨⟨t, recConnect, line⟩, [], ?_, rfl⟩
    change s.file ++ [_] = _
    rw [hfile, List.nil_append]
  · exact nomatch he

theorem intact_readGreeting (s : Tap) (h : Intact s) (hphase : s.phase = .greeting) (t : UInt64)
    (n : Nat) : Intact (s.readGreeting t n) := by
  rcases h.greeting hphase with ⟨hfile, hrbuf⟩
  have hnone : s.upstream = [] ∧ s.inFlight = [] := by
    have hforwarded := h.forwarded
    rw [hfile] at hforwarded
    exact List.append_eq_nil_iff.mp hforwarded
  have hwhole := h.whole
  rw [taken, if_pos hphase, hrbuf, List.nil_append] at hwhole
  have hsplit := s.available_append n readerCapacity
  unfold readGreeting
  simp only []
  by_cases hempty : s.available n readerCapacity = []
  · have hsocket := s.available_eq_nil n readerCapacity hempty
    rw [if_pos hempty]
    by_cases hclosed : s.closed = false
    · rw [if_pos hclosed]
      exact h
    · rw [if_neg hclosed]
      by_cases hline : s.handshake = []
      · -- The client has sent nothing.
        rw [if_pos hline]
        refine ⟨?_, h.forwarded, fun hg => ?_, fun _ hf => absurd rfl hf, fun he => ?_⟩
        · change clientBytes s.file ++ (s.rbuf ++ s.socket) = s.sent
          rw [hline] at hwhole
          rw [hfile, hrbuf, ← hwhole]
          rfl
        · exact nomatch hg
        · exact nomatch he
      · rw [if_neg hline]
        refine intact_greet s t s.handshake hfile hnone.1 ?_
        rw [hrbuf]
        exact hwhole
  · rw [if_neg hempty]
    by_cases hnewline : newline ∈ s.available n readerCapacity
    · rw [if_pos hnewline]
      refine intact_greet _ t _ hfile hnone.1 ?_
      have hpiece := line_append (s.available n readerCapacity) hnewline
      rw [← hwhole]
      conv => rhs; rw [← hsplit]
      conv => rhs; arg 2; arg 1; rw [← hpiece]
      simp only [List.append_assoc]
    · rw [if_neg hnewline]
      refine ⟨?_, h.forwarded, fun _ => ⟨hfile, hrbuf⟩, fun hg => absurd hphase hg, fun he => ?_⟩
      · change (if s.phase = .greeting then s.handshake ++ _ else _) ++ (s.rbuf ++ _) = s.sent
        rw [if_pos hphase, hrbuf, List.nil_append, List.append_assoc, hsplit, hwhole]
      · exact absurd (hphase.symm.trans he) (by decide)

/-- A piece goes from the buffer or the socket to the file, and upstream. -/
theorem Intact.piece {s : Tap} (h : Intact s) (hphase : s.phase = .pumping)
    (hflight : s.inFlight = []) (t : UInt64) (piece rbuf socket : List UInt8)
    (hsplit : piece ++ (rbuf ++ socket) = s.rbuf ++ s.socket) :
    Intact ({ s with rbuf := rbuf, socket := socket, inFlight := piece }.record t recC2s piece) := by
  have hne : s.phase ≠ .greeting := by rw [hphase]; decide
  rcases h.connected hne (by rw [hphase]; decide) with ⟨r, rs, hcons, hr⟩
  have hbytes : clientBytes (s.file ++ [⟨t, recC2s, piece⟩]) = clientBytes s.file ++ piece := by
    rw [clientBytes_append s.file _ (by rw [hcons]; exact List.cons_ne_nil r rs), if_pos rfl]
  refine ⟨?_, ?_, fun hg => absurd hg hne, fun _ _ => ?_, fun he => ?_⟩
  · have hwhole := h.whole
    rw [taken, if_neg hne] at hwhole
    change (if s.phase = .greeting then s.handshake else
      clientBytes (s.file ++ [⟨t, recC2s, piece⟩])) ++ (rbuf ++ socket) = s.sent
    rw [if_neg hne, hbytes, List.append_assoc, hsplit, hwhole]
  · have hforwarded := h.forwarded
    rw [hflight, List.append_nil] at hforwarded
    change s.upstream ++ piece = clientBytes (s.file ++ [⟨t, recC2s, piece⟩])
    rw [hbytes, hforwarded]
  · refine ⟨r, rs ++ [⟨t, recC2s, piece⟩], ?_, hr⟩
    change s.file ++ [_] = _
    rw [hcons, List.cons_append]
  · exact absurd (hphase.symm.trans he) (by decide)

theorem intact_readPiece (s : Tap) (h : Intact s) (hphase : s.phase = .pumping)
    (hflight : s.inFlight = []) (t : UInt64) (n : Nat) : Intact (s.readPiece t n) := by
  unfold readPiece
  by_cases hbuffered : s.rbuf ≠ []
  · rw [if_pos hbuffered]
    refine h.piece hphase hflight t _ _ s.socket ?_
    rw [← List.append_assoc, List.take_append_drop]
  · have hrbuf : s.rbuf = [] := not_not.mp hbuffered
    rw [if_neg hbuffered]
    simp only []
    by_cases hempty : s.available n pumpCapacity = []
    · rw [if_pos hempty]
      by_cases hclosed : s.closed
      · rw [if_pos hclosed]
        have hne : s.phase ≠ .greeting := by rw [hphase]; decide
        refine ⟨?_, h.forwarded, fun hg => ?_, fun _ _ => ?_, fun _ => ?_⟩
        · have hwhole := h.whole
          rw [taken, if_neg hne] at hwhole
          exact hwhole
        · exact nomatch hg
        · exact h.connected hne (by rw [hphase]; decide)
        · exact ⟨hclosed, hrbuf, s.available_eq_nil n pumpCapacity hempty, hflight⟩
      · rw [if_neg hclosed]
        exact h
    · rw [if_neg hempty]
      refine h.piece hphase hflight t _ s.rbuf _ ?_
      rw [hrbuf, List.nil_append, List.nil_append]
      exact s.available_append n pumpCapacity

/-- What was read goes upstream, or the server takes no more. -/
theorem intact_forward (s : Tap) (h : Intact s) (hphase : s.phase = .greeted ∨ s.phase = .pumping)
    (ok : Bool) : Intact (s.step (.forward ok)) := by
  have hne : s.phase ≠ .greeting := by rcases hphase with heq | heq <;> rw [heq] <;> decide
  have hwhole := h.whole
  rw [taken, if_neg hne] at hwhole
  rw [step, if_pos hphase]
  cases ok with
  | false =>
      refine ⟨hwhole, h.forwarded, fun hg => ?_, fun _ hf => absurd rfl hf, fun he => ?_⟩
      · exact nomatch hg
      · exact nomatch he
  | true =>
      refine ⟨hwhole, ?_, fun hg => ?_, fun _ _ => ?_, fun he => ?_⟩
      · change (s.upstream ++ s.inFlight) ++ [] = clientBytes s.file
        rw [List.append_nil, h.forwarded]
      · exact nomatch hg
      · exact h.connected hne (by rcases hphase with heq | heq <;> rw [heq] <;> decide)
      · exact nomatch he

/-- The client sends more, or closes. -/
theorem Intact.sends {s : Tap} (h : Intact s) (bytes : List UInt8) (hopen : s.closed = false) :
    Intact { s with socket := s.socket ++ bytes, sent := s.sent ++ bytes } := by
  refine ⟨?_, h.forwarded, h.greeting, h.connected, fun he => ?_⟩
  · change s.taken ++ (s.rbuf ++ (s.socket ++ bytes)) = s.sent ++ bytes
    rw [← h.whole]
    simp only [List.append_assoc]
  · exact absurd (h.ended he).1 (by rw [hopen]; decide)

theorem intact_step (s : Tap) (e : TapEvent) (h : Intact s) : Intact (s.step e) := by
  cases e with
  | clientSends bytes =>
      by_cases hclosed : s.closed
      · rw [step, if_pos hclosed]
        exact h
      · rw [step, if_neg hclosed]
        exact h.sends bytes (eq_false_of_ne_true hclosed)
  | clientCloses =>
      exact ⟨h.whole, h.forwarded, h.greeting, h.connected, fun he => ⟨rfl, (h.ended he).2⟩⟩
  | read t n =>
      unfold step
      cases hphase : s.phase with
      | greeting => exact intact_readGreeting s h hphase t n
      | pumping =>
          by_cases hflight : s.inFlight = []
          · simp only [hflight, if_true]
            exact intact_readPiece s h hphase hflight t n
          · simp only [hflight, if_false]
            exact h
      | greeted => exact h
      | ended => exact h
      | failed => exact h
  | forward ok =>
      by_cases hphase : s.phase = .greeted ∨ s.phase = .pumping
      · exact intact_forward s h hphase ok
      · rw [step, if_neg hphase]
        exact h
  | serverSends t bytes =>
      by_cases hskip : s.phase = .greeting ∨ s.phase = .greeted ∨ s.file = [] ∨ bytes = []
      · rw [step, if_pos hskip]
        exact h
      · rw [step, if_neg hskip]
        simp only [not_or] at hskip
        exact h.record t recS2c _ (by decide) hskip.1 hskip.2.2.1
  | disconnect t =>
      by_cases hover : (s.phase = .ended ∨ s.phase = .failed) ∧ s.file ≠ []
      · rw [step, if_pos hover]
        refine h.record t recDisconnect [] (by decide) ?_ hover.2
        rcases hover.1 with heq | heq <;> rw [heq] <;> decide
      · rw [step, if_neg hover]
        exact h

theorem intact_exec (es : List TapEvent) : Intact (exec step start es) :=
  List.foldlRecOn es step (motive := Intact) intact_start fun s h e _ => intact_step s e h

/-- The pump reads, and what it read goes upstream. -/
def round (t : UInt64) (n : Nat) : List TapEvent := [.read t n, .forward true]

/-- What is left to read, and a piece or a first line on its way. -/
def remaining (s : Tap) : Nat :=
  s.rbuf.length + s.socket.length + if s.phase = .pumping ∧ s.inFlight = [] then 0 else 1

theorem available_pos (s : Tap) (n capacity : Nat) (h : s.available n capacity ≠ []) :
    0 < (s.available n capacity).length ∧ (s.available n capacity).length ≤ s.socket.length :=
  ⟨List.length_pos_iff.mpr h, List.length_take_le' _ _⟩

theorem forward_pumping (s : Tap) (h : s.phase = .greeted ∨ s.phase = .pumping) :
    s.step (.forward true) =
      { s with phase := .pumping, upstream := s.upstream ++ s.inFlight, inFlight := [] } := by
  rw [step, if_pos h]
  rfl

/-- A round of a client that has closed ends the pump or leaves less to read. -/
structure Advances (s r : Tap) : Prop where
  closed : r.closed = true
  sent : r.sent = s.sent
  sound : r.phase ≠ .failed
  less : r.phase = .ended ∨ r.remaining < s.remaining

/-- A round whose read leaves less to read. -/
theorem advances_of_read (s r : Tap) (hphase : r.phase = .greeted ∨ r.phase = .pumping)
    (hclosed : r.closed = true) (hsent : r.sent = s.sent)
    (hless : r.rbuf.length + r.socket.length < s.remaining) :
    Advances s (r.step (.forward true)) := by
  rw [forward_pumping r hphase]
  refine ⟨hclosed, hsent, nofun, Or.inr ?_⟩
  rw [remaining, if_pos ⟨rfl, rfl⟩]
  exact hless

/-- A round that reads the first line. A closed client has sent some of it. -/
theorem advances_greeting (s : Tap) (h : Intact s) (hclosed : s.closed = true) (hsent : s.sent ≠ [])
    (hphase : s.phase = .greeting) (t : UInt64) (n : Nat) :
    Advances s ((s.readGreeting t n).step (.forward true)) := by
  have hweight : s.remaining = s.rbuf.length + s.socket.length + 1 := by
    rw [remaining, if_neg fun hboth => absurd (hphase.symm.trans hboth.1) (by decide)]
  unfold readGreeting
  simp only []
  by_cases hempty : s.available n readerCapacity = []
  · have hsocket := s.available_eq_nil n readerCapacity hempty
    have hline : s.handshake ≠ [] := by
      intro hline
      have hwhole := h.whole
      rw [taken, if_pos hphase, (h.greeting hphase).2, hline, hsocket] at hwhole
      exact hsent hwhole.symm
    rw [if_pos hempty, if_neg (by rw [hclosed]; decide), if_neg hline]
    refine advances_of_read s _ (Or.inl rfl) hclosed rfl ?_
    rw [hweight]
    exact Nat.lt_succ_self _
  · have hpos := s.available_pos n readerCapacity hempty
    rw [if_neg hempty]
    by_cases hnewline : newline ∈ s.available n readerCapacity
    · rw [if_pos hnewline]
      refine advances_of_read s _ (Or.inl rfl) hclosed rfl ?_
      rw [hweight]
      change (List.drop _ (s.available n readerCapacity)).length +
        (s.socket.drop (s.available n readerCapacity).length).length < _
      rw [List.length_drop, List.length_drop]
      omega
    · -- The line goes on, and nothing is forwarded yet.
      rw [if_neg hnewline, step, if_neg (by simp only [hphase, reduceCtorEq, or_self,
        not_false_eq_true])]
      refine ⟨hclosed, rfl, fun hfailed => absurd (hphase.symm.trans hfailed) (by decide),
        Or.inr ?_⟩
      have hone : (if s.phase = .pumping ∧ s.inFlight = [] then 0 else 1) ≤ 1 := by
        split_ifs <;> omega
      change s.rbuf.length + (s.socket.drop (s.available n readerCapacity).length).length +
        (if s.phase = .pumping ∧ s.inFlight = [] then 0 else 1) < _
      rw [List.length_drop, hweight]
      omega

/-- A round that reads a piece. -/
theorem advances_piece (s : Tap) (hclosed : s.closed = true) (hphase : s.phase = .pumping)
    (hflight : s.inFlight = []) (t : UInt64) (n : Nat) :
    Advances s ((s.readPiece t n).step (.forward true)) := by
  have hweight : s.remaining = s.rbuf.length + s.socket.length := by
    rw [remaining, if_pos ⟨hphase, hflight⟩]
    rfl
  unfold readPiece
  by_cases hbuffered : s.rbuf ≠ []
  · rw [if_pos hbuffered]
    refine advances_of_read s _ (Or.inr hphase) hclosed rfl ?_
    rw [hweight]
    have hpos := List.length_pos_iff.mpr hbuffered
    change (s.rbuf.drop pumpCapacity).length + s.socket.length < _
    rw [List.length_drop, pumpCapacity]
    omega
  · rw [if_neg hbuffered]
    simp only []
    by_cases hempty : s.available n pumpCapacity = []
    · rw [if_pos hempty, if_pos hclosed, step, if_neg nofun]
      exact ⟨hclosed, rfl, nofun, Or.inl rfl⟩
    · have hpos := s.available_pos n pumpCapacity hempty
      rw [if_neg hempty]
      refine advances_of_read s _ (Or.inr hphase) hclosed rfl ?_
      rw [hweight]
      change s.rbuf.length + (s.socket.drop (s.available n pumpCapacity).length).length < _
      rw [List.length_drop]
      omega

theorem round_advances (s : Tap) (h : Intact s) (hclosed : s.closed = true) (hsent : s.sent ≠ [])
    (hfailed : s.phase ≠ .failed) (t : UInt64) (n : Nat) :
    Advances s (exec step s (round t n)) := by
  change Advances s ((s.step (.read t n)).step (.forward true))
  cases hphase : s.phase with
  | greeting =>
      have hread : s.step (.read t n) = s.readGreeting t n := by
        unfold step
        simp only [hphase]
      rw [hread]
      exact s.advances_greeting h hclosed hsent hphase t n
  | greeted =>
      have hread : s.step (.read t n) = s := by
        unfold step
        simp only [hphase]
      rw [hread]
      refine advances_of_read s s (Or.inl hphase) hclosed rfl ?_
      rw [remaining, if_neg fun hboth => absurd (hphase.symm.trans hboth.1) (by decide)]
      omega
  | pumping =>
      by_cases hflight : s.inFlight = []
      · have hread : s.step (.read t n) = s.readPiece t n := by
          unfold step
          simp only [hphase, hflight, if_true]
        rw [hread]
        exact s.advances_piece hclosed hphase hflight t n
      · have hread : s.step (.read t n) = s := by
          unfold step
          simp only [hphase, hflight, if_false]
        rw [hread]
        refine advances_of_read s s (Or.inr hphase) hclosed rfl ?_
        rw [remaining, if_neg fun hboth => hflight hboth.2]
        omega
  | ended =>
      have hsame : (s.step (.read t n)).step (.forward true) = s := by
        unfold step
        simp only [hphase, reduceCtorEq, or_self, if_false]
      rw [hsame]
      exact ⟨hclosed, rfl, hfailed, Or.inl hphase⟩
  | failed => exact absurd hphase hfailed

/-- A client that has closed is read to its end. -/
theorem ends (s : Tap) (h : Intact s) (hclosed : s.closed = true) (hsent : s.sent ≠ [])
    (hfailed : s.phase ≠ .failed) :
    ∃ rounds, (exec step s ((List.replicate rounds (round 0 1)).flatten)).phase = .ended := by
  -- Induction on what is left to read.
  induction hn : s.remaining using Nat.strong_induction_on generalizing s with
  | _ n ih =>
      have hstep := s.round_advances h hclosed hsent hfailed 0 1
      rcases hstep with ⟨hclosed', hsent', hfailed', hended | hless⟩
      · exact ⟨1, hended⟩
      · have hintact : Intact (exec step s (round 0 1)) :=
          intact_step (s.step (.read 0 1)) (.forward true) (intact_step s (.read 0 1) h)
        rcases ih _ (hn ▸ hless) (exec step s (round 0 1)) hintact hclosed'
          (by rw [hsent']; exact hsent) hfailed' rfl with ⟨rounds, hrounds⟩
        refine ⟨rounds + 1, ?_⟩
        rw [List.replicate_succ, List.flatten_cons, exec_append]
        exact hrounds

/-- Every piece is as long as a pump's buffer or as the first line at most. -/
def Pieces (s : Tap) : Prop :=
  ∀ r ∈ s.file, r.payload.length ≤ pumpCapacity ∨ r.payload.length ≤ s.handshake.length

theorem Pieces.record {s : Tap} (h : Pieces s) (t : UInt64) (kind : UInt8) (payload : List UInt8)
    (hlen : payload.length ≤ pumpCapacity ∨ payload.length ≤ s.handshake.length) :
    Pieces (s.record t kind payload) := by
  intro r hr
  rcases List.mem_append.mp hr with hold | hnew
  · exact h r hold
  · rw [List.mem_singleton.mp hnew]
    exact hlen

theorem Pieces.greet {s : Tap} (h : s.file = []) (t : UInt64) (line : List UInt8) :
    Pieces (s.greet t line) := by
  intro r hr
  have hfile : (s.greet t line).file = [⟨t, recConnect, line⟩] := by
    change s.file ++ [_] = _
    rw [h, List.nil_append]
  rw [hfile] at hr
  rw [List.mem_singleton.mp hr]
  exact Or.inr le_rfl

theorem pieces_read (s : Tap) (hi : Intact s) (h : Pieces s) (t : UInt64) (n : Nat) :
    Pieces (s.step (.read t n)) := by
  unfold step
  cases hphase : s.phase with
  | greeting =>
      have hfile := (hi.greeting hphase).1
      simp only []
      unfold readGreeting
      simp only []
      by_cases hempty : s.available n readerCapacity = []
      · rw [if_pos hempty]
        split_ifs
        · exact h
        · exact h
        · exact Pieces.greet hfile t s.handshake
      · rw [if_neg hempty]
        split_ifs
        · exact Pieces.greet hfile t _
        · intro r hr
          have hr' : r ∈ s.file := hr
          rw [hfile] at hr'
          exact absurd hr' List.not_mem_nil
  | pumping =>
      have hpiece : ∀ (rbuf socket piece : List UInt8), piece.length ≤ pumpCapacity →
          Pieces ({ s with rbuf := rbuf, socket := socket, inFlight := piece }.record
            t recC2s piece) := by
        intro rbuf socket piece hlen
        have hsame : Pieces { s with rbuf := rbuf, socket := socket, inFlight := piece } := h
        exact hsame.record t recC2s piece (Or.inl hlen)
      simp only []
      unfold readPiece
      simp only []
      split_ifs
      · exact hpiece _ s.socket _ (List.length_take_le _ _)
      · exact h
      · exact h
      · refine hpiece s.rbuf _ _ ((List.length_take_le _ _).trans ?_)
        rw [pumpCapacity]
        omega
      · exact h
  | greeted => exact h
  | ended => exact h
  | failed => exact h

theorem pieces_step (s : Tap) (e : TapEvent) (hi : Intact s) (h : Pieces s) :
    Pieces (s.step e) := by
  cases e with
  | clientSends bytes =>
      rw [step]
      split_ifs
      · exact h
      · exact h
  | clientCloses => exact h
  | read t n => exact pieces_read s hi h t n
  | forward ok =>
      rw [step]
      split_ifs
      · exact h
      · exact h
      · exact h
  | serverSends t bytes =>
      rw [step]
      split_ifs
      · exact h
      · exact h.record t recS2c _ (Or.inl (List.length_take_le _ _))
  | disconnect t =>
      rw [step]
      split_ifs
      · exact h.record t recDisconnect [] (Or.inl (Nat.zero_le _))
      · exact h

theorem pieces_exec (es : List TapEvent) : Pieces (exec step start es) := by
  have hboth : Intact (exec step start es) ∧ Pieces (exec step start es) := by
    refine List.foldlRecOn es step (motive := fun s => Intact s ∧ Pieces s) ?_ ?_
    · exact ⟨intact_start, fun r hr => absurd hr List.not_mem_nil⟩
    · exact fun s h e _ => ⟨intact_step s e h.1, pieces_step s e h.1 h.2⟩
  exact hboth.2

end Tap

/-- Records that are written are iterated over. -/
theorem items_serialise (rs : List Record) (h : ∀ r ∈ rs, Fits r) :
    RecordIter.items (rs.length + 1) (serialise rs) = rs.map .ok := by
  induction rs with
  | nil => rfl
  | cons r rs ih =>
      have hcons : serialise (r :: rs) = r.bytes ++ serialise rs := List.flatMap_cons
      rw [hcons, List.length_cons, RecordIter.items,
        RecordIter.next_bytes r (h r List.mem_cons_self)]
      simp only [List.map_cons]
      rw [ih fun r' hr' => h r' (List.mem_cons_of_mem r hr')]

theorem replay_ok (rs : List Record) : replay (rs.map .ok) = c2sBytes rs := by
  induction rs with
  | nil => rfl
  | cons r rs ih =>
      unfold c2sBytes at ih ⊢
      rw [List.map_cons, replay, ih]
      by_cases hkind : r.kind = recC2s
      · rw [if_neg (not_not.mpr hkind)]
        simp only [List.filter_cons, hkind, decide_true, if_true, List.flatMap_cons]
      · rw [if_pos hkind, List.filter_cons_of_neg (by rwa [decide_eq_true_eq])]

/-- A replay writes what the file says the client sent. -/
theorem feedClient_file (entryCompress : String) (reply : Reply)
    (hreply : reply.matches entryCompress = true) (r : Record) (rs : List Record)
    (hr : r.kind = recConnect) :
    feedClient entryCompress reply ((r :: rs).map .ok) = clientBytes (r :: rs) := by
  rw [List.map_cons, feedClient, if_neg (not_not.mpr hr), if_pos hreply, replay_ok, clientBytes]

namespace Tap

/-- After any events every byte is where it belongs. A client that has closed is
    read to its end, if the server takes everything; then the file and what went
    upstream are what it sent, and a replay of any file with the same connect
    record and the same records of the client writes it, whatever other records
    there are. -/
theorem replay_exec (es : List TapEvent) :
    let s := exec step start es
    s.taken ++ (s.rbuf ++ s.socket) = s.sent ∧
    (s.closed = true → s.sent ≠ [] → s.phase ≠ .failed →
      ∃ rounds, (exec step s ((List.replicate rounds (round 0 1)).flatten)).phase = .ended) ∧
    (s.phase = .ended → clientBytes s.file = s.sent ∧ s.upstream = s.sent ∧
      (s.handshake.length < 2 ^ 32 →
        RecordIter.items (s.file.length + 1) (serialise s.file) = s.file.map .ok) ∧
      ∀ entryCompress reply, reply.matches entryCompress = true → ∀ rs : List Record,
        rs.head? = s.file.head? →
        (rs.filter fun r => r.kind = recC2s) = (s.file.filter fun r => r.kind = recC2s) →
        feedClient entryCompress reply (rs.map .ok) = s.sent) := by
  intro s
  have h : Intact s := intact_exec es
  refine ⟨h.whole, ends s h, fun hended => ?_⟩
  rcases h.ended hended with ⟨_, hrbuf, hsocket, hflight⟩
  have hne : s.phase ≠ .greeting := by rw [hended]; decide
  have hfile : clientBytes s.file = s.sent := by
    have hwhole := h.whole
    rw [taken, if_neg hne, hrbuf, hsocket, List.append_nil, List.append_nil] at hwhole
    exact hwhole
  refine ⟨hfile, ?_, fun hlen => ?_, fun entryCompress reply hreply rs hhead hsame => ?_⟩
  · have hforwarded := h.forwarded
    rw [hflight, List.append_nil] at hforwarded
    rw [hforwarded, hfile]
  · refine items_serialise s.file fun r hr => ?_
    unfold Fits
    rcases pieces_exec es r hr with hpump | hline
    · rw [pumpCapacity] at hpump
      omega
    · exact lt_of_le_of_lt hline hlen
  · rcases h.connected hne (by rw [hended]; decide) with ⟨r, rest, hcons, hr⟩
    rw [hcons] at hhead hsame
    obtain ⟨others, rfl⟩ : ∃ others, rs = r :: others := by
      cases rs with
      | nil => exact absurd hhead (Option.some_ne_none r).symm
      | cons first others =>
          rw [List.head?_cons, List.head?_cons, Option.some_inj] at hhead
          rw [hhead]
          exact ⟨others, rfl⟩
    have hkind : ¬ r.kind = recC2s := by rw [hr]; decide
    have hbytes : c2sBytes others = c2sBytes rest := by
      rw [List.filter_cons_of_neg (by rwa [decide_eq_true_eq]),
        List.filter_cons_of_neg (by rwa [decide_eq_true_eq])] at hsame
      unfold c2sBytes
      rw [hsame]
    rw [feedClient_file entryCompress reply hreply r others hr, ← hfile, hcons, clientBytes,
      clientBytes, hbytes]

/-- A line with a byte behind it, one more piece, and a record of the server
    between: two lines and a byte are replayed. -/
theorem replay_exec_pieces :
    let s := exec step start [.clientSends [0x7b, newline, 0x31], .read 0 3, .forward true,
      .serverSends 1 [0x7d, newline], .read 2 9, .forward true, .clientSends [0x32, newline],
      .clientCloses, .read 3 1, .forward true, .read 4 1, .forward true, .read 5 1, .disconnect 6]
    s.file.length = 6 ∧
      feedClient "none" (.accept "none") (s.file.map .ok) = [0x7b, newline, 0x31, 0x32, newline] :=
  ⟨by decide +kernel, ((replay_exec _).2.2 (by decide +kernel)).2.2.2 "none" (.accept "none")
    (by decide) _ rfl rfl⟩

end Tap

end Capture

end MlatBench
