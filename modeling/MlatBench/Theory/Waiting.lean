import MlatBench.Theory.Beast

/-!
# What the Decoder Waits For

The bytes a decoder keeps for its next piece. It waits only inside a message,
after as many units of the payload as are there: fewer than the message has, and
the last maybe half (`next_waits`). Whatever these units are, there are others
that complete the message, so what is kept is a strict prefix of a message, and
any strict prefix is kept (`next_none_iff`). A message has 21 payload bytes at
most, each of them doubled at worst.

## Main definitions

* `IsMessage`: The bytes of a message, of any type.
* `Kept`: What is kept for the next piece.

## Theorems

* `readPayload_escaped`: A written payload is read.
* `next_message`: A message is taken whole.
* `IsMessage.length_le`: A message has 44 bytes at most.
* `readPayload_waits`, `next_waits`: What waits, unit by unit.
* `next_none_iff`: What waits is a strict prefix of a message.
* `feedAll_kept`: What is kept after any pieces.
-/

namespace MlatBench

namespace Client

open Library

namespace Beast

theorem escaped_cons (b : UInt8) (q : List UInt8) :
    escaped (b :: q) = (if b = escape then [escape, escape] else [b]) ++ escaped q :=
  List.flatMap_cons

theorem escaped_cons_escape (q : List UInt8) :
    escaped (escape :: q) = escape :: escape :: escaped q := by
  rw [escaped_cons, if_pos rfl]
  rfl

theorem escaped_cons_plain (b : UInt8) (q : List UInt8) (hb : b ≠ escape) :
    escaped (b :: q) = b :: escaped q := by
  rw [escaped_cons, if_neg hb]
  rfl

theorem escaped_append (p q : List UInt8) : escaped (p ++ q) = escaped p ++ escaped q :=
  List.flatMap_append

/-- Reading goes over a written payload unit by unit. -/
theorem readPayload_escaped (want : Nat) (q acc : List UInt8) (i : Nat) (rest : List UInt8)
    (h : acc.length + q.length ≤ want) :
    readPayload want acc i (escaped q ++ rest) =
      readPayload want (acc ++ q) (i + (escaped q).length) rest := by
  induction q generalizing acc i with
  | nil =>
      rw [List.append_nil]
      rfl
  | cons b q ih =>
      rw [List.length_cons] at h
      have hroom : ¬ want ≤ acc.length := by omega
      have hnext : (acc ++ [b]).length + q.length ≤ want := by
        rw [List.length_append, List.length_singleton]
        omega
      have hrec : ∀ j, readPayload want (acc ++ [b]) j (escaped q ++ rest) =
          readPayload want (acc ++ b :: q) (j + (escaped q).length) rest := by
        intro j
        rw [ih (acc ++ [b]) j hnext, List.append_assoc, List.singleton_append]
      by_cases hb : b = escape
      · subst hb
        rw [escaped_cons_escape, List.cons_append, List.cons_append, readPayload.eq_def]
        simp only [if_neg hroom, if_true]
        rw [hrec (i + 2), List.length_cons, List.length_cons]
        congr 1
        omega
      · rw [escaped_cons_plain b q hb, List.cons_append, readPayload_plain want acc i b _ hroom hb,
          hrec (i + 1), List.length_cons]
        congr 1
        omega

theorem next_plain (c : UInt8) (rest : List UInt8) (hc : c ≠ escape) :
    decoder.next (c :: rest) = some (1, none) :=
  if_pos hc

theorem next_escape (rest : List UInt8) :
    decoder.next (escape :: rest) = parseAt (escape :: rest) := by
  change (if escape ≠ escape then some (1, none) else parseAt (escape :: rest)) = _
  rw [if_neg (not_not.mpr rfl)]

/-- Where the reading of a message ends. -/
theorem next_stop (t : UInt8) (rest : List UInt8) (len j : Nat) (ht : frameLen t = some len)
    (h : (readPayload (6 + 1 + len) [] 2 rest).stop = some j) :
    ∃ r, decoder.next (escape :: t :: rest) = some (j, r) := by
  rw [next_escape, parseAt]
  simp only [ht]
  cases hread : readPayload (6 + 1 + len) [] 2 rest with
  | needMore =>
      rw [hread] at h
      exact absurd h (Option.some_ne_none j).symm
  | truncated i =>
      rw [hread] at h
      obtain rfl : i = j := Option.some.inj h
      exact ⟨none, rfl⟩
  | complete i payload =>
      rw [hread] at h
      obtain rfl : i = j := Option.some.inj h
      by_cases htwo : len = 2
      · exact ⟨none, if_pos htwo⟩
      · exact ⟨_, if_neg htwo⟩

/-- The types there are have short frames, and none is the escape byte. -/
theorem frameLen_some (type : UInt8) (len : Nat) (h : frameLen type = some len) :
    len ≤ 14 ∧ type ≠ escape := by
  constructor
  · unfold frameLen at h
    split_ifs at h <;> simp only [Option.some.injEq] at h <;> omega
  · rintro rfl
    have hnone : frameLen escape = none := by decide
    rw [hnone] at h
    cases h

theorem length_escaped (p : List UInt8) :
    p.length ≤ (escaped p).length ∧ (escaped p).length ≤ 2 * p.length := by
  induction p with
  | nil => exact ⟨le_refl _, le_refl _⟩
  | cons b p ih =>
      by_cases hb : b = escape
      · subst hb
        rw [escaped_cons_escape]
        simp only [List.length_cons]
        omega
      · rw [escaped_cons_plain b p hb]
        simp only [List.length_cons]
        omega

/-- The bytes of a message: an escape byte, a type, and the counter, the signal
    and the frame with every escape byte doubled. -/
def IsMessage (m : List UInt8) : Prop :=
  ∃ type len payload, frameLen type = some len ∧ payload.length = 6 + 1 + len ∧
    m = escape :: type :: escaped payload

/-- A message is taken whole, and no more than that. -/
theorem next_message (m rest : List UInt8) (hm : IsMessage m) :
    ∃ r, decoder.next (m ++ rest) = some (m.length, r) := by
  rcases hm with ⟨type, len, payload, hlen, hfull, rfl⟩
  refine next_stop type (escaped payload ++ rest) len _ hlen ?_
  rw [readPayload_escaped _ payload [] 2 rest (by rw [List.length_nil]; omega),
    readPayload_full _ _ _ _ (by rw [List.nil_append]; omega)]
  simp only [Payload.stop, List.length_cons, Option.some.injEq]
  omega

theorem IsMessage.length_le (m : List UInt8) (hm : IsMessage m) : m.length ≤ 44 := by
  rcases hm with ⟨type, len, payload, hlen, hfull, rfl⟩
  have hshort := (frameLen_some type len hlen).1
  have htwice := (length_escaped payload).2
  simp only [List.length_cons]
  omega

/-- A payload that waits for more is units that do not fill it, the last maybe
    half. -/
theorem readPayload_waits (want : Nat) (acc : List UInt8) (i : Nat) (rest : List UInt8)
    (h : readPayload want acc i rest = .needMore) :
    ∃ p, acc.length + p.length < want ∧ (rest = escaped p ∨ rest = escaped p ++ [escape]) := by
  fun_induction readPayload want acc i rest with
  | case1 payload i hfull => cases h
  | case2 payload i hfull => exact ⟨[], by simpa using hfull, Or.inl rfl⟩
  | case3 payload i c rest hfull => cases h
  | case4 payload i hfull => exact ⟨[], by simpa using hfull, Or.inr rfl⟩
  | case5 payload i hfull rest ih =>
      rcases ih h with ⟨p, hlt, hp⟩
      rw [List.length_append, List.length_singleton] at hlt
      refine ⟨escape :: p, by rw [List.length_cons]; omega, ?_⟩
      rw [escaped_cons_escape]
      rcases hp with rfl | rfl
      · exact Or.inl rfl
      · exact Or.inr rfl
  | case6 payload i hfull d rest hd => cases h
  | case7 payload i c rest hfull hc ih =>
      rcases ih h with ⟨p, hlt, hp⟩
      rw [List.length_append, List.length_singleton] at hlt
      refine ⟨c :: p, by rw [List.length_cons]; omega, ?_⟩
      rw [escaped_cons_plain c p hc]
      rcases hp with rfl | rfl
      · exact Or.inl rfl
      · exact Or.inr rfl

/-- What waits is nothing, or an escape byte, or a message's start with fewer
    units than it has, the last maybe half. -/
theorem next_waits (b : List UInt8) (h : decoder.next b = none) :
    b = [] ∨ b = [escape] ∨ ∃ type len p, frameLen type = some len ∧ p.length < 6 + 1 + len ∧
      (b = escape :: type :: escaped p ∨ b = escape :: type :: (escaped p ++ [escape])) := by
  cases b with
  | nil => exact Or.inl rfl
  | cons c rest =>
      right
      by_cases hc : c ≠ escape
      · rw [next_plain c rest hc] at h
        cases h
      · rw [not_not.mp hc] at h ⊢
        cases rest with
        | nil => exact Or.inl rfl
        | cons type rest =>
            right
            cases hlen : frameLen type with
            | none =>
                rw [next_escape, parseAt] at h
                simp only [hlen, reduceCtorEq] at h
            | some len =>
                have hread : readPayload (6 + 1 + len) [] 2 rest = .needMore := by
                  -- Any other end of the payload is one the decoder stops at.
                  cases hread : readPayload (6 + 1 + len) [] 2 rest with
                  | needMore => rfl
                  | truncated j =>
                      rcases next_stop type rest len j hlen (by rw [hread]; rfl) with ⟨r, hnext⟩
                      exact absurd (h.symm.trans hnext) (Option.some_ne_none _).symm
                  | complete j payload =>
                      rcases next_stop type rest len j hlen (by rw [hread]; rfl) with ⟨r, hnext⟩
                      exact absurd (h.symm.trans hnext) (Option.some_ne_none _).symm
                rcases readPayload_waits _ _ _ rest hread with ⟨p, hlt, hp⟩
                rw [List.length_nil, Nat.zero_add] at hlt
                refine ⟨type, len, p, hlen, hlt, ?_⟩
                rcases hp with rfl | rfl
                · exact Or.inl rfl
                · exact Or.inr rfl

/-- Units that do not fill a payload, the last maybe half, are completed by
    others. -/
theorem isMessage_completes (type : UInt8) (len : Nat) (p : List UInt8)
    (hlen : frameLen type = some len) (hlt : p.length < 6 + 1 + len) :
    ∃ more, more ≠ [] ∧ IsMessage (escape :: type :: (escaped p ++ escape :: more)) := by
  -- The next unit is an escape byte, and zeros fill the rest.
  refine ⟨escape :: escaped (List.replicate (6 + len - p.length) 0), List.cons_ne_nil _ _,
    type, len, p ++ escape :: List.replicate (6 + len - p.length) 0, hlen, ?_, ?_⟩
  · rw [List.length_append, List.length_cons, List.length_replicate]
    omega
  · rw [escaped_append, escaped_cons_escape]

/-- The decoder waits at the strict prefixes of messages, and at these only. -/
theorem next_none_iff (b : List UInt8) :
    decoder.next b = none ↔ ∃ m, IsMessage m ∧ b <+: m ∧ b ≠ m := by
  constructor
  · intro h
    rcases isMessage_completes 0x31 2 [] rfl (by decide) with ⟨zeros, _, hshort⟩
    rcases next_waits b h with rfl | rfl | ⟨type, len, p, hlen, hlt, hp⟩
    · exact ⟨_, hshort, List.nil_prefix, (List.cons_ne_nil _ _).symm⟩
    · exact ⟨_, hshort, ⟨_, rfl⟩, fun heq => by simp at heq⟩
    · rcases isMessage_completes type len p hlen hlt with ⟨more, hne, hm⟩
      refine ⟨_, hm, ?_⟩
      rcases hp with rfl | rfl
      · exact ⟨⟨escape :: more, rfl⟩, fun heq => by simp at heq⟩
      · exact ⟨⟨more, by simp⟩, fun heq => hne (by simpa using heq)⟩
  · rintro ⟨m, hm, ⟨more, rfl⟩, hne⟩
    cases hnext : decoder.next b with
    | none => rfl
    | some step =>
        -- A decision stays, but the message is taken as a whole.
        rcases step with ⟨n, r⟩
        have hn := (decoder.consumes b n r hnext).2
        have hstay := decoder_stable b more n r hnext
        rcases next_message (b ++ more) [] hm with ⟨r', hwhole⟩
        rw [List.append_nil, hstay, Option.some.injEq, Prod.mk.injEq, List.length_append] at hwhole
        have hmore : more = [] := List.length_eq_zero_iff.mp (by omega)
        rw [hmore, List.append_nil] at hne
        exact absurd rfl hne

/-- What is kept for the next piece: nothing, or an escape byte and what follows
    it in a message that is not all there. -/
def Kept (b : List UInt8) : Prop :=
  b = [] ∨ (b.head? = some escape ∧ ∃ m, IsMessage m ∧ b <+: m ∧ b ≠ m)

theorem kept_of_next_none (b : List UInt8) (h : decoder.next b = none) : Kept b := by
  rcases (next_none_iff b).mp h with ⟨m, hm, hpre, hne⟩
  cases b with
  | nil => exact Or.inl rfl
  | cons c rest =>
      refine Or.inr ⟨?_, m, hm, hpre, hne⟩
      rcases hm with ⟨type, len, payload, _, _, rfl⟩
      rw [(List.cons_prefix_cons.mp hpre).1]
      rfl

theorem Kept.length_le {b : List UInt8} (h : Kept b) : b.length ≤ 43 := by
  rcases h with rfl | ⟨_, m, hm, hpre, hne⟩
  · exact Nat.zero_le _
  · have hlong := IsMessage.length_le m hm
    have hlt : b.length < m.length :=
      lt_of_le_of_ne hpre.length_le fun heq => hne (hpre.eq_of_length heq)
    omega

end Beast

namespace BeastDecoder

open Beast

/-- Whatever bytes arrive, in whatever pieces: a call makes no more turns than
    there are bytes, and one to stop, and what is kept is nothing or the start of
    a message that is not all there, which is 43 bytes at most. -/
theorem feedAll_kept (chunks : List (List UInt8)) :
    (∀ (d : BeastDecoder) (bytes : List UInt8),
      decoder.scanFor ((d.buf ++ bytes).length + 1) (d.buf ++ bytes) =
        some ((d.feed bytes).2, (d.feed bytes).1.buf)) ∧
    Kept (({} : BeastDecoder).feedAll chunks).1.buf ∧
      (({} : BeastDecoder).feedAll chunks).1.buf.length ≤ 43 := by
  have hnone : decoder.next (({} : BeastDecoder).feedAll chunks).1.buf = none := by
    rw [feedAll_flatten]
    exact Decoder.scan_rest decoder _
  have hkept := kept_of_next_none _ hnone
  exact ⟨fun d bytes => Decoder.scanFor_eq decoder _ _ (Nat.lt_succ_self _), hkept,
    hkept.length_le⟩

-- A long message of escape bytes only, cut before its last byte.
example :
    (({} : BeastDecoder).feed (0x1a :: 0x33 :: List.replicate 41 0x1a)).1.buf.length = 43 := by
  have hwaits : decoder.next (0x1a :: 0x33 :: List.replicate 41 0x1a) = none := by decide +kernel
  simp only [feed, List.nil_append, Decoder.scan_none decoder _ hwaits]
  rfl

end BeastDecoder

end Client

end MlatBench
