import MlatBench.Core.Beast

/-!
# Beast Streams in Pieces

What the decoder decides on the bytes it has, it decides on any bytes that
follow: the payload loop looks at a byte only after it is there, and at the byte
behind an escape byte before it takes either (`readPayload_append`). So the
decoder is stable, and where the stream was cut does not show.

## Theorems

* `readPayload_append`, `parseAt_append`: A decision is not revised.
* `decoder_stable`: The decoder is stable.
* `feedAll_flatten`: Pieces are read like the whole.
-/

namespace MlatBench

namespace Client

open Library

namespace Beast

/-- A full payload does not look at what follows. -/
theorem readPayload_full (want : Nat) (payload : List UInt8) (i : Nat) (rest : List UInt8)
    (hfull : want ≤ payload.length) :
    readPayload want payload i rest = .complete i payload := by
  rw [readPayload.eq_def]
  cases rest with
  | nil => simp only [if_pos hfull]
  | cons c rest => simp only [if_pos hfull]

theorem readPayload_plain (want : Nat) (payload : List UInt8) (i : Nat) (c : UInt8)
    (rest : List UInt8) (hfull : ¬ want ≤ payload.length) (hc : ¬ c = escape) :
    readPayload want payload i (c :: rest) = readPayload want (payload ++ [c]) (i + 1) rest := by
  rw [readPayload.eq_def]
  simp only [if_neg hfull, if_neg hc]

/-- A payload that ended ends the same way when more follows. -/
theorem readPayload_append (want : Nat) (payload : List UInt8) (i : Nat) (rest more : List UInt8)
    (h : readPayload want payload i rest ≠ .needMore) :
    readPayload want payload i (rest ++ more) = readPayload want payload i rest := by
  fun_induction readPayload want payload i rest with
  | case1 payload i hfull => exact readPayload_full _ _ _ _ hfull
  | case2 payload i hfull => exact absurd rfl h
  | case3 payload i c rest hfull => exact readPayload_full _ _ _ _ hfull
  | case4 payload i hfull => exact absurd rfl h
  | case5 payload i hfull rest ih =>
      simp only [List.cons_append, readPayload, if_neg hfull, if_true]
      exact ih h
  | case6 payload i hfull d rest hd =>
      simp only [List.cons_append, readPayload, if_neg hfull, if_neg hd, if_true]
  | case7 payload i c rest hfull hc ih =>
      rw [List.cons_append, readPayload_plain _ _ _ _ _ hfull hc]
      exact ih h

theorem parseAt_append (b more : List UInt8) (n : Nat) (r : Option Reception)
    (h : parseAt b = some (n, r)) : parseAt (b ++ more) = some (n, r) := by
  unfold parseAt at h
  split at h
  · exact absurd h (by simp only [reduceCtorEq, not_false_eq_true])
  · exact absurd h (by simp only [reduceCtorEq, not_false_eq_true])
  · rename_i c type rest
    simp only [List.cons_append, parseAt]
    cases hlen : frameLen type with
    | none =>
        simp only [hlen] at h
        exact h
    | some len =>
        simp only [hlen] at h ⊢
        have hread : readPayload (6 + 1 + len) [] 2 rest ≠ .needMore := by
          intro hmore
          simp only [hmore, reduceCtorEq] at h
        rw [readPayload_append _ _ _ rest more hread]
        exact h

/-- More bytes revise no decision. -/
theorem decoder_stable : decoder.Stable := by
  intro b more n r h
  cases b with
  | nil => exact absurd h (by simp only [decoder, reduceCtorEq, not_false_eq_true])
  | cons c rest =>
      simp only [decoder, List.cons_append] at h ⊢
      by_cases hc : c ≠ escape
      · rw [if_pos hc] at h ⊢
        exact h
      · rw [if_neg hc] at h ⊢
        exact parseAt_append (c :: rest) more n r h

end Beast

namespace BeastDecoder

open Beast

/-- The pieces are fed to the scan, behind what came out before. -/
theorem feedAll_eq_feeds (d : BeastDecoder) (chunks : List (List UInt8)) :
    d.feedAll chunks = (⟨(decoder.feeds d.buf chunks).2⟩, (decoder.feeds d.buf chunks).1) := by
  suffices hacc : ∀ (out : List Reception) (d : BeastDecoder),
      chunks.foldl (fun (acc : BeastDecoder × List Reception) bytes =>
        ((acc.1.feed bytes).1, acc.2 ++ (acc.1.feed bytes).2)) (d, out) =
      (⟨(decoder.feeds d.buf chunks).2⟩, out ++ (decoder.feeds d.buf chunks).1) from hacc [] d
  induction chunks with
  | nil =>
      intro out d
      rw [List.foldl_nil, Decoder.feeds, List.append_nil]
  | cons c cs ih =>
      intro out d
      rw [List.foldl_cons, ih, Decoder.feeds, List.append_assoc]
      rfl

/-- Pieces are read like the whole: the same receptions, the same bytes left. -/
theorem feedAll_flatten (chunks : List (List UInt8)) :
    ({} : BeastDecoder).feedAll chunks = ({} : BeastDecoder).feed chunks.flatten := by
  rw [feedAll_eq_feeds, Decoder.feeds_flatten decoder decoder_stable [] chunks rfl]
  rfl

end BeastDecoder

end Client

end MlatBench
