import Mathlib.Data.List.Basic

/-!
# Streams in Calls

A transducer that works in calls. A call takes some of the items it is given and
gives some of what they come to, as much as there is room for. When room is left
it has taken everything and given everything. When the room is full there may be
more to give, also when everything was taken, and later calls give it.

How eagerly a transducer takes its input is its own business. `greedy` takes all
of it at once.

## Main definitions

* `Calls`: A transducer.
* `Grows`: What input comes to only grows with it.
* `Calls.Meets`: The contract of the calls.
* `Calls.Flushes`: The contract of calls that flush.
* `greedy`: The transducer that takes everything at once.

## Theorems

* `Calls.Meets.prefix`: What was given is a first part of what is to come.
* `Calls.Flushes.mono`: A contract of calls that flush holds of fewer texts.
* `greedy_meets`: The greedy transducer meets the contract.
-/

namespace MlatBench

namespace Library

variable {α β σ : Type*}

/-- A transducer: a call gets input and room. It fails, or says how many items it
    took, what it gives, whether the stream has ended, and its next state. -/
structure Calls (α β σ : Type*) where
  start : σ
  call : σ → List α → Nat → Option (Nat × List β × Bool × σ)

/-- What input comes to, if it is the beginning of a stream, grows with it. -/
structure Grows (whole : List α → Option (List β)) : Prop where
  nil : whole [] = some []
  append : ∀ xs ys out, whole (xs ++ ys) = some out → ∃ out', whole xs = some out' ∧ out' <+: out

/-- The contract of the calls. `At` relates a state to what was taken and given
    so far. -/
structure Calls.Meets (z : Calls α β σ) (whole : List α → Option (List β))
    (At : σ → List α → List β → Prop) : Prop where
  start : At z.start [] []
  given : ∀ s taken given out, At s taken given → whole taken = some out → given <+: out
  call : ∀ s taken given xs room out, At s taken given → whole (taken ++ xs) = some out →
    ∃ n ys ended s', z.call s xs room = some (n, ys, ended, s') ∧ n ≤ xs.length ∧
      ys.length ≤ room ∧
      ((ended = true ∧ given ++ ys = out ∧ At s' (taken ++ xs) out) ∨
        (ended = false ∧ At s' (taken ++ xs.take n) (given ++ ys) ∧
          (ys.length < room → n = xs.length ∧ given ++ ys = out)))

/-- The contract of calls that flush, of a transducer that `whole` reads back: with
    room enough a call takes everything, and what was given so far ends with the
    trailer and comes to all that was taken. `Text` is what may be taken up to a
    flush, and `At` relates a state after one to what was taken and given. -/
structure Calls.Flushes (z : Calls α β σ) (whole : List β → Option (List α)) (trailer : List β)
    (enough : Nat → Nat) (Text : List α → Prop) (At : σ → List α → List β → Prop) : Prop where
  start : At z.start [] []
  call : ∀ s taken given xs room, At s taken given → xs ≠ [] → Text (taken ++ xs) →
    enough xs.length ≤ room →
    ∃ ys s', z.call s xs room = some (xs.length, ys, false, s') ∧ trailer <:+ ys ∧
      whole (given ++ ys) = some (taken ++ xs) ∧ At s' (taken ++ xs) (given ++ ys)

/-- What was given is a first part of what is to come. -/
theorem Calls.Meets.prefix {z : Calls α β σ} {whole : List α → Option (List β)}
    {At : σ → List α → List β → Prop} (h : z.Meets whole At) (hgrows : Grows whole) (s : σ)
    (taken xs : List α) (given out : List β) (hs : At s taken given)
    (hout : whole (taken ++ xs) = some out) : given <+: out := by
  rcases hgrows.append taken xs out hout with ⟨out', hwhole, hpre⟩
  exact (h.given s taken given out' hs hwhole).trans hpre

/-- A contract holds of fewer texts. -/
theorem Calls.Flushes.mono {z : Calls α β σ} {whole : List β → Option (List α)} {trailer : List β}
    {enough : Nat → Nat} {Text Text' : List α → Prop} {At : σ → List α → List β → Prop}
    (h : z.Flushes whole trailer enough Text At) (hsub : ∀ t, Text' t → Text t) :
    z.Flushes whole trailer enough Text' At where
  start := h.start
  call s taken given xs room hs hne htext hroom :=
    h.call s taken given xs room hs hne (hsub _ htext) hroom

/-- The transducer that takes everything at once, and gives what there is room
    for. Its state is what was taken and given. -/
def greedy (whole : List α → Option (List β)) : Calls α β (List α × List β) where
  start := ([], [])
  call s xs room :=
    (whole (s.1 ++ xs)).map fun out =>
      let ys := (out.drop s.2.length).take room
      (xs.length, ys, false, (s.1 ++ xs, s.2 ++ ys))

theorem greedy_call (whole : List α → Option (List β)) (taken xs : List α) (given out : List β)
    (room : Nat) (hout : whole (taken ++ xs) = some out) :
    (greedy whole).call (taken, given) xs room =
      some (xs.length, (out.drop given.length).take room, false,
        (taken ++ xs, given ++ (out.drop given.length).take room)) := by
  change (whole (taken ++ xs)).map _ = _
  rw [hout]
  rfl

theorem greedy_meets (whole : List α → Option (List β)) (hgrows : Grows whole) :
    (greedy whole).Meets whole fun s taken given =>
      s = (taken, given) ∧ ∀ out, whole taken = some out → given <+: out := by
  refine ⟨⟨rfl, fun out _ => List.nil_prefix⟩, fun s taken given out hs hout => hs.2 out hout, ?_⟩
  rintro _ taken given xs room out ⟨rfl, hgiven⟩ hout
  have hpre : given <+: out := by
    rcases hgrows.append taken xs out hout with ⟨out', hwhole, hpre⟩
    exact (hgiven out' hwhole).trans hpre
  rcases hpre with ⟨rest, rfl⟩
  have hcall := greedy_call whole taken xs given (given ++ rest) room hout
  rw [List.drop_left] at hcall
  refine ⟨xs.length, rest.take room, false, _, hcall, Nat.le_refl _, List.length_take_le _ _,
    Or.inr ⟨rfl, ⟨?_, ?_⟩, ?_⟩⟩
  · rw [List.take_length]
  · intro out' hout'
    rw [List.take_length, hout, Option.some_inj] at hout'
    subst hout'
    exact (List.prefix_append_right_inj given).mpr (List.take_prefix room rest)
  · intro hroom
    refine ⟨rfl, ?_⟩
    rw [List.length_take] at hroom
    rw [List.take_of_length_le (by omega)]

end Library

end MlatBench
