import Mathlib.Data.List.Perm.Subperm
import MlatBench.Core.Daemon
import MlatBench.Library.Runs
import MlatBench.Theory.Slots

/-!
# Accounting for Connections

A connection claims its shard early and gives the claim back at the bottom of
`handle_client`. Three ways out lie between: the shard is gone when `AddReceiver`
is sent, or before it answers, or the handshake reply cannot be written. Each
leaves the claim, and the last also the slot.

In a run where none of them is taken, and no shard is gone when a connection sends
its `RemoveReceiver`, every claim is returned once and every slot removed. The
books are kept by connection: where it stands determines its claims, returns and
references.

## Main definitions

* `Daemon.Succeeds`: No way out in between is taken.
* `Daemon.Books`: The records of a connection.
* `Daemon.Settled`: The books of a connection, by where it stands.
* `Daemon.Ledger`, `Daemon.Queues`, `Daemon.Holds`: The invariant.

## Theorems

* `Daemon.kept_work`, `Daemon.kept_step`: One event.
* `claims_released`: Claims are returned once, slots removed, and nothing stays.
-/

namespace MlatBench

namespace Server

open Library F64 F64Fn

variable {F : Type} [F64Fn F]

namespace Daemon

/-- The shard is there when it is sent to and when its reply is waited for, and
    the handshake reply is written. -/
def Succeeds (w : Daemon F) : Event F → Prop
  | .sendAdd c => ∀ i info, w.conns[c]? = some (.claimed i info) → (w.shards i).gone = false
  | .recvReply c => ∀ i, w.conns[c]? = some (.waiting i none) → (w.shards i).gone = false
  | .writeReply c ok => ∀ i r, w.conns[c]? = some (.replying i r) → ok = true
  | .sendRemove c => ∀ i r, w.conns[c]? = some (.leaving i r) → (w.shards i).gone = false
  | _ => True

/-- The records of a connection. -/
structure Books (w : Daemon F) (c : Nat) (claims releases : List Claim)
    (adds : List Grant) : Prop where
  claims : w.claims.filter (fun x => x.conn = c) = claims
  releases : w.releases.filter (fun x => x.conn = c) = releases
  adds : w.adds.filter (fun x => x.conn = c) = adds

/-- The books of a connection, by where it stands. -/
def Settled (w : Daemon F) (c : Nat) : Phase F → Prop
  | .handshake => w.Books c [] [] []
  | .claimed i _ => w.Books c [⟨c, i⟩] [] []
  | .waiting i none => w.Books c [⟨c, i⟩] [] []
  | .waiting i (some r) => w.Books c [⟨c, i⟩] [] [⟨c, i, r⟩]
  | .replying i r => w.Books c [⟨c, i⟩] [] [⟨c, i, r⟩]
  | .looping i r => w.Books c [⟨c, i⟩] [] [⟨c, i, r⟩]
  | .leaving i r => w.Books c [⟨c, i⟩] [] [⟨c, i, r⟩]
  | .releasing i r => w.Books c [⟨c, i⟩] [] [⟨c, i, r⟩] ∧ (i, r) ∈ w.removes
  | .returned => w.Books c [] [] [] ∨
      ∃ i r, w.Books c [⟨c, i⟩] [⟨c, i⟩] [⟨c, i, r⟩] ∧ (i, r) ∈ w.removes

/-- All books are settled, and the counters are the claims not returned. -/
structure Ledger (w : Daemon F) : Prop where
  settled : ∀ c p, w.conns[c]? = some p → w.Settled c p
  fresh : ∀ c, w.conns.length ≤ c → w.Books c [] [] []
  counter : ∀ i, (w.router.shards i).receivers + w.releases.countP (fun x => x.shard = i) =
    w.claims.countP fun x => x.shard = i

/-- What a connection reads from its phase after one changed. -/
theorem getElem?_set_cases {α : Type*} (xs : List α) (c d : Nat) (x y : α)
    (h : (xs.set c x)[d]? = some y) : (d = c ∧ y = x) ∨ (d ≠ c ∧ xs[d]? = some y) := by
  rw [List.getElem?_set] at h
  by_cases hd : c = d
  · rw [if_pos hd] at h
    by_cases hlt : c < xs.length
    · rw [if_pos hlt, Option.some.injEq] at h
      exact Or.inl ⟨hd.symm, h.symm⟩
    · rw [if_neg hlt] at h
      exact absurd h (Option.some_ne_none y).symm
  · rw [if_neg hd] at h
    exact Or.inr ⟨fun heq => hd heq.symm, h⟩

section

omit [F64Fn F]

/-- Records of the same connection stay as they are when others are written. -/
theorem Books.congr (w w' : Daemon F) (c : Nat) (claims releases : List Claim)
    (adds : List Grant) (h : w.Books c claims releases adds)
    (hc : w'.claims.filter (fun x => x.conn = c) = w.claims.filter fun x => x.conn = c)
    (hr : w'.releases.filter (fun x => x.conn = c) = w.releases.filter fun x => x.conn = c)
    (ha : w'.adds.filter (fun x => x.conn = c) = w.adds.filter fun x => x.conn = c) :
    w'.Books c claims releases adds :=
  ⟨hc.trans h.claims, hr.trans h.releases, ha.trans h.adds⟩

theorem Settled.congr (w w' : Daemon F) (c : Nat) (p : Phase F) (h : w.Settled c p)
    (hbooks : ∀ claims releases adds, w.Books c claims releases adds →
      w'.Books c claims releases adds)
    (hrem : ∀ x ∈ w.removes, x ∈ w'.removes) : w'.Settled c p := by
  cases p with
  | handshake => exact hbooks _ _ _ h
  | claimed i info => exact hbooks _ _ _ h
  | waiting i reply =>
      cases reply with
      | none => exact hbooks _ _ _ h
      | some r => exact hbooks _ _ _ h
  | replying i r => exact hbooks _ _ _ h
  | looping i r => exact hbooks _ _ _ h
  | leaving i r => exact hbooks _ _ _ h
  | releasing i r => exact ⟨hbooks _ _ _ h.1, hrem _ h.2⟩
  | returned =>
      rcases h with h | ⟨i, r, h, hr⟩
      · exact Or.inl (hbooks _ _ _ h)
      · exact Or.inr ⟨i, r, hbooks _ _ _ h, hrem _ hr⟩

/-- A connection moves on; its own books are settled, the others' untouched. -/
theorem Ledger.move (w w' : Daemon F) (h : Ledger w) (c : Nat) (p : Phase F)
    (hconns : w'.conns = w.conns.set c p) (hp : w'.Settled c p)
    (hlt : c < w.conns.length)
    (hclaims : ∀ d, d ≠ c →
      w'.claims.filter (fun x => x.conn = d) = w.claims.filter fun x => x.conn = d)
    (hrel : ∀ d, d ≠ c →
      w'.releases.filter (fun x => x.conn = d) = w.releases.filter fun x => x.conn = d)
    (hadds : ∀ d, d ≠ c → w'.adds.filter (fun x => x.conn = d) = w.adds.filter fun x => x.conn = d)
    (hrem : ∀ x ∈ w.removes, x ∈ w'.removes)
    (hcounter : ∀ i, (w'.router.shards i).receivers + w'.releases.countP (fun x => x.shard = i) =
      w'.claims.countP fun x => x.shard = i) : Ledger w' := by
  have hother : ∀ d, d ≠ c → ∀ claims releases adds, w.Books d claims releases adds →
      w'.Books d claims releases adds := fun d hd _ _ _ hb =>
    Books.congr w w' d _ _ _ hb (hclaims d hd) (hrel d hd) (hadds d hd)
  refine ⟨?_, ?_, hcounter⟩
  · intro d q hq
    rw [hconns] at hq
    rcases getElem?_set_cases w.conns c d p q hq with ⟨rfl, rfl⟩ | ⟨hd, hq⟩
    · exact hp
    · exact Settled.congr w w' d q (h.settled d q hq) (hother d hd) hrem
  · intro d hd
    rw [hconns, List.length_set] at hd
    exact hother d (by omega) _ _ _ (h.fresh d hd)

end

theorem lt_of_getElem? {α : Type*} (xs : List α) (c : Nat) (x : α) (h : xs[c]? = some x) :
    c < xs.length :=
  (List.getElem?_eq_some_iff.mp h).1

omit [F64Fn F] in
/-- Only where the connection stands changes, within the same books. -/
theorem Ledger.setConn (w : Daemon F) (h : Ledger w) (c : Nat) (p p' : Phase F)
    (hp : w.conns[c]? = some p) (hp' : w.Settled c p → w.Settled c p') :
    Ledger (w.setConn c p') := by
  have hsettled : w.Settled c p' := hp' (h.settled c p hp)
  refine Ledger.move w _ h c p' rfl ?_ (lt_of_getElem? _ _ _ hp) (fun _ _ => rfl) (fun _ _ => rfl)
    (fun _ _ => rfl) (fun _ hx => hx) h.counter
  exact Settled.congr w _ c p' hsettled (fun _ _ _ hb => ⟨hb.1, hb.2, hb.3⟩) (fun _ hx => hx)

omit [F64Fn F] in
/-- The shards keep no books. -/
theorem Ledger.setShard (w : Daemon F) (h : Ledger w) (i : Nat) (t : ShardTask F) :
    Ledger (w.setShard i t) where
  settled c p hp :=
    Settled.congr w _ c p (h.settled c p hp) (fun _ _ _ hb => ⟨hb.1, hb.2, hb.3⟩) fun _ hx => hx
  fresh c hc := ⟨(h.fresh c hc).1, (h.fresh c hc).2, (h.fresh c hc).3⟩
  counter := h.counter

/-- Books are kept of one record by its connection. -/
theorem count_filter_conn (xs : List Claim) (x : Claim) :
    (xs.filter fun y => y.conn = x.conn).count x = xs.count x :=
  List.count_filter (by simp only [decide_true])

section Filter

variable {α : Type*} (f : α → Nat)

/-- A record of one connection is not in the books of another. -/
theorem filter_append_ne (xs : List α) (x : α) (d : Nat) (hd : f x ≠ d) :
    (xs ++ [x]).filter (fun y => f y = d) = xs.filter fun y => f y = d := by
  rw [List.filter_append, List.filter_cons_of_neg (by simpa using hd), List.filter_nil,
    List.append_nil]

theorem filter_append_eq (xs : List α) (x : α) (d : Nat) (hd : f x = d) :
    (xs ++ [x]).filter (fun y => f y = d) = (xs.filter fun y => f y = d) ++ [x] := by
  rw [List.filter_append, List.filter_cons_of_pos (by simpa using hd), List.filter_nil]

end Filter

theorem Ledger.claim (w : Daemon F) (h : Ledger w) (c : Nat) (info : ReceiverInfo F)
    (order : List Nat) (hp : w.conns[c]? = some .handshake) : Ledger (w.claim c info order) := by
  have hbooks : w.Books c [] [] [] := h.settled c _ hp
  refine Ledger.move w _ h c _ rfl ⟨?_, hbooks.releases, hbooks.adds⟩ (lt_of_getElem? _ _ _ hp) ?_
    (fun _ _ => rfl) (fun _ _ => rfl) (fun _ hx => hx) ?_
  · simp only [Daemon.claim]
    rw [filter_append_eq Claim.conn w.claims _ c rfl, hbooks.claims]
    rfl
  · intro d hd
    simp only [Daemon.claim]
    exact filter_append_ne Claim.conn _ _ d (fun heq => hd heq.symm)
  · intro i
    have hi := h.counter i
    simp only [Daemon.claim, Router.shardFor, List.countP_append, List.countP_singleton,
      Function.update_apply]
    split_ifs with h1 h2 h2
    · simp only [h1] at hi ⊢
      omega
    · simp_all
    · simp_all
    · omega

section

omit [F64Fn F]

/-- What is returned was claimed. -/
theorem Ledger.releases_le (w : Daemon F) (h : Ledger w) (x : Claim) :
    w.releases.count x ≤ w.claims.count x := by
  rw [← count_filter_conn w.releases x, ← count_filter_conn w.claims x]
  have hnone : w.Books x.conn [] [] [] → (w.releases.filter fun y => y.conn = x.conn).count x ≤
      (w.claims.filter fun y => y.conn = x.conn).count x := by
    intro hb
    rw [hb.releases, hb.claims]
  have hopen : ∀ i adds, w.Books x.conn [⟨x.conn, i⟩] [] adds →
      (w.releases.filter fun y => y.conn = x.conn).count x ≤
        (w.claims.filter fun y => y.conn = x.conn).count x := by
    intro i adds hb
    rw [hb.releases]
    exact Nat.zero_le _
  cases hp : w.conns[x.conn]? with
  | none => exact hnone (h.fresh x.conn (List.getElem?_eq_none_iff.mp hp))
  | some p =>
      have hs := h.settled x.conn p hp
      cases p with
      | handshake => exact hnone hs
      | claimed i info => exact hopen i _ hs
      | waiting i reply =>
          cases reply with
          | none => exact hopen i _ hs
          | some r => exact hopen i _ hs
      | replying i r => exact hopen i _ hs
      | looping i r => exact hopen i _ hs
      | leaving i r => exact hopen i _ hs
      | releasing i r => exact hopen i _ hs.1
      | returned =>
          rcases hs with hs | ⟨i, r, hs, _⟩
          · exact hnone hs
          · rw [hs.releases, hs.claims]

theorem Ledger.giveBack (w : Daemon F) (h : Ledger w) (c i : Nat) (r : RxRef)
    (hp : w.conns[c]? = some (.releasing i r)) : Ledger (w.giveBack c i) := by
  have hbooks : w.Books c [⟨c, i⟩] [] [⟨c, i, r⟩] ∧ (i, r) ∈ w.removes := h.settled c _ hp
  have hself : (w.releases ++ [(⟨c, i⟩ : Claim)]).filter (fun x => x.conn = c) = [⟨c, i⟩] := by
    rw [filter_append_eq Claim.conn w.releases _ c rfl, hbooks.1.releases, List.nil_append]
  refine Ledger.move w _ h c _ rfl ?_ (lt_of_getElem? _ _ _ hp) (fun _ _ => rfl) ?_
    (fun _ _ => rfl) (fun _ hx => hx) ?_
  · exact Or.inr ⟨i, r, ⟨hbooks.1.claims, hself, hbooks.1.adds⟩, hbooks.2⟩
  · exact fun d hd => filter_append_ne Claim.conn w.releases _ d (fun heq => hd heq.symm)
  · -- The claim given back is still among the claims, so the counter is positive.
    have hsub : (w.releases ++ [(⟨c, i⟩ : Claim)]).Subperm w.claims := by
      rw [List.subperm_iff_count]
      intro x
      by_cases hx : x = ⟨c, i⟩
      · rw [hx, ← count_filter_conn _ ⟨c, i⟩, ← count_filter_conn w.claims ⟨c, i⟩, hself,
          hbooks.1.claims]
      · rw [List.count_append, List.count_singleton, beq_false_of_ne (fun heq => hx heq.symm)]
        exact h.releases_le w x
    intro j
    have hj := h.counter j
    have hle := hsub.countP_le fun x => x.shard = j
    simp only [Daemon.giveBack, List.countP_append, List.countP_singleton,
      Function.update_apply] at hle ⊢
    by_cases hij : j = i
    · rw [hij] at hj hle ⊢
      simp only [decide_true, if_true] at hle ⊢
      omega
    · have hji : decide (i = j) = false := decide_eq_false fun heq => hij heq.symm
      simp only [hji, if_neg hij, Bool.false_eq_true, if_false] at hle ⊢
      omega

theorem Ledger.answer (w : Daemon F) (h : Ledger w) (i c : Nat) (r : RxRef)
    (hp : w.conns[c]? = some (.waiting i none)) : Ledger (w.answer i c r) := by
  have hbooks : w.Books c [⟨c, i⟩] [] [] := h.settled c _ hp
  unfold Daemon.answer
  rw [hp]
  refine Ledger.move w _ h c _ rfl ⟨hbooks.claims, hbooks.releases, ?_⟩ (lt_of_getElem? _ _ _ hp)
    (fun _ _ => rfl) (fun _ _ => rfl) ?_ (fun _ hx => hx) h.counter
  · simp only []
    rw [filter_append_eq Grant.conn w.adds _ c rfl, hbooks.adds, List.nil_append]
  · exact fun d hd => filter_append_ne Grant.conn w.adds _ d (fun heq => hd heq.symm)

theorem Ledger.accept (w : Daemon F) (h : Ledger w) :
    Ledger { w with conns := w.conns ++ [.handshake] } where
  settled c p hp := by
    have hcongr : ∀ q, w.Settled c q →
        ({ w with conns := w.conns ++ [.handshake] } : Daemon F).Settled c q := fun q hq =>
      Settled.congr w _ c q hq (fun _ _ _ hb => ⟨hb.1, hb.2, hb.3⟩) fun _ hx => hx
    rcases Nat.lt_or_ge c w.conns.length with hlt | hge
    · rw [List.getElem?_append_left hlt] at hp
      exact hcongr p (h.settled c p hp)
    · have hlt := lt_of_getElem? _ _ _ hp
      rw [List.length_append, List.length_singleton] at hlt
      have heq : c = w.conns.length := by omega
      rw [heq, List.getElem?_concat_length, Option.some.injEq] at hp
      rw [← hp]
      exact hcongr _ (h.fresh c hge)
  fresh c hc := by
    rw [List.length_append, List.length_singleton] at hc
    have hb := h.fresh c (by omega)
    exact ⟨hb.1, hb.2, hb.3⟩
  counter := h.counter

end

end Daemon

/-- The connection that waits for the reply to a message. -/
def ShardMsg.conn : ShardMsg F → Option Nat
  | .addReceiver _ c => some c
  | _ => none

/-- The connections that wait for replies to what is queued. -/
def ShardTask.waiting (t : ShardTask F) : List Nat :=
  t.queue.filterMap ShardMsg.conn

/-- The reference a connection will have removed. -/
def Phase.holds : Phase F → Option (Nat × RxRef)
  | .waiting i (some r) => some (i, r)
  | .replying i r => some (i, r)
  | .looping i r => some (i, r)
  | .leaving i r => some (i, r)
  | _ => none

namespace Daemon

/-- Every queued `AddReceiver` is waited for, by one connection. -/
structure Queues (w : Daemon F) : Prop where
  waits : ∀ i, ∀ c ∈ (w.shards i).waiting, w.conns[c]? = some (.waiting i none)
  once : ∀ i, (w.shards i).waiting.Nodup

/-- Every live slot is held by a connection, or its removal is queued. -/
structure Holds (w : Daemon F) : Prop where
  sized : ∀ i, (w.shards i).state.Sized
  held : ∀ i q, (w.shards i).state.live q = true →
    .removeReceiver q ∈ (w.shards i).queue ∨
      ∃ (c : Nat) (p : Phase F), w.conns[c]? = some p ∧ p.holds = some (i, q)

section

omit [F64Fn F]

theorem setShard_self (w : Daemon F) (i : Nat) (t : ShardTask F) : (w.setShard i t).shards i = t :=
  Function.update_self _ _ _

theorem setShard_other (w : Daemon F) (i j : Nat) (t : ShardTask F) (h : j ≠ i) :
    (w.setShard i t).shards j = w.shards j :=
  Function.update_of_ne h _ _

theorem setConn_self (w : Daemon F) (c : Nat) (p p' : Phase F) (h : w.conns[c]? = some p) :
    (w.setConn c p').conns[c]? = some p' :=
  List.getElem?_set_self (lt_of_getElem? _ _ _ h)

theorem setConn_other (w : Daemon F) (c d : Nat) (p : Phase F) (h : d ≠ c) :
    (w.setConn c p).conns[d]? = w.conns[d]? :=
  List.getElem?_set_ne fun heq => h heq.symm

/-- A connection that no shard owes a reply moves on. -/
theorem Queues.setConn (w : Daemon F) (h : Queues w) (c : Nat) (p p' : Phase F)
    (hp : w.conns[c]? = some p) (hne : ∀ i, p ≠ .waiting i none) : Queues (w.setConn c p') where
  waits i d hd := by
    have hwaits := h.waits i d hd
    rw [setConn_other w c d p' ?_]
    · exact hwaits
    · rintro rfl
      rw [hp, Option.some.injEq] at hwaits
      exact hne i hwaits
  once := h.once

/-- A connection moves on and holds what it held, or has queued its removal. -/
theorem Holds.setConn (w : Daemon F) (h : Holds w) (c : Nat) (p p' : Phase F)
    (hp : w.conns[c]? = some p) (hkeep : ∀ i q, p.holds = some (i, q) →
      p'.holds = some (i, q) ∨ .removeReceiver q ∈ (w.shards i).queue) :
    Holds (w.setConn c p') where
  sized := h.sized
  held i q hq := by
    rcases h.held i q hq with hrem | ⟨d, pd, hd, hholds⟩
    · exact Or.inl hrem
    · by_cases hdc : d = c
      · rw [hdc, hp, Option.some.injEq] at hd
        rcases hkeep i q (hd ▸ hholds) with hkept | hrem
        · exact Or.inr ⟨c, p', setConn_self w c p p' hp, hkept⟩
        · exact Or.inl hrem
      · exact Or.inr ⟨d, pd, (setConn_other w c d p' hdc).trans hd, hholds⟩

/-- A shard owes no replies it did not owe. -/
theorem Queues.setShard (w : Daemon F) (h : Queues w) (i : Nat) (t : ShardTask F)
    (ht : t.waiting.Sublist (w.shards i).waiting) : Queues (w.setShard i t) where
  waits j c hc := by
    by_cases hj : j = i
    · rw [hj, setShard_self] at hc
      rw [hj]
      exact h.waits i c (ht.subset hc)
    · rw [setShard_other w i j t hj] at hc
      exact h.waits j c hc
  once j := by
    by_cases hj : j = i
    · rw [hj, setShard_self]
      exact (h.once i).sublist ht
    · rw [setShard_other w i j t hj]
      exact h.once j

/-- A shard with fewer live slots, whose removals are still queued or done. -/
theorem Holds.setShard (w : Daemon F) (h : Holds w) (i : Nat) (t : ShardTask F)
    (hsized : t.state.Sized) (hlive : ∀ q, t.state.live q = true →
      (w.shards i).state.live q = true ∧
        (.removeReceiver q ∈ (w.shards i).queue → .removeReceiver q ∈ t.queue)) :
    Holds (w.setShard i t) where
  sized j := by
    by_cases hj : j = i
    · rw [hj, setShard_self]
      exact hsized
    · rw [setShard_other w i j t hj]
      exact h.sized j
  held j q hq := by
    by_cases hj : j = i
    · rw [hj, setShard_self] at hq ⊢
      rcases h.held i q (hlive q hq).1 with hrem | hheld
      · exact Or.inl ((hlive q hq).2 hrem)
      · exact Or.inr hheld
    · rw [setShard_other w i j t hj] at hq ⊢
      exact h.held j q hq

theorem send_waiting (t : ShardTask F) (m : ShardMsg F) (h : m.conn = none) :
    (t.send m).waiting = t.waiting := by
  unfold ShardTask.send ShardTask.waiting
  split_ifs
  · rfl
  · rw [List.filterMap_append, List.filterMap_cons_none h, List.filterMap_nil, List.append_nil]

theorem send_state (t : ShardTask F) (m : ShardMsg F) : (t.send m).state = t.state := by
  unfold ShardTask.send
  split_ifs <;> rfl

theorem mem_send (t : ShardTask F) (m m' : ShardMsg F) (h : m' ∈ t.queue) :
    m' ∈ (t.send m).queue := by
  unfold ShardTask.send
  split_ifs
  · exact h
  · exact List.mem_append_left _ h

/-- A message is sent to a shard. -/
theorem Holds.send (w : Daemon F) (h : Holds w) (i : Nat) (m : ShardMsg F) :
    Holds (w.setShard i ((w.shards i).send m)) := by
  refine Holds.setShard w h i _ ?_ ?_
  · rw [send_state]
    exact h.sized i
  · intro q hq
    rw [send_state] at hq
    exact ⟨hq, mem_send _ m _⟩

/-- All three parts. -/
structure Kept (w : Daemon F) : Prop where
  ledger : w.Ledger
  queues : w.Queues
  holds : w.Holds

theorem Kept.setConn (w : Daemon F) (h : Kept w) (c : Nat) (p p' : Phase F)
    (hp : w.conns[c]? = some p) (hne : ∀ i, p ≠ .waiting i none)
    (hsettled : w.Settled c p → w.Settled c p') (hkeep : ∀ i q, p.holds = some (i, q) →
      p'.holds = some (i, q) ∨ .removeReceiver q ∈ (w.shards i).queue) : Kept (w.setConn c p') :=
  ⟨Ledger.setConn w h.ledger c p p' hp hsettled, Queues.setConn w h.queues c p p' hp hne,
    Holds.setConn w h.holds c p p' hp hkeep⟩

theorem kept_new (nShards : Nat) (hpos : 0 < nShards) (baseDeg : F) (cap : Nat)
    (mlatAdsb emitFiltered : Bool) :
    Kept (Daemon.new nShards hpos baseDeg cap mlatAdsb emitFiltered) where
  ledger := ⟨fun _ p hp => absurd hp (Option.some_ne_none p).symm, fun _ _ => ⟨rfl, rfl, rfl⟩,
    fun _ => rfl⟩
  queues := ⟨fun _ _ hc => absurd hc List.not_mem_nil, fun _ => List.nodup_nil⟩
  holds := by
    refine ⟨fun i => State.sized_new i mlatAdsb emitFiltered, ?_⟩
    intro i q hq
    have halive := State.live_alive _ q hq
    exact absurd halive Bool.false_ne_true

theorem kept_accept (w : Daemon F) (h : Kept w) :
    Kept { w with conns := w.conns ++ [.handshake] } where
  ledger := Ledger.accept w h.ledger
  queues := by
    refine ⟨fun i c hc => ?_, h.queues.once⟩
    have hwaits := h.queues.waits i c hc
    rw [List.getElem?_append_left (lt_of_getElem? _ _ _ hwaits)]
    exact hwaits
  holds := by
    refine ⟨h.holds.sized, fun i q hq => ?_⟩
    rcases h.holds.held i q hq with hrem | ⟨c, p, hp, hholds⟩
    · exact Or.inl hrem
    · refine Or.inr ⟨c, p, ?_, hholds⟩
      rw [List.getElem?_append_left (lt_of_getElem? _ _ _ hp)]
      exact hp

end

theorem kept_claim (w : Daemon F) (h : Kept w) (c : Nat) (info : ReceiverInfo F)
    (order : List Nat) (hp : w.conns[c]? = some .handshake) : Kept (w.claim c info order) := by
  have hq := Queues.setConn w h.queues c _ (.claimed (w.router.shardFor order info.geo.latDeg
    info.geo.lonDeg).1 info) hp (fun _ heq => by injection heq)
  have hh := Holds.setConn w h.holds c _ (.claimed (w.router.shardFor order info.geo.latDeg
    info.geo.lonDeg).1 info) hp (fun i q hholds => absurd hholds (Option.some_ne_none _).symm)
  exact ⟨Ledger.claim w h.ledger c info order hp, ⟨hq.1, hq.2⟩, ⟨hh.1, hh.2⟩⟩

section

omit [F64Fn F]

theorem kept_sendAdd (w : Daemon F) (h : Kept w) (c i : Nat) (info : ReceiverInfo F)
    (hp : w.conns[c]? = some (.claimed i info)) (hthere : (w.shards i).gone = false) :
    Kept ((w.setShard i ((w.shards i).send (.addReceiver info c))).setConn c
      (.waiting i none)) := by
  have hwaiting : ((w.shards i).send (.addReceiver info c)).waiting =
      (w.shards i).waiting ++ [c] := by
    unfold ShardTask.send ShardTask.waiting
    rw [if_neg (by rw [hthere]; exact Bool.false_ne_true), List.filterMap_append]
    rfl
  -- The connection was not waiting yet, so no queue has it.
  have hnot : ∀ j, c ∉ (w.shards j).waiting := by
    intro j hc
    have hwaits := h.queues.waits j c hc
    rw [hp, Option.some.injEq] at hwaits
    injection hwaits
  refine ⟨?_, ⟨?_, ?_⟩, ?_⟩
  · exact Ledger.setConn _ (Ledger.setShard w h.ledger i _) c _ _ hp fun hs => hs
  · intro j d hd
    have hd : d ∈ ((w.setShard i ((w.shards i).send (.addReceiver info c))).shards j).waiting := hd
    have hold : d ≠ c → d ∈ (w.shards j).waiting → ((w.setShard i ((w.shards i).send
        (.addReceiver info c))).setConn c (.waiting i none)).conns[d]? =
          some (.waiting j none) := by
      intro hdc hd
      rw [setConn_other _ c d _ hdc]
      exact h.queues.waits j d hd
    by_cases hj : j = i
    · rw [hj] at hd ⊢
      rw [setShard_self, hwaiting, List.mem_append, List.mem_singleton] at hd
      rcases hd with hd | rfl
      · exact hj ▸ hold (fun heq => hnot i (heq ▸ hd)) (hj ▸ hd)
      · exact setConn_self _ d _ _ hp
    · rw [setShard_other w i j _ hj] at hd
      exact hold (fun heq => hnot j (heq ▸ hd)) hd
  · intro j
    by_cases hj : j = i
    · rw [hj]
      have hnodup : ((w.shards i).waiting ++ [c]).Nodup := by
        rw [List.nodup_append_comm]
        exact List.nodup_cons.mpr ⟨hnot i, h.queues.once i⟩
      rw [← hwaiting, ← setShard_self w i ((w.shards i).send (.addReceiver info c))] at hnodup
      exact hnodup
    · have hother := h.queues.once j
      rw [← setShard_other w i j ((w.shards i).send (.addReceiver info c)) hj] at hother
      exact hother
  · refine Holds.setConn _ (Holds.send w h.holds i _) c _ _ hp ?_
    exact fun j q hholds => absurd hholds (Option.some_ne_none _).symm

/-- The loop sends a message; nobody waits for its reply. -/
theorem kept_send (w : Daemon F) (h : Kept w) (i : Nat) (m : ShardMsg F) (hm : m.conn = none) :
    Kept (w.setShard i ((w.shards i).send m)) where
  ledger := Ledger.setShard w h.ledger i _
  queues := Queues.setShard w h.queues i _ (by rw [send_waiting _ m hm])
  holds := Holds.send w h.holds i m

theorem kept_sendRemove (w : Daemon F) (h : Kept w) (c i : Nat) (r : RxRef)
    (hp : w.conns[c]? = some (.leaving i r)) (hthere : (w.shards i).gone = false) :
    Kept { (w.setShard i ((w.shards i).send (.removeReceiver r))).setConn c (.releasing i r) with
      removes := w.removes ++ [(i, r)] } := by
  have hsend := kept_send w h i (.removeReceiver r) rfl
  generalize hv : w.setShard i ((w.shards i).send (.removeReceiver r)) = v at hsend ⊢
  have hpv : v.conns[c]? = some (.leaving i r) := by rw [← hv]; exact hp
  have hqueue : .removeReceiver r ∈ (v.shards i).queue := by
    rw [← hv, setShard_self, ShardTask.send, if_neg (by rw [hthere]; exact Bool.false_ne_true)]
    exact List.mem_append_right _ List.mem_cons_self
  have hrem : v.removes = w.removes := by rw [← hv]; rfl
  have hq := Queues.setConn v hsend.queues c _ (.releasing i r) hpv (fun _ heq => by injection heq)
  have hh := Holds.setConn v hsend.holds c _ (.releasing i r) hpv (by
    intro j q hholds
    have heq : (i, r) = (j, q) := Option.some.inj hholds
    rw [Prod.mk.injEq] at heq
    rw [← heq.1, ← heq.2]
    exact Or.inr hqueue)
  refine ⟨?_, ⟨hq.1, hq.2⟩, ⟨hh.1, hh.2⟩⟩
  refine Ledger.move v _ hsend.ledger c (.releasing i r) rfl ⟨?_, ?_⟩ (lt_of_getElem? _ _ _ hpv)
    (fun _ _ => rfl) (fun _ _ => rfl) (fun _ _ => rfl) ?_ hsend.ledger.counter
  · have hb : v.Books c [⟨c, i⟩] [] [⟨c, i, r⟩] := hsend.ledger.settled c _ hpv
    exact ⟨hb.1, hb.2, hb.3⟩
  · exact List.mem_append_right _ List.mem_cons_self
  · intro x hx
    rw [hrem] at hx
    exact List.mem_append_left _ hx

theorem kept_giveBack (w : Daemon F) (h : Kept w) (c i : Nat) (r : RxRef)
    (hp : w.conns[c]? = some (.releasing i r)) : Kept (w.giveBack c i) := by
  have hq := Queues.setConn w h.queues c _ .returned hp (fun _ heq => by injection heq)
  have hh := Holds.setConn w h.holds c _ .returned hp
    (fun j q hholds => absurd hholds (Option.some_ne_none _).symm)
  exact ⟨Ledger.giveBack w h.ledger c i r hp, ⟨hq.1, hq.2⟩, ⟨hh.1, hh.2⟩⟩

end

/-- A shard that takes a message has run the call it makes. -/
theorem call_setShard (solver : Solver F) (w : Daemon F) (i : Nat) (t : ShardTask F)
    (e : State.Event F) : (w.setShard i t).call solver i e =
      w.setShard i { t with state := t.state.step solver e } := by
  unfold Daemon.call
  rw [setShard_self]
  simp only [Daemon.setShard, Function.update_idem]

/-- A message without a reply is done. -/
theorem kept_done (solver : Solver F) (w : Daemon F) (h : Kept w) (i now : Nat) (m : ShardMsg F)
    (queue : List (ShardMsg F)) (hqueue : (w.shards i).queue = m :: queue) (hm : m.conn = none)
    (hhung : (w.shards i).state.hung = false) :
    Kept (w.setShard i { (w.shards i) with
      queue := queue, state := (w.shards i).state.step solver (m.event now) }) where
  ledger := Ledger.setShard w h.ledger i _
  queues := by
    refine Queues.setShard w h.queues i _ ?_
    rw [ShardTask.waiting, ShardTask.waiting, hqueue, List.filterMap_cons_none hm]
  holds := by
    refine Holds.setShard w h.holds i _ (State.sized_step solver _ _ (h.holds.sized i)) ?_
    intro q hq
    rcases State.live_step solver _ (h.holds.sized i) _ q hq with ⟨hlive, hne⟩ | ⟨info, heq, _⟩
    · refine ⟨hlive, fun hrem => ?_⟩
      rw [hqueue] at hrem
      rcases List.mem_cons.mp hrem with rfl | hrem
      · exact absurd rfl (hne hhung)
      · exact hrem
    · -- Only an `AddReceiver` adds, and its reply is waited for.
      cases m with
      | addReceiver info c => exact absurd hm (Option.some_ne_none c)
      | removeReceiver r => injection heq
      | sync r et ot emHex omHex atScaled => injection heq
      | mlat r t mHex atScaled => injection heq
      | clockReset r => injection heq
      | receiverStats r => injection heq

omit [F64Fn F] in
/-- A reply is owed once, so a shard that gives it leaves no queue with the
    connection. -/
theorem Queues.answered (w : Daemon F) (h : Queues w) (i c : Nat) (t : ShardTask F)
    (hp : w.conns[c]? = some (.waiting i none)) (ht : (w.shards i).waiting = c :: t.waiting)
    (j : Nat) : c ∉ ((w.setShard i t).shards j).waiting := by
  intro hc
  by_cases hj : j = i
  · rw [hj, setShard_self] at hc
    have honce := h.once i
    rw [ht, List.nodup_cons] at honce
    exact honce.1 hc
  · rw [setShard_other w i j t hj] at hc
    have hwaits := h.waits j c hc
    rw [hp, Option.some.injEq] at hwaits
    injection hwaits with hij
    exact hj hij.symm

omit [F64Fn F] in
/-- A shard's new slot is held by the connection that is given it, and what was
    held before is held still, by another. -/
theorem Holds.answered (w : Daemon F) (h : Holds w) (i c : Nat) (r : RxRef) (t : ShardTask F)
    (hp : w.conns[c]? = some (.waiting i none)) (hsized : t.state.Sized)
    (hlive : ∀ q, t.state.live q = true → ((w.shards i).state.live q = true ∧
      (.removeReceiver q ∈ (w.shards i).queue → .removeReceiver q ∈ t.queue)) ∨ q = r) :
    Holds ((w.setShard i t).setConn c (.waiting i (some r))) where
  sized j := by
    change ((w.setShard i t).shards j).state.Sized
    by_cases hj : j = i
    · rw [hj, setShard_self]
      exact hsized
    · rw [setShard_other w i j t hj]
      exact h.sized j
  held j q hq := by
    have hq : ((w.setShard i t).shards j).state.live q = true := hq
    have hold : (w.shards j).state.live q = true →
        (.removeReceiver q ∈ (w.shards j).queue → .removeReceiver q ∈
          ((w.setShard i t).shards j).queue) →
        .removeReceiver q ∈ ((w.setShard i t).shards j).queue ∨ ∃ (d : Nat) (p : Phase F),
          ((w.setShard i t).setConn c (.waiting i (some r))).conns[d]? = some p ∧
            p.holds = some (j, q) := by
      intro hbefore hmem
      rcases h.held j q hbefore with hrem | ⟨d, p, hd, hholds⟩
      · exact Or.inl (hmem hrem)
      · refine Or.inr ⟨d, p, ?_, hholds⟩
        rw [setConn_other _ c d _ ?_]
        · exact hd
        · rintro rfl
          rw [hp, Option.some.injEq] at hd
          rw [← hd] at hholds
          exact absurd hholds (Option.some_ne_none _).symm
    by_cases hj : j = i
    · rw [hj, setShard_self] at hq
      rw [hj] at hold ⊢
      rcases hlive q hq with ⟨hbefore, hmem⟩ | hnew
      · refine hold hbefore fun hrem => ?_
        rw [setShard_self]
        exact hmem hrem
      · rw [hnew]
        exact Or.inr ⟨c, _, setConn_self (w.setShard i t) c _ _ hp, rfl⟩
    · rw [setShard_other w i j t hj] at hq
      refine hold hq fun hrem => ?_
      rw [setShard_other w i j t hj]
      exact hrem

/-- An `AddReceiver` is done and answered. -/
theorem kept_added (solver : Solver F) (w : Daemon F) (h : Kept w) (i c : Nat)
    (info : ReceiverInfo F) (queue : List (ShardMsg F))
    (hqueue : (w.shards i).queue = .addReceiver info c :: queue) :
    Kept ((w.setShard i { (w.shards i) with
      queue := queue, state := (w.shards i).state.step solver (.add info) }).answer i c
        ((w.shards i).state.addReceiver info).2) := by
  have hwaiting : (w.shards i).waiting = c :: queue.filterMap ShardMsg.conn := by
    rw [ShardTask.waiting, hqueue]
    rfl
  have hp : w.conns[c]? = some (.waiting i none) := by
    refine h.queues.waits i c ?_
    rw [hwaiting]
    exact List.mem_cons_self
  generalize hr : ((w.shards i).state.addReceiver info).2 = r
  generalize ht : ({ (w.shards i) with
    queue := queue, state := (w.shards i).state.step solver (.add info) } : ShardTask F) = t
  have htwait : (w.shards i).waiting = c :: t.waiting := by rw [hwaiting, ← ht]; rfl
  have hq := Queues.setShard w h.queues i t (by rw [htwait]; exact List.sublist_cons_self _ _)
  have hledger := Ledger.answer (w.setShard i t) (Ledger.setShard w h.ledger i t) i c r hp
  have hanswer : (w.setShard i t).answer i c r = { (w.setShard i t).setConn c (.waiting i (some r))
      with adds := w.adds ++ [⟨c, i, r⟩] } := by
    unfold Daemon.answer
    have hp' : (w.setShard i t).conns[c]? = some (.waiting i none) := hp
    rw [hp']
    rfl
  have hholds : Holds ((w.setShard i t).setConn c (.waiting i (some r))) := by
    refine Holds.answered w h.holds i c r t hp ?_ fun q hlive => ?_
    · rw [← ht]
      exact State.sized_step solver _ (.add info) (h.holds.sized i)
    · rw [← ht] at hlive ⊢
      rcases State.live_step solver _ (h.holds.sized i) _ q hlive with
        ⟨hbefore, _⟩ | ⟨info', heq, hnew⟩
      · refine Or.inl ⟨hbefore, fun hrem => ?_⟩
        rw [hqueue, List.mem_cons] at hrem
        rcases hrem with hrem | hrem
        · injection hrem
        · exact hrem
      · injection heq with heq
        rw [← heq, hr] at hnew
        exact Or.inr hnew
  rw [hanswer] at hledger ⊢
  refine ⟨hledger, ⟨fun j d hd => ?_, hq.once⟩, ⟨hholds.sized, hholds.held⟩⟩
  have hd : d ∈ ((w.setShard i t).shards j).waiting := hd
  have hdc : d ≠ c := fun heq => Queues.answered w h.queues i c t hp htwait j (heq ▸ hd)
  exact (setConn_other (w.setShard i t) c d _ hdc).trans (hq.waits j d hd)

theorem kept_work (solver : Solver F) (w : Daemon F) (h : Kept w) (i now : Nat) :
    Kept (w.work solver i now) := by
  unfold Daemon.work
  by_cases hstuck : (w.shards i).gone = true ∨ (w.shards i).state.hung = true
  · simp only [if_pos hstuck]
    exact h
  · simp only [if_neg hstuck]
    rw [not_or, Bool.not_eq_true, Bool.not_eq_true] at hstuck
    cases hqueue : (w.shards i).queue with
    | nil => exact h
    | cons m queue =>
        simp only [call_setShard]
        cases m with
        | addReceiver info c => exact kept_added solver w h i c info queue hqueue
        | removeReceiver r => exact kept_done solver w h i now _ queue hqueue rfl hstuck.2
        | sync r et ot emHex omHex atScaled =>
            exact kept_done solver w h i now _ queue hqueue rfl hstuck.2
        | mlat r t mHex atScaled => exact kept_done solver w h i now _ queue hqueue rfl hstuck.2
        | clockReset r => exact kept_done solver w h i now _ queue hqueue rfl hstuck.2
        | receiverStats r => exact kept_done solver w h i now _ queue hqueue rfl hstuck.2

theorem kept_sweep (solver : Solver F) (w : Daemon F) (h : Kept w) (i now window : Nat)
    (order : List String) (clock : String → Nat → F) :
    Kept (w.call solver i (.sweep now window order clock)) where
  ledger := Ledger.setShard w h.ledger i _
  queues := Queues.setShard w h.queues i _ (List.Sublist.refl _)
  holds := by
    refine Holds.setShard w h.holds i _ (State.sized_step solver _ (.sweep now window order clock)
      (h.holds.sized i)) ?_
    intro q hq
    rcases State.live_step solver _ (h.holds.sized i) _ q hq with ⟨hlive, _⟩ | ⟨info, heq, _⟩
    · exact ⟨hlive, fun hrem => hrem⟩
    · injection heq

omit [F64Fn F] in
theorem kept_die (w : Daemon F) (h : Kept w) (i : Nat) (s : State F) :
    Kept (w.setShard i ⟨State.new s.shardId s.mlatAdsb s.emitFiltered, [], true⟩) where
  ledger := Ledger.setShard w h.ledger i _
  queues := Queues.setShard w h.queues i _ (List.nil_sublist _)
  holds := by
    refine Holds.setShard w h.holds i _ (State.sized_new _ _ _) ?_
    intro q hq
    exact absurd (State.live_alive _ q hq) Bool.false_ne_true

omit [F64Fn F] in
theorem kept_rates (w : Daemon F) (h : Kept w) (rate : Nat → Nat) :
    Kept { w with router := { w.router with
      shards := fun i => { w.router.shards i with rate := rate i } } } where
  ledger := by
    refine ⟨fun c p hp => ?_, fun c hc => ?_, h.ledger.counter⟩
    · exact Settled.congr w _ c p (h.ledger.settled c p hp) (fun _ _ _ hb => ⟨hb.1, hb.2, hb.3⟩)
        fun _ hx => hx
    · exact ⟨(h.ledger.fresh c hc).1, (h.ledger.fresh c hc).2, (h.ledger.fresh c hc).3⟩
  queues := ⟨h.queues.waits, h.queues.once⟩
  holds := ⟨h.holds.sized, h.holds.held⟩

theorem kept_step (solver : Solver F) (w : Daemon F) (e : Event F) (h : Kept w)
    (hok : w.Succeeds e) : Kept (w.step solver e) := by
  cases e with
  | accept => exact kept_accept w h
  | handshake c hs order =>
      simp only [step]
      split
      · next hp =>
          split
          · exact Kept.setConn w h c _ _ hp (fun _ heq => by injection heq) (fun hb => Or.inl hb)
              (fun i q hholds => absurd hholds (Option.some_ne_none _).symm)
          · next info _ => exact kept_claim w h c info order hp
      · exact h
  | sendAdd c =>
      simp only [step]
      split
      · next i info hp =>
          have hthere := hok i info hp
          rw [if_neg (by rw [hthere]; exact Bool.false_ne_true)]
          exact kept_sendAdd w h c i info hp hthere
      · exact h
  | recvReply c =>
      simp only [step]
      split
      · next i r hp =>
          exact Kept.setConn w h c _ _ hp (fun _ heq => by injection heq with _ hr; injection hr)
            (fun hb => hb) (fun j q hholds => Or.inl hholds)
      · next i hp =>
          rw [if_neg (by rw [hok i hp]; exact Bool.false_ne_true)]
          exact h
      · exact h
  | writeReply c ok =>
      simp only [step]
      split
      · next i r hp =>
          rw [if_pos (hok i r hp)]
          exact Kept.setConn w h c _ _ hp (fun _ heq => by injection heq) (fun hb => hb)
            (fun j q hholds => Or.inl hholds)
      · exact h
  | say c m =>
      simp only [step]
      split
      · next i r _ =>
          refine kept_send w h i _ ?_
          cases m <;> rfl
      · exact h
  | finish c =>
      simp only [step]
      split
      · next i r hp =>
          exact Kept.setConn w h c _ _ hp (fun _ heq => by injection heq) (fun hb => hb)
            (fun j q hholds => Or.inl hholds)
      · exact h
  | sendRemove c =>
      simp only [step]
      split
      · next i r hp =>
          have hthere := hok i r hp
          rw [if_neg (by rw [hthere]; exact Bool.false_ne_true)]
          exact kept_sendRemove w h c i r hp hthere
      · exact h
  | release c =>
      simp only [step]
      split
      · next i r hp => exact kept_giveBack w h c i r hp
      · exact h
  | rates rate => exact kept_rates w h rate
  | work i now => exact kept_work solver w h i now
  | sweep i now window order clock =>
      simp only [step]
      split_ifs
      · exact h
      · exact kept_sweep solver w h i now window order clock
  | die i => exact kept_die w h i _

section

omit [F64Fn F]

/-- A returned connection has given its claim back once and has its reference
    removed. -/
theorem Ledger.returned (w : Daemon F) (h : Ledger w) (c i : Nat)
    (hp : w.conns[c]? = some .returned) (hclaim : ⟨c, i⟩ ∈ w.claims) :
    w.claims.count ⟨c, i⟩ = 1 ∧ w.releases.count ⟨c, i⟩ = 1 ∧
      ∀ g ∈ w.adds, g.conn = c → (g.shard, g.rx) ∈ w.removes := by
  have hmem : ⟨c, i⟩ ∈ w.claims.filter (fun x => x.conn = c) :=
    List.mem_filter.mpr ⟨hclaim, decide_eq_true rfl⟩
  rcases h.settled c _ hp with hb | ⟨j, r, hb, hrem⟩
  · rw [hb.claims] at hmem
    exact absurd hmem List.not_mem_nil
  · rw [hb.claims, List.mem_singleton, Claim.mk.injEq] at hmem
    rw [← count_filter_conn w.claims ⟨c, i⟩, ← count_filter_conn w.releases ⟨c, i⟩, hb.claims,
      hb.releases, hmem.2]
    refine ⟨List.count_singleton_self, List.count_singleton_self, ?_⟩
    intro g hg hgc
    have hgmem : g ∈ w.adds.filter (fun x => x.conn = c) :=
      List.mem_filter.mpr ⟨hg, decide_eq_true hgc⟩
    rw [hb.adds, List.mem_singleton] at hgmem
    rw [hgmem]
    exact hrem

/-- When all connections have returned, the counters are zero. -/
theorem Ledger.all_returned (w : Daemon F) (h : Ledger w) (hall : ∀ p ∈ w.conns, p = .returned)
    (i : Nat) : (w.router.shards i).receivers = 0 := by
  have hperm : w.claims.Perm w.releases := by
    rw [List.perm_iff_count]
    intro x
    rw [← count_filter_conn w.claims x, ← count_filter_conn w.releases x]
    cases hp : w.conns[x.conn]? with
    | none =>
        have hb := h.fresh x.conn (List.getElem?_eq_none_iff.mp hp)
        rw [hb.claims, hb.releases]
    | some p =>
        rw [hall p (List.mem_of_getElem? hp)] at hp
        rcases h.settled x.conn _ hp with hb | ⟨j, r, hb, _⟩
        · rw [hb.claims, hb.releases]
        · rw [hb.claims, hb.releases]
  have hi := h.counter i
  rw [hperm.countP_eq] at hi
  omega

/-- When all connections have returned, a shard that has worked off its queue has
    no live slot. -/
theorem Holds.all_returned (w : Daemon F) (h : Holds w) (hall : ∀ p ∈ w.conns, p = .returned)
    (i : Nat) (hqueue : (w.shards i).queue = []) : (w.shards i).state.liveReceivers = 0 := by
  refine State.liveReceivers_eq_zero _ (h.sized i) fun q => ?_
  rw [← Bool.not_eq_true]
  intro hq
  rcases h.held i q hq with hrem | ⟨c, p, hp, hholds⟩
  · rw [hqueue] at hrem
    exact absurd hrem List.not_mem_nil
  · rw [hall p (List.mem_of_getElem? hp)] at hholds
    exact absurd hholds (Option.some_ne_none _).symm

end

/-- In every run whose activations find their shard and can write their reply, a
    returned activation has given its claim back once and had its reference
    removed; when all have returned, every counter is zero and no shard that has
    worked off its queue has a live slot. -/
theorem claims_released (solver : Solver F) (nShards : Nat) (hpos : 0 < nShards) (baseDeg : F)
    (cap : Nat) (mlatAdsb emitFiltered : Bool) (es : List (Event F)) (w : Daemon F)
    (hw : w = exec (step solver) (Daemon.new nShards hpos baseDeg cap mlatAdsb emitFiltered) es)
    (h : Along (step solver) Succeeds
      (Daemon.new nShards hpos baseDeg cap mlatAdsb emitFiltered) es) :
    (∀ c i, w.conns[c]? = some .returned → ⟨c, i⟩ ∈ w.claims →
      w.claims.count ⟨c, i⟩ = 1 ∧ w.releases.count ⟨c, i⟩ = 1 ∧
        ∀ g ∈ w.adds, g.conn = c → (g.shard, g.rx) ∈ w.removes) ∧
    ((∀ p ∈ w.conns, p = .returned) → ∀ i, (w.router.shards i).receivers = 0 ∧
      ((w.shards i).queue = [] → (w.shards i).state.liveReceivers = 0)) := by
  have hkept : Kept w := by
    rw [hw]
    exact Along.invariant (step solver) Succeeds Kept (kept_step solver) _ es
      (kept_new nShards hpos baseDeg cap mlatAdsb emitFiltered) h
  refine ⟨fun c i hp hclaim => hkept.ledger.returned w c i hp hclaim, fun hall i => ⟨?_, ?_⟩⟩
  · exact hkept.ledger.all_returned w hall i
  · exact hkept.holds.all_returned w hall i

/-- A handshake the server accepts. -/
def exampleHandshake : Handshake ℚ :=
  { compress := ["none"], lat := some 48, lon := some 2, alt := some 100
    clockType := some "dump1090", user := some "a" }

/-- A connection up to the write of its reply, on a server with one shard. -/
def exampleConnect (ok : Bool) : List (Event ℚ) :=
  [.accept, .handshake 0 (some exampleHandshake) [], .sendAdd 0, .work 0 0, .recvReply 0,
    .writeReply 0 ok]

/-- The rest of a connection, and the shard's work on its removal. -/
def exampleLeave : List (Event ℚ) :=
  [.finish 0, .sendRemove 0, .release 0, .work 0 0]

/-- The server such events lead to. -/
def exampleDaemon (es : List (Event ℚ)) : Daemon ℚ :=
  exec (step Solve.solveRobust) (Daemon.new 1 Nat.one_pos 8 64 true false) es

theorem claims_released_leave :
    (exampleDaemon (exampleConnect true ++ exampleLeave)).claims = [⟨0, 0⟩] ∧
      (exampleDaemon (exampleConnect true ++ exampleLeave)).releases.count ⟨0, 0⟩ = 1 ∧
      ((exampleDaemon (exampleConnect true ++ exampleLeave)).router.shards 0).receivers = 0 := by
  have hclaims : (exampleDaemon (exampleConnect true ++ exampleLeave)).claims = [⟨0, 0⟩] := by
    decide +kernel
  have hconns : (exampleDaemon (exampleConnect true ++ exampleLeave)).conns = [.returned] := rfl
  have hmain := claims_released Solve.solveRobust 1 Nat.one_pos 8 64 true false
    (exampleConnect true ++ exampleLeave) (exampleDaemon (exampleConnect true ++ exampleLeave)) rfl (by
      refine ⟨trivial, trivial, fun i info hp => ?_, trivial, fun i hp => ?_, fun _ _ _ => rfl,
        trivial, fun i r hp => ?_, trivial, trivial, trivial⟩
      · rfl
      · have hp : some (Phase.waiting (F := ℚ) 0 (some ⟨0, 0⟩)) = some (.waiting i none) := hp
        rw [Option.some.injEq, Phase.waiting.injEq] at hp
        exact absurd hp.2 (Option.some_ne_none _)
      · have hp : some (Phase.leaving (F := ℚ) 0 ⟨0, 0⟩) = some (.leaving i r) := hp
        rw [Option.some.injEq, Phase.leaving.injEq] at hp
        rw [← hp.1]
        rfl)
  refine ⟨hclaims, (hmain.1 0 0 (by rw [hconns]; rfl) ?_).2.1, (hmain.2 ?_ 0).1⟩
  · rw [hclaims]
    exact List.mem_cons_self
  · rw [hconns]
    exact fun p hp => List.mem_singleton.mp hp

/-- The handshake reply cannot be written: the activation returns, and its claim
    and its slot stay. -/
theorem failed_reply_leaks :
    (exampleDaemon (exampleConnect false)).conns = [.returned] ∧
      (exampleDaemon (exampleConnect false)).claims = [⟨0, 0⟩] ∧
      (exampleDaemon (exampleConnect false)).releases = [] ∧
      (exampleDaemon (exampleConnect false)).adds.length = 1 ∧
      (exampleDaemon (exampleConnect false)).removes = [] ∧
      ((exampleDaemon (exampleConnect false)).router.shards 0).receivers = 1 ∧
      ((exampleDaemon (exampleConnect false)).shards 0).queue = [] ∧
      ((exampleDaemon (exampleConnect false)).shards 0).state.liveReceivers = 1 := by
  refine ⟨rfl, ?_, ?_, ?_, ?_, ?_, rfl, ?_⟩
  · decide +kernel
  · decide +kernel
  · decide +kernel
  · decide +kernel
  · decide +kernel
  · decide +kernel

end Daemon

end Server

end MlatBench
