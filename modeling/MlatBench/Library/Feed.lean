import MlatBench.Library.Broadcast

/-!
# Writing What Is Broadcast

A task that takes the values of a broadcast one by one and writes them to a socket,
each as its bytes if it has any, and may write something else in between. It ends when
its next value is gone, and when a write fails, which may have brought the first of the
bytes.

So what was written is the values the task took, each as its bytes, up to the write
that failed (`Feed.Sound`), and a task that is not behind and whose socket holds
writes all of them in turns enough (`turns_all`).

## Main definitions

* `Feed`: The task.
* `Feed.turn`, `Feed.fill`: A value, or something in between.
* `Feed.Sound`: What was written is what was taken.

## Theorems

* `Sound.turn`, `Sound.fill`: What a task does keeps it sound.
* `Sound.rows`: A task that writes nothing in between.
* `turn_stopped`, `turn_stopped_iff`: Who ends.
* `turns_all`: Turns enough.
-/

namespace MlatBench

namespace Library

/-- A task: what it listens to, what it wrote, and whether its socket has failed. -/
structure Feed (α β : Type*) where
  listener : Listener α
  wire : List β
  failed : Bool

namespace Feed

variable {α β : Type*}

/-- A task starts at the end of the log. -/
def join (log : List α) : Feed α β :=
  ⟨Listener.join log, [], false⟩

/-- The task has ended. -/
def stopped (f : Feed α β) : Bool :=
  f.failed || f.listener.ended

/-- Something is written; `cut` says behind how much of it that fails. -/
def write (f : Feed α β) (bytes : List β) (cut : Option Nat) : Feed α β :=
  match cut with
  | none => { f with wire := f.wire ++ bytes }
  | some k => { f with wire := f.wire ++ bytes.take k, failed := true }

/-- The task takes the next value, if there is one, and writes it, if it can be. -/
def turn (slots : Nat) (log : List α) (put : α → Option (List β)) (cut : Option Nat)
    (f : Feed α β) : Feed α β :=
  if f.failed then f
  else
    let listener := f.listener.recv slots log
    match listener.got[f.listener.got.length]?.bind put with
    | none => { f with listener := listener }
    | some bytes => { f with listener := listener }.write bytes cut

/-- Something is written in between. -/
def fill (bytes : List β) (cut : Option Nat) (f : Feed α β) : Feed α β :=
  if f.stopped then f else f.write bytes cut

/-- The bytes of a value, or what is written in between. -/
def piece (put : α → Option (List β)) (filler : Option (List β)) : Option α → List β
  | none => filler.getD []
  | some a => (put a).getD []

/-- The task got a part of the log without gaps, and wrote that, with fillers in between
    if it has one, up to a write that failed. -/
structure Sound (log : List α) (put : α → Option (List β)) (filler : Option (List β))
    (f : Feed α β) : Prop where
  follows : f.listener.Follows log
  wrote : ∃ units : List (Option α), units.filterMap id = f.listener.got ∧
    (filler = none → none ∉ units) ∧ f.wire <+: units.flatMap (piece put filler) ∧
    (f.failed = false → f.wire = units.flatMap (piece put filler))

section

variable (put : α → Option (List β)) (filler : Option (List β))

theorem sound_join (log : List α) : (join log : Feed α β).Sound log put filler where
  follows := Listener.follows_join log
  wrote := ⟨[], rfl, fun _ => List.not_mem_nil, List.prefix_refl _, fun _ => rfl⟩

/-- More is sent. -/
theorem Sound.append (log more : List α) (f : Feed α β) (h : f.Sound log put filler) :
    f.Sound (log ++ more) put filler :=
  ⟨h.follows.append log more f.listener, h.wrote⟩

/-- One more piece is written. -/
theorem Sound.write (log : List α) (f : Feed α β) (h : f.Sound log put filler)
    (hgo : f.failed = false) (listener : Listener α) (hl : listener.Follows log) (u : Option α)
    (hgot : listener.got = f.listener.got ++ u.toList) (hu : filler = none → u ≠ none)
    (cut : Option Nat) :
    ({ f with listener := listener }.write (piece put filler u) cut).Sound log put filler := by
  rcases h.wrote with ⟨units, hunits, hvalues, -, hwire⟩
  have hgots : (units ++ [u]).filterMap id = listener.got := by
    rw [List.filterMap_append, hunits, hgot]
    cases u <;> rfl
  have hpieces : (units ++ [u]).flatMap (piece put filler) = f.wire ++ piece put filler u := by
    rw [List.flatMap_append, hwire hgo, List.flatMap_singleton]
  have hnone : filler = none → none ∉ units ++ [u] := by
    intro hfiller hin
    rcases List.mem_append.mp hin with hin | hin
    · exact hvalues hfiller hin
    · exact hu hfiller (List.mem_singleton.mp hin).symm
  -- No write had failed, so the wire held all the pieces; a write that fails leaves the
  -- last one cut.
  cases cut with
  | none =>
      refine ⟨hl, units ++ [u], hgots, hnone, ?_, fun _ => hpieces.symm⟩
      rw [hpieces]
      exact List.prefix_refl _
  | some k =>
      refine ⟨hl, units ++ [u], hgots, hnone, ?_, fun hno => Bool.noConfusion hno⟩
      rw [hpieces]
      exact (List.prefix_append_right_inj f.wire).mpr (List.take_prefix k _)

/-- A turn. -/
theorem Sound.turn (slots : Nat) (log : List α) (cut : Option Nat) (f : Feed α β)
    (h : f.Sound log put filler) : (f.turn slots log put cut).Sound log put filler := by
  unfold Feed.turn
  by_cases hfailed : f.failed = true
  · rw [if_pos hfailed]
    exact h
  · rw [if_neg hfailed]
    have hgo := Bool.eq_false_iff.mpr hfailed
    have hfollows := h.follows.recv slots log f.listener
    have hgot := f.listener.recv_got slots log
    simp only []
    generalize f.listener.recv slots log = listener at hfollows hgot ⊢
    cases hnew : listener.got[f.listener.got.length]? with
    | none =>
        -- Nothing new, or the listener has ended.
        rw [hnew, Option.toList_none, List.append_nil] at hgot
        rcases h.wrote with ⟨units, hunits, hrest⟩
        exact ⟨hfollows, units, hunits.trans hgot.symm, hrest⟩
    | some a =>
        rw [hnew] at hgot
        have hwrite := h.write put filler log f hgo listener hfollows (some a) hgot
          fun _ => Option.some_ne_none a
        rw [Option.bind_some]
        cases hbytes : put a with
        | none =>
            -- Nothing is written of a value that has no bytes.
            have hnil : piece put filler (some a) = [] := by rw [piece, hbytes]; rfl
            have hnone := hwrite none
            rw [hnil, Feed.write] at hnone
            simp only [List.append_nil] at hnone
            exact hnone
        | some bytes =>
            have hpiece : piece put filler (some a) = bytes := by rw [piece, hbytes]; rfl
            rw [← hpiece]
            exact hwrite cut

theorem Sound.turns (slots : Nat) (log : List α) (f : Feed α β) (h : f.Sound log put filler)
    (n : Nat) : ((Feed.turn slots log put none)^[n] f).Sound log put filler := by
  induction n generalizing f with
  | zero => exact h
  | succ n ih =>
      rw [Function.iterate_succ_apply]
      exact ih _ (h.turn put filler slots log none f)

/-- Something in between. -/
theorem Sound.fill (log : List α) (bytes : List β) (cut : Option Nat) (f : Feed α β)
    (h : f.Sound log put (some bytes)) : (f.fill bytes cut).Sound log put (some bytes) := by
  unfold Feed.fill
  by_cases hstopped : f.stopped = true
  · rw [if_pos hstopped]
    exact h
  · rw [if_neg hstopped]
    have hgo : f.failed = false := (Bool.or_eq_false_iff.mp (Bool.eq_false_iff.mpr hstopped)).1
    exact h.write put (some bytes) log f hgo f.listener h.follows none (List.append_nil _).symm
      (fun hnone => absurd hnone (Option.some_ne_none bytes)) cut

/-- Values only. -/
theorem eq_map_some (units : List (Option α)) (h : none ∉ units) :
    units = (units.filterMap id).map some := by
  induction units with
  | nil => rfl
  | cons u units ih =>
      rw [List.mem_cons, not_or] at h
      cases u with
      | none => exact absurd rfl h.1
      | some a => exact congrArg (some a :: ·) (ih h.2)

/-- Without a filler the wire has what the task got. -/
theorem Sound.rows (log : List α) (f : Feed α β) (h : f.Sound log put none) :
    f.wire <+: (f.listener.got.flatMap fun a => (put a).getD []) ∧
      (f.failed = false → f.wire = f.listener.got.flatMap fun a => (put a).getD []) := by
  rcases h.wrote with ⟨units, hunits, hvalues, hpre, hwire⟩
  have hpieces : units.flatMap (piece put none) =
      f.listener.got.flatMap fun a => (put a).getD [] := by
    rw [eq_map_some units (hvalues rfl), hunits, List.flatMap_map]
    rfl
  rw [hpieces] at hpre hwire
  exact ⟨hpre, hwire⟩

end

section

variable (slots : Nat) (log : List α) (put : α → Option (List β))

/-- A task that has ended does nothing. -/
theorem turn_stopped (cut : Option Nat) (f : Feed α β) (h : f.stopped = true) :
    f.turn slots log put cut = f := by
  unfold turn
  by_cases hfailed : f.failed = true
  · exact if_pos hfailed
  · have hended : f.listener.ended = true := by
      rw [stopped, Bool.or_eq_true] at h
      exact h.resolve_left hfailed
    have hrecv : f.listener.recv slots log = f.listener := if_pos hended
    rw [if_neg hfailed]
    simp only [hrecv]
    rw [List.getElem?_eq_none (Nat.le_refl _), Option.bind_none]

/-- A task ends at a turn just when its next value is gone, or when there is something
    to write and that fails. -/
theorem turn_stopped_iff (cut : Option Nat) (f : Feed α β) (h : f.stopped = false) :
    (f.turn slots log put cut).stopped = true ↔ f.listener.next + slots < log.length ∨
      cut.isSome = true ∧ (log[f.listener.next]?.bind put).isSome = true := by
  rcases Bool.or_eq_false_iff.mp h with ⟨hgo, hended⟩
  unfold turn
  rw [if_neg (by rw [hgo]; exact Bool.false_ne_true)]
  by_cases hlag : f.listener.next + slots < log.length
  · -- The next value is gone.
    have hrecv : f.listener.recv slots log = { f.listener with ended := true } := by
      unfold Listener.recv
      rw [if_neg (by rw [hended]; exact Bool.false_ne_true), if_pos hlag]
    simp only [hrecv]
    rw [List.getElem?_eq_none (Nat.le_refl _), Option.bind_none]
    exact iff_of_true (Bool.or_true _) (Or.inl hlag)
  · -- The listener goes on, so only a write can end the task.
    have hrecv : f.listener.recv slots log =
        { f.listener with got := f.listener.got ++ log[f.listener.next]?.toList } := by
      unfold Listener.recv
      rw [if_neg (by rw [hended]; exact Bool.false_ne_true), if_neg hlag]
    have hnew : (f.listener.got ++ log[f.listener.next]?.toList)[f.listener.got.length]? =
        log[f.listener.next]? := by
      rw [List.getElem?_append_right (Nat.le_refl _), Nat.sub_self]
      cases log[f.listener.next]? <;> rfl
    simp only [hrecv, hnew]
    cases log[f.listener.next]?.bind put with
    | none =>
        refine iff_of_false ?_ (not_or.mpr ⟨hlag, fun hand => Bool.noConfusion hand.2⟩)
        simp only [stopped, hgo, hended]
        decide
    | some bytes =>
        cases cut with
        | none =>
            refine iff_of_false ?_ (not_or.mpr ⟨hlag, fun hand => Bool.noConfusion hand.1⟩)
            simp only [write, stopped, hgo, hended]
            decide
        | some k => exact iff_of_true rfl (Or.inr ⟨rfl, rfl⟩)

/-- Turns of a task whose socket holds are turns of its listener. -/
theorem iterate_turn (n : Nat) (f : Feed α β) (hgo : f.failed = false) :
    ((turn slots log put none)^[n] f).listener = (Listener.recv slots log)^[n] f.listener ∧
      ((turn slots log put none)^[n] f).failed = false := by
  induction n generalizing f with
  | zero => exact ⟨rfl, hgo⟩
  | succ n ih =>
      have hturn : (f.turn slots log put none).failed = false ∧
          (f.turn slots log put none).listener = f.listener.recv slots log := by
        unfold turn
        rw [if_neg (by rw [hgo]; exact Bool.false_ne_true)]
        simp only []
        split
        · exact ⟨hgo, rfl⟩
        · exact ⟨hgo, rfl⟩
      rw [Function.iterate_succ_apply, Function.iterate_succ_apply, ← hturn.2]
      exact ih _ hturn.1

/-- A task that is not behind by more than is kept, and whose socket holds, gets and
    writes everything. -/
theorem turns_all (filler : Option (List β)) (f : Feed α β) (h : f.Sound log put filler)
    (hstopped : f.stopped = false) (hnear : log.length ≤ f.listener.next + slots) :
    ((turn slots log put none)^[slots] f).Sound log put filler ∧
      ((turn slots log put none)^[slots] f).failed = false ∧
      ((turn slots log put none)^[slots] f).listener.got = log.drop f.listener.joined := by
  rcases Bool.or_eq_false_iff.mp hstopped with ⟨hgo, hended⟩
  rcases iterate_turn slots log put slots f hgo with ⟨hlistener, hfailed⟩
  refine ⟨?_, hfailed, ?_⟩
  · exact h.turns put filler slots log f slots
  · rw [hlistener]
    exact Listener.recv_all slots log f.listener h.follows hended hnear _ hnear

end

end Feed

end Library

end MlatBench
