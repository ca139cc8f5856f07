import MlatBench.Core.Uploads
import MlatBench.Library.Batches
import MlatBench.Theory.Batch
import MlatBench.Theory.Engine
import MlatBench.Theory.Epochs
import MlatBench.Theory.Returns

/-!
# Messages Go Up in Order

`Core.Link` has the engine and the shard talk over a channel that keeps its order
and loses nothing. Here that channel is what the programs make of it: a queue, a
session that writes lines or compressed frames, a connection that may break behind
any byte, and a reader that takes what arrives in pieces.

What was written is a first part of what the session means to write, and that holds
the lines of the messages taken. So the lines the message loop has looked at are
always the first of those. Nothing else is lost on the way, unless the queue is full
or a timer of the server drops a read that has begun.

## Main definitions

* `Writer.Sound`: What was written, and the lines in it.
* `Uploads.Flow`: The invariant.
* `Uploads.flying`: The messages on their way.
* `Uploads.Shows`: A link shows the session without its bytes.

## Theorems

* `Writer.step_sound`: A turn of the session.
* `Writer.stream_lines`: The lines in what has arrived.
* `Uploads.flow_run`: A run.
* `Uploads.heard_in_order`: What the server hears.
* `Uploads.link_refined`: The channel of `Core.Link`.
-/

namespace MlatBench

open Library F64 F64Fn Server Client Framing Proto

namespace Server

theorem linesOut_mono {σ : Type} (inflate : Library.Calls UInt8 UInt8 σ) (fuel : Nat) (framed : Bool)
    (fs gs : List (List UInt8)) (h : fs <+: gs) :
    linesOut inflate fuel framed fs <+: linesOut inflate fuel framed gs := by
  unfold linesOut
  split_ifs
  · rcases h with ⟨more, rfl⟩
    exact (decodeFrames_append inflate fuel inflate.start fs more).flatMap _
  · exact h

theorem cut_line (l : List UInt8) (h : newline ∉ l) :
    cut (complete false) [] (l ++ [newline]) = ([l ++ [newline]], []) := by
  have hsegs := Downlink.segments_text [l] fun l' hl' => by rwa [List.mem_singleton.mp hl']
  rw [text_singleton] at hsegs
  refine cut_unit (complete false) [] _ (List.concat_ne_nil newline l) ?_ fun ys hne hpre hys => ?_
  · rw [List.nil_append, complete_plain, List.getLast?_concat]
  · rw [List.nil_append, ← Bool.not_eq_true, complete_plain]
    intro hlast
    -- A proper part of the line does not end in a newline.
    rcases List.prefix_concat_iff.mp hpre with heq | hl
    · exact hys heq
    · exact h (hl.subset (List.mem_of_getLast? hlast))

/-- A part of some lines stops within one of them, if not at the end of one. -/
theorem cut_text (ls : List (List UInt8)) (h : ∀ l ∈ ls, newline ∉ l) (p : List UInt8)
    (hp : p <+: text ls) :
    (cut (complete false) [] p).2 = [] ∨ ∃ l ∈ ls, (cut (complete false) [] p).2 <+: l := by
  induction ls generalizing p with
  | nil =>
      rw [List.prefix_nil.mp hp]
      exact Or.inl rfl
  | cons l ls ih =>
      have htext : text (l :: ls) = (l ++ [newline]) ++ text ls := by
        rw [← List.singleton_append, text_append, text_singleton]
      rw [htext] at hp
      by_cases hlen : p.length ≤ l.length
      · -- The first line is not complete.
        have hpl : p <+: l := List.prefix_of_prefix_length_le hp
          ((List.prefix_append l [newline]).trans (List.prefix_append _ _)) hlen
        have hopen : cut (complete false) [] p = ([], [] ++ p) := by
          refine cut_open (complete false) [] p fun ys _ hys => ?_
          rw [List.nil_append, ← Bool.not_eq_true, complete_plain]
          intro hlast
          exact h l List.mem_cons_self ((hys.trans hpl).subset (List.mem_of_getLast? hlast))
        rw [hopen]
        exact Or.inr ⟨l, List.mem_cons_self, hpl⟩
      · have hlp : l ++ [newline] <+: p := by
          refine List.prefix_of_prefix_length_le (List.prefix_append _ _) hp ?_
          rw [List.length_append, List.length_singleton]
          omega
        rcases hlp with ⟨q, rfl⟩
        rw [cut_append, cut_line l (h l List.mem_cons_self)]
        rcases ih (fun l' hl' => h l' (List.mem_cons_of_mem l hl')) q
          ((List.prefix_append_right_inj _).mp hp) with hnil | ⟨l', hl', hpre⟩
        · exact Or.inl hnil
        · exact Or.inr ⟨l', List.mem_cons_of_mem l hl', hpre⟩

end Server

namespace Client

namespace Writer

variable {τ σ : Type} (toVec : Json → List UInt8) (z : Library.Calls UInt8 UInt8 τ)
  (whole : List UInt8 → Option (List UInt8)) (enough : Nat → Nat) (Text : List UInt8 → Prop)
  (At : τ → List UInt8 → List UInt8 → Prop)

/-- The messages taken are in what the session means to write, of which it has
    written a first part, and all of it while it goes on. -/
structure Sound (s : Writer τ) : Prop where
  framed : s.framed = true →
    ∃ ps gs rest lost, Batching.Carried toVec whole At s.loop ps gs rest lost
  plain : s.framed = false → s.loop.wire = text (s.loop.taken.map (lineOf toVec)) ∧
    s.loop.batch = []
  written : s.sent <+: s.loop.wire
  going : s.finished = false → s.sent = s.loop.wire ∧ s.loop.halted = none

/-- A batch that goes out fits the buffer of the server. -/
def Fits (s : Writer τ) (e : Batching.Event) : Prop :=
  s.framed = true → s.finished = false → s.loop.Fits toVec e

theorem sound_start (h : z.Flushes whole syncTrailer enough Text At) (framed : Bool) :
    Sound toVec whole At (Writer.start z framed) where
  framed _ := ⟨[], [], [], [], rfl, trivial, fun _ hg => absurd hg List.not_mem_nil, rfl, rfl,
    fun _ => ⟨rfl, h.start⟩, fun _ => rfl⟩
  plain _ := ⟨rfl, rfl⟩
  written := List.prefix_refl []
  going _ := ⟨rfl, rfl⟩

theorem sendBatch_wire (s : Batching τ) (fuel : Nat) : s.wire <+: (s.sendBatch z fuel).wire := by
  unfold Batching.sendBatch
  split_ifs
  · exact List.prefix_refl _
  · cases encodeFrame z fuel s.enc s.batch with
    | ok frame enc => exact List.prefix_append _ _
    | error e => exact List.prefix_refl _
    | running => exact List.prefix_refl _

/-- A turn only adds to what is taken, and to what is to be written. -/
theorem loopStep_grows (s : Writer τ) (e : Batching.Event) (fuel : Nat) :
    s.loop.taken <+: (s.loopStep toVec z fuel e).taken ∧
      s.loop.wire <+: (s.loopStep toVec z fuel e).wire := by
  unfold loopStep
  split_ifs with hframed
  · refine ⟨Batching.step_taken toVec z s.loop e fuel, ?_⟩
    by_cases hgoing : s.loop.halted = none
    · rcases Batching.step_going toVec z s.loop e fuel hgoing with ⟨-, hstep⟩ |
        ⟨m, s', hstep, hs'⟩
      · rw [hstep]
        exact sendBatch_wire z s.loop fuel
      · have hwire : s.loop.wire <+: s'.wire := by
          rcases hs' with rfl | ⟨-, rfl⟩
          · exact List.prefix_refl _
          · exact sendBatch_wire z s.loop fuel
        rw [hstep]
        split_ifs <;> exact hwire
    · rw [Batching.step_halted toVec z s.loop e fuel hgoing]
  · cases e with
    | message m => exact ⟨List.prefix_append _ _, List.prefix_append _ _⟩
    | flush => exact ⟨List.prefix_refl _, List.prefix_refl _⟩
    | heartbeat => exact ⟨List.prefix_append _ _, List.prefix_append _ _⟩

theorem step_framed (s : Writer τ) (e : Batching.Event) (cut : Option Nat) (fuel : Nat) :
    (s.step toVec z fuel e cut).framed = s.framed := by
  unfold step
  split_ifs <;> rfl

theorem step_grows (s : Writer τ) (e : Batching.Event) (cut : Option Nat) (fuel : Nat) :
    s.loop.taken <+: (s.step toVec z fuel e cut).loop.taken ∧
      s.sent <+: (s.step toVec z fuel e cut).sent := by
  unfold step
  split_ifs
  · exact ⟨List.prefix_refl _, List.prefix_refl _⟩
  · exact ⟨(loopStep_grows toVec z s e fuel).1, List.prefix_append _ _⟩

/-- The loop without compression writes the lines of what it takes. -/
theorem plainStep_lines (s : Batching τ) (e : Batching.Event)
    (hs : s.wire = text (s.taken.map (lineOf toVec)) ∧ s.batch = []) :
    (plainStep toVec s e).wire = text ((plainStep toVec s e).taken.map (lineOf toVec)) ∧
      (plainStep toVec s e).batch = [] := by
  have hline : ∀ m, s.wire ++ toLine toVec m = text ((s.taken ++ [m]).map (lineOf toVec)) := by
    intro m
    rw [List.map_append, text_append, hs.1, List.map_singleton, text_singleton]
    rfl
  cases e with
  | message m => exact ⟨hline m, hs.2⟩
  | flush => exact hs
  | heartbeat => exact ⟨hline .heartbeat, hs.2⟩

/-- A turn of the session. -/
theorem step_sound (h : z.Flushes whole syncTrailer enough Text At)
    (henough : ∀ k ≤ 64 * 1024, enough k ≤ k + 1024) (s : Writer τ) (e : Batching.Event)
    (cut : Option Nat) (fuel : Nat) (hfits : s.Fits toVec e)
    (htext : ∀ ls, ls <+: (s.step toVec z (fuel + 1) e cut).loop.taken.map (lineOf toVec) →
      Text (text ls))
    (hs : Sound toVec whole At s) : Sound toVec whole At (s.step toVec z (fuel + 1) e cut) := by
  unfold step at htext ⊢
  by_cases hover : s.finished = true
  · rw [if_pos hover] at htext ⊢
    exact hs
  · rw [if_neg hover] at htext ⊢
    rw [Bool.not_eq_true] at hover
    have hwire := (loopStep_grows toVec z s e (fuel + 1)).2
    have hall : s.loop.wire ++ (s.loopStep toVec z (fuel + 1) e).wire.drop s.loop.wire.length =
        (s.loopStep toVec z (fuel + 1) e).wire := by
      rcases hwire with ⟨bytes, hbytes⟩
      rw [← hbytes, List.drop_left]
    have hsent := (hs.going hover).1
    refine ⟨fun hframed => ?_, fun hframed => ?_, ?_, fun hgo => ?_⟩
    · have hframed : s.framed = true := hframed
      have hloop : s.loopStep toVec z (fuel + 1) e = s.loop.step toVec z (fuel + 1) e :=
        if_pos hframed
      simp only [hloop] at htext ⊢
      exact Batching.step_carried toVec z whole enough Text At h henough s.loop e fuel
        (hfits hframed hover) htext (hs.framed hframed)
    · have hframed : s.framed = false := hframed
      have hloop : s.loopStep toVec z (fuel + 1) e = plainStep toVec s.loop e :=
        if_neg (by rw [hframed]; exact Bool.false_ne_true)
      simp only [hloop]
      exact plainStep_lines toVec s.loop e (hs.plain hframed)
    · simp only []
      rw [hsent]
      conv => rhs; rw [← hall]
      rw [List.prefix_append_right_inj]
      cases cut with
      | none => exact List.prefix_refl _
      | some k => exact List.take_prefix _ _
    · have hgo : (cut.isSome || (s.loopStep toVec z (fuel + 1) e).halted.isSome) = false := hgo
      rw [Bool.or_eq_false_iff, Option.isSome_eq_false_iff, Option.isNone_iff_eq_none,
        Option.isSome_eq_false_iff, Option.isNone_iff_eq_none] at hgo
      obtain ⟨rfl, hhalted⟩ := hgo
      exact ⟨by simp only [hsent, hall], hhalted⟩

/-- What has arrived is a first part of what was written: the server can read it, and
    its lines are the first of those taken. -/
theorem stream_lines (inflate : Library.Calls UInt8 UInt8 σ)
    (AtD : σ → List UInt8 → List UInt8 → Prop) (hgrows : Grows whole)
    (hinflate : inflate.Meets whole AtD) (hlines : ∀ v, newline ∉ toVec v ∧ toVec v ≠ [])
    (n : Nat) (s : Writer τ) (hs : Sound toVec whole At s)
    (hshort : s.framed = false → ∀ m ∈ s.loop.taken, (lineOf toVec m).length < lineLimit)
    (stream : List UInt8) (hstream : stream <+: s.loop.wire) :
    Uplink.Valid (decodes inflate (n + 2)) s.framed stream ∧
      linesOut inflate (n + 2) s.framed (segments (complete s.framed) stream) <+:
        s.loop.taken.map (fun m => Link.lineFor s.framed (lineOf toVec m)) ∧
      (stream = s.loop.wire → s.loop.batch = [] →
        linesOut inflate (n + 2) s.framed (segments (complete s.framed) stream) =
          s.loop.taken.map fun m => Link.lineFor s.framed (lineOf toVec m)) := by
  cases hf : s.framed with
  | true =>
      rcases hs.framed hf with ⟨ps, gs, rest, lost, hc⟩
      have hframes : segments (complete true) s.loop.wire = ps.map frameOf := by
        rw [hc.wire]
        exact segments_frames ps (hc.carry.payload whole [] [] ps (gs.map text))
      have hseg : segments (complete true) stream <+: ps.map frameOf := by
        rcases hstream with ⟨later, hlater⟩
        rw [← hframes, ← hlater]
        exact segments_isPrefix (complete true) stream later
      have hseen : linesOut inflate (n + 2) true (segments (complete true) stream) =
          (gs.take (segments (complete true) stream).length).flatten :=
        (if_pos rfl).trans (Batching.linesSeen_prefix toVec whole At inflate AtD hgrows hinflate
          (n + 2) (Nat.le_add_left 2 n) hlines s.loop ps gs rest lost hc _ hseg)
      have hall : s.loop.taken.map (fun m => Link.lineFor true (lineOf toVec m)) =
          gs.flatten ++ rest ++ lost := hc.taken
      refine ⟨Batching.valid_frames toVec whole At inflate AtD hgrows hinflate (n + 2)
        (Nat.le_add_left 2 n) s.loop ps gs rest lost hc stream hseg, ?_, fun heq hbatch => ?_⟩
      · rw [hseen, hall, List.append_assoc]
        conv => rhs; rw [← List.take_append_drop (segments (complete true) stream).length gs,
          List.flatten_append, List.append_assoc]
        exact List.prefix_append _ _
      · have hrest : rest = [] := by
          by_contra hne
          exact text_ne_nil rest hne (hc.batch.symm.trans hbatch)
        have hcount : (ps.map frameOf).length = gs.length := by
          rw [List.length_map, hc.carry.length whole [] [] ps, List.length_map]
        rw [hseen, hall, hrest, hc.stuck hrest, heq, hframes, hcount, List.take_length,
          List.append_nil, List.append_nil]
  | false =>
      have hwire := (hs.plain hf).1
      have hone : ∀ l ∈ s.loop.taken.map (lineOf toVec), newline ∉ l := by
        intro l hl
        rcases List.mem_map.mp hl with ⟨m, _, rfl⟩
        exact (hlines m.toJson).1
      have hsegs : segments (complete false) s.loop.wire =
          s.loop.taken.map fun m => Link.lineFor false (lineOf toVec m) := by
        rw [hwire, Downlink.segments_text _ hone, List.map_map]
        rfl
      refine ⟨⟨fun _ p hp => ?_, fun hno => Bool.noConfusion hno⟩, ?_, fun heq _ => ?_⟩
      · -- What is left over is a part of a line that is taken.
        rcases cut_text _ hone p (hwire ▸ hp.trans hstream) with hnil | ⟨l, hl, hpre⟩
        · rw [hnil]
          decide
        · rcases List.mem_map.mp hl with ⟨m, hm, rfl⟩
          exact Nat.lt_of_le_of_lt hpre.length_le (hshort hf m hm)
      · rcases hstream with ⟨later, hlater⟩
        rw [← hsegs, ← hlater]
        exact segments_isPrefix (complete false) stream later
      · rw [heq, ← hsegs]
        rfl

/-- The messages a turn of the session takes. -/
def said : Batching.Event → List ClientMsg
  | .message m => [m]
  | .flush => []
  | .heartbeat => [.heartbeat]

theorem loopStep_taken (s : Writer τ) (e : Batching.Event) (fuel : Nat)
    (h : s.loop.halted = none) :
    (s.loopStep toVec z fuel e).taken = s.loop.taken ++ said e := by
  have hnone : s.loop.halted.isSome = false := by rw [h]; rfl
  unfold loopStep
  split_ifs with hframed
  · cases e with
    | message m =>
        unfold Batching.step
        simp only [hnone, Bool.false_eq_true, if_false]
        split_ifs
        · exact Batching.sendBatch_keeps z _ fuel
        · exact Batching.sendBatch_keeps z _ fuel
        · rfl
    | flush =>
        unfold Batching.step
        simp only [hnone, Bool.false_eq_true, if_false]
        exact (Batching.sendBatch_keeps z s.loop fuel).trans (List.append_nil _).symm
    | heartbeat =>
        unfold Batching.step
        simp only [hnone, Bool.false_eq_true, if_false]
        rfl
  · cases e with
    | message m => rfl
    | flush => exact (List.append_nil _).symm
    | heartbeat => rfl

/-- A session that goes on takes its message, one that is over takes nothing. -/
theorem step_taken (s : Writer τ) (hs : Sound toVec whole At s) (e : Batching.Event)
    (cut : Option Nat) (fuel : Nat) :
    (s.step toVec z fuel e cut).loop.taken =
      s.loop.taken ++ if s.finished then [] else said e := by
  unfold step
  by_cases hover : s.finished = true
  · rw [if_pos hover, if_pos hover, List.append_nil]
  · rw [if_neg hover, if_neg hover]
    exact loopStep_taken toVec z s e fuel (hs.going (Bool.not_eq_true _ ▸ hover)).2

end Writer

namespace Engine

/-- Heartbeats are the session's. -/
theorem onReception_spoken (e : Engine) (r : Reception) (now : Instant) (server : Nat) :
    (server, ClientMsg.heartbeat) ∉ (e.onReception r now).2 := by
  have hreset : (server, ClientMsg.heartbeat) ∉ (e.checkReset r).2 := fun h =>
    ClientMsg.noConfusion (mem_checkReset e r server _ h)
  intro h
  rcases onReception_cases e r now with hc | ⟨addr, _, ⟨_, hc⟩ | ⟨_, d, _, _, hc⟩ | ⟨v, _, hc⟩⟩
  · rw [hc] at h
    exact hreset h
  · rw [hc] at h
    exact hreset h
  · rw [hc] at h
    rcases List.mem_append.mp h with h | h
    · exact hreset h
    · rcases mem_pairSync _ addr d.odd r now server _ h with ⟨_, _, _, _, _, _, _, hmsg, _⟩
      exact ClientMsg.noConfusion hmsg
  · rw [hc] at h
    rcases List.mem_append.mp h with h | h
    · exact hreset h
    · rcases mem_forward _ addr r server _ h with ⟨_, _, hmsg, _⟩
      exact ClientMsg.noConfusion hmsg

theorem onReceptions_spoken (e : Engine) (now : Instant) (rs : List Reception) (server : Nat) :
    (server, ClientMsg.heartbeat) ∉ (e.onReceptions now rs).2 := by
  induction rs generalizing e with
  | nil => exact List.not_mem_nil
  | cons r rs ih =>
      intro h
      rcases List.mem_append.mp h with h | h
      · exact e.onReception_spoken r now server h
      · exact ih _ h

theorem onEv_spoken (e : Engine) (now : Instant) (ev : Ev) (server : Nat) :
    (server, ClientMsg.heartbeat) ∉ (e.onEv now ev).2 := by
  cases ev with
  | receptions rs => exact e.onReceptions_spoken now rs server
  | inputUp =>
      intro h
      rcases List.mem_map.mp h with ⟨s, _, heq⟩
      exact ClientMsg.noConfusion (Prod.mk.inj heq).2
  | inputDown =>
      intro h
      rcases List.mem_map.mp h with ⟨s, _, heq⟩
      exact ClientMsg.noConfusion (Prod.mk.inj heq).2
  | start s hexes => exact List.not_mem_nil
  | stop s hexes => exact List.not_mem_nil
  | serverReset s => exact List.not_mem_nil

theorem tick_spoken (e : Engine) (now : Instant) (order : List UInt32) (server : Nat) :
    (server, ClientMsg.heartbeat) ∉ (e.tick now order).2 := by
  have hannounced : ∀ s, ClientMsg.heartbeat ∉ e.announcements now order s := by
    intro s
    unfold announcements
    split_ifs <;> simp only [List.nil_append, List.append_nil, List.mem_append, List.mem_singleton,
      List.not_mem_nil, reduceCtorEq, or_self, not_false_eq_true]
  have hrated : ClientMsg.heartbeat ∉ e.rateReports now order := by
    unfold rateReports
    split_ifs <;> simp only [List.mem_singleton, List.not_mem_nil, reduceCtorEq,
      not_false_eq_true]
  rw [tick_out, List.mem_append, List.mem_flatMap, List.mem_flatMap]
  rintro (⟨s, _, h⟩ | ⟨s, _, h⟩)
  · rcases List.mem_map.mp h with ⟨m, hm, heq⟩
    exact hannounced s ((Prod.mk.inj heq).2 ▸ hm)
  · rcases List.mem_map.mp h with ⟨m, hm, heq⟩
    exact hrated ((Prod.mk.inj heq).2 ▸ hm)

end Engine

end Client

namespace Uploads

variable {F τ σ : Type} [F64Fn F] (toVec : Json → List UInt8) (z : Library.Calls UInt8 UInt8 τ)
  (inflate : Library.Calls UInt8 UInt8 σ) (parse : List UInt8 → Option Json) (solver : Solver F)

/-- What the engine task is to queue after an event. -/
def emission (u : Uploads F τ) : Event F → List ClientMsg
  | .tick now order =>
    if u.offers ≠ [] then [] else Engine.messagesTo u.server (u.engine.tick now order).2
  | .take now ev =>
    if u.offers ≠ [] then [] else Engine.messagesTo u.server (u.engine.onEv now ev).2
  | _ => []

/-- Batches fit the buffer of the server, and no timer of it drops a read that has
    begun. -/
def Proper (u : Uploads F τ) : Event F → Prop
  | .message _ => ∀ m ∈ u.queue.head?, u.writer.Fits toVec (.message m)
  | .flush _ => u.writer.Fits toVec .flush
  | .push p => u.lines = [] → Uplink.QuietTick u.uplink (.tick p)
  | _ => True

/-- The text of a message is not a heartbeat's. -/
def spoken (m : ClientMsg) : Bool := decide (m ≠ .heartbeat)

section

variable (whole : List UInt8 → Option (List UInt8)) (enough : Nat → Nat)
  (Text : List UInt8 → Prop) (At : τ → List UInt8 → List UInt8 → Prop)
  (AtD : σ → List UInt8 → List UInt8 → Prop)

/-- The invariant: what arrived was written, the message loop has accounted for it,
    and the lines it has read are those it has looked at and those that wait. -/
structure Flow (framed : Bool) (fuel : Nat) (u : Uploads F τ) : Prop where
  writer : Writer.Sound toVec whole At u.writer
  mode : u.writer.framed = framed
  reader : u.uplink.framed = framed
  stream : u.uplink.stream <+: u.writer.sent
  sound : Uplink.Sound u.uplink
  queued : u.queued = u.writer.loop.taken.filter spoken ++ u.queue
  spoken : ∀ m ∈ u.queue ++ u.offers, spoken m = true
  lines : u.lines = (linesOut inflate fuel framed u.uplink.processed).drop u.heard.length
  heard : u.heard = ((linesOut inflate fuel framed u.uplink.processed).take u.heard.length).map parse

/-- The lines of a session are such that its texts can be compressed, and in plain mode
    short enough to be read. -/
structure Speakable (framed : Bool) (taken : List ClientMsg) : Prop where
  text : ∀ ls, ls <+: taken.map (lineOf toVec) → Text (text ls)
  short : framed = false → ∀ m ∈ taken, (lineOf toVec m).length < lineLimit

theorem Speakable.mono (framed : Bool) (taken more : List ClientMsg) (hpre : taken <+: more)
    (h : Speakable toVec Text framed more) : Speakable toVec Text framed taken where
  text ls hls := h.text ls (hls.trans (hpre.map _))
  short hf m hm := h.short hf m (hpre.subset hm)

omit [F64Fn F] in
theorem flow_start (h : z.Flushes whole syncTrailer enough Text At) (framed wantsStats : Bool)
    (user : String) (now : Instant) (nServers server fuel : Nat) [F64Fn F] (s : State F)
    (info : ReceiverInfo F) : Flow toVec inflate parse whole At framed fuel
      (Uploads.new z framed wantsStats user now nServers server s info) where
  writer := Writer.sound_start toVec z whole enough Text At h framed
  mode := rfl
  reader := rfl
  stream := List.prefix_refl []
  sound := ⟨⟨[], rfl, rfl⟩, Or.inl rfl, fun hno => absurd hno (by simp [Uploads.new, Uplink.start])⟩
  queued := rfl
  spoken _ hm := absurd hm List.not_mem_nil
  lines := by cases framed <;> rfl
  heard := rfl

/-- Only a read that runs gives the message loop something. -/
theorem uplink_processed (accepts : List (List UInt8) → List UInt8 → Bool) (u : Uplink)
    (e : Uplink.Event) (h : e ≠ .poll) : (u.step accepts e).processed = u.processed := by
  cases e with
  | poll => exact absurd rfl h
  | close => rfl
  | arrive chunk =>
      simp only [Uplink.step]
      split_ifs <;> rfl
  | tick push =>
      simp only [Uplink.step]
      split_ifs <;> rfl
  | idle =>
      simp only [Uplink.step]
      split_ifs <;> rfl

omit [F64Fn F] in
/-- The session goes on. -/
theorem Flow.write (framed : Bool) (fuel : Nat) (u : Uploads F τ)
    (hr : Flow toVec inflate parse whole At framed fuel u) (w : Writer τ) (queue : List ClientMsg)
    (hw : Writer.Sound toVec whole At w) (hmode : w.framed = u.writer.framed)
    (hsent : u.writer.sent <+: w.sent)
    (hqueued : w.loop.taken.filter Uploads.spoken ++ queue =
      u.writer.loop.taken.filter Uploads.spoken ++ u.queue)
    (hqueue : ∀ m ∈ queue, m ∈ u.queue) :
    Flow toVec inflate parse whole At framed fuel { u with writer := w, queue := queue } where
  writer := hw
  mode := hmode.trans hr.mode
  reader := hr.reader
  stream := hr.stream.trans hsent
  sound := hr.sound
  queued := hr.queued.trans hqueued.symm
  spoken m hm := by
    refine hr.spoken m ?_
    rcases List.mem_append.mp hm with hm | hm
    · exact List.mem_append_left _ (hqueue m hm)
    · exact List.mem_append_right _ hm
  lines := hr.lines
  heard := hr.heard

omit [F64Fn F] in
/-- Something happens to the reader that gives it no line. -/
theorem Flow.read (framed : Bool) (fuel : Nat) (u : Uploads F τ)
    (hr : Flow toVec inflate parse whole At framed fuel u) (uplink : Uplink)
    (hmode : uplink.framed = u.uplink.framed) (hstream : uplink.stream <+: u.writer.sent)
    (hsound : Uplink.Sound uplink) (hprocessed : uplink.processed = u.uplink.processed) :
    Flow toVec inflate parse whole At framed fuel { u with uplink := uplink } where
  writer := hr.writer
  mode := hr.mode
  reader := hmode.trans hr.reader
  stream := hstream
  sound := hsound
  queued := hr.queued
  spoken := hr.spoken
  lines := by simp only [hprocessed, hr.lines]
  heard := by simp only [hprocessed]; exact hr.heard

omit [F64Fn F] in
/-- The engine task has something new to queue. -/
theorem Flow.emit (framed : Bool) (fuel : Nat) (u : Uploads F τ)
    (hr : Flow toVec inflate parse whole At framed fuel u) (out : Engine × List Outbound)
    (hout : (u.server, ClientMsg.heartbeat) ∉ out.2) :
    Flow toVec inflate parse whole At framed fuel (u.emit out) where
  writer := hr.writer
  mode := hr.mode
  reader := hr.reader
  stream := hr.stream
  sound := hr.sound
  queued := hr.queued
  spoken m hm := by
    rcases List.mem_append.mp hm with hm | hm
    · exact hr.spoken m (List.mem_append_left _ hm)
    · refine decide_eq_true ?_
      rintro rfl
      exact hout ((Engine.mem_messagesTo u.server _ out.2).mp hm)
  lines := hr.lines
  heard := hr.heard

omit [F64Fn F] in
theorem Flow.offer (framed : Bool) (fuel : Nat) (u : Uploads F τ)
    (hr : Flow toVec inflate parse whole At framed fuel u) :
    Flow toVec inflate parse whole At framed fuel u.offer := by
  unfold Uploads.offer
  cases hoffers : u.offers with
  | nil => exact hr
  | cons m offers =>
      have hspoken := hr.spoken
      rw [hoffers] at hspoken
      simp only []
      split_ifs
      · refine ⟨hr.writer, hr.mode, hr.reader, hr.stream, hr.sound, ?_, fun m' hm' => ?_, hr.lines,
          hr.heard⟩
        · simp only [hr.queued, List.append_assoc]
        · rw [List.append_assoc] at hm'
          exact hspoken m' hm'
      · refine ⟨hr.writer, hr.mode, hr.reader, hr.stream, hr.sound, hr.queued, fun m' hm' => ?_,
          hr.lines, hr.heard⟩
        rcases List.mem_append.mp hm' with hm' | hm'
        · exact hspoken m' (List.mem_append_left _ hm')
        · exact hspoken m' (List.mem_append_right _ (List.mem_cons_of_mem m hm'))

/-- The next line is looked at. -/
theorem Flow.serve (framed : Bool) (fuel : Nat) (u : Uploads F τ)
    (hr : Flow toVec inflate parse whole At framed fuel u) (now : Nat) (atScaled : F) :
    Flow toVec inflate parse whole At framed fuel (u.serve parse solver now atScaled) := by
  unfold Uploads.serve
  cases hlines : u.lines with
  | nil => exact hr
  | cons line lines =>
      have hread := hr.lines
      rw [hlines] at hread
      have hget : (linesOut inflate fuel framed u.uplink.processed)[u.heard.length]? = some line := by
        rw [← List.head?_drop, ← hread]
        rfl
      have hnext : Flow toVec inflate parse whole At framed fuel
          { u with lines := lines, heard := u.heard ++ [parse line] } := by
        refine ⟨hr.writer, hr.mode, hr.reader, hr.stream, hr.sound, hr.queued, hr.spoken, ?_, ?_⟩
        · simp only [List.length_append, List.length_singleton]
          rw [← List.tail_drop, ← hread]
          rfl
        · simp only [List.length_append, List.length_singleton]
          rw [List.take_add_one, hget, List.map_append, ← hr.heard]
          rfl
      simp only []
      cases hparse : parse line with
      | none =>
          rw [hparse] at hnext
          exact hnext
      | some v =>
          rw [hparse] at hnext
          -- The set of those asked for and the shard are no concern of the invariant.
          have hprocess : ∀ t : Uploads F τ, Flow toVec inflate parse whole At framed fuel t →
              Flow toVec inflate parse whole At framed fuel (t.process solver now atScaled v) := by
            intro t ht
            unfold Uploads.process
            simp only []
            cases (processLine t.requested v atScaled).2.2 with
            | none => exact ⟨ht.writer, ht.mode, ht.reader, ht.stream, ht.sound, ht.queued,
                ht.spoken, ht.lines, ht.heard⟩
            | some up => exact ⟨ht.writer, ht.mode, ht.reader, ht.stream, ht.sound, ht.queued,
                ht.spoken, ht.lines, ht.heard⟩
          exact hprocess _ hnext

theorem poll_processed (accepts : List (List UInt8) → List UInt8 → Bool) (u : Uplink) :
    u.processed <+: (u.step accepts .poll).processed := by
  simp only [Uplink.step, Uplink.pollFramed, Uplink.pollPlain]
  split_ifs <;> first | exact List.prefix_refl _ | exact List.prefix_append _ _

/-- Messages are only added to those taken. -/
theorem step_taken (fuel : Nat) (u : Uploads F τ) (e : Event F) :
    u.writer.loop.taken <+: (u.step toVec z inflate fuel parse solver e).writer.loop.taken := by
  cases e with
  | tick now order =>
      simp only [step]
      split_ifs <;> exact List.prefix_refl _
  | take now ev =>
      simp only [step]
      split_ifs <;> exact List.prefix_refl _
  | offer =>
      simp only [step, offer]
      split
      · exact List.prefix_refl _
      · split_ifs <;> exact List.prefix_refl _
  | message cut =>
      simp only [step, message]
      split
      · exact List.prefix_refl _
      · split_ifs
        · exact List.prefix_refl _
        · exact (Writer.step_grows toVec z u.writer _ cut fuel).1
  | flush cut => exact (Writer.step_grows toVec z u.writer .flush cut fuel).1
  | heartbeat cut => exact (Writer.step_grows toVec z u.writer .heartbeat cut fuel).1
  | poll =>
      simp only [step, poll]
      split_ifs <;> exact List.prefix_refl _
  | push p =>
      simp only [step, read]
      split_ifs <;> exact List.prefix_refl _
  | idle =>
      simp only [step, read]
      split_ifs <;> exact List.prefix_refl _
  | serve now atScaled =>
      simp only [step, serve]
      split
      · exact List.prefix_refl _
      · split
        · exact List.prefix_refl _
        · simp only [process]
          split <;> exact List.prefix_refl _
  | other e =>
      simp only [step]
      split_ifs <;> exact List.prefix_refl _
  | _ => exact List.prefix_refl _

section

variable (h : z.Flushes whole syncTrailer enough Text At)
  (henough : ∀ k ≤ 64 * 1024, enough k ≤ k + 1024) (hgrows : Grows whole)
  (hinflate : inflate.Meets whole AtD) (hlines : ∀ v, newline ∉ toVec v ∧ toVec v ≠ [])

include hgrows hinflate hlines in
omit [F64Fn F] in
/-- What has arrived can be read. -/
theorem Flow.valid (framed : Bool) (n : Nat) (u : Uploads F τ)
    (hr : Flow toVec inflate parse whole At framed (n + 2) u)
    (hshort : framed = false → ∀ m ∈ u.writer.loop.taken, (lineOf toVec m).length < lineLimit)
    (stream : List UInt8) (hstream : stream <+: u.writer.sent) :
    Uplink.Valid (decodes inflate (n + 2)) framed stream := by
  have hvalid := (Writer.stream_lines toVec whole At inflate AtD hgrows hinflate hlines n u.writer
    hr.writer (by rw [hr.mode]; exact hshort) stream (hstream.trans hr.writer.written)).1
  rwa [hr.mode] at hvalid

include hgrows hinflate hlines in
omit [F64Fn F] in
/-- Something happens to the reader. -/
theorem Flow.reads (framed : Bool) (n : Nat) (u : Uploads F τ)
    (hr : Flow toVec inflate parse whole At framed (n + 2) u)
    (hshort : framed = false → ∀ m ∈ u.writer.loop.taken, (lineOf toVec m).length < lineLimit)
    (e : Uplink.Event) (hquiet : Uplink.QuietTick u.uplink e)
    (hstream : (u.uplink.step (decodes inflate (n + 2)) e).stream <+: u.writer.sent) :
    Uplink.Sound (u.uplink.step (decodes inflate (n + 2)) e) := by
  refine Uplink.step_sound _ u.uplink e hquiet (fun _ => hr.sound) ?_
  rw [Uplink.step_framed, hr.reader]
  exact hr.valid toVec inflate parse whole At AtD hgrows hinflate hlines framed n u hshort _ hstream

include hgrows hinflate hlines in
omit [F64Fn F] in
/-- The message loop reads on, and has new lines. -/
theorem Flow.poll (framed : Bool) (n : Nat) (u : Uploads F τ)
    (hr : Flow toVec inflate parse whole At framed (n + 2) u)
    (hshort : framed = false → ∀ m ∈ u.writer.loop.taken, (lineOf toVec m).length < lineLimit) :
    Flow toVec inflate parse whole At framed (n + 2) (u.poll inflate (n + 2)) := by
  unfold Uploads.poll
  split_ifs with hbusy
  · exact hr
  · rw [not_not] at hbusy
    have hmode := Uplink.step_framed (decodes inflate (n + 2)) u.uplink .poll
    have hstream : (u.uplink.step (decodes inflate (n + 2)) .poll).stream <+: u.writer.sent := by
      rw [(Uplink.step_poll_keeps (decodes inflate (n + 2)) u.uplink).2]
      exact hr.stream
    -- All lines that were read have been looked at.
    have hheard := congrArg List.length hr.heard
    rw [List.length_map, List.length_take] at hheard
    have hnone := hr.lines.symm.trans hbusy
    rw [List.drop_eq_nil_iff] at hnone
    have hcount : (linesOut inflate (n + 2) framed u.uplink.processed).length = u.heard.length := by
      omega
    rcases linesOut_mono inflate (n + 2) framed _ _ (poll_processed (decodes inflate (n + 2))
      u.uplink) with ⟨more, hmore⟩
    refine ⟨hr.writer, hr.mode, hmode.trans hr.reader, hstream,
      hr.reads toVec inflate parse whole At AtD hgrows hinflate hlines framed n u hshort .poll
        (fun push hno => Uplink.Event.noConfusion hno) hstream,
      hr.queued, hr.spoken, ?_, ?_⟩
    · simp only [hmode, hr.reader, hcount]
    · have hold := hr.heard
      rw [← hcount, List.take_length] at hold
      simp only [← hmore]
      rw [← hcount, List.take_left, hold]

include h henough hgrows hinflate hlines in
/-- A step keeps the invariant. -/
theorem flow_step (framed : Bool) (n : Nat) (u : Uploads F τ)
    (hr : Flow toVec inflate parse whole At framed (n + 2) u) (e : Event F)
    (hproper : u.Proper toVec e)
    (hsay : Speakable toVec Text framed
      (u.step toVec z inflate (n + 2) parse solver e).writer.loop.taken) :
    Flow toVec inflate parse whole At framed (n + 2)
      (u.step toVec z inflate (n + 2) parse solver e) := by
  have hbefore := hsay.mono toVec Text framed _ _ (step_taken toVec z inflate parse solver (n + 2) u e)
  have hreads := hr.reads toVec inflate parse whole At AtD hgrows hinflate hlines framed n u
    hbefore.short
  have hread : ∀ ev : Uplink.Event, ev ≠ .poll → Uplink.QuietTick u.uplink ev →
      (u.uplink.step (decodes inflate (n + 2)) ev).stream <+: u.writer.sent →
      Flow toVec inflate parse whole At framed (n + 2) (u.read inflate (n + 2) ev) :=
    fun ev hev hquiet hstream => hr.read toVec inflate parse whole At framed (n + 2) u _
      (Uplink.step_framed _ u.uplink ev) hstream (hreads ev hquiet hstream)
      (uplink_processed _ u.uplink ev hev)
  have hwrite : ∀ (ev : Batching.Event) (cut : Option Nat), u.writer.Fits toVec ev →
      (∀ ls, ls <+: (u.writer.step toVec z (n + 2) ev cut).loop.taken.map (lineOf toVec) →
        Text (text ls)) →
      Writer.Sound toVec whole At (u.writer.step toVec z (n + 2) ev cut) :=
    fun ev cut hfits htext => Writer.step_sound toVec z whole enough Text At h henough u.writer ev
      cut (n + 1) hfits htext hr.writer
  have htaken := fun ev cut =>
    Writer.step_taken toVec z whole At u.writer hr.writer ev cut (n + 2)
  cases e with
  | tick now order =>
      simp only [step]
      split_ifs
      · exact hr
      · exact hr.emit toVec inflate parse whole At framed (n + 2) u _
          (u.engine.tick_spoken now order u.server)
  | take now ev =>
      simp only [step]
      split_ifs
      · exact hr
      · exact hr.emit toVec inflate parse whole At framed (n + 2) u _
          (u.engine.onEv_spoken now ev u.server)
  | offer => exact hr.offer toVec inflate parse whole At framed (n + 2) u
  | message cut =>
      simp only [step, message] at hsay ⊢
      cases hqueue : u.queue with
      | nil => exact hr
      | cons m queue =>
          rw [hqueue] at hsay
          simp only [] at hsay ⊢
          have hspoken := hr.spoken m (by rw [hqueue]; exact List.mem_cons_self)
          split_ifs at hsay ⊢ with hover
          · exact hr
          · refine hr.write toVec inflate parse whole At framed (n + 2) u _ _
              (hwrite (.message m) cut (hproper m (by rw [hqueue]; rfl)) hsay.text)
              (Writer.step_framed toVec z u.writer _ cut (n + 2))
              (Writer.step_grows toVec z u.writer _ cut (n + 2)).2 ?_
              (fun m' hm' => by rw [hqueue]; exact List.mem_cons_of_mem m hm')
            rw [htaken, if_neg hover, List.filter_append, Writer.said, List.filter_singleton,
              hspoken, hqueue, List.append_assoc]
            rfl
  | flush cut =>
      refine hr.write toVec inflate parse whole At framed (n + 2) u _ _
        (hwrite .flush cut hproper hsay.text) (Writer.step_framed toVec z u.writer _ cut (n + 2))
        (Writer.step_grows toVec z u.writer _ cut (n + 2)).2 ?_ fun _ hm => hm
      rw [htaken, Writer.said, ite_self, List.append_nil]
  | heartbeat cut =>
      refine hr.write toVec inflate parse whole At framed (n + 2) u _ _
        (hwrite .heartbeat cut (fun _ _ _ hno => hno.elim) hsay.text)
        (Writer.step_framed toVec z u.writer _ cut (n + 2))
        (Writer.step_grows toVec z u.writer _ cut (n + 2)).2 ?_ fun _ hm => hm
      rw [htaken, List.filter_append]
      -- Heartbeats are not from the queue.
      split_ifs <;> exact congrArg (· ++ u.queue) (List.append_nil _)
  | arrive k =>
      refine hread _ Uplink.Event.noConfusion (fun push hno => Uplink.Event.noConfusion hno) ?_
      simp only [Uplink.step]
      split_ifs
      · exact hr.stream
      · -- What arrives comes next in what was written.
        rcases hr.stream with ⟨later, hlater⟩
        simp only [← hlater, List.drop_left]
        exact (List.prefix_append_right_inj _).mpr (List.take_prefix k later)
  | close =>
      exact hread .close Uplink.Event.noConfusion (fun push hno => Uplink.Event.noConfusion hno)
        hr.stream
  | poll =>
      exact hr.poll toVec inflate parse whole At AtD hgrows hinflate hlines framed n u hbefore.short
  | push p =>
      simp only [step]
      split_ifs with hbusy
      · exact hr
      · refine hread _ Uplink.Event.noConfusion (hproper (not_not.mp hbusy)) ?_
        simp only [Uplink.step]
        split_ifs <;> exact hr.stream
  | idle =>
      simp only [step]
      split_ifs
      · exact hr
      · refine hread _ Uplink.Event.noConfusion (fun push hno => Uplink.Event.noConfusion hno) ?_
        simp only [Uplink.step]
        split_ifs <;> exact hr.stream
  | serve now atScaled =>
      exact hr.serve toVec inflate parse solver whole At framed (n + 2) u now atScaled
  | other e =>
      simp only [step]
      split_ifs
      · exact ⟨hr.writer, hr.mode, hr.reader, hr.stream, hr.sound, hr.queued, hr.spoken, hr.lines,
          hr.heard⟩
      · exact hr

include h henough hgrows hinflate hlines in
/-- So does a run. -/
theorem flow_run (framed : Bool) (n : Nat) (u : Uploads F τ)
    (hr : Flow toVec inflate parse whole At framed (n + 2) u) (es : List (Event F))
    (hproper : Along (step toVec z inflate (n + 2) parse solver) (Proper toVec) u es)
    (hsay : Speakable toVec Text framed
      (exec (step toVec z inflate (n + 2) parse solver) u es).writer.loop.taken) :
    Flow toVec inflate parse whole At framed (n + 2)
      (exec (step toVec z inflate (n + 2) parse solver) u es) := by
  -- From the end: the messages of a shorter run are among those of the whole one.
  induction es using List.reverseRecOn with
  | nil => exact hr
  | append_singleton es e ih =>
      rw [along_append] at hproper
      rw [exec_append, exec_cons, exec_nil] at hsay ⊢
      refine flow_step toVec z inflate parse solver whole enough Text At AtD h henough hgrows
        hinflate hlines framed n _ (ih hproper.1 ?_) e hproper.2.1 hsay
      exact hsay.mono toVec Text framed _ _ (step_taken toVec z inflate parse solver (n + 2) _ e)

end

/-- What is queued or to be queued is what was emitted, without what a full queue
    refused. -/
theorem step_queued (fuel : Nat) (u : Uploads F τ) (e : Event F) :
    ((u.step toVec z inflate fuel parse solver e).queued ++
        (u.step toVec z inflate fuel parse solver e).offers).Sublist
      (u.queued ++ u.offers ++ u.emission e) := by
  have hidle : (u.queued ++ u.offers).Sublist (u.queued ++ u.offers ++ []) := by
    rw [List.append_nil]
  cases e with
  | tick now order =>
      simp only [step, emission]
      split_ifs with hbusy
      · exact hidle
      · rw [not_not.mp hbusy, List.append_nil]
        exact List.Sublist.refl _
  | take now ev =>
      simp only [step, emission]
      split_ifs with hbusy
      · exact hidle
      · rw [not_not.mp hbusy, List.append_nil]
        exact List.Sublist.refl _
  | offer =>
      simp only [step, emission, offer]
      cases hoffers : u.offers with
      | nil =>
          simp only [hoffers, List.append_nil]
          exact List.Sublist.refl _
      | cons m offers =>
          rw [List.append_nil]
          simp only []
          split_ifs
          · simp only [List.append_assoc]
            exact List.Sublist.refl _
          · exact (List.sublist_cons_self m offers).append_left u.queued
  | message cut =>
      simp only [step, emission, message]
      split
      · exact hidle
      · split_ifs <;> exact hidle
  | poll =>
      simp only [step, emission, poll]
      split_ifs <;> exact hidle
  | push p =>
      simp only [step, emission, read]
      split_ifs <;> exact hidle
  | idle =>
      simp only [step, emission, read]
      split_ifs <;> exact hidle
  | serve now atScaled =>
      simp only [step, emission, serve]
      split
      · exact hidle
      · split
        · exact hidle
        · simp only [process]
          split <;> exact hidle
  | other e =>
      simp only [step, emission]
      split_ifs <;> exact hidle
  | _ => exact hidle

theorem run_queued (fuel : Nat) (u : Uploads F τ) (hu : u.queued = [] ∧ u.offers = [])
    (es : List (Event F)) :
    ((exec (step toVec z inflate fuel parse solver) u es).queued ++
        (exec (step toVec z inflate fuel parse solver) u es).offers).Sublist
      (journal (step toVec z inflate fuel parse solver) emission u es) := by
  induction es using List.reverseRecOn with
  | nil =>
      rw [exec_nil, hu.1, hu.2]
      exact List.Sublist.refl _
  | append_singleton es e ih =>
      rw [exec_append, exec_cons, exec_nil, journal_append, journal_singleton]
      exact (step_queued toVec z inflate parse solver fuel _ e).trans (ih.append_right _)

/-- A line that is looked at is off the list. -/
theorem serve_keeps (u : Uploads F τ) (now : Nat) (atScaled : F) :
    (u.serve parse solver now atScaled).uplink = u.uplink ∧
      (u.serve parse solver now atScaled).writer = u.writer ∧
      (u.serve parse solver now atScaled).lines = u.lines.tail := by
  unfold serve
  cases hlines : u.lines with
  | nil => exact ⟨rfl, rfl, hlines⟩
  | cons line lines =>
      simp only []
      cases parse line with
      | none => exact ⟨rfl, rfl, rfl⟩
      | some v =>
          simp only [process]
          split <;> exact ⟨rfl, rfl, rfl⟩

/-- The lines that wait are looked at. -/
theorem serve_all (fuel : Nat) (u : Uploads F τ) (now : Nat) (atScaled : F) (k : Nat)
    (hk : u.lines.length ≤ k) :
    ∃ v, v = exec (step toVec z inflate fuel parse solver) u
        (List.replicate k (.serve now atScaled)) ∧
      v.uplink = u.uplink ∧ v.writer = u.writer ∧ v.lines = [] := by
  induction k generalizing u with
  | zero => exact ⟨u, rfl, rfl, rfl, List.length_eq_zero_iff.mp (Nat.le_zero.mp hk)⟩
  | succ k ih =>
      rcases serve_keeps parse solver u now atScaled with ⟨huplink, hwriter, hrest⟩
      rcases ih (u.serve parse solver now atScaled) (by
        rw [hrest, List.length_tail]
        omega) with ⟨v, hv, hvup, hvwriter, hvlines⟩
      exact ⟨v, hv, hvup.trans huplink, hvwriter.trans hwriter, hvlines⟩

/-- The read runs again and again, and its lines are looked at in between. -/
theorem poll_all (fuel : Nat) (u : Uploads F τ) (now : Nat) (atScaled : F) (k : Nat) :
    ∃ ds v, (∀ d ∈ ds, d = Event.poll ∨ d = .serve now atScaled) ∧
      v = exec (step toVec z inflate fuel parse solver) u ds ∧
      v.uplink = exec (Uplink.step (decodes inflate fuel)) u.uplink (List.replicate k .poll) ∧
      v.writer = u.writer ∧ v.lines = [] := by
  have hserves : ∀ j, ∀ d ∈ List.replicate j (Event.serve now atScaled),
      d = Event.poll ∨ d = .serve now atScaled := fun j d hd => Or.inr (List.eq_of_mem_replicate hd)
  induction k with
  | zero =>
      rcases serve_all toVec z inflate parse solver fuel u now atScaled u.lines.length
        (Nat.le_refl _) with ⟨v, hv, huplink, hwriter, hlines⟩
      exact ⟨_, v, hserves _, hv, huplink, hwriter, hlines⟩
  | succ k ih =>
      rcases ih with ⟨ds, v, hds, hv, huplink, hwriter, hlines⟩
      have hpoll : (v.poll inflate fuel).uplink = v.uplink.step (decodes inflate fuel) .poll ∧
          (v.poll inflate fuel).writer = v.writer := by
        unfold poll
        rw [if_neg (not_not.mpr hlines)]
        exact ⟨rfl, rfl⟩
      rcases serve_all toVec z inflate parse solver fuel (v.poll inflate fuel) now atScaled _
        (Nat.le_refl _) with ⟨w, hw, hwup, hwwriter, hwlines⟩
      refine ⟨ds ++ [.poll] ++ List.replicate (v.poll inflate fuel).lines.length
        (.serve now atScaled), w, fun d hd => ?_, ?_, ?_, (hwwriter.trans hpoll.2).trans hwriter,
        hwlines⟩
      · rcases List.mem_append.mp hd with hd | hd
        · rcases List.mem_append.mp hd with hd | hd
          · exact hds d hd
          · exact Or.inl (List.mem_singleton.mp hd)
        · exact hserves _ d hd
      · rw [exec_append, exec_append, ← hv]
        exact hw
      · rw [List.replicate_succ', exec_append, ← huplink, hwup, hpoll.1]
        rfl

section

variable (h : z.Flushes whole syncTrailer enough Text At)
  (henough : ∀ k ≤ 64 * 1024, enough k ≤ k + 1024) (hgrows : Grows whole)
  (hinflate : inflate.Meets whole AtD) (hlines : ∀ v, newline ∉ toVec v ∧ toVec v ≠ [])
include hgrows hinflate hlines

omit [F64Fn F] in
/-- The lines read are the first of those of the messages taken. -/
theorem Flow.read_prefix (framed : Bool) (n : Nat) (u : Uploads F τ)
    (hr : Flow toVec inflate parse whole At framed (n + 2) u)
    (hsay : Speakable toVec Text framed u.writer.loop.taken) :
    linesOut inflate (n + 2) framed u.uplink.processed <+:
      u.writer.loop.taken.map fun m => Link.lineFor framed (lineOf toVec m) := by
  have hpre := Uplink.Synced.prefix _ hr.sound.synced
  have hlinesOf := (Writer.stream_lines toVec whole At inflate AtD hgrows hinflate hlines n u.writer
    hr.writer (by rw [hr.mode]; exact hsay.short) _ (hr.stream.trans hr.writer.written)).2.1
  rw [hr.reader] at hpre
  rw [hr.mode] at hlinesOf
  exact (linesOut_mono inflate (n + 2) framed _ _ hpre).trans hlinesOf

omit [F64Fn F] in
/-- What the lines looked at parsed to. -/
theorem Flow.heard_taken (framed : Bool) (n : Nat) (u : Uploads F τ)
    (hr : Flow toVec inflate parse whole At framed (n + 2) u)
    (hsay : Speakable toVec Text framed u.writer.loop.taken)
    (hparse : ∀ m ∈ u.writer.loop.taken,
      parse (Link.lineFor framed (lineOf toVec m)) = some m.toJson) :
    u.heard = (u.writer.loop.taken.take u.heard.length).map fun m => some m.toJson := by
  have hpre := List.prefix_iff_eq_take.mp (hr.read_prefix toVec inflate parse whole Text At AtD
    hgrows hinflate hlines framed n u hsay)
  have hheard := hr.heard
  have hcount := congrArg List.length hheard
  rw [List.length_map, List.length_take] at hcount
  rw [hpre, List.take_take, Nat.min_eq_left (by omega), ← List.map_take, List.map_map] at hheard
  refine hheard.trans (List.map_congr_left fun m hm => ?_)
  exact hparse m (List.mem_of_mem_take hm)

include h henough in
/-- Whatever happens, what the server hears is the first of the messages the session took,
    each once and in order. These are the messages the queue took, with heartbeats in
    between, and those are of what the engine had for the server, in order. When all
    is written and has arrived, the server comes to hear every one. -/
theorem heard_in_order (framed wantsStats : Bool) (user : String) (now : Instant)
    (nServers server n : Nat) (s : State F) (info : ReceiverInfo F) (es : List (Event F))
    (hproper : Along (step toVec z inflate (n + 2) parse solver) (Proper toVec)
      (new z framed wantsStats user now nServers server s info) es) (u : Uploads F τ)
    (hu : u = exec (step toVec z inflate (n + 2) parse solver)
      (new z framed wantsStats user now nServers server s info) es)
    (hsay : Speakable toVec Text framed u.writer.loop.taken)
    (hparse : ∀ m ∈ u.writer.loop.taken,
      parse (Link.lineFor framed (lineOf toVec m)) = some m.toJson) :
    (u.heard <+: u.writer.loop.taken.map fun m => some m.toJson) ∧
      u.queued = u.writer.loop.taken.filter spoken ++ u.queue ∧
      (u.queued ++ u.offers).Sublist (journal (step toVec z inflate (n + 2) parse solver) emission
        (new z framed wantsStats user now nServers server s info) es) ∧
      (u.writer.loop.batch = [] → u.uplink.stream = u.writer.loop.wire →
        u.uplink.ended ≠ some .idle → ∀ later atScaled, ∃ ds,
          (∀ d ∈ ds, d = .poll ∨ d = .serve later atScaled) ∧
          (exec (step toVec z inflate (n + 2) parse solver) u ds).heard =
            u.writer.loop.taken.map fun m => some m.toJson) := by
  have hflow : Flow toVec inflate parse whole At framed (n + 2) u := by
    rw [hu] at hsay ⊢
    exact flow_run toVec z inflate parse solver whole enough Text At AtD h henough hgrows hinflate
      hlines framed n _ (flow_start toVec z inflate parse whole enough Text At h framed wantsStats
        user now nServers server (n + 2) s info) es hproper hsay
  refine ⟨?_, hflow.queued, ?_, fun hbatch hstream hidle later atScaled => ?_⟩
  · rw [hflow.heard_taken toVec inflate parse whole Text At AtD hgrows hinflate hlines framed n u hsay
      hparse, List.map_take]
    exact List.take_prefix _ _
  · rw [hu]
    exact run_queued toVec z inflate parse solver (n + 2) _ ⟨rfl, rfl⟩ es
  · rcases poll_all toVec z inflate parse solver (n + 2) u later atScaled u.uplink.avail.length with
      ⟨ds, v, hds, hv, hvup, hvwriter, hvlines⟩
    refine ⟨ds, hds, ?_⟩
    rw [← hv]
    have hvalid := hflow.valid toVec inflate parse whole At AtD hgrows hinflate hlines framed n u
      hsay.short u.uplink.stream hflow.stream
    rcases Uplink.drain (decodes inflate (n + 2)) u.uplink u.uplink.avail.length hflow.sound hidle
      (by rw [hflow.reader]; exact hvalid) (Nat.le_refl _) with ⟨hsound, hsame, havail⟩
    rw [← hvup] at hsound hsame havail
    have hvflow : Flow toVec inflate parse whole At framed (n + 2) v := by
      rw [hv]
      refine flow_run toVec z inflate parse solver whole enough Text At AtD h henough hgrows hinflate
        hlines framed n u hflow ds ?_ (by rw [← hv, hvwriter]; exact hsay)
      -- Neither a read nor a line that is looked at needs a condition.
      refine along_of_forall _ _ u ds fun d hd t => ?_
      rcases hds d hd with rfl | rfl <;> trivial
    have hsayv : Speakable toVec Text framed v.writer.loop.taken := by rwa [hvwriter]
    have hparsev : ∀ m ∈ v.writer.loop.taken,
        parse (Link.lineFor framed (lineOf toVec m)) = some m.toJson := by rwa [hvwriter]
    have hheard := hvflow.heard_taken toVec inflate parse whole Text At AtD hgrows hinflate hlines
      framed n v hsayv hparsev
    -- Everything that was written has been read, and every line looked at.
    have hall := (Writer.stream_lines toVec whole At inflate AtD hgrows hinflate hlines n v.writer
      hvflow.writer (by rw [hvflow.mode]; exact hsayv.short) v.uplink.stream
      (hvflow.stream.trans hvflow.writer.written)).2.2
      (by rw [hsame, hvwriter, hstream]) (by rw [hvwriter, hbatch])
    have hdone := hvflow.lines.symm.trans hvlines
    rw [hvflow.mode, ← hvflow.reader, ← Uplink.Synced.all _ hsound.synced havail, hvflow.reader]
      at hall
    rw [hall, List.drop_eq_nil_iff, List.length_map] at hdone
    rw [hheard, List.take_of_length_le hdone, hvwriter]

end

end

section Example

open Client.Batching

/-- The clock jumps back; the frame with the reset arrives in two pieces, behind a timer of
    the server. -/
def resetTurns : List (Event ℚ) :=
  [.take 0 (.receptions [⟨1000000000, []⟩, ⟨0, []⟩]), .offer, .message none, .flush none,
    .push .heartbeat, .arrive 5, .poll, .arrive 100]

/-- Reads the line of the reset. -/
def readReset (line : List UInt8) : Option Json :=
  if line = lineOf resetVec (.clockReset "rx") then some (ClientMsg.clockReset "rx").toJson
  else none

/-- The session over a connection with `zlib2`. -/
def resetSession : Uploads ℚ (Units UInt8 UInt8) :=
  Uploads.new resetDeflate true false "rx" 0 1 0 (State.new 0 true false)
    (State.exampleRx "rx")

def resetUploads : Uploads ℚ (Units UInt8 UInt8) :=
  exec (step resetVec resetDeflate (greedy resetWhole) 2 readReset namedSolver)
    resetSession resetTurns

/-- The reset is written and has arrived. -/
theorem reset_arrives : resetUploads.writer.loop.taken = [.clockReset "rx"] ∧
    resetUploads.writer.loop.batch = [] ∧
    resetUploads.uplink.stream = resetUploads.writer.loop.wire ∧
    resetUploads.uplink.ended ≠ some .idle := by
  decide +kernel

theorem proper_reset : Along
    (step resetVec resetDeflate (greedy resetWhole) 2 readReset namedSolver)
    (Proper resetVec) resetSession resetTurns := by
  refine ⟨trivial, trivial, fun _ _ _ _ _ _ => ?_, fun _ _ _ _ => ?_, fun _ _ _ _ _ _ => ?_,
    trivial, trivial, trivial, trivial⟩
  · decide +kernel
  · decide +kernel
  · decide +kernel

theorem speakable_reset : Speakable resetVec (Texts resetVec [.clockReset "rx"]) true
    resetUploads.writer.loop.taken := by
  rw [reset_arrives.1]
  exact ⟨fun ls hls => ⟨ls, hls, rfl⟩, fun hno => Bool.noConfusion hno⟩

theorem readReset_line : ∀ m ∈ resetUploads.writer.loop.taken,
    readReset (Link.lineFor true (lineOf resetVec m)) = some m.toJson := by
  intro m hm
  rw [reset_arrives.1, List.mem_singleton] at hm
  rw [hm]
  exact if_pos rfl

theorem heard_in_order_reset : ∃ ds,
    (∀ d ∈ ds, d = Event.poll ∨ d = .serve 0 0) ∧
    (exec (step resetVec resetDeflate (greedy resetWhole) 2 readReset namedSolver)
      resetUploads ds).heard =
        resetUploads.writer.loop.taken.map fun m => some m.toJson :=
  (heard_in_order resetVec resetDeflate (greedy resetWhole) readReset namedSolver
    resetWhole (· + 1024) _ ResetAt _
    flushes_resetDeflate (fun _ _ => Nat.le_refl _)
    (grows_framesWhole _) (greedy_meets _ (grows_framesWhole _)) resetVec_line true false "rx" 0 1
    0 0 (State.new 0 true false) (State.exampleRx "rx") resetTurns proper_reset resetUploads rfl
    speakable_reset readReset_line).2.2.2 reset_arrives.2.1 reset_arrives.2.2.1 reset_arrives.2.2.2 0 0

end Example

end Uploads

end MlatBench
