import MlatBench.Library.Partners
import MlatBench.Theory.Reception

/-!
# Where Lines Come From

The loop of a receiver with a history beside it: the receptions as they were
stamped, whether the counter jumped at each, and for every line what it stands
for. A clock_jump line stands for the jump at a reception and a sync line for the
two receptions it pairs.

The half that waits for an aircraft is its last position report that has no
partner, so pairing is pairing in the sense of `Library.Partners`, with the
aircraft as the key.

## Main definitions

* `Hearing`: A reception, as it was stamped.
* `Hearing.key`, `Hearing.fits`: How receptions are paired.
* `Source`: What a line stands for.
* `Trail`, `Trail.turn`, `trail`: The loop with its history.
* `Says`: A line says what it stands for.
* `Trail.Kept`: What holds of a history.

## Theorems

* `Loop.hear_lines`: The lines of one reception.
* `outcome_hearing`: A reception becomes what its partner says.
* `turn_lines`: The lines of a turn.
* `kept_trail`: A history is kept.
-/

namespace MlatBench

namespace Sim

open Library F64 F64Fn F64Ln Modes Proto

/-- A reception, as it was stamped. -/
structure Hearing (F : Type) where
  b : Broadcast F
  t : F
  count : Nat
  jumped : Bool

/-- What a line stands for. -/
inductive Source where
  -- The counter jumped at a reception.
  | jump (n : Nat)
  -- Two receptions are paired.
  | sync (i j : Nat)
  | other
deriving DecidableEq

/-- The parity of a position report. -/
def BroadcastKind.parity : BroadcastKind → Option Bool
  | .df17 odd => some odd
  | _ => none

/-- A message that neither pairs receptions nor tells of a jump. -/
def plain : ClientMsg → Bool
  | .sync _ _ _ _ => false
  | .clockJump _ => false
  | _ => true

section

variable {F R : Type} [F64Ln F]

namespace Hearing

/-- Position reports are paired by aircraft. -/
def key {G : Type} (h : Hearing G) : Option Icao :=
  h.b.kind.parity.map fun _ => h.b.icao

/-- A report is a partner for one of the other parity, less than two seconds
    after it. -/
def fits (p h : Hearing F) : Bool :=
  decide (p.b.kind.parity ≠ h.b.kind.parity ∧ h.t - p.t < lit 2)

/-- A report as a half that waits. -/
def half {G : Type} (h : Hearing G) : PendingHalf G :=
  { odd := h.b.kind.parity.getD false, tArrive := h.t, count := h.count, bytes := h.b.bytes }

/-- The message two reports make. -/
def syncWith {G : Type} (p h : Hearing G) : ClientMsg :=
  if h.b.kind.parity = some true then
    .sync p.count h.count (hexEncode p.b.bytes) (hexEncode h.b.bytes)
  else .sync h.count p.count (hexEncode h.b.bytes) (hexEncode p.b.bytes)

end Hearing

/-- Who waits after some receptions. -/
def waiting (heard : List (Hearing F)) : Waits (Hearing F) Icao :=
  waits Hearing.key Hearing.fits heard

/-- The loop with its history. -/
structure Trail (F R : Type) where
  loop : Loop F R
  heard : List (Hearing F)
  lines : List (Line F × Source)

/-- What a line of a reception stands for. -/
def sourceOf (n : Nat) (partner : Option Nat) : ClientMsg → Source
  | .clockJump _ => .jump n
  | .sync _ _ _ _ => partner.elim .other fun i => .sync i n
  | _ => .other

namespace Loop

/-- A transmission as it is stamped. -/
def hearing (rand : Rand F R) (seed : Nat) (rx : ReceiverSpec F) (s : Loop F R)
    (b : Broadcast F) : Hearing F :=
  { b := b, t := (s.arrive rand rx b).1, count := (s.reading rand seed rx b).2.2.1
    jumped := (s.reading rand seed rx b).2.2.2 }

end Loop

namespace Trail

def init (rand : Rand F R) (seed : Nat) (rx : ReceiverSpec F) : Trail F R :=
  let s := Loop.init rand seed rx
  { loop := s, heard := [], lines := s.lines.map fun l => (l, .other) }

/-- A line of a reception, with what it stands for. -/
def tagged (heard : List (Hearing F)) (h : Hearing F) (l : Line F) : Line F × Source :=
  (l, sourceOf heard.length
    (((waiting heard).partner Hearing.key Hearing.fits h).map Prod.fst) l.msg)

/-- One transmission; the lines it adds are those of its reception. -/
def turn (rand : Rand F R) (fuel seed : Nat) (rx : ReceiverSpec F) (tr : Trail F R)
    (b : Broadcast F) : Trail F R :=
  let s := tr.loop.turn rand fuel seed rx b
  if tr.loop.hears rand seed rx b = true then
    let h := (tr.loop.draw rand seed rx b).hearing rand seed rx b
    { loop := s
      heard := tr.heard ++ [h]
      lines := tr.lines ++ (s.lines.drop tr.loop.lines.length).map (tagged tr.heard h) }
  else { tr with loop := s }

/-- The lines in order of arrival. -/
def sorted (tr : Trail F R) : List (Line F × Source) :=
  tr.lines.insertionSort fun x y => totalLe x.1.t y.1.t

end Trail

/-- All transmissions. -/
def trail (rand : Rand F R) (fuel seed : Nat) (rx : ReceiverSpec F) (bs : List (Broadcast F)) :
    Trail F R :=
  exec (Trail.turn rand fuel seed rx) (Trail.init rand seed rx) bs

theorem trail_loop (rand : Rand F R) (fuel seed : Nat) (rx : ReceiverSpec F)
    (bs : List (Broadcast F)) :
    (trail rand fuel seed rx bs).loop = Loop.run rand fuel seed rx bs := by
  have hturn : ∀ (tr : Trail F R) (b : Broadcast F),
      (tr.turn rand fuel seed rx b).loop = tr.loop.turn rand fuel seed rx b := by
    intro tr b
    unfold Trail.turn
    simp only []
    split_ifs <;> rfl
  unfold trail Loop.run
  induction bs using List.reverseRecOn with
  | nil => rfl
  | append_singleton bs b ih => rw [exec_append, exec_cons, exec_nil, hturn, ih, List.foldl_concat]

theorem heartbeats_plain (fuel : Nat) (nextHb t : F) :
    ∀ l ∈ (heartbeats fuel nextHb t).1, plain l.msg = true := by
  intro l hl
  rw [(Loop.mem_heartbeats fuel nextHb t l hl).1]
  rfl

omit [F64Ln F] in
theorem announce_lines (s : Loop F R) (icao : Icao) (t : F) :
    ∃ news : List (Line F), (∀ l ∈ news, plain l.msg = true) ∧
      (s.announce icao t).lines = s.lines ++ news := by
  unfold Loop.announce
  split_ifs
  · exact ⟨[], fun l hl => absurd hl List.not_mem_nil, (List.append_nil s.lines).symm⟩
  · refine ⟨[_], fun l hl => ?_, rfl⟩
    rw [List.mem_singleton.mp hl]
    rfl

/-- The lines of one reception: heartbeats, the jump if there was one, the
    announcement, and what becomes of it. -/
theorem Loop.hear_lines (rand : Rand F R) (fuel seed : Nat) (rx : ReceiverSpec F) (s : Loop F R)
    (b : Broadcast F) (h : Hearing F) (hh : h = s.hearing rand seed rx b) :
    ∃ beats news : List (Line F), (∀ l ∈ beats, plain l.msg = true) ∧
      (∀ l ∈ news, plain l.msg = true) ∧
      (s.hear rand fuel seed rx b).lines = s.lines ++ (beats ++
        ((if h.jumped = true then [{ t := h.t, msg := .clockJump "jump", about := none }] else []) ++
          (news ++ (outcome (s.pending b.icao) b h.t h.count).2))) := by
  -- The state after the heartbeats, after the reading, and after the jump.
  set s₁ := ({ s with mpRng := (s.arrive rand rx b).2 } : Loop F R).beat fuel h.t with hs₁
  set s₂ := (s₁.stamp rand seed rx b h.t).1 with hs₂
  set s₃ := (if h.jumped = true then s₂.push h.t none (.clockJump "jump") else s₂) with hs₃
  rcases announce_lines s₃ b.icao h.t with ⟨news, hnews, hannounce⟩
  have heq : s.hear rand fuel seed rx b = (s₃.announce b.icao h.t).report b h.t h.count := by
    rw [hs₃, hs₂, hs₁, hh]
    rfl
  have hpending : (s₃.announce b.icao h.t).pending = s.pending := by
    rw [(aligned_announce s₃ b.icao h.t).pending, hs₃]
    split_ifs <;> rfl
  have hjump : s₃.lines = s.lines ++ (heartbeats fuel s.nextHb h.t).1 ++
      (if h.jumped = true then [{ t := h.t, msg := .clockJump "jump", about := none }] else []) := by
    rw [hs₃]
    split_ifs
    · rfl
    · rw [List.append_nil]
      rfl
  refine ⟨(heartbeats fuel s.nextHb h.t).1, news, heartbeats_plain fuel s.nextHb h.t, hnews, ?_⟩
  rw [heq, report_lines, hannounce, hjump, hpending]
  simp only [List.append_assoc]

/-- A report becomes a pair with its partner, or waits; anything else is one line. -/
theorem outcome_hearing (heard : List (Hearing F)) (h : Hearing F) :
    outcome (((waiting heard).half h.b.icao).map fun p => p.2.half) h.b h.t h.count =
      (((waiting (heard ++ [h])).half h.b.icao).map fun p => p.2.half,
        if h.key = none then
          [{ t := h.t, msg := .mlat h.count (hexEncode h.b.bytes), about := some h.b.icao }]
        else ((waiting heard).partner Hearing.key Hearing.fits h).toList.map fun p =>
          { t := h.t, msg := p.2.syncWith h, about := some h.b.icao }) := by
  unfold waiting
  rw [half_concat]
  cases hkind : h.b.kind with
  | df17 odd =>
      have hkey : h.key = some h.b.icao := by
        rw [Hearing.key, hkind]
        rfl
      have hhalf : ({ odd := odd, tArrive := h.t, count := h.count, bytes := h.b.bytes } :
          PendingHalf F) = h.half := by
        rw [Hearing.half, hkind]
        rfl
      have hsome : ¬ h.key = none := by
        rw [hkey]
        exact Option.some_ne_none _
      rw [if_pos hkey, if_neg hsome, outcome, hkind, Waits.partner, hkey, Option.bind_some]
      simp only [hhalf]
      cases hw : (waits Hearing.key Hearing.fits heard).half h.b.icao with
      | none => rfl
      | some q =>
          rcases q with ⟨i, p⟩
          -- Who waits is a position report, so it has a parity.
          rcases half_spec Hearing.key Hearing.fits heard h.b.icao i p hw with ⟨_, _, _, _, hp, _⟩
          rcases Option.map_eq_some_iff.mp hp with ⟨po, hpo, _⟩
          have hfits : p.fits h = true ↔ p.half.odd ≠ odd ∧ h.t - p.half.tArrive < lit 2 := by
            rw [Hearing.fits, decide_eq_true_eq, Hearing.half, hpo, hkind, Option.getD_some]
            exact and_congr (not_congr Option.some_inj) Iff.rfl
          simp only [Option.map_some]
          by_cases hfit : p.fits h = true
          · have hsync : p.syncWith h = if odd = true then
                ClientMsg.sync p.count h.count (hexEncode p.b.bytes) (hexEncode h.b.bytes)
                else .sync h.count p.count (hexEncode h.b.bytes) (hexEncode p.b.bytes) := by
              unfold Hearing.syncWith
              rw [hkind]
              simp only [BroadcastKind.parity, Option.some.injEq]
            rw [if_pos (hfits.mp hfit), Option.filter_some, if_pos hfit]
            exact congrArg (fun msg => ((none : Option (PendingHalf F)),
              [({ t := h.t, msg := msg, about := some h.b.icao } : Line F)])) hsync.symm
          · rw [if_neg fun hpair => hfit (hfits.mpr hpair), Option.filter_some, if_neg hfit]
            rfl
  | df11 =>
      have hkey : h.key = none := by rw [Hearing.key, hkind]; rfl
      rw [if_neg (by rw [hkey]; exact (Option.some_ne_none _).symm), if_pos hkey, outcome, hkind]
  | df4 =>
      have hkey : h.key = none := by rw [Hearing.key, hkind]; rfl
      rw [if_neg (by rw [hkey]; exact (Option.some_ne_none _).symm), if_pos hkey, outcome, hkind]

/-- A line says what it stands for. -/
def Says (heard : List (Hearing F)) (l : Line F) : Source → Prop
  | .jump n => l.msg = .clockJump "jump" ∧ ∃ h, heard[n]? = some h ∧ h.jumped = true ∧ l.t = h.t
  | .sync i j => Partners Hearing.key Hearing.fits heard i j ∧
      ∃ p h, heard[i]? = some p ∧ heard[j]? = some h ∧ l.msg = p.syncWith h ∧ l.t = h.t
  | .other => plain l.msg = true

theorem Says.append (heard : List (Hearing F)) (l : Line F) (src : Source) (h : Says heard l src)
    (g : Hearing F) : Says (heard ++ [g]) l src := by
  have hmore : ∀ (n : Nat) (p : Hearing F), heard[n]? = some p → (heard ++ [g])[n]? = some p := by
    intro n p hp
    rw [List.getElem?_append_left (List.getElem?_eq_some_iff.mp hp).1]
    exact hp
  cases src with
  | jump n =>
      rcases h with ⟨hmsg, p, hp, hrest⟩
      exact ⟨hmsg, p, hmore n p hp, hrest⟩
  | sync i j =>
      rcases h with ⟨hpair, p, q, hp, hq, hrest⟩
      exact ⟨(partners_concat_iff _ _ heard g i j).mpr (Or.inl hpair), p, q, hmore i p hp,
        hmore j q hq, hrest⟩
  | other => exact h

/-- Two lines stand in the order their receptions were made, a jump before the
    pair of the same one. -/
def Upright (x y : Line F × Source) : Prop :=
  ∀ n i j, x.2 = .jump n → y.2 = .sync i j → n ≤ j

/-- What holds of a history: it tells the loop's lines and who waits, every line
    says what it stands for, and every jump and every pair has its line. -/
structure Trail.Kept (tr : Trail F R) : Prop where
  lines : tr.lines.map Prod.fst = tr.loop.lines
  pending : ∀ icao, tr.loop.pending icao =
    ((waiting tr.heard).half icao).map fun p => p.2.half
  told : ∀ x ∈ tr.lines, Says tr.heard x.1 x.2
  jumps : ∀ n h, tr.heard[n]? = some h → h.jumped = true → ∃ x ∈ tr.lines, x.2 = .jump n
  pairs : ∀ i j, Partners Hearing.key Hearing.fits tr.heard i j → ∃ x ∈ tr.lines, x.2 = .sync i j
  upright : tr.lines.Pairwise Upright

theorem sourceOf_plain (n : Nat) (partner : Option Nat) (msg : ClientMsg) (h : plain msg = true) :
    sourceOf n partner msg = .other := by
  cases msg with
  | sync _ _ _ _ => exact absurd h Bool.false_ne_true
  | clockJump _ => exact absurd h Bool.false_ne_true
  | mlat _ _ => rfl
  | seen _ => rfl
  | lost _ => rfl
  | inputConnected _ => rfl
  | inputDisconnected _ => rfl
  | clockReset _ => rfl
  | heartbeat => rfl
  | rateReport _ => rfl

omit [F64Ln F] in
theorem sourceOf_syncWith (n i : Nat) (p h : Hearing F) :
    sourceOf n (some i) (p.syncWith h) = .sync i n := by
  unfold Hearing.syncWith
  split_ifs <;> rfl

/-- Lines that stand for nothing. -/
def Idle (xs : List (Line F × Source)) : Prop :=
  ∀ x ∈ xs, plain x.1.msg = true ∧ x.2 = .other

theorem idle_map (heard : List (Hearing F)) (h : Hearing F) (ls : List (Line F))
    (hls : ∀ l ∈ ls, plain l.msg = true) : Idle (ls.map (Trail.tagged heard h)) := by
  intro x hx
  rcases List.mem_map.mp hx with ⟨l, hl, rfl⟩
  exact ⟨hls l hl, sourceOf_plain _ _ l.msg (hls l hl)⟩

/-- The lines of the jump at a reception, if there was one. -/
def jumpLines (n : Nat) (h : Hearing F) : List (Line F × Source) :=
  if h.jumped = true then [({ t := h.t, msg := .clockJump "jump", about := none }, .jump n)] else []

/-- The line of a reception and its partner, if it has one. -/
def pairLines (heard : List (Hearing F)) (h : Hearing F) : List (Line F × Source) :=
  ((waiting heard).partner Hearing.key Hearing.fits h).toList.map fun p =>
    ({ t := h.t, msg := p.2.syncWith h, about := some h.b.icao }, .sync p.1 heard.length)

/-- The lines of what becomes of a reception, with what they stand for. -/
theorem outcome_sources (heard : List (Hearing F)) (h : Hearing F) :
    ∃ more, Idle more ∧
      (outcome (((waiting heard).half h.b.icao).map fun p => p.2.half) h.b h.t h.count).2.map
        (Trail.tagged heard h) = more ++ pairLines heard h := by
  rw [outcome_hearing, pairLines]
  by_cases hkey : h.key = none
  · have hpartner : (waiting heard).partner Hearing.key Hearing.fits h = none := by
      rw [Waits.partner, hkey, Option.bind_none]
    rw [if_pos hkey, hpartner]
    refine ⟨_, idle_map heard h _ fun l hl => ?_, (List.append_nil _).symm⟩
    rw [List.mem_singleton.mp hl]
    rfl
  · rw [if_neg hkey]
    refine ⟨[], fun x hx => absurd hx List.not_mem_nil, ?_⟩
    cases hpartner : (waiting heard).partner Hearing.key Hearing.fits h with
    | none => rfl
    | some p =>
        simp only [Option.toList_some, List.map_cons, List.map_nil, List.nil_append, Trail.tagged,
          hpartner, Option.map_some, sourceOf_syncWith]

/-- A reception adds its lines, and its report waits or takes its partner. -/
theorem turn_lines (rand : Rand F R) (fuel seed : Nat) (rx : ReceiverSpec F) (tr : Trail F R)
    (b : Broadcast F) (hk : tr.Kept) (hears : tr.loop.hears rand seed rx b = true) (h : Hearing F)
    (hh : h = (tr.loop.draw rand seed rx b).hearing rand seed rx b) :
    ∃ rest more, Idle rest ∧ Idle more ∧
      (tr.turn rand fuel seed rx b).lines = tr.lines ++ (rest ++ (jumpLines tr.heard.length h ++
        (more ++ pairLines tr.heard h))) ∧
      (tr.turn rand fuel seed rx b).lines.map Prod.fst =
        (tr.turn rand fuel seed rx b).loop.lines ∧
      (tr.turn rand fuel seed rx b).heard = tr.heard ++ [h] ∧
      ∀ icao, (tr.turn rand fuel seed rx b).loop.pending icao =
        ((waiting (tr.heard ++ [h])).half icao).map fun p => p.2.half := by
  have hb : h.b = b := by rw [hh]; rfl
  have hloop := Loop.turn_hear rand fuel seed rx tr.loop b hears
  have hwait : (tr.loop.draw rand seed rx b).pending b.icao =
      ((waiting tr.heard).half h.b.icao).map fun p => p.2.half := by
    rw [hb]
    exact hk.pending b.icao
  rcases Loop.hear_lines rand fuel seed rx _ b h hh with ⟨beats, news, hbeats, hnews, hlines⟩
  rw [← hloop, hwait] at hlines
  rcases outcome_sources tr.heard h with ⟨more, hmore, hsources⟩
  rw [hb] at hlines hsources
  have hturn : tr.turn rand fuel seed rx b =
      { loop := tr.loop.turn rand fuel seed rx b, heard := tr.heard ++ [h]
        lines := tr.lines ++ ((tr.loop.turn rand fuel seed rx b).lines.drop
          tr.loop.lines.length).map (Trail.tagged tr.heard h) } := by
    unfold Trail.turn
    rw [if_pos hears, hh]
  have hjump : (if h.jumped = true then
      [({ t := h.t, msg := .clockJump "jump", about := none } : Line F)] else []).map
        (Trail.tagged tr.heard h) = jumpLines tr.heard.length h := by
    unfold jumpLines
    split_ifs <;> rfl
  -- The lines are those of the loop, with what they stand for beside them.
  have hid : ∀ ls : List (Line F), (ls.map (Trail.tagged tr.heard h)).map Prod.fst = ls :=
    fun ls => List.map_map.trans (List.map_id ls)
  rw [hturn]
  refine ⟨beats.map (Trail.tagged tr.heard h), news.map (Trail.tagged tr.heard h) ++ more,
    idle_map _ _ beats hbeats, ?_, ?_, ?_, rfl, ?_⟩
  · intro x hx
    rcases List.mem_append.mp hx with hx | hx
    · exact idle_map _ _ news hnews x hx
    · exact hmore x hx
  · rw [hlines]
    have hdrop : ∀ ls : List (Line F), ((tr.loop.draw rand seed rx b).lines ++ ls).drop
        tr.loop.lines.length = ls := fun ls => List.drop_left
    simp only [hdrop, List.map_append, hsources, hjump, List.append_assoc]
  · rw [List.map_append, hk.lines, hid, hlines]
    exact congrArg (tr.loop.lines ++ ·) List.drop_left
  · intro icao
    have hpending := (Loop.turn_heard rand fuel seed rx tr.loop b hears).pending
    simp only []
    rw [hpending]
    -- Only the halves of the aircraft change.
    by_cases hicao : icao = b.icao
    · rw [hicao, Function.update_self, hwait, ← hb]
      subst hh
      exact congrArg Prod.fst (outcome_hearing tr.heard _)
    · have hkey : h.key ≠ some icao := by
        intro hkey
        rcases Option.map_eq_some_iff.mp hkey with ⟨_, _, heq⟩
        rw [hb] at heq
        exact hicao heq.symm
      rw [Function.update_of_ne hicao, waiting, half_concat, if_neg hkey]
      exact hk.pending icao

theorem says_jumpLines (heard : List (Hearing F)) (h : Hearing F) :
    ∀ x ∈ jumpLines heard.length h, Says (heard ++ [h]) x.1 x.2 ∧ x.2 = .jump heard.length := by
  intro x hx
  unfold jumpLines at hx
  split_ifs at hx with hjumped
  · rw [List.mem_singleton.mp hx]
    exact ⟨⟨rfl, h, List.getElem?_concat_length, hjumped, rfl⟩, rfl⟩
  · exact absurd hx List.not_mem_nil

theorem says_pairLines (heard : List (Hearing F)) (h : Hearing F) :
    ∀ x ∈ pairLines heard h, Says (heard ++ [h]) x.1 x.2 ∧ ∃ i, x.2 = .sync i heard.length := by
  intro x hx
  rcases List.mem_map.mp hx with ⟨⟨i, p⟩, hp, rfl⟩
  rw [Option.mem_toList] at hp
  rcases (partner_eq_some_iff Hearing.key Hearing.fits _ h (i, p)).mp hp with ⟨k, _, hhalf, _⟩
  have hi := half_getElem? Hearing.key Hearing.fits heard k i p hhalf
  refine ⟨⟨?_, p, h, ?_, List.getElem?_concat_length, rfl, rfl⟩, i, rfl⟩
  · exact (partners_concat_iff _ _ heard h i _).mpr (Or.inr ⟨rfl, p, hp⟩)
  · rw [List.getElem?_append_left (List.getElem?_eq_some_iff.mp hi).1]
    exact hi

/-- What a reception adds stands for nothing, for its jump, or for its pair. -/
theorem says_new (heard : List (Hearing F)) (h : Hearing F) (rest more : List (Line F × Source))
    (hrest : Idle rest) (hmore : Idle more) :
    ∀ x ∈ rest ++ (jumpLines heard.length h ++ (more ++ pairLines heard h)),
      Says (heard ++ [h]) x.1 x.2 ∧ (∀ n, x.2 = .jump n → n = heard.length) ∧
        ∀ i j, x.2 = .sync i j → j = heard.length := by
  have hidle : ∀ x : Line F × Source, plain x.1.msg = true ∧ x.2 = .other →
      Says (heard ++ [h]) x.1 x.2 ∧ (∀ n, x.2 = .jump n → n = heard.length) ∧
      ∀ i j, x.2 = .sync i j → j = heard.length := by
    rintro ⟨l, src⟩ ⟨hplain, rfl⟩
    exact ⟨hplain, fun n hn => Source.noConfusion hn, fun i j hij => Source.noConfusion hij⟩
  intro x hx
  rcases List.mem_append.mp hx with hx | hx
  · exact hidle x (hrest x hx)
  rcases List.mem_append.mp hx with hx | hx
  · rcases says_jumpLines heard h x hx with ⟨htold, hsrc⟩
    refine ⟨htold, fun n hn => ?_, fun i j hij => ?_⟩
    · exact (Source.jump.inj (hsrc.symm.trans hn)).symm
    · exact Source.noConfusion (hsrc.symm.trans hij)
  rcases List.mem_append.mp hx with hx | hx
  · exact hidle x (hmore x hx)
  · rcases says_pairLines heard h x hx with ⟨htold, i', hsrc⟩
    refine ⟨htold, fun n hn => ?_, fun i j hij => ?_⟩
    · exact Source.noConfusion (hsrc.symm.trans hn)
    · exact (Source.sync.inj (hsrc.symm.trans hij)).2.symm

theorem kept_init (rand : Rand F R) (seed : Nat) (rx : ReceiverSpec F) :
    (Trail.init rand seed rx).Kept where
  lines := rfl
  pending _ := rfl
  told x hx := by
    rw [List.mem_singleton.mp hx]
    rfl
  jumps n h hn := absurd hn (Option.some_ne_none h).symm
  pairs i j h := by
    rcases h with ⟨x, _, hx, _⟩
    exact absurd hx (Option.some_ne_none x).symm
  upright := List.pairwise_singleton _ _

/-- A transmission out of earshot adds nothing to a history. -/
theorem kept_unheard (rand : Rand F R) (fuel seed : Nat) (rx : ReceiverSpec F) (tr : Trail F R)
    (b : Broadcast F) (hk : tr.Kept) (hears : tr.loop.hears rand seed rx b = false) :
    (tr.turn rand fuel seed rx b).Kept := by
  have hturn : tr.turn rand fuel seed rx b =
      { tr with loop := tr.loop.turn rand fuel seed rx b } := by
    unfold Trail.turn
    rw [if_neg (by rw [hears]; exact Bool.false_ne_true)]
  have hsame : (tr.loop.turn rand fuel seed rx b).lines = tr.loop.lines ∧
      (tr.loop.turn rand fuel seed rx b).pending = tr.loop.pending := by
    rw [Loop.turn_unheard rand fuel seed rx tr.loop b hears]
    split_ifs <;> exact ⟨rfl, rfl⟩
  rw [hturn]
  refine ⟨hk.lines.trans hsame.1.symm, fun icao => ?_, hk.told, hk.jumps, hk.pairs, hk.upright⟩
  exact (congrFun hsame.2 icao).trans (hk.pending icao)

/-- A reception keeps what holds of a history. -/
theorem kept_heard (rand : Rand F R) (fuel seed : Nat) (rx : ReceiverSpec F) (tr : Trail F R)
    (b : Broadcast F) (hk : tr.Kept) (hears : tr.loop.hears rand seed rx b = true) :
    (tr.turn rand fuel seed rx b).Kept := by
  rcases turn_lines rand fuel seed rx tr b hk hears _ rfl with
    ⟨rest, more, hrest, hmore, hlines, hfst, hheard, hpending⟩
  generalize (tr.loop.draw rand seed rx b).hearing rand seed rx b = h at hlines hheard hpending
  set new := rest ++ (jumpLines tr.heard.length h ++ (more ++ pairLines tr.heard h))
  have hnew := says_new tr.heard h rest more hrest hmore
  constructor
  · exact hfst
  · rw [hheard]
    exact hpending
  · rw [hlines, hheard]
    intro x hx
    rcases List.mem_append.mp hx with hx | hx
    · exact Says.append tr.heard x.1 x.2 (hk.told x hx) h
    · exact (hnew x hx).1
  · rw [hlines, hheard]
    intro n g hg hjumped
    rcases Nat.lt_or_ge n tr.heard.length with hn | hn
    · rw [List.getElem?_append_left hn] at hg
      rcases hk.jumps n g hg hjumped with ⟨x, hx, hsrc⟩
      exact ⟨x, List.mem_append_left _ hx, hsrc⟩
    · have hlen := (List.getElem?_eq_some_iff.mp hg).1
      rw [List.length_append, List.length_singleton] at hlen
      have hnlen : n = tr.heard.length := by omega
      rw [hnlen, List.getElem?_concat_length, Option.some.injEq] at hg
      -- The jump is that of the reception, which has a line among the new ones.
      have hmem : (({ t := h.t, msg := .clockJump "jump", about := none } : Line F),
          Source.jump tr.heard.length) ∈ jumpLines tr.heard.length h := by
        rw [jumpLines, hg, if_pos hjumped]
        exact List.mem_singleton.mpr rfl
      exact ⟨_, List.mem_append_right _ (List.mem_append_right _ (List.mem_append_left _ hmem)),
        congrArg Source.jump hnlen.symm⟩
  · rw [hlines, hheard]
    intro i j hpair
    -- A pair is an old one, or that of the reception and its partner.
    rcases (partners_concat_iff _ _ tr.heard h i j).mp hpair with hpair | ⟨rfl, p, hp⟩
    · rcases hk.pairs i j hpair with ⟨x, hx, hsrc⟩
      exact ⟨x, List.mem_append_left _ hx, hsrc⟩
    · refine ⟨_, List.mem_append_right _ (List.mem_append_right _ (List.mem_append_right _
        (List.mem_append_right _ (List.mem_map.mpr ⟨(i, p), ?_, rfl⟩)))), rfl⟩
      rw [Option.mem_toList]
      exact hp
  · rw [hlines, List.pairwise_append]
    -- Old lines are of earlier receptions.
    refine ⟨hk.upright, List.pairwise_of_forall_mem_list ?_, ?_⟩
    · intro x hx y hy n i j hn hij
      rw [(hnew x hx).2.1 n hn, (hnew y hy).2.2 i j hij]
    · intro x hx y hy n i j hn hij
      have htold := hk.told x hx
      rw [hn] at htold
      rcases htold with ⟨_, g, hg, _⟩
      rw [(hnew y hy).2.2 i j hij]
      exact Nat.le_of_lt (List.getElem?_eq_some_iff.mp hg).1

/-- A transmission keeps what holds of a history. -/
theorem kept_turn (rand : Rand F R) (fuel seed : Nat) (rx : ReceiverSpec F) (tr : Trail F R)
    (b : Broadcast F) (hk : tr.Kept) : (tr.turn rand fuel seed rx b).Kept := by
  cases hears : tr.loop.hears rand seed rx b with
  | false => exact kept_unheard rand fuel seed rx tr b hk hears
  | true => exact kept_heard rand fuel seed rx tr b hk hears

/-- What holds of a history holds after a run. -/
theorem kept_trail (rand : Rand F R) (fuel seed : Nat) (rx : ReceiverSpec F)
    (bs : List (Broadcast F)) : (trail rand fuel seed rx bs).Kept :=
  List.foldlRecOn bs _ (motive := fun tr : Trail F R => tr.Kept) (kept_init rand seed rx)
    fun tr hk b _ => kept_turn rand fuel seed rx tr b hk

end

end Sim

end MlatBench
