import MlatBench.Core.Locards
import MlatBench.Theory.Stamps
import MlatBench.Theory.Trail

/-!
# Each Reception Once

Both pairers of position reports, that of simulated receivers and that of
recorded sensors, pair in the sense of `Library.Partners`: the sync lines of a
client are the pairs of its receptions, in order. So every line has an even and
an odd report of one aircraft, the later less than two seconds after the
earlier, the even one's count and frame in front, and no reception is in two
lines.

The receptions of a recorded sensor are its stamps in the transmissions that
were used, in order, and a transmission is used for one row.

## Main definitions

* `Pairer`, `Pairer.Tells`: How a message tells of two receptions.
* `PairedOnce`: Messages pair receptions, each at most once.
* `Locards.receptions`: What a recorded sensor has heard.
* `Locards.Made`: A transmission is made from its row.

## Theorems

* `paired_once`: Pairs in the sense of the library pair once.
* `Sim.trail_syncs`: The sync lines of a simulated receiver.
* `Locards.heard_syncs`: The sync lines of a recorded sensor.
* `Locards.importRows_clients`: What every client has heard.
* `sync_lines_pair_once`: What clients send.
-/

namespace MlatBench

open Library F64

/-- How receptions are told of: parity, aircraft and time, and the message of an
    even and an odd one. -/
structure Pairer (F α μ : Type) where
  parity : α → Option Bool
  icao : α → Icao
  time : α → F
  msg : α → α → μ

section

variable {F α μ : Type} [F64 F]

/-- A message tells of a reception and a later one of the same aircraft, less than
    two seconds apart, the even one in front. -/
def Pairer.Tells (P : Pairer F α μ) (p h : α) (m : μ) : Prop :=
  ∃ e o, (e = p ∧ o = h ∨ e = h ∧ o = p) ∧ P.parity e = some false ∧ P.parity o = some true ∧
    P.icao e = P.icao o ∧ P.time h - P.time p < lit 2 ∧ m = P.msg e o

/-- Messages, in some order, tell of pairs of receptions that have no reception in
    common. -/
def PairedOnce (P : Pairer F α μ) (heard : List α) (ms : List μ) : Prop :=
  ∃ ps : List ((Nat × α) × (Nat × α)), ∃ ns, ms.Perm ns ∧
    List.Forall₂ (fun q n => P.Tells q.1.2 q.2.2 n) ps ns ∧ ps.Pairwise Apart ∧
    ∀ q ∈ ps, q.1.1 < q.2.1 ∧ heard[q.1.1]? = some q.1.2 ∧ heard[q.2.1]? = some q.2.2

/-- Partners fit, and are told of by their message. -/
def Pairer.key (P : Pairer F α μ) (h : α) : Option Icao :=
  (P.parity h).map fun _ => P.icao h

def Pairer.fits (P : Pairer F α μ) (p h : α) : Bool :=
  decide (P.parity p ≠ P.parity h ∧ P.time h - P.time p < lit 2)

/-- The message of a reception and a later one. -/
def Pairer.tell (P : Pairer F α μ) (p h : α) : μ :=
  if P.parity h = some true then P.msg p h else P.msg h p

theorem Pairer.tells (P : Pairer F α μ) (p h : α) (k : Icao) (hp : P.key p = some k)
    (hh : P.key h = some k) (hfits : P.fits p h = true) : P.Tells p h (P.tell p h) := by
  rcases Option.map_eq_some_iff.mp hp with ⟨a, ha, hpk⟩
  rcases Option.map_eq_some_iff.mp hh with ⟨b, hb, hhk⟩
  rcases of_decide_eq_true hfits with ⟨hne, htime⟩
  have hsame : P.icao p = P.icao h := hpk.trans hhk.symm
  rw [ha, hb] at hne
  unfold Pairer.tell
  rw [hb]
  cases b with
  | true =>
      have hfalse : a = false := Bool.eq_false_of_not_eq_true fun h => hne (congrArg some h)
      rw [hfalse] at ha
      exact ⟨p, h, Or.inl ⟨rfl, rfl⟩, ha, hb, hsame, htime, if_pos rfl⟩
  | false =>
      have htrue : a = true := Bool.eq_true_of_not_eq_false fun h => hne (congrArg some h)
      rw [htrue] at ha
      exact ⟨h, p, Or.inr ⟨rfl, rfl⟩, hb, ha, hsame.symm, htime,
        if_neg (by rw [Option.some.injEq]; exact Bool.false_ne_true)⟩

/-- The messages of all pairs, in some order, pair each reception at most once. -/
theorem paired_once (P : Pairer F α μ) (heard : List α) (ms : List μ)
    (hms : ms.Perm ((pairs P.key P.fits heard).map fun q => P.tell q.1.2 q.2.2)) :
    PairedOnce P heard ms := by
  refine ⟨_, _, hms, ?_, pairs_apart P.key P.fits heard, fun q hq => ?_⟩
  · rw [List.forall₂_map_right_iff, List.forall₂_same]
    intro q hq
    rcases pairs_spec P.key P.fits heard q hq with ⟨_, _, _, hfits, k, hp, hh⟩
    exact P.tells q.1.2 q.2.2 k hp hh hfits
  · rcases pairs_spec P.key P.fits heard q hq with ⟨hlt, hp, hh, _⟩
    exact ⟨hlt, hp, hh⟩

end

namespace Sim

open Modes Proto

/-- A message is a sync message. -/
def isSync : ClientMsg → Bool
  | .sync _ _ _ _ => true
  | _ => false

/-- How a simulated receiver pairs. -/
def pairer (F : Type) : Pairer F (Hearing F) ClientMsg where
  parity h := h.b.kind.parity
  icao h := h.b.icao
  time h := h.t
  msg e o := .sync e.count o.count (hexEncode e.b.bytes) (hexEncode o.b.bytes)

section

variable {F R : Type} [F64Ln F]

/-- The line of a pair. -/
def pairLine (q : (Nat × Hearing F) × (Nat × Hearing F)) : Line F :=
  { t := q.2.2.t, msg := (pairer F).tell q.1.2 q.2.2, about := some q.2.2.b.icao }

omit [F64Ln F] in
theorem idle_syncs (xs : List (Line F × Source)) (hxs : Idle xs) :
    (xs.map Prod.fst).filter (fun l => isSync l.msg) = [] := by
  rw [List.filter_eq_nil_iff]
  intro l hl
  rcases List.mem_map.mp hl with ⟨x, hx, rfl⟩
  have hplain := (hxs x hx).1
  cases hmsg : x.1.msg <;> rw [hmsg] at hplain
  all_goals first
    | exact absurd hplain Bool.false_ne_true
    | exact Bool.false_ne_true

/-- The sync lines of a receiver are the pairs of its receptions. -/
theorem trail_syncs (rand : Rand F R) (fuel seed : Nat) (rx : ReceiverSpec F)
    (bs : List (Broadcast F)) :
    (trail rand fuel seed rx bs).loop.lines.filter (fun l => isSync l.msg) =
      (pairs (pairer F).key (pairer F).fits (trail rand fuel seed rx bs).heard).map pairLine := by
  induction bs using List.reverseRecOn with
  | nil => rfl
  | append_singleton bs b ih =>
      have hk := kept_trail rand fuel seed rx bs
      unfold trail at ih hk ⊢
      rw [exec_append, exec_cons, exec_nil]
      generalize exec (Trail.turn rand fuel seed rx) (Trail.init rand seed rx) bs = tr at ih hk ⊢
      cases hears : tr.loop.hears rand seed rx b with
      | false =>
          -- A transmission that is not heard leaves no line.
          have hturn : tr.turn rand fuel seed rx b =
              { tr with loop := tr.loop.turn rand fuel seed rx b } := by
            unfold Trail.turn
            rw [if_neg (by rw [hears]; exact Bool.false_ne_true)]
          have hkept := (kept_unheard rand fuel seed rx tr b hk hears).lines
          rw [hturn] at hkept ⊢
          rw [← hkept, hk.lines]
          exact ih
      | true =>
          rcases turn_lines rand fuel seed rx tr b hk hears _ rfl with
            ⟨rest, more, hrest, hmore, hlines, hfst, hheard, _⟩
          rw [← hfst, hlines, hheard, pairs_concat]
          simp only [List.map_append, List.filter_append]
          rw [← ih, ← hk.lines, idle_syncs rest hrest, idle_syncs more hmore, List.nil_append,
            List.nil_append]
          generalize (tr.loop.draw rand seed rx b).hearing rand seed rx b = h
          -- The line of a jump is no sync line, that of a pair is one.
          have hjump : ((jumpLines tr.heard.length h).map Prod.fst).filter
              (fun l => isSync l.msg) = [] := by
            unfold jumpLines
            split_ifs <;> rfl
          have hpair : ((pairLines tr.heard h).map Prod.fst).filter (fun l => isSync l.msg) =
              (((waits (pairer F).key (pairer F).fits tr.heard).partner (pairer F).key
                (pairer F).fits h).toList.map fun p => (p, (tr.heard.length, h))).map pairLine := by
            unfold pairLines
            change List.filter _ (List.map _ (List.map _ ((waits (pairer F).key (pairer F).fits
              tr.heard).partner (pairer F).key (pairer F).fits h).toList)) = _
            cases (waits (pairer F).key (pairer F).fits tr.heard).partner (pairer F).key
              (pairer F).fits h with
            | none => rfl
            | some p =>
                refine List.filter_eq_self.mpr fun l hl => ?_
                rw [List.mem_singleton.mp hl]
                change isSync (p.2.syncWith h) = true
                unfold Hearing.syncWith
                split_ifs <;> rfl
          rw [hjump, hpair, List.nil_append]

/-- A reception was transmitted, is in earshot, and arrived as it is told. -/
def Received (rand : Rand F R) (rx : ReceiverSpec F) (bs : List (Broadcast F)) (h : Hearing F) :
    Prop :=
  h.b ∈ bs ∧ audible rx h.b.pos = true ∧ Arrival rand rx h.b h.t

theorem trail_received (rand : Rand F R) (fuel seed : Nat) (rx : ReceiverSpec F)
    (bs : List (Broadcast F)) :
    ∀ h ∈ (trail rand fuel seed rx bs).heard, Received rand rx bs h := by
  induction bs using List.reverseRecOn with
  | nil => exact fun h hh => absurd hh List.not_mem_nil
  | append_singleton bs b ih =>
      have hmore : ∀ h, Received rand rx bs h → Received rand rx (bs ++ [b]) h :=
        fun h hr => ⟨List.mem_append_left _ hr.1, hr.2⟩
      unfold trail at ih ⊢
      rw [exec_append, exec_cons, exec_nil]
      unfold Trail.turn
      simp only []
      split_ifs with hears
      · intro h hh
        rcases List.mem_append.mp hh with hh | hh
        · exact hmore h (ih h hh)
        · rw [List.mem_singleton.mp hh]
          refine ⟨List.mem_append_right _ (List.mem_singleton.mpr rfl), ?_, ?_⟩
          · exact (Bool.and_eq_true_iff.mp hears).1
          · exact Loop.arrive_arrival rand rx _ b
      · exact fun h hh => hmore h (ih h hh)

/-- The sync lines a client sends pair its receptions, each at most once. -/
theorem buildClient_pairs (rand : Rand F R) (fuel : Nat) (sc : Scenario F) (rx : ReceiverSpec F)
    (bs : List (Broadcast F)) (c : ClientStream F)
    (hbuild : buildClient rand fuel sc rx bs = some c) :
    PairedOnce (pairer F) (trail rand fuel sc.seed rx bs).heard
      (((c.records.flatMap SendRecord.lines).map Line.msg).filter isSync) := by
  refine paired_once (pairer F) _ _ ?_
  rw [(buildClient_lines rand fuel sc rx bs c hbuild).2]
  have hsort := (List.perm_insertionSort (fun a b : Line F => totalLe a.t b.t)
    (Loop.run rand fuel sc.seed rx bs).lines).map Line.msg
  refine (hsort.filter isSync).trans (List.Perm.of_eq ?_)
  rw [List.filter_map, ← trail_loop]
  have hsyncs := congrArg (List.map Line.msg) (trail_syncs rand fuel sc.seed rx bs)
  rw [List.map_map] at hsyncs
  exact hsyncs

end

end Sim

namespace Locards

open Modes Sim

/-- A message is a sync message. -/
def Told.isSync : Told → Bool
  | .sync _ _ _ _ => true
  | _ => false

section

variable {F R : Type} [F64Fn F]

/-- How a recorded sensor pairs: a reception is a transmission and its stamp. -/
def pairer (F : Type) [F64Fn F] : Pairer F (Sent F × F) Told where
  parity h := h.1.odd
  icao h := h.1.icao
  time h := h.1.tServer
  msg e o := .sync (counts e.2) e.1.hex (counts o.2) o.1.hex

/-- A client after some receptions. -/
def heardAll (hs : List (Sent F × F)) : ClientAcc F :=
  hs.foldl (fun acc h => acc.hear h.1 h.2) .empty

/-- A report as a half that waits. -/
def half (h : Sent F × F) : Half F :=
  { odd := h.1.odd.getD false, tServer := h.1.tServer, ns := h.2, hex := h.1.hex }

/-- The line of a pair. -/
def pairLine (q : (Nat × (Sent F × F)) × (Nat × (Sent F × F))) : F × Told :=
  (q.2.2.1.tServer, (pairer F).tell q.1.2 q.2.2)

omit [F64Fn F] in
theorem announce_syncs (acc : ClientAcc F) (icao : Icao) (t : F) :
    (acc.announce icao t).pending = acc.pending ∧
      (acc.announce icao t).lines.filter (fun l => l.2.isSync) =
        acc.lines.filter (fun l => l.2.isSync) := by
  unfold ClientAcc.announce
  split_ifs
  · exact ⟨rfl, rfl⟩
  · refine ⟨rfl, ?_⟩
    simp only [List.filter_append]
    exact List.append_nil _

/-- A report takes the half that waits for its aircraft as its partner, if it fits,
    or waits in its place. -/
theorem pair_spec (acc : ClientAcc F) (h : Sent F × F) (odd : Bool)
    (w : Option (Nat × (Sent F × F))) (hodd : h.1.odd = some odd)
    (hw : acc.pending h.1.icao = w.map fun p => half p.2)
    (hparity : ∀ p ∈ w, ∃ po, p.2.1.odd = some po) :
    (acc.pair h.1.icao odd h.1.tServer h.2 h.1.hex).pending =
      Function.update acc.pending h.1.icao
        (if (w.filter fun p => (pairer F).fits p.2 h).isSome = true then none else some (half h)) ∧
    (acc.pair h.1.icao odd h.1.tServer h.2 h.1.hex).lines = acc.lines ++
      (w.filter fun p => (pairer F).fits p.2 h).toList.map fun p =>
        (h.1.tServer, (pairer F).tell p.2 h) := by
  have hhalf : ({ odd := odd, tServer := h.1.tServer, ns := h.2, hex := h.1.hex } : Half F) =
      half h := by
    rw [half, hodd, Option.getD_some]
  unfold ClientAcc.pair
  simp only [hhalf]
  rw [hw]
  cases w with
  | none => exact ⟨rfl, (List.append_nil _).symm⟩
  | some p =>
      -- The half that waits has a parity, so the sources' tests agree.
      rcases hparity p rfl with ⟨po, hpo⟩
      have hfits : (pairer F).fits p.2 h = true ↔
          (half p.2).odd ≠ odd ∧ h.1.tServer - (half p.2).tServer < lit 2 := by
        rw [Pairer.fits, decide_eq_true_eq, half, hpo, Option.getD_some]
        change p.2.1.odd ≠ h.1.odd ∧ _ ↔ _
        rw [hpo, hodd]
        exact and_congr (not_congr Option.some_inj) Iff.rfl
      simp only [Option.map_some]
      rw [Option.filter_some]
      by_cases hfit : (pairer F).fits p.2 h = true
      · have htell : (if odd = true then
            Told.sync (counts (half p.2).ns) (half p.2).hex (counts h.2) h.1.hex
            else .sync (counts h.2) h.1.hex (counts (half p.2).ns) (half p.2).hex) =
            (pairer F).tell p.2 h := by
          unfold Pairer.tell
          change _ = if h.1.odd = some true then _ else _
          rw [hodd]
          simp only [Option.some.injEq]
          rfl
        rw [if_pos (hfits.mp hfit), if_pos hfit, htell]
        exact ⟨rfl, rfl⟩
      · rw [if_neg fun hpair => hfit (hfits.mpr hpair), if_neg hfit]
        exact ⟨rfl, (List.append_nil _).symm⟩

/-- A client keeps the reports that wait, and says the pairs of its receptions. -/
theorem heard_syncs (hs : List (Sent F × F)) :
    (∀ icao, (heardAll hs).pending icao =
      ((waits (pairer F).key (pairer F).fits hs).half icao).map fun p => half p.2) ∧
    (heardAll hs).lines.filter (fun l => l.2.isSync) =
      (pairs (pairer F).key (pairer F).fits hs).map pairLine := by
  induction hs using List.reverseRecOn with
  | nil => exact ⟨fun _ => rfl, rfl⟩
  | append_singleton hs h ih =>
      have hfold : heardAll (hs ++ [h]) = (heardAll hs).hear h.1 h.2 := List.foldl_concat _ _ _ _
      rw [hfold, pairs_concat]
      generalize heardAll hs = acc at ih ⊢
      rcases ih with ⟨hpending, hsyncs⟩
      rcases announce_syncs acc h.1.icao h.1.tServer with ⟨hann, hannsyncs⟩
      unfold ClientAcc.hear
      simp only [half_concat]
      generalize acc.announce h.1.icao h.1.tServer = acc' at hann hannsyncs ⊢
      rw [← hann] at hpending
      rw [← hannsyncs] at hsyncs
      cases hodd : h.1.odd with
      | none =>
          -- A reply to be located waits for nobody.
          have hkey : (pairer F).key h = none := by
            change h.1.odd.map _ = none
            rw [hodd, Option.map_none]
          have hpartner : (waits (pairer F).key (pairer F).fits hs).partner (pairer F).key
              (pairer F).fits h = none := by
            rw [Waits.partner, hkey, Option.bind_none]
          rw [hkey, hpartner]
          refine ⟨fun icao => ?_, ?_⟩
          · rw [if_neg (Option.some_ne_none icao).symm]
            exact hpending icao
          · simp only [List.filter_append, hsyncs, Option.toList_none, List.map_nil]
            rw [List.append_nil]
            exact List.append_nil _
      | some odd =>
          -- A report looks for the half that waits for its aircraft.
          have hkey : (pairer F).key h = some h.1.icao := by
            change h.1.odd.map _ = _
            rw [hodd, Option.map_some]
            rfl
          have hwaits : ∀ p ∈ (waits (pairer F).key (pairer F).fits hs).half h.1.icao,
              ∃ po, p.2.1.odd = some po := by
            rintro ⟨i, p⟩ hp
            rcases half_spec (pairer F).key (pairer F).fits hs h.1.icao i p hp with
              ⟨_, _, _, _, hkp, _⟩
            rcases Option.map_eq_some_iff.mp hkp with ⟨po, hpo, _⟩
            exact ⟨po, hpo⟩
          rcases pair_spec acc' h odd _ hodd (hpending h.1.icao) hwaits with ⟨hpair, hlines⟩
          have hpartner : (waits (pairer F).key (pairer F).fits hs).partner (pairer F).key
              (pairer F).fits h = ((waits (pairer F).key (pairer F).fits hs).half h.1.icao).filter
                fun p => (pairer F).fits p.2 h := by
            rw [Waits.partner, hkey, Option.bind_some]
          simp only [hpair, hlines]
          rw [hkey, hpartner]
          generalize ((waits (pairer F).key (pairer F).fits hs).half h.1.icao).filter
            (fun p => (pairer F).fits p.2 h) = partner
          constructor
          · intro icao
            by_cases hicao : h.1.icao = icao
            · rw [← hicao, Function.update_self, if_pos rfl]
              split_ifs <;> rfl
            · rw [Function.update_of_ne fun h => hicao h.symm,
                if_neg fun h => hicao (Option.some.inj h)]
              exact hpending icao
          · rw [List.filter_append, hsyncs, List.map_append]
            refine congrArg (_ ++ ·) ?_
            cases partner with
            | none => rfl
            | some p =>
                refine List.filter_eq_self.mpr fun l hl => ?_
                rw [List.mem_singleton.mp hl]
                change ((pairer F).tell p.2 h).isSync = true
                unfold Pairer.tell
                split_ifs <;> rfl

/-- The stamps of a sensor in a transmission. -/
def Sent.heardBy (serial : Nat) (s : Sent F) : List (Sent F × F) :=
  (s.row.meas.filter fun m => m.1 = serial).map fun m => (s, m.2)

/-- What a sensor has heard of some transmissions, nothing if it is not known. -/
def receptions (sensors : Nat → Option (Sensor F)) (serial : Nat) (sent : List (Sent F)) :
    List (Sent F × F) :=
  if (sensors serial).isSome then sent.flatMap (Sent.heardBy serial) else []

/-- A client there is only once its sensor has heard something. -/
def clientOf (hs : List (Sent F × F)) : Option (ClientAcc F) :=
  if hs = [] then none else some (heardAll hs)

/-- A transmission is made from its row: its time, its aircraft, and its frame,
    which says the position of the row if it is a position report. -/
def Made (s : Sent F) : Prop :=
  ∃ acId lat lon baroM f, s.row.tServer = some s.tServer ∧ s.row.acId = some acId ∧
    s.row.lat = some lat ∧ s.row.lon = some lon ∧ s.row.baroM = some baroM ∧
    s.icao = ⟨0x100000 + acId⟩ ∧ Import.frame s.icao s.odd lat lon baroM = some f ∧
    s.hex = hexEncode f

/-- The clients have heard some transmissions. -/
def Import.Heard (sensors : Nat → Option (Sensor F)) (st : Import F R) (sent : List (Sent F)) :
    Prop :=
  ∀ serial, st.clients serial = clientOf (receptions sensors serial sent)

theorem clientOf_concat (hs : List (Sent F × F)) (h : Sent F × F) :
    clientOf (hs ++ [h]) = some (((clientOf hs).getD .empty).hear h.1 h.2) := by
  have hne : hs ++ [h] ≠ [] := List.append_ne_nil_of_right_ne_nil hs (List.cons_ne_nil h [])
  unfold clientOf
  rw [if_neg hne]
  refine congrArg some ?_
  unfold heardAll
  rw [List.foldl_concat]
  split_ifs with hnil
  · rw [hnil]
    rfl
  · rfl

/-- The stamps of a transmission reach the clients of their sensors. -/
theorem stamps_clients (sensors : Nat → Option (Sensor F)) (s : Sent F) (meas : List (Nat × F))
    (st : Import F R) (hs : Nat → List (Sent F × F))
    (hst : ∀ serial, st.clients serial = clientOf (hs serial)) (serial : Nat) :
    (meas.foldl (Import.stamp sensors s) st).clients serial = clientOf (hs serial ++
      if (sensors serial).isSome then
        (meas.filter fun m => m.1 = serial).map fun m => (s, m.2) else []) := by
  induction meas generalizing st hs with
  | nil =>
      rw [List.filter_nil, List.map_nil, ite_self, List.append_nil]
      exact hst serial
  | cons m meas ih =>
      rw [List.foldl_cons]
      -- What every client has heard with this stamp.
      have hstep : ∀ n, (st.stamp sensors s m).clients n = clientOf (hs n ++
          if (sensors n).isSome ∧ m.1 = n then [(s, m.2)] else []) := by
        intro n
        unfold Import.stamp
        by_cases hn : m.1 = n
        · rw [← hn]
          split_ifs with hknown hboth hboth
          · simp only [Function.update_self, hst]
            exact (clientOf_concat _ (s, m.2)).symm
          · exact absurd ⟨hknown, rfl⟩ hboth
          · exact absurd hboth.1 hknown
          · rw [List.append_nil]
            exact hst m.1
        · have hother : ¬ ((sensors n).isSome = true ∧ m.1 = n) := fun h => hn h.2
          rw [if_neg hother, List.append_nil]
          split_ifs
          · simp only [Function.update_of_ne fun h => hn h.symm, hst]
          · exact hst n
      rw [ih _ _ hstep]
      refine congrArg clientOf ?_
      rw [List.append_assoc]
      refine congrArg (hs serial ++ ·) ?_
      by_cases hknown : (sensors serial).isSome = true
      · by_cases hn : m.1 = serial
        · rw [if_pos ⟨hknown, hn⟩, if_pos hknown, if_pos hknown, List.filter_cons,
            if_pos (decide_eq_true hn)]
          rfl
        · have hother : ¬ ((sensors serial).isSome = true ∧ m.1 = serial) := fun h => hn h.2
          rw [if_neg hother, if_pos hknown, if_pos hknown, List.filter_cons,
            if_neg fun h => hn (of_decide_eq_true h)]
          rfl
      · have hother : ¬ ((sensors serial).isSome = true ∧ m.1 = serial) := fun h => hknown h.1
        rw [if_neg hother, if_neg hknown, if_neg hknown]
        rfl

/-- The clients of a row that is used hear its frame, if there is one. -/
theorem use_spec (rand : Rand F R) (sensors : Nat → Option (Sensor F)) (holdoutFrac : F)
    (st : Import F R) (row : Row F) (t : F) (acId : UInt32) (lat lon baroM : F) :
    ∃ (odd : Option Bool) (st' : Import F R), st'.clients = st.clients ∧
      st.use rand sensors holdoutFrac row t acId lat lon baroM =
        match Import.frame (⟨0x100000 + acId⟩ : Icao) odd lat lon baroM with
        | none => st'
        | some f =>
          row.meas.foldl (Import.stamp sensors
            { row := row, icao := ⟨0x100000 + acId⟩, odd := odd, tServer := t, hex := hexEncode f })
            { st' with rowsUsed := st'.rowsUsed + 1 } := by
  have hdraw : (st.draw rand holdoutFrac acId).2.clients = st.clients := by
    unfold Import.draw
    split <;> rfl
  have hturn : ∀ (st : Import F R) (held : Bool), (st.turn held acId).2.clients = st.clients := by
    intro st held
    unfold Import.turn
    split_ifs <;> rfl
  -- What is drawn and noted of the aircraft is no client's.
  let drawn := st.draw rand holdoutFrac acId
  let noted := if drawn.1 = true then drawn.2.note ⟨0x100000 + acId⟩ t lat lon baroM row.meas
    else drawn.2
  have hnoted : noted.clients = drawn.2.clients := by
    unfold noted
    split_ifs <;> rfl
  exact ⟨(noted.turn drawn.1 acId).1, (noted.turn drawn.1 acId).2,
    (hturn noted drawn.1).trans (hnoted.trans hdraw), rfl⟩

/-- A row is used for one transmission at most, and the clients hear it. -/
theorem take_heard (rand : Rand F R) (sensors : Nat → Option (Sensor F)) (holdoutFrac : F)
    (st : Import F R) (row : Row F) (t : F) (acId : UInt32) (sent : List (Sent F))
    (ht : row.tServer = some t) (hac : row.acId = some acId) (hst : st.Heard sensors sent) :
    ∃ more : List (Sent F), (more.map Sent.row).Sublist [row] ∧ (∀ s ∈ more, Made s) ∧
      (st.take rand sensors holdoutFrac row t acId).Heard sensors (sent ++ more) := by
  have hnone : ∀ st' : Import F R, st'.clients = st.clients → ∃ more : List (Sent F),
      (more.map Sent.row).Sublist [row] ∧ (∀ s ∈ more, Made s) ∧
        st'.Heard sensors (sent ++ more) := by
    intro st' hsame
    refine ⟨[], List.nil_sublist _, fun s hs => absurd hs List.not_mem_nil, fun serial => ?_⟩
    rw [hsame, List.append_nil]
    exact hst serial
  unfold Import.take
  split
  · next lat lon baroM hlat hlon hbaro =>
      split_ifs
      · exact hnone st rfl
      · rcases use_spec rand sensors holdoutFrac st row t acId lat lon baroM with
          ⟨odd, st', hsame, huse⟩
        rw [huse]
        cases hframe : Import.frame (⟨0x100000 + acId⟩ : Icao) odd lat lon baroM with
        | none => exact hnone st' hsame
        | some f =>
            refine ⟨[{ row := row, icao := ⟨0x100000 + acId⟩, odd := odd, tServer := t
                       hex := hexEncode f }], List.Sublist.refl _, fun s hs => ?_,
              fun serial => ?_⟩
            · rw [List.mem_singleton.mp hs]
              exact ⟨acId, lat, lon, baroM, f, ht, hac, hlat, hlon, hbaro, rfl, hframe, rfl⟩
            · have hclients : ∀ n, ({ st' with rowsUsed := st'.rowsUsed + 1 } :
                  Import F R).clients n = clientOf (receptions sensors n sent) := by
                intro n
                rw [← hst n, ← hsame]
              refine (stamps_clients sensors _ row.meas _ _ hclients serial).trans ?_
              refine congrArg clientOf ?_
              unfold receptions
              split_ifs
              · rw [List.flatMap_append]
                exact congrArg (_ ++ ·) (List.append_nil _).symm
              · rfl
  · exact hnone _ rfl

theorem rowsFrom_heard (rand : Rand F R) (sensors : Nat → Option (Sensor F)) (durationS : Nat)
    (holdoutFrac : F) (rows : List (Row F)) (st st' : Import F R) (sent : List (Sent F))
    (hst : st.Heard sensors sent)
    (h : rowsFrom rand sensors durationS holdoutFrac st rows = some st') :
    ∃ more : List (Sent F), (more.map Sent.row).Sublist rows ∧ (∀ s ∈ more, Made s) ∧
      st'.Heard sensors (sent ++ more) := by
  have hstop : st'.Heard sensors sent → ∃ more : List (Sent F),
      (more.map Sent.row).Sublist rows ∧ (∀ s ∈ more, Made s) ∧ st'.Heard sensors (sent ++ more) :=
    fun hst' => ⟨[], List.nil_sublist _, fun s hs => absurd hs List.not_mem_nil,
      (List.append_nil sent).symm ▸ hst'⟩
  induction rows generalizing st sent with
  | nil =>
      cases h
      exact hstop hst
  | cons row rows ih =>
      unfold rowsFrom at h
      cases ht : row.tServer with
      | none =>
          rw [ht] at h
          exact absurd h (Option.some_ne_none st').symm
      | some t =>
          simp only [ht] at h
          split_ifs at h with hlate
          · cases h
            exact hstop hst
          · cases hac : row.acId with
            | none =>
                rw [hac] at h
                exact absurd h (Option.some_ne_none st').symm
            | some acId =>
                simp only [hac] at h
                rcases take_heard rand sensors holdoutFrac st row t acId sent ht hac hst with
                  ⟨one, hone, hmade, hnext⟩
                rcases ih _ _ hnext h (fun hst' => ⟨[], List.nil_sublist _,
                  fun s hs => absurd hs List.not_mem_nil, (List.append_nil _).symm ▸ hst'⟩) with
                  ⟨more, hmore, hmade', hlast⟩
                refine ⟨one ++ more, ?_, fun s hs => ?_, ?_⟩
                · rw [List.map_append]
                  exact hone.append hmore
                · exact (List.mem_append.mp hs).elim (hmade s) (hmade' s)
                · rw [← List.append_assoc]
                  exact hlast

/-- What the client of every sensor has heard: its stamps in some transmissions,
    each made from a row of its own. -/
theorem importRows_clients (rand : Rand F R) (seed durationS : Nat) (holdoutFrac : F)
    (sensorRows : List (SensorRow F)) (rows : List (Row F)) (st : Import F R)
    (h : importRows rand seed durationS holdoutFrac sensorRows rows = some st) :
    ∃ sensors sent, sensorsOf sensorRows = some sensors ∧ (sent.map Sent.row).Sublist rows ∧
      (∀ s ∈ sent, Made s) ∧ st.Heard sensors sent := by
  unfold importRows at h
  cases hsensors : sensorsOf sensorRows with
  | none =>
      rw [hsensors] at h
      exact absurd h (Option.some_ne_none st).symm
  | some sensors =>
      simp only [hsensors] at h
      have hinit : (Import.init (rand.rngFor seed "locards/holdout") : Import F R).Heard sensors
          [] := by
        intro serial
        unfold receptions
        split_ifs <;> rfl
      rcases rowsFrom_heard rand sensors durationS holdoutFrac rows _ st [] hinit h with
        ⟨sent, hrows, hmade, hst⟩
      exact ⟨sensors, sent, rfl, hrows, hmade, hst⟩

/-- The sync messages of the client of a sensor pair its receptions, each at most
    once. -/
theorem heard_pairs (hs : List (Sent F × F)) (acc : ClientAcc F) (h : clientOf hs = some acc) :
    PairedOnce (pairer F) hs ((acc.sorted.map Prod.snd).filter Told.isSync) := by
  unfold clientOf at h
  split_ifs at h
  cases h
  refine paired_once (pairer F) _ _ ?_
  have hsort := (List.perm_insertionSort (fun a b : F × Told => totalLe a.1 b.1)
    (heardAll hs).lines).map Prod.snd
  refine (hsort.filter Told.isSync).trans (List.Perm.of_eq ?_)
  rw [List.filter_map]
  have hsyncs := congrArg (List.map Prod.snd) (heard_syncs hs).2
  rw [List.map_map] at hsyncs
  exact hsyncs

end

end Locards

/-- The sync lines of simulated and of recorded clients pair receptions of the
    client, each at most once. Simulated reports are transmissions in earshot, and
    frames if the transmissions are those of a scenario; recorded ones are made
    from rows, each from one of its own. -/
theorem sync_lines_pair_once {F R : Type} [F64Ln F] (rand : Sim.Rand F R) :
    (∀ (fuel : Nat) (sc : Sim.Scenario F) (rx : Sim.ReceiverSpec F) (bs : List (Sim.Broadcast F))
      (c : Sim.ClientStream F), Sim.buildClient rand fuel sc rx bs = some c →
      (Sim.broadcasts rand fuel sc = some bs → ∀ b ∈ bs, b.Framed) ∧
      (∀ h ∈ (Sim.trail rand fuel sc.seed rx bs).heard, Sim.Received rand rx bs h) ∧
      PairedOnce (Sim.pairer F) (Sim.trail rand fuel sc.seed rx bs).heard
        (((c.records.flatMap Sim.SendRecord.lines).map Sim.Line.msg).filter Sim.isSync)) ∧
    ∀ (seed durationS : Nat) (holdoutFrac : F) (sensorRows : List (Locards.SensorRow F))
      (rows : List (Locards.Row F)) (st : Locards.Import F R),
      Locards.importRows rand seed durationS holdoutFrac sensorRows rows = some st →
      ∃ sensors sent, Locards.sensorsOf sensorRows = some sensors ∧
        (sent.map Locards.Sent.row).Sublist rows ∧ (∀ s ∈ sent, Locards.Made s) ∧
        ∀ serial, ∀ acc ∈ st.clients serial,
          PairedOnce (Locards.pairer F) (Locards.receptions sensors serial sent)
            ((acc.sorted.map Prod.snd).filter Locards.Told.isSync) := by
  constructor
  · intro fuel sc rx bs c hbuild
    refine ⟨Sim.broadcasts_framed rand fuel sc bs, ?_, ?_⟩
    · exact Sim.trail_received rand fuel sc.seed rx bs
    · exact Sim.buildClient_pairs rand fuel sc rx bs c hbuild
  · intro seed durationS holdoutFrac sensorRows rows st himport
    rcases Locards.importRows_clients rand seed durationS holdoutFrac sensorRows rows st himport with
      ⟨sensors, sent, hsensors, hrows, hmade, hheard⟩
    refine ⟨sensors, sent, hsensors, hrows, hmade, fun serial acc hacc => ?_⟩
    exact Locards.heard_pairs _ acc ((hheard serial).symm.trans hacc)

section Example

open Locards

/-- Two sensors. -/
def twoSensors : List (SensorRow ℚ) :=
  [⟨some 1, some 0, some 0, some 100⟩, ⟨some 2, some 0, some 1, none⟩]

/-- A position every second, heard by both. -/
def positionRow (t lat : ℚ) : Row ℚ :=
  { tServer := some t, acId := some 7, lat := some lat, lon := some (1 / 2), baroM := some 9000
    meas := [(1, t * 10 ^ 9), (2, t * 10 ^ 9 + 500)] }

end Example

/-- A simulated client with a report of each parity, and a recorded one of three
    reports, whose first two are paired. -/
theorem sync_lines_pair_once_both :
    (∃ bs c, Sim.buildClient Sim.seeded 10 (Sim.second [Sim.near]) Sim.station bs = some c ∧
      PairedOnce (Sim.pairer ℚ) (Sim.trail Sim.seeded 10 189 Sim.station bs).heard
        (((c.records.flatMap Sim.SendRecord.lines).map Sim.Line.msg).filter Sim.isSync)) ∧
    ∃ st, Locards.importRows Sim.seeded 1 60 (0 : ℚ) twoSensors
        [positionRow 1 (1 / 10), positionRow 2 (2 / 10), positionRow 3 (3 / 10)] = some st ∧
      ∃ acc ∈ st.clients 2, ((acc.sorted.map Prod.snd).filter Locards.Told.isSync).length = 1 ∧
        ∃ hs, PairedOnce (Locards.pairer ℚ) hs
          ((acc.sorted.map Prod.snd).filter Locards.Told.isSync) := by
  constructor
  · rcases Sim.generate_single Sim.seeded 10 (Sim.second [Sim.near]) Sim.station rfl
      (by decide +kernel) with ⟨_, bs, c, _, _, _, hbuild, _⟩
    have hboth := (sync_lines_pair_once Sim.seeded).1 10 (Sim.second [Sim.near]) Sim.station bs c
      hbuild
    exact ⟨bs, c, hbuild, hboth.2.2⟩
  · have hrun : ∃ st, Locards.importRows Sim.seeded 1 60 (0 : ℚ) twoSensors
        [positionRow 1 (1 / 10), positionRow 2 (2 / 10), positionRow 3 (3 / 10)] = some st :=
      Option.isSome_iff_exists.mp (by decide +kernel)
    have hone : ∀ st ∈ Locards.importRows Sim.seeded 1 60 (0 : ℚ) twoSensors
        [positionRow 1 (1 / 10), positionRow 2 (2 / 10), positionRow 3 (3 / 10)],
        ∃ acc ∈ st.clients 2,
          ((acc.sorted.map Prod.snd).filter Locards.Told.isSync).length = 1 := by decide +kernel
    rcases hrun with ⟨st, hst⟩
    rcases hone st hst with ⟨acc, hacc, hlength⟩
    rcases (sync_lines_pair_once Sim.seeded).2 1 60 0 twoSensors _ st hst with
      ⟨sensors, sent, _, _, _, hpairs⟩
    exact ⟨st, hst, acc, hacc, hlength, _, hpairs 2 acc hacc⟩

end MlatBench
