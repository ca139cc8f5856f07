import MlatBench.Library.Renaming
import MlatBench.Theory.State

/-!
# Spelling

A report is taken for what its text decodes to, but it is filed under the text
itself: a group under that of its frame, a sync point under those of its pair. One
frame has many texts, since `hex::decode` reads both cases. So what is grouped
depends on how the clients happen to write.

Two runs of the same calls in other spellings group alike if whenever two reports
are spelled alike in the one, they are in the other.

## Main definitions

* `Call`, `calls`: The calls that group, and what they lead to.
* `Respelled`: The same call in another spelling.
* `groupText`, `syncText`: The texts under which a call files.
* `groupTexts`, `syncTexts`: The texts that stand for each other in two runs.
* `SameReports`: States that differ in how their groups and sync points are filed.

## Theorems

* `onMlat_eq`: A message is looked at decoded, and filed as it is.
* `Joint.onMlat`, `Joint.joinSync`, `Joint.onSync`: What two calls keep.
* `respelled_run`: The whole runs.
* `upper_case_apart`: A frame in both cases makes two groups.
-/

namespace MlatBench

namespace Server

open Library F64 F64Fn Modes

variable {F : Type} [F64Fn F]

namespace State

/-- A call that groups. -/
inductive Call (F : Type) where
  | sync (now : Nat) (r : RxRef) (et ot : F) (emHex omHex : String) (atScaled : F)
  | mlat (now : Nat) (r : RxRef) (tCounts : F) (mHex : String) (atScaled : F)

def call (s : State F) : Call F → State F
  | .sync now r et ot emHex omHex atScaled => s.onSync now r et ot emHex omHex atScaled
  | .mlat now r tCounts mHex atScaled => s.onMlat now r tCounts mHex atScaled

/-- Call after call. -/
def calls (s : State F) (cs : List (Call F)) : State F := cs.foldl call s

/-- The same call, its texts possibly spelled another way. -/
inductive Respelled : Call F → Call F → Prop where
  | sync (now : Nat) (r : RxRef) (et ot : F) (emHex omHex emHex' omHex' : String) (atScaled : F)
    (hem : hexDecode emHex = hexDecode emHex') (hom : hexDecode omHex = hexDecode omHex') :
    Respelled (.sync now r et ot emHex omHex atScaled) (.sync now r et ot emHex' omHex' atScaled)
  | mlat (now : Nat) (r : RxRef) (tCounts : F) (mHex mHex' : String) (atScaled : F)
    (hm : hexDecode mHex = hexDecode mHex') :
    Respelled (.mlat now r tCounts mHex atScaled) (.mlat now r tCounts mHex' atScaled)

/-- The aircraft whose group a message joins. -/
def addressOf (mlatAdsb : Bool) (m : List UInt8) : Option Icao :=
  match dfOf m with
  | some 17 => if mlatAdsb = false then none else (parseDf17Airborne m).map (·.icao)
  | some 4 => (parseDf4 m).map Prod.fst
  | some 11 => parseDf11 m
  | _ => none

/-- The altitudes after a message. -/
def altsAfter (alts : Icao → Option Int) (m : List UInt8) : Icao → Option Int :=
  match dfOf m with
  | some 4 =>
    match parseDf4 m with
    | some (icao, some alt) => Function.update alts icao (some alt)
    | _ => alts
  | _ => alts

/-- A message that joins a group: its bytes, and its aircraft. -/
def reported (s : State F) (r : RxRef) (mHex : String) : Option (List UInt8 × Icao) :=
  if s.live r = false then none
  else (hexDecode mHex).bind fun m => (addressOf s.mlatAdsb m).map fun icao => (m, icao)

/-- The group with the message in it. -/
def joined (s : State F) (now : Nat) (r : RxRef) (tCounts atScaled : F) (m : List UInt8)
    (icao : Icao) (old : Option (Group F)) : Group F :=
  let g := old.getD
    { created := now, icao := icao, df17 := decide ((m.getD 0 0) >>> 3 = 17), entries := [] }
  { g with entries := g.entries ++
    [{ rx := r.idx, tS := tCounts / (s.receiver r.idx).freqHz, atScaled := atScaled
       origin := s.originOf r }] }

/-- The text under which a call files a message. -/
def groupText (s : State F) : Call F → Option String
  | .sync _ r _ _ emHex omHex _ =>
    if s.live r = true ∧ (syncEvent (F := F) emHex omHex).isSome = true ∧ s.mlatAdsb = true ∧
      (s.reported r emHex).isSome = true then some emHex else none
  | .mlat _ r _ mHex _ => if (s.reported r mHex).isSome = true then some mHex else none

/-- The texts under which a call files a sync. -/
def syncText (s : State F) : Call F → Option (String × String)
  | .sync _ r _ _ emHex omHex _ =>
    if s.live r = true ∧ (syncEvent (F := F) emHex omHex).isSome = true then some (emHex, omHex)
    else none
  | .mlat .. => none

/-- The texts of groups that stand for each other: those of a call and the same
    call in the other run, and those of groups that were there before. -/
def groupTexts (s : State F) (cs cs' : List (Call F)) (k k' : String) : Prop :=
  (k = k' ∧ s.groups k ≠ none) ∨
    ∃ c ∈ cs.zip cs', s.groupText c.1 = some k ∧ s.groupText c.2 = some k'

/-- The same of sync points. -/
def syncTexts (s : State F) (cs cs' : List (Call F)) (k k' : String × String) : Prop :=
  (k = k' ∧ s.syncpoints k ≠ none) ∨
    ∃ c ∈ cs.zip cs', s.syncText c.1 = some k ∧ s.syncText c.2 = some k'

/-- The state with other groups and sync points. -/
def regroup (s : State F) (groups : String → Option (Group F))
    (syncpoints : String × String → Option (SyncPoint F)) : State F :=
  { s with groups := groups, syncpoints := syncpoints }

/-- The groups and the sync points are the same, under whatever texts, and
    everything else is equal. -/
def SameReports (s t : State F) : Prop :=
  t = s.regroup t.groups t.syncpoints ∧ SameUpTo s.groups t.groups ∧
    SameUpTo s.syncpoints t.syncpoints

/-- No other kind of message joins a group. -/
theorem addressOf_eq_none (mlatAdsb : Bool) (m : List UInt8) (df : UInt8) (hdf : dfOf m = some df)
    (h17 : df ≠ 17) (h4 : df ≠ 4) (h11 : df ≠ 11) : addressOf mlatAdsb m = none := by
  rw [addressOf, hdf]
  split
  · next h => exact absurd (Option.some.inj h) h17
  · next h => exact absurd (Option.some.inj h) h4
  · next h => exact absurd (Option.some.inj h) h11
  · rfl

/-- A message is looked at decoded, and filed as it is. -/
theorem onMlat_eq (s : State F) (now : Nat) (r : RxRef) (tCounts : F) (mHex : String)
    (atScaled : F) : s.onMlat now r tCounts mHex atScaled =
      match s.reported r mHex with
      | none => s
      | some (m, icao) => { s with
          altsFt := altsAfter s.altsFt m
          groups := Function.update s.groups mHex
            (some (s.joined now r tCounts atScaled m icao (s.groups mHex))) } := by
  unfold onMlat reported
  by_cases hlive : s.live r = false
  · rw [if_pos hlive, if_pos hlive]
  · rw [if_neg hlive, if_neg hlive]
    cases hexDecode mHex with
    | none => rfl
    | some m =>
        simp only [Option.bind_some]
        -- One case for each kind of message, and what it parses to.
        cases hdf : dfOf m with
        | none => simp only [addressOf, hdf, Option.map_none]
        | some df =>
            by_cases h17 : df = 17
            · subst h17
              simp only [addressOf, hdf]
              by_cases hadsb : s.mlatAdsb = false
              · simp only [if_pos hadsb, Option.map_none]
              · simp only [if_neg hadsb]
                cases parseDf17Airborne m with
                | none => rfl
                | some d =>
                    simp only [Option.map_some, altsAfter, hdf]
                    rfl
            · by_cases h4 : df = 4
              · subst h4
                simp only [addressOf, hdf]
                cases hparse : parseDf4 m with
                | none => rfl
                | some p =>
                    rcases p with ⟨icao, _ | alt⟩ <;>
                      simp only [Option.map_some, altsAfter, hdf, hparse] <;> rfl
              · by_cases h11 : df = 11
                · subst h11
                  simp only [addressOf, hdf]
                  cases parseDf11 m with
                  | none => rfl
                  | some icao =>
                      simp only [Option.map_some, altsAfter, hdf]
                      rfl
                · have hnone : addressOf s.mlatAdsb m = none :=
                    addressOf_eq_none s.mlatAdsb m df hdf h17 h4 h11
                  rw [hnone]
                  split
                  · rfl
                  · next known heq =>
                      split at heq
                      · next h => exact absurd (Option.some.inj h) h17
                      · next h => exact absurd (Option.some.inj h) h4
                      · next h => exact absurd (Option.some.inj h) h11
                      · exact absurd heq (Option.some_ne_none _).symm

theorem onMlat_groups_of_ne (s : State F) (now : Nat) (r : RxRef) (tCounts : F) (mHex : String)
    (atScaled : F) (k : String) (h : k ≠ mHex) :
    (s.onMlat now r tCounts mHex atScaled).groups k = s.groups k := by
  rw [onMlat_eq]
  cases s.reported r mHex with
  | none => rfl
  | some p => exact Function.update_of_ne h _ _

omit [F64Fn F] in
theorem reported_respelled (s : State F) (r : RxRef) (mHex mHex' : String)
    (h : hexDecode mHex = hexDecode mHex') : s.reported r mHex = s.reported r mHex' := by
  rw [reported, reported, h]

theorem syncEvent_respelled (emHex omHex emHex' omHex' : String)
    (hem : hexDecode emHex = hexDecode emHex') (hom : hexDecode omHex = hexDecode omHex') :
    syncEvent (F := F) emHex omHex = syncEvent emHex' omHex' := by
  rw [syncEvent, syncEvent, hem, hom]

/-- Two states that differ in how their groups and sync points are filed. -/
def Joint (P : String → String → Prop) (Q : String × String → String × String → Prop)
    (s t : State F) : Prop :=
  t = s.regroup t.groups t.syncpoints ∧ Renamed P s.groups t.groups ∧
    Renamed Q s.syncpoints t.syncpoints

section

variable {P : String → String → Prop} {Q : String × String → String × String → Prop}
  {s t : State F}

omit [F64Fn F] in
/-- The invariant is about the first state and two maps. -/
theorem Joint.regroup (groups : String → Option (Group F))
    (syncpoints : String × String → Option (SyncPoint F)) (hg : Renamed P s.groups groups)
    (hp : Renamed Q s.syncpoints syncpoints) : Joint P Q s (s.regroup groups syncpoints) :=
  ⟨rfl, hg, hp⟩

theorem Joint.onMlat (h : Joint P Q s t) (hP : Relator.BiUnique P) (now : Nat) (r : RxRef)
    (tCounts : F) (mHex mHex' : String) (atScaled : F) (hm : hexDecode mHex = hexDecode mHex')
    (hkey : (s.reported r mHex).isSome = true → P mHex mHex') :
    Joint P Q (s.onMlat now r tCounts mHex atScaled) (t.onMlat now r tCounts mHex' atScaled) := by
  rcases h with ⟨ht, hg, hp⟩
  have hreported : t.reported r mHex' = s.reported r mHex := by
    rw [s.reported_respelled r mHex mHex' hm, ht]
    rfl
  rw [onMlat_eq, onMlat_eq, hreported]
  cases hcase : s.reported r mHex with
  | none => exact ⟨ht, hg, hp⟩
  | some p =>
      have hsame := hkey (by rw [hcase, Option.isSome_some])
      -- The group joined is the same, so it is the same afterwards.
      have hold : t.groups mHex' = s.groups mHex := (hg.same mHex mHex' hsame).symm
      have hjoined : t.joined now r tCounts atScaled p.1 p.2 (t.groups mHex') =
          s.joined now r tCounts atScaled p.1 p.2 (s.groups mHex) := by
        rw [hold, ht]
        rfl
      refine ⟨?_, ?_, hp⟩
      · simp only []
        rw [hjoined]
        exact congrArg (fun u : State F => { u with
          altsFt := altsAfter u.altsFt p.1
          groups := Function.update t.groups mHex'
            (some (s.joined now r tCounts atScaled p.1 p.2 (s.groups mHex))) }) ht
      · simp only []
        rw [hjoined]
        exact hg.update hP mHex mHex' hsame _

theorem trainWith_regroup (s : State F) (me other : Reporter F)
    (groups : String → Option (Group F)) (syncpoints : String × String → Option (SyncPoint F)) :
    (s.regroup groups syncpoints).trainWith me other =
      (s.trainWith me other).regroup groups syncpoints := by
  have halive : (s.regroup groups syncpoints).isAlive other.rx = s.isAlive other.rx := rfl
  unfold trainWith
  rw [halive]
  by_cases h : other.rx = me.rx ∨ s.isAlive other.rx = false
  · rw [if_pos h, if_pos h]
  · rw [if_neg h, if_neg h]
    rfl

theorem trainWith_filed (s : State F) (me other : Reporter F) :
    (s.trainWith me other).groups = s.groups ∧
      (s.trainWith me other).syncpoints = s.syncpoints ∧
      (s.trainWith me other).mlatAdsb = s.mlatAdsb := by
  unfold trainWith
  split_ifs <;> exact ⟨rfl, rfl, rfl⟩

/-- Training looks at no groups and no sync points. -/
theorem Joint.trainWith (h : Joint P Q s t) (me other : Reporter F) :
    Joint P Q (s.trainWith me other) (t.trainWith me other) := by
  rcases h with ⟨ht, hg, hp⟩
  have hs := s.trainWith_filed me other
  rw [ht, trainWith_regroup]
  refine Joint.regroup _ _ ?_ ?_
  · rwa [hs.1]
  · rwa [hs.2.1]

theorem Joint.joinSync (h : Joint P Q s t) (hQ : Relator.BiUnique Q) (now : Nat) (r : RxRef)
    (te tO : F) (key key' : String × String) (hkey : Q key key') :
    Joint P Q (s.joinSync now r te tO key) (t.joinSync now r te tO key') := by
  rcases h with ⟨ht, hg, hp⟩
  have hold : t.syncpoints key' = s.syncpoints key := (hp.same key key' hkey).symm
  have horigin : t.originOf r = s.originOf r := by
    rw [ht]
    rfl
  -- The sync point is entered in both, under corresponding texts.
  have hset : ∀ sp : SyncPoint F,
      Joint P Q { s with syncpoints := Function.update s.syncpoints key (some sp) }
        { t with syncpoints := Function.update t.syncpoints key' (some sp) } := fun sp =>
    ⟨congrArg (fun u : State F => { u with
      syncpoints := Function.update t.syncpoints key' (some sp) }) ht,
      hg, hp.update hQ key key' hkey (some sp)⟩
  have htrain : ∀ (me : Reporter F) (others : List (Reporter F)) (u v : State F),
      Joint P Q u v → Joint P Q (others.foldl (fun s other => s.trainWith me other) u)
        (others.foldl (fun s other => s.trainWith me other) v) := by
    intro me others
    induction others with
    | nil => exact fun u v huv => huv
    | cons other others ih => exact fun u v huv => ih _ _ (huv.trainWith me other)
  unfold State.joinSync
  rw [hold, horigin]
  simp only []
  split_ifs with hfull
  · exact hset _
  · exact htrain _ _ _ _ (hset _)

theorem Joint.onSync (h : Joint P Q s t) (hP : Relator.BiUnique P) (hQ : Relator.BiUnique Q)
    (now : Nat) (r : RxRef) (et ot : F) (emHex omHex emHex' omHex' : String) (atScaled : F)
    (hem : hexDecode emHex = hexDecode emHex') (hom : hexDecode omHex = hexDecode omHex')
    (hgroup : s.live r = true → (syncEvent (F := F) emHex omHex).isSome = true →
      s.mlatAdsb = true → (s.reported r emHex).isSome = true → P emHex emHex')
    (hsync : s.live r = true → (syncEvent (F := F) emHex omHex).isSome = true →
      Q (emHex, omHex) (emHex', omHex')) :
    Joint P Q (s.onSync now r et ot emHex omHex atScaled)
      (t.onSync now r et ot emHex' omHex' atScaled) := by
  have hlive : t.live r = s.live r := by
    rw [h.1]
    rfl
  have hinfo : t.receiver r.idx = s.receiver r.idx := by
    rw [h.1]
    rfl
  have hadsb : t.mlatAdsb = s.mlatAdsb := by
    rw [h.1]
    rfl
  unfold State.onSync
  rw [hlive, ← syncEvent_respelled emHex omHex emHex' omHex' hem hom, hinfo]
  by_cases hdead : s.live r = false
  · rw [if_pos hdead, if_pos hdead]
    exact h
  · rw [if_neg hdead, if_neg hdead]
    rw [Bool.not_eq_false] at hdead
    cases hevent : syncEvent (F := F) emHex omHex with
    | none => exact h
    | some e =>
        have hsome : (syncEvent (F := F) emHex omHex).isSome = true := by
          rw [hevent, Option.isSome_some]
        rcases e with ⟨de, pe, po⟩
        simp only []
        -- What the aircraft says of itself is noted in both.
        have hnote : ∀ geo : Geodetic F,
            Joint P Q (s.noteAdsb de geo atScaled) (t.noteAdsb de geo atScaled) := fun geo =>
          ⟨congrArg (fun u : State F => u.noteAdsb de geo atScaled) h.1, h.2⟩
        have hadsb' : ∀ geo : Geodetic F,
            (t.noteAdsb de geo atScaled).mlatAdsb = (s.noteAdsb de geo atScaled).mlatAdsb :=
          fun _ => hadsb
        refine Joint.joinSync ?_ hQ now r _ _ _ _ (hsync hdead hsome)
        rw [hadsb']
        by_cases hfeed : s.mlatAdsb = true
        · have hfed : ∀ geo : Geodetic F, (s.noteAdsb de geo atScaled).mlatAdsb = true :=
            fun _ => hfeed
          rw [if_pos (hfed _), if_pos (hfed _)]
          exact (hnote _).onMlat hP now r et emHex emHex' atScaled hem
            fun hreport => hgroup hdead hsome hfeed hreport
        · have hfed : ∀ geo : Geodetic F, ¬ (s.noteAdsb de geo atScaled).mlatAdsb = true :=
            fun _ => hfeed
          rw [if_neg (hfed _), if_neg (hfed _)]
          exact hnote _

end

/-- Which reports are taken, and what is filed where, hangs on this alone. -/
def Alike (s t : State F) : Prop :=
  (∀ r, t.live r = s.live r) ∧ t.mlatAdsb = s.mlatAdsb

theorem mlatAdsb_joinSync (s : State F) (now : Nat) (r : RxRef) (te tO : F)
    (key : String × String) : (s.joinSync now r te tO key).mlatAdsb = s.mlatAdsb := by
  unfold State.joinSync
  simp only []
  split_ifs
  · rfl
  · refine List.foldlRecOn (motive := fun t : State F => t.mlatAdsb = s.mlatAdsb) _ _ rfl ?_
    intro t ht other _
    rw [(t.trainWith_filed _ other).2.2, ht]

theorem mlatAdsb_onMlat (s : State F) (now : Nat) (r : RxRef) (tCounts : F) (mHex : String)
    (atScaled : F) : (s.onMlat now r tCounts mHex atScaled).mlatAdsb = s.mlatAdsb := by
  rw [onMlat_eq]
  cases s.reported r mHex <;> rfl

theorem mlatAdsb_onSync (s : State F) (now : Nat) (r : RxRef) (et ot : F) (emHex omHex : String)
    (atScaled : F) : (s.onSync now r et ot emHex omHex atScaled).mlatAdsb = s.mlatAdsb := by
  unfold onSync
  split_ifs
  · rfl
  · cases syncEvent (F := F) emHex omHex with
    | none => rfl
    | some d =>
        rcases d with ⟨de, pe, po⟩
        simp only []
        rw [mlatAdsb_joinSync]
        split_ifs
        · exact mlatAdsb_onMlat _ now r et emHex atScaled
        · rfl

theorem alike_call (s : State F) (c : Call F) : Alike s (s.call c) := by
  cases c with
  | mlat now r tCounts mHex atScaled =>
      exact ⟨(grows_onMlat s now r tCounts mHex atScaled).live,
        s.mlatAdsb_onMlat now r tCounts mHex atScaled⟩
  | sync now r et ot emHex omHex atScaled =>
      exact ⟨(grows_onSync s now r et ot emHex omHex atScaled).live,
        s.mlatAdsb_onSync now r et ot emHex omHex atScaled⟩

omit [F64Fn F] in
theorem Alike.reported {s t : State F} (h : Alike s t) (r : RxRef) (mHex : String) :
    t.reported r mHex = s.reported r mHex := by
  rw [State.reported, State.reported, h.1, h.2]

section

variable {P : String → String → Prop} {Q : String × String → String × String → Prop}
  {s t : State F}

/-- The texts of a call and of the same call in another spelling stand for each
    other wherever the call files. -/
theorem Joint.call (s₀ : State F) (h : Joint P Q s t) (hP : Relator.BiUnique P)
    (hQ : Relator.BiUnique Q) (hs : Alike s₀ s) (c c' : Call F) (hc : Respelled c c')
    (hgroup : ∀ k k', s₀.groupText c = some k → s₀.groupText c' = some k' → P k k')
    (hsync : ∀ k k', s₀.syncText c = some k → s₀.syncText c' = some k' → Q k k') :
    Joint P Q (s.call c) (t.call c') := by
  cases hc with
  | mlat now r tCounts mHex mHex' atScaled hm =>
      refine h.onMlat hP now r tCounts mHex mHex' atScaled hm fun hreport => ?_
      rw [hs.reported] at hreport
      refine hgroup mHex mHex' (if_pos hreport) (if_pos ?_)
      rwa [← s₀.reported_respelled r mHex mHex' hm]
  | sync now r et ot emHex omHex emHex' omHex' atScaled hem hom =>
      have hevent := syncEvent_respelled (F := F) emHex omHex emHex' omHex' hem hom
      refine h.onSync hP hQ now r et ot emHex omHex emHex' omHex' atScaled hem hom ?_ ?_
      · intro hlive hsome hadsb hreport
        rw [hs.reported] at hreport
        rw [hs.1] at hlive
        rw [hs.2] at hadsb
        refine hgroup emHex emHex' (if_pos ⟨hlive, hsome, hadsb, hreport⟩) (if_pos ?_)
        rw [← hevent, ← s₀.reported_respelled r emHex emHex' hem]
        exact ⟨hlive, hsome, hadsb, hreport⟩
      · intro hlive hsome
        rw [hs.1] at hlive
        refine hsync (emHex, omHex) (emHex', omHex') (if_pos ⟨hlive, hsome⟩) (if_pos ?_)
        rw [← hevent]
        exact ⟨hlive, hsome⟩

/-- Call after call, in both runs. -/
theorem Joint.calls (s₀ : State F) (cs cs' : List (Call F)) (hcs : List.Forall₂ Respelled cs cs')
    (hP : Relator.BiUnique P) (hQ : Relator.BiUnique Q)
    (hgroup : ∀ c ∈ cs.zip cs', ∀ k k', s₀.groupText c.1 = some k → s₀.groupText c.2 = some k' →
      P k k')
    (hsync : ∀ c ∈ cs.zip cs', ∀ k k', s₀.syncText c.1 = some k → s₀.syncText c.2 = some k' →
      Q k k') (h : Joint P Q s t) (hs : Alike s₀ s) :
    Joint P Q (s.calls cs) (t.calls cs') := by
  induction hcs generalizing s t with
  | nil => exact h
  | @cons c c' cs cs' hc hcs ih =>
      rw [List.zip_cons_cons] at hgroup hsync
      have hfirst : (c, c') ∈ (c, c') :: cs.zip cs' := List.mem_cons_self
      refine ih (fun d hd => hgroup d (List.mem_cons_of_mem _ hd))
        (fun d hd => hsync d (List.mem_cons_of_mem _ hd)) ?_ ?_
      · exact h.call s₀ hP hQ hs c c' hc (hgroup _ hfirst) (hsync _ hfirst)
      · have hcall := s.alike_call c
        exact ⟨fun r => (hcall.1 r).trans (hs.1 r), hcall.2.trans hs.2⟩

end

/-- Grouping is by content in two runs that spell alike what the one of them does:
    after every call, what is grouped with what is the same, and so is everything
    else, the pair models among it. -/
theorem respelled_run (s : State F) (cs cs' : List (Call F)) (hcs : List.Forall₂ Respelled cs cs')
    (hgroups : Relator.BiUnique (s.groupTexts cs cs'))
    (hsyncs : Relator.BiUnique (s.syncTexts cs cs')) (n : Nat) :
    SameReports (s.calls (cs.take n)) (s.calls (cs'.take n)) := by
  have hzip : ∀ c ∈ (cs.take n).zip (cs'.take n), c ∈ cs.zip cs' := by
    intro c hc
    rw [List.zip, ← List.take_zipWith] at hc
    exact List.mem_of_mem_take hc
  have hstart : Joint (s.groupTexts cs cs') (s.syncTexts cs cs') s s :=
    ⟨rfl, Renamed.self _ hgroups fun k hk => Or.inl ⟨rfl, hk⟩,
      Renamed.self _ hsyncs fun k hk => Or.inl ⟨rfl, hk⟩⟩
  have hend := hstart.calls s (cs.take n) (cs'.take n) (List.forall₂_take n hcs) hgroups hsyncs
    (fun c hc k k' hk hk' => Or.inr ⟨c, hzip c hc, hk, hk'⟩)
    (fun c hc k k' hk hk' => Or.inr ⟨c, hzip c hc, hk, hk'⟩) ⟨fun _ => rfl, rfl⟩
  exact ⟨hend.1, hend.2.1.sameUpTo hgroups, hend.2.2.sameUpTo hsyncs⟩

section Example

/-- A frame by which an aircraft answers, in both cases. -/
def lowerFrame : String := "58abcdef0e62ac"

def upperFrame : String := "58ABCDEF0E62AC"

/-- Two receivers in a shard. -/
def twoListeners : State ℚ :=
  let rx (user : String) : ReceiverInfo ℚ :=
    { user := user, geo := zeroGeo, ecef := ⟨0, 0, 0⟩, freqHz := 12000000, gps := false, jitterS := 0 }
  (((State.new 0 false false).addReceiver (rx "a")).1.addReceiver (rx "b")).1

/-- Both report the frame, each as it writes it. -/
def bothReport (first second : String) : List (Call ℚ) :=
  [.mlat 0 ⟨0, 0⟩ 0 first 0, .mlat 1 ⟨1, 0⟩ 12 second 1]

theorem respelled_bothReport (first second : String) (hfirst : hexDecode first = hexDecode lowerFrame)
    (hsecond : hexDecode second = hexDecode lowerFrame) :
    List.Forall₂ Respelled (bothReport lowerFrame lowerFrame) (bothReport first second) :=
  .cons (.mlat 0 ⟨0, 0⟩ 0 _ _ 0 hfirst.symm) (.cons (.mlat 1 ⟨1, 0⟩ 12 _ _ 1 hsecond.symm) .nil)

theorem decode_upperFrame : hexDecode upperFrame = hexDecode lowerFrame := by
  decide +kernel

/-- Two position messages of an aircraft, in both cases. -/
def lowerPair : String × String :=
  ("8d3c644458b500000000008c4ccb", "8d3c644458b504000000008067f3")

def upperPair : String × String :=
  ("8D3C644458B500000000008C4CCB", "8D3C644458B504000000008067F3")

/-- Both report the frame and the pair, in one case. -/
def reportsIn (frame : String) (pair : String × String) : List (Call ℚ) :=
  bothReport frame frame ++
    [.sync 2 ⟨0, 0⟩ 24 36 pair.1 pair.2 2, .sync 3 ⟨1, 0⟩ 24 36 pair.1 pair.2 3]

theorem respelled_reportsIn : List.Forall₂ Respelled (reportsIn lowerFrame lowerPair)
    (reportsIn upperFrame upperPair) := by
  have heven : hexDecode lowerPair.1 = hexDecode upperPair.1 := by decide +kernel
  have hodd : hexDecode lowerPair.2 = hexDecode upperPair.2 := by decide +kernel
  refine List.rel_append (respelled_bothReport _ _ decode_upperFrame decode_upperFrame) ?_
  exact .cons (.sync 2 ⟨0, 0⟩ 24 36 _ _ _ _ 2 heven hodd)
    (.cons (.sync 3 ⟨1, 0⟩ 24 36 _ _ _ _ 3 heven hodd) .nil)

/-- The texts under which the two runs file what they get. -/
theorem texts_reportsIn (c : Call ℚ × Call ℚ)
    (hc : c ∈ (reportsIn lowerFrame lowerPair).zip (reportsIn upperFrame upperPair)) :
    (∀ k, twoListeners.groupText c.1 = some k → k = lowerFrame) ∧
      (∀ k, twoListeners.groupText c.2 = some k → k = upperFrame) ∧
      (∀ k, twoListeners.syncText c.1 = some k → k = lowerPair) ∧
      ∀ k, twoListeners.syncText c.2 = some k → k = upperPair := by
  have hgroup : ∀ c ∈ (reportsIn lowerFrame lowerPair).zip (reportsIn upperFrame upperPair),
      (twoListeners.groupText c.1).all (· = lowerFrame) = true ∧
        (twoListeners.groupText c.2).all (· = upperFrame) = true ∧
        (twoListeners.syncText c.1).all (· = lowerPair) = true ∧
        (twoListeners.syncText c.2).all (· = upperPair) = true := by
    simp only [reportsIn, bothReport, List.cons_append, List.nil_append, List.zip_cons_cons,
      List.zip_nil_left, List.forall_mem_cons, List.not_mem_nil, false_imp_iff, implies_true, and_true]
    decide +kernel
  have hall : ∀ {α : Type} [DecidableEq α] (o : Option α) (x : α), o.all (· = x) = true →
      ∀ k, o = some k → k = x := by
    rintro α _ _ x h k rfl
    exact of_decide_eq_true h
  rcases hgroup c hc with ⟨h1, h2, h3, h4⟩
  exact ⟨hall _ _ h1, hall _ _ h2, hall _ _ h3, hall _ _ h4⟩

/-- All in the one case and all in the other is the same, groups and sync points. -/
theorem respelled_run_upper :
    ((twoListeners.calls (reportsIn lowerFrame lowerPair)).groups lowerFrame).isSome = true ∧
      ((twoListeners.calls (reportsIn lowerFrame lowerPair)).syncpoints lowerPair).isSome = true ∧
      SameReports (twoListeners.calls (reportsIn lowerFrame lowerPair))
        (twoListeners.calls (reportsIn upperFrame upperPair)) := by
  refine ⟨by decide +kernel, by decide +kernel, ?_⟩
  -- The one text stands for the other, and nothing else for anything.
  have hgroups : ∀ k k', twoListeners.groupTexts (reportsIn lowerFrame lowerPair)
      (reportsIn upperFrame upperPair) k k' → k = lowerFrame ∧ k' = upperFrame := by
    rintro k k' (⟨_, hk⟩ | ⟨c, hc, hk, hk'⟩)
    · exact absurd rfl hk
    · exact ⟨(texts_reportsIn c hc).1 k hk, (texts_reportsIn c hc).2.1 k' hk'⟩
  have hsyncs : ∀ k k', twoListeners.syncTexts (reportsIn lowerFrame lowerPair)
      (reportsIn upperFrame upperPair) k k' → k = lowerPair ∧ k' = upperPair := by
    rintro k k' (⟨_, hk⟩ | ⟨c, hc, hk, hk'⟩)
    · exact absurd rfl hk
    · exact ⟨(texts_reportsIn c hc).2.2.1 k hk, (texts_reportsIn c hc).2.2.2 k' hk'⟩
  refine respelled_run twoListeners _ _ respelled_reportsIn ⟨fun _ _ _ h h' => ?_, fun _ _ _ h h' => ?_⟩
    ⟨fun _ _ _ h h' => ?_, fun _ _ _ h h' => ?_⟩ 4
  · rw [(hgroups _ _ h).1, (hgroups _ _ h').1]
  · rw [(hgroups _ _ h).2, (hgroups _ _ h').2]
  · rw [(hsyncs _ _ h).1, (hsyncs _ _ h').1]
  · rw [(hsyncs _ _ h).2, (hsyncs _ _ h').2]

/-- If the second receiver writes in upper case, its report is not grouped with the
    first one's, though the frame is the same. -/
theorem upper_case_apart :
    List.Forall₂ Respelled (bothReport lowerFrame lowerFrame) (bothReport lowerFrame upperFrame) ∧
      ¬ SameReports (twoListeners.calls (bothReport lowerFrame lowerFrame))
        (twoListeners.calls (bothReport lowerFrame upperFrame)) := by
  refine ⟨respelled_bothReport _ _ rfl decode_upperFrame, fun h => ?_⟩
  have htwo : ((twoListeners.calls (bothReport lowerFrame lowerFrame)).groups lowerFrame).map
      (fun g => g.entries.length) = some 2 := by decide +kernel
  rcases Option.map_eq_some_iff.mp htwo with ⟨g, hg, hlen⟩
  rcases h.2.1.exists_entry lowerFrame g hg with ⟨k, hk⟩
  -- The other run has a group of one under either text, and no others.
  have hone : ∀ text ∈ [lowerFrame, upperFrame],
      ((twoListeners.calls (bothReport lowerFrame upperFrame)).groups text).map
        (fun g => g.entries.length) = some 1 := by decide +kernel
  by_cases hmem : k ∈ [lowerFrame, upperFrame]
  · have hk' := hone k hmem
    rw [hk, Option.map_some, hlen] at hk'
    exact absurd hk' (by decide)
  · rw [List.mem_pair, not_or] at hmem
    have hnone : (twoListeners.calls (bothReport lowerFrame upperFrame)).groups k =
        twoListeners.groups k :=
      ((twoListeners.onMlat 0 ⟨0, 0⟩ 0 lowerFrame 0).onMlat_groups_of_ne 1 ⟨1, 0⟩ 12 upperFrame 1 k
        hmem.2).trans
        (twoListeners.onMlat_groups_of_ne 0 ⟨0, 0⟩ 0 lowerFrame 0 k hmem.1)
    rw [hk] at hnone
    exact Option.some_ne_none g hnone

end Example

end State

end Server

end MlatBench
