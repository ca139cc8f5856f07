import Mathlib.Data.Finset.Basic
import Mathlib.Data.Finset.Lattice.Lemmas
import Mathlib.Data.List.Induction
import MlatBench.Library.Runs
import MlatBench.Theory.Engine

/-!
# Announcements

A server that adds what it is told was seen and removes what it is told was
lost has a copy of the aircraft table. The copy starts over when the server's
connection restarts.

A tick visits the whole table (`Call.Visits`), each entry once. What it
announces was not announced, what it reports lost was, and afterwards all that
is left is announced; receptions add entries that are not announced yet, and
nothing else but a restart changes what is announced.

## Main definitions

* `absorb`: The copy after one message.
* `WellAnnounced`: Each message is news to the copy.
* `Engine.copy`: The copy after a run.
* `Engine.Replicated`: The copy has what is announced.
* `Call.Visits`: A tick visits the table.

## Theorems

* `replicated_step`: One call.
* `replicated_run`: A run.
* `introduced_run`: Where the entries come from.
* `announcements_replicate`: The copy is the table.
-/

namespace MlatBench

namespace Client

namespace Engine

open Library Modes Proto

/-- The copy after one message. -/
def absorb (known : Finset String) : ClientMsg → Finset String
  | .seen addrs => known ∪ addrs.toFinset
  | .lost addrs => known \ addrs.toFinset
  | _ => known

/-- Each message is news: what is seen was not known and is named once, what is
    lost was known. -/
def WellAnnounced : Finset String → List ClientMsg → Prop
  | _, [] => True
  | known, m :: ms =>
    (match m with
      | .seen addrs => addrs.Nodup ∧ ∀ h ∈ addrs, h ∉ known
      | .lost addrs => ∀ h ∈ addrs, h ∈ known
      | _ => True) ∧ WellAnnounced (absorb known m) ms

/-- What a server knows when a call begins: a restart makes it forget. -/
def forget (server : Nat) (known : Finset String) : Call → Finset String
  | .serverReset s => if s = server then ∅ else known
  | _ => known

/-- The copy after a run. -/
def copy (server : Nat) : Engine → Finset String → List Call → Finset String
  | _, known, [] => known
  | e, known, c :: cs =>
    copy server (e.after c)
      ((messagesTo server (e.call c).2).foldl absorb (forget server known c)) cs

/-- A tick visits every entry of the table once. -/
def Call.Visits (e : Engine) : Call → Prop
  | .tick _ order => order.Nodup ∧ ∀ addr, addr ∈ order ↔ (e.aircraft addr).isSome
  | _ => True

/-- The copy has the aircraft announced to the server. -/
def Replicated (server : Nat) (e : Engine) (known : Finset String) : Prop :=
  ∀ h, h ∈ known ↔ ∃ addr a, e.aircraft addr = some a ∧ (a.servers server).announced = true ∧
    hex06 addr = h

theorem copy_append (server : Nat) (e : Engine) (known : Finset String) (cs : List Call)
    (c : Call) :
    copy server e known (cs ++ [c]) =
      (messagesTo server ((exec after e cs).call c).2).foldl absorb
        (forget server (copy server e known cs) c) := by
  induction cs generalizing e known with
  | nil => rfl
  | cons d cs ih =>
      rw [List.cons_append, copy, copy, ih, exec_cons]

/-- Messages that announce nothing. -/
def announcesNothing : ClientMsg → Bool
  | .seen _ => false
  | .lost _ => false
  | _ => true

theorem absorb_nothing (known : Finset String) (ms : List ClientMsg)
    (h : ∀ m ∈ ms, announcesNothing m = true) :
    ms.foldl absorb known = known ∧ WellAnnounced known ms := by
  induction ms with
  | nil => exact ⟨rfl, trivial⟩
  | cons m ms ih =>
      have hm := h m List.mem_cons_self
      rcases ih (fun m' hm' => h m' (List.mem_cons_of_mem _ hm')) with ⟨hfold, hwell⟩
      cases m with
      | seen addrs => exact absurd hm Bool.false_ne_true
      | lost addrs => exact absurd hm Bool.false_ne_true
      | _ => exact ⟨hfold, trivial, hwell⟩

theorem onReception_nothing (e : Engine) (r : Reception) (now : Instant) (server : Nat)
    (msg : ClientMsg) (h : (server, msg) ∈ (e.onReception r now).2) :
    announcesNothing msg = true := by
  have hreset : (server, msg) ∈ (e.checkReset r).2 → announcesNothing msg = true := by
    intro hmem
    rw [mem_checkReset e r server msg hmem]
    rfl
  rcases onReception_cases e r now with hc | ⟨addr, _, ⟨_, hc⟩ | ⟨_, d, _, _, hc⟩ | ⟨v, _, hc⟩⟩
  · rw [hc] at h
    exact hreset h
  · rw [hc] at h
    exact hreset h
  · rw [hc] at h
    rcases List.mem_append.mp h with hout | hsync
    · exact hreset hout
    · rcases mem_pairSync _ addr d.odd r now server msg hsync with ⟨_, _, _, _, _, _, _, hmsg, _⟩
      rw [hmsg]
      rfl
  · rw [hc] at h
    rcases List.mem_append.mp h with hout | hfwd
    · exact hreset hout
    · rcases mem_forward _ addr r server msg hfwd with ⟨_, _, hmsg, _⟩
      rw [hmsg]
      rfl

theorem announced_iff (e : Engine) (server : Nat) (addr : UInt32) :
    (∃ a, e.aircraft addr = some a ∧ (a.servers server).announced = true) ↔
      ∃ req, e.view server addr = some (req, true) := by
  unfold view
  constructor
  · rintro ⟨a, ha, hann⟩
    exact ⟨(a.servers server).requested, by rw [ha, Option.map_some, hann]⟩
  · rintro ⟨req, h⟩
    rcases Option.map_eq_some_iff.mp h with ⟨a, ha, heq⟩
    exact ⟨a, ha, (Prod.mk.inj heq).2⟩

theorem replicated_iff (server : Nat) (e : Engine) (known : Finset String) :
    Replicated server e known ↔ ∀ h, h ∈ known ↔
      ∃ addr, (∃ req, e.view server addr = some (req, true)) ∧ hex06 addr = h := by
  unfold Replicated
  refine forall_congr' fun h => ?_
  have hinner : (∃ addr a, e.aircraft addr = some a ∧ (a.servers server).announced = true ∧
      hex06 addr = h) ↔
      ∃ addr, (∃ req, e.view server addr = some (req, true)) ∧ hex06 addr = h := by
    refine exists_congr fun addr => ?_
    rw [← announced_iff]
    constructor
    · rintro ⟨a, ha, hann, heq⟩
      exact ⟨⟨a, ha, hann⟩, heq⟩
    · rintro ⟨⟨a, ha, hann⟩, heq⟩
      exact ⟨a, ha, hann, heq⟩
  rw [hinner]

/-- A call that leaves what is announced leaves the copy right. -/
theorem replicated_of_view (server : Nat) (e e' : Engine) (known : Finset String)
    (he : Replicated server e known)
    (h : ∀ addr, (∃ req, e'.view server addr = some (req, true)) ↔
      ∃ req, e.view server addr = some (req, true)) : Replicated server e' known := by
  rw [replicated_iff] at he ⊢
  intro text
  rw [he text]
  exact exists_congr fun addr => by rw [h addr]

theorem onReception_announced (e : Engine) (r : Reception) (now : Instant) (server : Nat)
    (addr : UInt32) : (∃ req, (e.onReception r now).1.view server addr = some (req, true)) ↔
      ∃ req, e.view server addr = some (req, true) := by
  rcases onReception_view e r now server addr with h | ⟨_, hnone, hnew⟩
  · rw [h]
  · rw [hnone, hnew]
    simp only [Option.some.injEq, Prod.mk.injEq, Bool.false_eq_true, and_false, exists_false,
      reduceCtorEq]

theorem setRequested_announced (e : Engine) (s : Nat) (hexes : List String) (v : Bool)
    (server : Nat) (addr : UInt32) :
    (∃ req, (e.setRequested s hexes v).view server addr = some (req, true)) ↔
      ∃ req, e.view server addr = some (req, true) := by
  by_cases hs : s = server
  · rw [hs, setRequested_view]
    cases e.view server addr with
    | none => simp only [Option.map_none, reduceCtorEq, exists_false]
    | some w => simp only [Option.map_some, Option.some.injEq, Prod.ext_iff, exists_eq_left']
  · rw [setRequested_view_other e s server hexes v addr (Ne.symm hs)]

/-- The copy after the announcements of a tick. -/
theorem absorb_announcements (e : Engine) (now : Instant) (order : List UInt32) (server : Nat)
    (known : Finset String) :
    (e.announcements now order server).foldl absorb known =
      (known ∪ (e.seenList now order server).toFinset) \ (e.lostList now order server).toFinset := by
  unfold announcements
  rw [List.foldl_append]
  have hseen : (if e.seenList now order server = [] then []
      else [ClientMsg.seen (e.seenList now order server)]).foldl absorb known =
      known ∪ (e.seenList now order server).toFinset := by
    split_ifs with hnil
    · rw [hnil, List.foldl_nil, List.toFinset_nil, Finset.union_empty]
    · rfl
  rw [hseen]
  split_ifs with hnil
  · rw [hnil, List.foldl_nil, List.toFinset_nil, Finset.sdiff_empty]
  · rfl

theorem mem_seenList (e : Engine) (now : Instant) (order : List UInt32) (server : Nat)
    (addr : UInt32) : hex06 addr ∈ e.seenList now order server ↔ addr ∈ order ∧
      ∃ a, e.aircraft addr = some a ∧ expired now a = false ∧
        (a.servers server).announced = false := by
  unfold seenList
  rw [List.mem_map_of_injective hex06_injective, List.mem_filter]
  refine and_congr_right fun _ => ?_
  rw [Option.any_eq_true]
  simp only [Bool.and_eq_true, Bool.not_eq_true']

theorem mem_lostList (e : Engine) (now : Instant) (order : List UInt32) (server : Nat)
    (addr : UInt32) : hex06 addr ∈ e.lostList now order server ↔ addr ∈ order ∧
      ∃ a, e.aircraft addr = some a ∧ expired now a = true ∧
        (a.servers server).announced = true := by
  unfold lostList
  rw [List.mem_map_of_injective hex06_injective, List.mem_filter]
  refine and_congr_right fun _ => ?_
  rw [Option.any_eq_true]
  simp only [Bool.and_eq_true]

theorem seenList_nodup (e : Engine) (now : Instant) (order : List UInt32) (server : Nat)
    (h : order.Nodup) : (e.seenList now order server).Nodup :=
  (h.filter _).map hex06_injective

/-- What a list of a tick names is the text of an address. -/
theorem text_of_mem_lists (e : Engine) (now : Instant) (order : List UInt32) (server : Nat)
    (h : String) (hmem : h ∈ e.seenList now order server ∨ h ∈ e.lostList now order server) :
    ∃ addr, hex06 addr = h := by
  rcases hmem with hmem | hmem
  · rcases List.mem_map.mp hmem with ⟨addr, _, heq⟩
    exact ⟨addr, heq⟩
  · rcases List.mem_map.mp hmem with ⟨addr, _, heq⟩
    exact ⟨addr, heq⟩

/-- What a tick announces was not known, what it reports lost was. -/
theorem tick_news (e : Engine) (now : Instant) (order : List UInt32) (server : Nat)
    (known : Finset String) (he : Replicated server e known)
    (hvisits : Call.Visits e (.tick now order)) :
    (e.seenList now order server).Nodup ∧
      (∀ h ∈ e.seenList now order server, h ∉ known) ∧
      ∀ h ∈ e.lostList now order server, h ∈ known := by
  refine ⟨seenList_nodup e now order server hvisits.1, ?_, ?_⟩
  · intro h hmem hknown
    rcases text_of_mem_lists e now order server h (Or.inl hmem) with ⟨addr, rfl⟩
    rcases (mem_seenList e now order server addr).mp hmem with ⟨_, a, ha, _, hann⟩
    rcases (he _).mp hknown with ⟨addr', a', ha', hann', heq⟩
    rw [hex06_injective heq, ha, Option.some.injEq] at ha'
    rw [← ha', hann] at hann'
    exact absurd hann' Bool.false_ne_true
  · intro h hmem
    rcases text_of_mem_lists e now order server h (Or.inr hmem) with ⟨addr, rfl⟩
    rcases (mem_lostList e now order server addr).mp hmem with ⟨_, a, ha, _, hann⟩
    exact (he _).mpr ⟨addr, a, ha, hann, rfl⟩

/-- The messages of a tick are news to a right copy. -/
theorem tick_wellAnnounced (e : Engine) (now : Instant) (order : List UInt32) (server : Nat)
    (known : Finset String) (he : Replicated server e known)
    (hvisits : Call.Visits e (.tick now order)) :
    WellAnnounced known (e.announcements now order server ++ e.rateReports now order) := by
  rcases tick_news e now order server known he hvisits with ⟨hnodup, hseen, hlost⟩
  have hrates : ∀ k, WellAnnounced k (e.rateReports now order) := by
    intro k
    unfold rateReports
    split_ifs
    · exact ⟨trivial, trivial⟩
    · trivial
  unfold announcements
  split_ifs with hs hl hl
  · exact hrates known
  · exact ⟨hlost, hrates _⟩
  · exact ⟨⟨hnodup, hseen⟩, hrates _⟩
  · refine ⟨⟨hnodup, hseen⟩, ?_, hrates _⟩
    intro h hmem
    exact Finset.mem_union_left _ (hlost h hmem)

/-- After a tick the copy has what is left of the table. -/
theorem tick_replicated (e : Engine) (now : Instant) (order : List UInt32) (server : Nat)
    (known : Finset String) (he : Replicated server e known)
    (hvisits : Call.Visits e (.tick now order)) :
    Replicated server (e.tick now order).1
      ((known ∪ (e.seenList now order server).toFinset) \
        (e.lostList now order server).toFinset) := by
  rw [replicated_iff]
  have hview : ∀ addr, (∃ req, (e.tick now order).1.view server addr = some (req, true)) ↔
      ∃ a, e.aircraft addr = some a ∧ expired now a = false := by
    intro addr
    rw [tick_view_eq]
    constructor
    · rintro ⟨req, h⟩
      rcases Option.map_eq_some_iff.mp h with ⟨a, hfilter, _⟩
      rcases Option.filter_eq_some_iff.mp hfilter with ⟨ha, hexp⟩
      exact ⟨a, ha, by simpa using hexp⟩
    · rintro ⟨a, ha, hexp⟩
      exact ⟨(a.servers server).requested, by simp [ha, hexp]⟩
  intro h
  simp only [Finset.mem_sdiff, Finset.mem_union, List.mem_toFinset]
  constructor
  · rintro ⟨hin, hnot⟩
    rcases hin with hknown | hseen
    · rcases (he h).mp hknown with ⟨addr, a, ha, hann, rfl⟩
      refine ⟨addr, (hview addr).mpr ⟨a, ha, ?_⟩, rfl⟩
      -- An expired one would have been reported lost.
      by_contra hexp
      rw [Bool.not_eq_false] at hexp
      have horder : addr ∈ order := (hvisits.2 addr).mpr (by rw [ha]; rfl)
      exact hnot ((mem_lostList e now order server addr).mpr ⟨horder, a, ha, hexp, hann⟩)
    · rcases text_of_mem_lists e now order server h (Or.inl hseen) with ⟨addr, rfl⟩
      rcases (mem_seenList e now order server addr).mp hseen with ⟨_, a, ha, hexp, _⟩
      exact ⟨addr, (hview addr).mpr ⟨a, ha, hexp⟩, rfl⟩
  · rintro ⟨addr, hann, rfl⟩
    rcases (hview addr).mp hann with ⟨a, ha, hexp⟩
    have horder : addr ∈ order := (hvisits.2 addr).mpr (by rw [ha]; rfl)
    constructor
    · cases hold : (a.servers server).announced with
      | true => exact Or.inl ((he _).mpr ⟨addr, a, ha, hold, rfl⟩)
      | false =>
          exact Or.inr ((mem_seenList e now order server addr).mpr ⟨horder, a, ha, hexp, hold⟩)
    · intro hlost
      rcases (mem_lostList e now order server addr).mp hlost with ⟨_, a', ha', hexp', _⟩
      rw [ha, Option.some.injEq] at ha'
      rw [← ha', hexp] at hexp'
      exact absurd hexp' Bool.false_ne_true

/-- One call: its messages are news to a right copy, and leave it right. -/
theorem replicated_step (server : Nat) (e : Engine) (known : Finset String) (c : Call)
    (hserver : server < e.nServers) (he : Replicated server e known) (hvisits : c.Visits e) :
    WellAnnounced (forget server known c) (messagesTo server (e.call c).2) ∧
      Replicated server (e.after c)
        ((messagesTo server (e.call c).2).foldl absorb (forget server known c)) := by
  cases c with
  | reception r now =>
      have hnothing : ∀ m ∈ messagesTo server (e.onReception r now).2,
          announcesNothing m = true := fun m hm =>
        onReception_nothing e r now server m ((mem_messagesTo server m _).mp hm)
      rcases absorb_nothing known _ hnothing with ⟨hfold, hwell⟩
      refine ⟨hwell, ?_⟩
      change Replicated server (e.onReception r now).1
        ((messagesTo server (e.onReception r now).2).foldl absorb known)
      rw [hfold]
      exact replicated_of_view server e _ known he (onReception_announced e r now server)
  | tick now order =>
      have hrates := (absorb_nothing ((known ∪ (e.seenList now order server).toFinset) \
        (e.lostList now order server).toFinset) (e.rateReports now order) (by
          intro m hm
          unfold rateReports at hm
          split_ifs at hm
          · rw [List.mem_singleton.mp hm]
            rfl
          · exact absurd hm List.not_mem_nil)).1
      simp only [call, after, forget]
      rw [messagesTo_tick e now order server hserver, List.foldl_append, absorb_announcements,
        hrates]
      exact ⟨tick_wellAnnounced e now order server known he hvisits,
        tick_replicated e now order server known he hvisits⟩
  | startSending s hexes =>
      exact ⟨trivial, replicated_of_view server e _ known he
        (setRequested_announced e s hexes true server)⟩
  | stopSending s hexes =>
      exact ⟨trivial, replicated_of_view server e _ known he
        (setRequested_announced e s hexes false server)⟩
  | serverReset s =>
      refine ⟨trivial, ?_⟩
      change Replicated server (e.serverReset s) (if s = server then ∅ else known)
      by_cases hs : s = server
      · rw [if_pos hs, hs, replicated_iff]
        intro h
        simp only [serverReset_view, Option.map_eq_some_iff, Prod.mk.injEq, Bool.false_eq_true,
          and_false, exists_false, false_and, Finset.notMem_empty]
      · rw [if_neg hs]
        refine replicated_of_view server e _ known he fun addr => ?_
        rw [serverReset_view_other e s server addr (Ne.symm hs)]
  | inputReset =>
      refine ⟨trivial, replicated_of_view server e _ known he fun addr => ?_⟩
      change (∃ req, e.inputReset.view server addr = _) ↔ _
      rw [inputReset_view]

/-- The copy is right after every run. -/
theorem replicated_run (user : String) (t0 : Instant) (n server : Nat) (cs : List Call)
    (hserver : server < n)
    (hvisits : Along after (fun e c => c.Visits e) (new user t0 n) cs) :
    Replicated server (exec after (new user t0 n) cs) (copy server (new user t0 n) ∅ cs) := by
  induction cs using List.reverseRecOn with
  | nil =>
      intro h
      simp only [exec_nil, copy, new, Finset.notMem_empty, reduceCtorEq, false_and, exists_false]
  | append_singleton cs c ih =>
      rcases (along_append after _ (new user t0 n) cs [c]).mp hvisits with ⟨hcs, hc⟩
      rw [copy_append, exec_append, exec_cons, exec_nil]
      have hn : server < (exec after (new user t0 n) cs).nServers := by
        rw [exec_nServers]
        exact hserver
      exact (replicated_step server _ _ c hn (ih hcs) hc.1).2

/-- An entry was there before the call, or the call introduced it. -/
theorem present_step (e : Engine) (c : Call) (addr : UInt32)
    (h : ((e.after c).aircraft addr).isSome = true) :
    (e.aircraft addr).isSome = true ∨
      ∃ r now, c = .reception r now ∧ introduced r.frame = some addr := by
  have hpresent : ∀ e' : Engine, (e'.aircraft addr).isSome = (e'.view 0 addr).isSome := by
    intro e'
    rw [view, Option.isSome_map]
  rw [hpresent] at h ⊢
  cases c with
  | reception r now =>
      rcases onReception_view e r now 0 addr with hsame | ⟨hintro, _, _⟩
      · left
        rw [← hsame]
        exact h
      · exact Or.inr ⟨r, now, rfl, hintro⟩
  | tick now order =>
      left
      have hview := (congrArg Option.isSome (tick_view_eq e now order 0 addr)).symm.trans h
      rw [Option.isSome_map, Option.isSome_filter] at hview
      rw [view, Option.isSome_map]
      exact Option.isSome_of_any hview
  | startSending s hexes =>
      left
      by_cases hs : s = 0
      · rw [hs] at h
        have hview := (congrArg Option.isSome (setRequested_view e 0 hexes true addr)).symm.trans h
        rw [Option.isSome_map] at hview
        exact hview
      · rw [← setRequested_view_other e s 0 hexes true addr (Ne.symm hs)]
        exact h
  | stopSending s hexes =>
      left
      by_cases hs : s = 0
      · rw [hs] at h
        have hview := (congrArg Option.isSome (setRequested_view e 0 hexes false addr)).symm.trans h
        rw [Option.isSome_map] at hview
        exact hview
      · rw [← setRequested_view_other e s 0 hexes false addr (Ne.symm hs)]
        exact h
  | serverReset s =>
      left
      simp only [view, after, call, serverReset, Option.isSome_map] at h ⊢
      exact h
  | inputReset =>
      left
      simp only [view, after, call, inputReset, Option.isSome_map] at h ⊢
      exact h

/-- Every entry was introduced by a frame that passed its parity check. -/
theorem introduced_run (user : String) (t0 : Instant) (n : Nat) (cs : List Call) (addr : UInt32)
    (h : ((exec after (new user t0 n) cs).aircraft addr).isSome = true) :
    ∃ r now, .reception r now ∈ cs ∧ introduced r.frame = some addr := by
  induction cs using List.reverseRecOn with
  | nil => exact absurd h Bool.false_ne_true
  | append_singleton cs c ih =>
      rw [exec_append, exec_cons, exec_nil] at h
      rcases present_step _ c addr h with hold | ⟨r, now, hc, hintro⟩
      · rcases ih hold with ⟨r, now, hmem, hintro⟩
        exact ⟨r, now, List.mem_append_left _ hmem, hintro⟩
      · rw [hc]
        exact ⟨r, now, List.mem_append_right _ (List.mem_singleton.mpr rfl), hintro⟩

/-- What a server is told is the table: every message is news to its copy, the
    copy has what is announced, after a tick it has the whole table, and the
    table has what valid frames introduced. -/
theorem announcements_replicate (user : String) (t0 : Instant) (n server : Nat) (cs : List Call)
    (hserver : server < n)
    (hvisits : Along after (fun e c => c.Visits e) (new user t0 n) cs) :
    let e := exec after (new user t0 n) cs
    let known := copy server (new user t0 n) ∅ cs
    Replicated server e known ∧
    (∀ addr, (e.aircraft addr).isSome = true →
      ∃ r now, .reception r now ∈ cs ∧ introduced r.frame = some addr) ∧
    ∀ c : Call, c.Visits e →
      WellAnnounced (forget server known c) (messagesTo server (e.call c).2) ∧
      ∀ now order, c = .tick now order → ∀ h, h ∈ copy server (new user t0 n) ∅ (cs ++ [c]) ↔
        ∃ addr, ((e.after c).aircraft addr).isSome = true ∧ hex06 addr = h := by
  intro e known
  have hknown : Replicated server e known := replicated_run user t0 n server cs hserver hvisits
  refine ⟨hknown, introduced_run user t0 n cs, ?_⟩
  intro c hc
  have hn : server < e.nServers := by
    change server < (exec after (new user t0 n) cs).nServers
    rw [exec_nServers]
    exact hserver
  rcases replicated_step server e known c hn hknown hc with ⟨hwell, hnext⟩
  refine ⟨hwell, ?_⟩
  intro now order htick h
  rw [copy_append, hnext h]
  -- After a tick everything in the table is announced.
  refine exists_congr fun addr => ?_
  constructor
  · rintro ⟨a, ha, _, heq⟩
    exact ⟨by rw [ha]; rfl, heq⟩
  · rintro ⟨hsome, heq⟩
    rcases Option.isSome_iff_exists.mp hsome with ⟨a, ha⟩
    rw [htick] at ha
    refine ⟨a, by rw [htick]; exact ha, tick_announced e now order addr a ha server, heq⟩

/-- One aircraft is heard, announced, and silent for a minute. -/
def heardOnce : List Call :=
  [.reception ⟨1000, df11 ⟨0xABCDEF⟩ 0⟩ 0, .tick 0 [0xABCDEF]]

/-- The table visited by the first tick. -/
theorem heardOnce_visits :
    Along after (fun e c => c.Visits e) (new "rx" 0 1) heardOnce := by
  refine ⟨trivial, ⟨by decide, ?_⟩, trivial⟩
  intro addr
  rw [List.mem_singleton]
  constructor
  · intro h
    rw [h]
    decide +kernel
  · intro h
    rcases present_step _ _ addr h with hold | ⟨r, now, hc, hintro⟩
    · exact absurd hold Bool.false_ne_true
    · rw [Call.reception.injEq] at hc
      rw [← hc.1] at hintro
      have hframe : introduced (df11 ⟨0xABCDEF⟩ 0) = some 0xABCDEF := by decide +kernel
      exact Option.some.inj (hintro.symm.trans hframe)

theorem announcements_replicate_heardOnce :
    copy 0 (new "rx" 0 1) ∅ heardOnce = {"abcdef"} ∧
      Replicated 0 (exec after (new "rx" 0 1) heardOnce) (copy 0 (new "rx" 0 1) ∅ heardOnce) :=
  ⟨by decide +kernel,
    (announcements_replicate "rx" 0 1 0 heardOnce (by decide) heardOnce_visits).1⟩

end Engine

end Client

end MlatBench
