import MlatBench.Theory.Stamps
import MlatBench.Theory.Trail

/-!
# Pairs Across Jumps

A sync message should not pair receptions with a counter jump between them: the
server forgets the clock at the jump, and the pair would teach it a clock that
never was. The loop announces a jump and leaves the halves waiting, so a half
from before it is paired with the next report of its aircraft, if that fits. The
client program, which forgets its halves when its counter restarts, does not do
this.

Lines are sent in order of arrival, but receptions are made in order of emission.
A pair made before a jump whose second report arrives after it is sent behind the
line of the jump.

## Main definitions

* `Trail.Unbroken`: No pair lies across a jump.
* `Trail.Current`: Behind a jump's line no count is from before it.
* `Severed`: At a jump nobody waits whom the next report of its aircraft fits.
* `Timely`: No pair made before a jump arrives after it.

## Theorems

* `Trail.unbroken_iff`: When no pair lies across a jump.
* `Trail.current_iff`: When no count is from before a jump.
* `jumps_part_pairs_iff`: What a client sends.
-/

namespace MlatBench

namespace Sim

open Library F64 F64Fn F64Ln Modes Proto

section

variable {F R : Type} [F64Ln F]

/-- No sync line pairs two receptions with a jump at the later one or between
    them. -/
def Trail.Unbroken {G S : Type} (tr : Trail G S) : Prop :=
  ∀ x ∈ tr.lines, ∀ i j, x.2 = .sync i j →
    ∀ n h, i < n → n ≤ j → tr.heard[n]? = some h → h.jumped = false

/-- Behind the line of a jump no sync line has a count from before it. -/
def Trail.Current (tr : Trail F R) : Prop :=
  tr.sorted.Pairwise fun x y => ∀ n i j, x.2 = .jump n → y.2 = .sync i j → n ≤ i

/-- Nobody waits at a jump whom the next report of its aircraft fits, that of the
    jump included. -/
def Severed (heard : List (Hearing F)) : Prop :=
  ∀ n h, heard[n]? = some h → h.jumped = true →
    ∀ icao i p, (waiting (heard.take n)).half icao = some (i, p) →
      ∀ x, (heard.drop n).find? (fun y => decide (y.key = some icao)) = some x → p.fits x = false

/-- A report that finds its partner arrives no later than a jump that is stamped
    after it. -/
def Timely (heard : List (Hearing F)) : Prop :=
  ∀ i j n h g, Partners Hearing.key Hearing.fits heard i j → heard[j]? = some h → j < n →
    heard[n]? = some g → g.jumped = true → totalLe h.t g.t = true

/-- The history of a loop tells what a client sends. -/
structure Tells (tr : Trail F R) (c : ClientStream F) : Prop where
  lines : tr.sorted.map Prod.fst = c.records.flatMap SendRecord.lines
  told : ∀ x ∈ tr.sorted, Says tr.heard x.1 x.2

namespace Trail

/-- No pair lies across a jump exactly if nobody waits there whom the next report
    of its aircraft fits. -/
theorem unbroken_iff (tr : Trail F R) (hk : tr.Kept) : tr.Unbroken ↔ Severed tr.heard := by
  have hacross := partners_across_iff Hearing.key Hearing.fits tr.heard
  constructor
  · intro hun n h hn hjumped icao i p hhalf x hfind
    refine Bool.eq_false_of_not_eq_true fun hfits => ?_
    rcases (hacross n).mpr ⟨icao, i, p, x, hhalf, hfind, hfits⟩ with ⟨i', j', hpair, hi, hj⟩
    rcases hk.pairs i' j' hpair with ⟨l, hl, hsrc⟩
    rw [hun l hl i' j' hsrc n h hi hj hn] at hjumped
    exact Bool.false_ne_true hjumped
  · intro hsev l hl i j hsrc n h hi hj hn
    refine Bool.eq_false_of_not_eq_true fun hjumped => ?_
    have htold := hk.told l hl
    rw [hsrc] at htold
    rcases (hacross n).mp ⟨i, j, htold.1, hi, hj⟩ with ⟨icao, i', p, x, hhalf, hfind, hfits⟩
    rw [hsev n h hn hjumped icao i' p hhalf x hfind] at hfits
    exact Bool.false_ne_true hfits

theorem mem_sorted (tr : Trail F R) (x : Line F × Source) : x ∈ tr.sorted ↔ x ∈ tr.lines :=
  List.mem_insertionSort _

/-- Of two lines the first arrives no later, and if the second does not either
    they stand as they were made. -/
theorem sorted_inOrder (horder : F64.TotalOrder F) (tr : Trail F R) (hk : tr.Kept) :
    tr.sorted.Pairwise (InOrder (fun x y => totalLe x.1.t y.1.t = true) Upright) := by
  have := horder.trans_key fun x : Line F × Source => x.1.t
  have := horder.total_key fun x : Line F × Source => x.1.t
  exact stable_insertionSort _ Upright tr.lines hk.upright

/-- If no pair lies across a jump, no count is from before one exactly if pairs
    made before a jump arrive before it. -/
theorem current_iff (horder : F64.TotalOrder F) (tr : Trail F R) (hk : tr.Kept)
    (hun : tr.Unbroken) : tr.Current ↔ Timely tr.heard := by
  have hsorted := sorted_inOrder horder tr hk
  constructor
  · intro hcur i j n h g hpair hh hjn hg hjumped
    have hboth := hsorted.and hcur
    rcases hk.jumps n g hg hjumped with ⟨x, hx, hsrcx⟩
    rcases hk.pairs i j hpair with ⟨y, hy, hsrcy⟩
    have htoldx := hk.told x hx
    have htoldy := hk.told y hy
    rw [hsrcx] at htoldx
    rw [hsrcy] at htoldy
    rcases htoldx with ⟨_, g', hg', _, htx⟩
    rcases htoldy with ⟨_, _, h', _, hh', _, hty⟩
    rw [hg, Option.some.injEq] at hg'
    rw [hh, Option.some.injEq] at hh'
    rw [hg', hh', ← htx, ← hty]
    have hne : x ≠ y := by
      rintro rfl
      exact Source.noConfusion (hsrcx.symm.trans hsrcy)
    -- One of the two lines is sent before the other.
    rcases either_of_pairwise hboth x y ((mem_sorted tr x).mpr hx) ((mem_sorted tr y).mpr hy) hne
      with ⟨_, hxy⟩ | ⟨hyx, _⟩
    · have hni := hxy n i j hsrcx hsrcy
      have hij := (partners_spec _ _ tr.heard i j hpair).1
      exact absurd hjn (Nat.not_lt.mpr (Nat.le_trans hni (Nat.le_of_lt hij)))
    · exact hyx.1
  · intro htimely
    refine hsorted.imp_of_mem fun {x y} hx hy hxy n i j hsrcx hsrcy => ?_
    have htoldx := hk.told x ((mem_sorted tr x).mp hx)
    have htoldy := hk.told y ((mem_sorted tr y).mp hy)
    rw [hsrcx] at htoldx
    rw [hsrcy] at htoldy
    rcases htoldx with ⟨_, g, hg, hjumped, htx⟩
    rcases htoldy with ⟨hpair, _, h, _, hh, _, hty⟩
    -- A count from before the jump: the pair was made before it, or lies across.
    by_contra hlate
    rcases Nat.lt_or_ge j n with hjn | hnj
    · have hle := htimely i j n h g hpair hh hjn hg hjumped
      rw [← htx, ← hty] at hle
      exact absurd (hxy.2 hle n i j hsrcx hsrcy) (Nat.not_le.mpr hjn)
    · have hno := hun y ((mem_sorted tr y).mp hy) i j hsrcy n g (Nat.not_le.mp hlate) hnj hg
      rw [hno] at hjumped
      exact Bool.false_ne_true hjumped

end Trail

/-- The lines of the loop and of its history are sorted alike. -/
theorem tells_trail (rand : Rand F R) (fuel : Nat) (sc : Scenario F) (rx : ReceiverSpec F)
    (bs : List (Broadcast F)) (c : ClientStream F) (hbuild : buildClient rand fuel sc rx bs = some c) :
    Tells (trail rand fuel sc.seed rx bs) c where
  lines := by
    have hk := kept_trail rand fuel sc.seed rx bs
    rw [(buildClient_lines rand fuel sc rx bs c hbuild).2, ← trail_loop, Loop.sorted, ← hk.lines]
    exact List.map_insertionSort _ _ Prod.fst _ fun x _ y _ => Iff.rfl
  told x hx := (kept_trail rand fuel sc.seed rx bs).told x ((Trail.mem_sorted _ x).mp hx)

/-- The sync lines a client sends pair receptions with no jump between them, and
    none behind a clock_jump line has a count from before it, exactly if at a jump
    nobody waits whom the next report of its aircraft fits, and no pair made
    before a jump arrives after it. -/
theorem jumps_part_pairs_iff (horder : F64.TotalOrder F) (rand : Rand F R) (fuel : Nat)
    (sc : Scenario F) (rx : ReceiverSpec F) (bs : List (Broadcast F)) (c : ClientStream F)
    (hbuild : buildClient rand fuel sc rx bs = some c) :
    Tells (trail rand fuel sc.seed rx bs) c ∧
      ((trail rand fuel sc.seed rx bs).Unbroken ∧ (trail rand fuel sc.seed rx bs).Current ↔
        Severed (trail rand fuel sc.seed rx bs).heard ∧
          Timely (trail rand fuel sc.seed rx bs).heard) := by
  have hk := kept_trail rand fuel sc.seed rx bs
  have hun := Trail.unbroken_iff _ hk
  refine ⟨tells_trail rand fuel sc rx bs c hbuild, ?_⟩
  constructor
  · rintro ⟨hunbroken, hcurrent⟩
    exact ⟨hun.mp hunbroken, (Trail.current_iff horder _ hk hunbroken).mp hcurrent⟩
  · rintro ⟨hsevered, htimely⟩
    have hunbroken := hun.mpr hsevered
    exact ⟨hunbroken, (Trail.current_iff horder _ hk hunbroken).mpr htimely⟩

end

section Example

/-- Arithmetic is exact. -/
local instance (priority := low) exactJumps : F64Ln ℚ := F64.exactLn ℚ

/-- The streams of seeds 7 and 23, in draws of 52 bits; the other streams are not
    looked at here. -/
def jumpDraws (seed : Nat) : String → List Nat
  | "emit/3C6444" =>
    if seed = 7 then [793811784477443, 2264171742010562, 3622797556277319]
    else [4387361054022625, 2543199080119746, 1524878636158786]
  | "hostile/rx-000" =>
    if seed = 7 then [1497464579214384, 171879075488947, 2026372059067519, 1516689044345418]
    else [693051976180979, 4236236929406434, 4427503182375127, 2734219899974870]
  | _ => []

def jumpy : Rand ℚ (List Nat) where
  rngFor seed name := if seed = 7 ∨ seed = 23 then jumpDraws seed name else []
  genRange := uniform
  genRangeInclusive := uniform

/-- A counter that jumps thirty times a minute. -/
def jumping : ReceiverSpec ℚ :=
  { station with clock := .dump1090 0 0 0 0 0 30 }

def underJumps (seed : Nat) : Scenario ℚ :=
  { second [near] with seed := seed, receivers := [jumping] }

end Example

/-- With seed 23 the counter jumps before anybody waits, and the two reports after
    the jump are paired. -/
theorem jumps_part_pairs_first : ∃ cap bs c,
    generate jumpy 10 (underJumps 23) = some (.ok cap) ∧
    broadcasts jumpy 10 (underJumps 23) = some bs ∧ cap.clients = [c] ∧
    Tells (trail jumpy 10 23 jumping bs) c ∧
    (∃ x ∈ (trail jumpy 10 23 jumping bs).lines, x.2 = .jump 0) ∧
    (∃ x ∈ (trail jumpy 10 23 jumping bs).lines, x.2 = .sync 0 1) ∧
    (trail jumpy 10 23 jumping bs).Unbroken ∧ (trail jumpy 10 23 jumping bs).Current := by
  rcases generate_single jumpy 10 (underJumps 23) jumping rfl (by decide +kernel) with
    ⟨cap, bs, c, hcap, hbs, hc, hbuild, _⟩
  have hfacts : ∀ bs ∈ broadcasts jumpy 10 (underJumps 23),
      (∃ x ∈ (trail jumpy 10 23 jumping bs).lines, x.2 = .jump 0) ∧
      (∃ x ∈ (trail jumpy 10 23 jumping bs).lines, x.2 = .sync 0 1) ∧
      ∀ h ∈ (trail jumpy 10 23 jumping bs).heard.tail, h.jumped = false := by decide +kernel
  rcases hfacts bs hbs with ⟨hjump, hsync, htail⟩
  have hfirst : ∀ n h, (trail jumpy 10 23 jumping bs).heard[n]? = some h → h.jumped = true →
      n = 0 := by
    intro n h hn hjumped
    by_contra hpos
    have hmem : h ∈ (trail jumpy 10 23 jumping bs).heard.tail := by
      rw [← Nat.succ_pred hpos, ← List.getElem?_tail] at hn
      exact List.mem_of_getElem? hn
    rw [htail h hmem] at hjumped
    exact Bool.false_ne_true hjumped
  rcases jumps_part_pairs_iff (F64.totalOrder_exact ℚ) jumpy 10 (underJumps 23) jumping bs c hbuild
    with ⟨htells, hiff⟩
  refine ⟨cap, bs, c, hcap, hbs, hc, htells, hjump, hsync, hiff.mpr ⟨?_, ?_⟩⟩
  · intro n h hn hjumped icao i p hhalf
    rw [hfirst n h hn hjumped] at hhalf
    exact absurd hhalf (Option.some_ne_none (i, p)).symm
  · intro i j n h g _ _ hjn hg hjumped
    rw [hfirst n g hg hjumped] at hjn
    exact absurd hjn (Nat.not_lt_zero j)

/-- With seed 7 the counter jumps back between the two reports of an aircraft. The
    client announces the jump and then pairs them. -/
theorem pair_lies_across_jump : ∃ cap bs c,
    generate jumpy 10 (underJumps 7) = some (.ok cap) ∧
    broadcasts jumpy 10 (underJumps 7) = some bs ∧ cap.clients = [c] ∧
    Tells (trail jumpy 10 7 jumping bs) c ∧
    ¬ (trail jumpy 10 7 jumping bs).Unbroken ∧ ¬ (trail jumpy 10 7 jumping bs).Current := by
  rcases generate_single jumpy 10 (underJumps 7) jumping rfl (by decide +kernel) with
    ⟨cap, bs, c, hcap, hbs, hc, hbuild, _⟩
  refine ⟨cap, bs, c, hcap, hbs, hc, tells_trail jumpy 10 (underJumps 7) jumping bs c hbuild, ?_⟩
  have hfacts : ∀ bs ∈ broadcasts jumpy 10 (underJumps 7),
      (∃ x ∈ (trail jumpy 10 7 jumping bs).lines, x.2 = .sync 0 1) ∧
      (∃ h ∈ (trail jumpy 10 7 jumping bs).heard[1]?, h.jumped = true) ∧
      ¬ (trail jumpy 10 7 jumping bs).sorted.Pairwise
        fun x y => ¬ (x.2 = .jump 1 ∧ y.2 = .sync 0 1) := by decide +kernel
  rcases hfacts bs hbs with ⟨⟨x, hx, hsrc⟩, ⟨h, hh, hjumped⟩, hsorted⟩
  constructor
  · intro hun
    rw [hun x hx 0 1 hsrc 1 h Nat.zero_lt_one (Nat.le_refl 1) hh] at hjumped
    exact Bool.false_ne_true hjumped
  · intro hcur
    refine hsorted (hcur.imp fun hxy hboth => ?_)
    exact absurd (hxy 1 0 1 hboth.1 hboth.2) (Nat.not_succ_le_zero 0)

end Sim

end MlatBench
