import MlatBench.Theory.Crc24
import MlatBench.Theory.Engine

/-!
# All-call Replies in the Engine

When the engine takes a DF11 for a validated frame.

A DF11's parity field is the parity of its first four bytes plus the code of
the interrogator it answers, so that code is the difference of the two. The
engine does not compute it. It runs the parity over all seven bytes and accepts
a remainder below 80, and by `low24_crc24_append` that remainder is the code
shifted through the register 24 times. Shifting is a bijection that keeps
nothing small but zero: of the codes below 80 only zero is accepted, and each
of 79 larger codes is accepted in the place of one that is not.

`aliasCode k` is the code whose remainder is `k`. Being linear, it is given by
its values at the powers of two.

## Main definitions

* `interrogatorCode`: The code recovered from a DF11.
* `aliasCode`: The code the engine takes for a given small remainder.
* `TreatsAsValidated`: The engine creates or refreshes the aircraft and
  forwards the frame.

## Theorems

* `onReception_df11`: The engine's branch for a DF11.
* `treatsAsValidated_iff`: The engine accepts exactly the small remainders.
* `checkReset_msgsInWindow`, `touch_validated`: What counts a message.
* `low24_crc24_df11`: The remainder is the shifted code.
* `interrogatorCode_lt`: The code is below `2 ^ 24`.
* `aliasCode_spec`: The alias codes shift to the small remainders.
* `crc24_lt_iff_aliasCode`: The small remainders belong to the alias codes.
* `df11_acceptance_exact`: Where the engine decides by the code.
* `df11_code_zero_decides`: The squitter code is decided rightly.
* `df11_code_one_rejected`: Code one is not accepted.
-/

namespace MlatBench

namespace Client

open Library Modes Proto

/-- The code recovered from a DF11: its parity field against the parity of the
    bytes before it. -/
def interrogatorCode (f : List UInt8) : UInt32 :=
  crc24 (f.take 4) ^^^ be24 (f.drop 4)

/-- The codes whose remainders are the powers of two below 80. -/
def aliasBasis : List UInt32 :=
  [0xa4428d, 0xb77113, 0x91162f, 0xddd857, 0x4444a7, 0x88894e, 0xeee695]

/-- The code whose remainder is `k`, a sum of basis codes. -/
def aliasCode (k : Nat) : UInt32 :=
  (List.range 7).foldl (fun c i => if k.testBit i then c ^^^ aliasBasis.getD i 0 else c) 0

/-- What validation amounts to: the sender's entry is created or refreshed,
    counting the message, and every server that asked for it gets the frame. -/
def TreatsAsValidated (e : Engine) (r : Reception) (now : Instant) : Prop :=
  let addr := be24 (r.frame.drop 1)
  let e' := (e.onReception r now).1
  (∃ a, e'.aircraft addr = some a ∧ a.lastSeen = now ∧
      a.msgsInWindow = ((e.aircraft addr).map Aircraft.msgsInWindow).getD 0 + 1) ∧
    ∀ s, s < e.nServers → (∀ a, e'.aircraft addr = some a → (a.servers s).requested = true) →
      (s, ClientMsg.mlat r.counts12mhz (hexEncode r.frame)) ∈ (e.onReception r now).2

theorem onReception_df11 (e : Engine) (r : Reception) (now : Instant)
    (hdf : dfOf r.frame = some 11) :
    e.onReception r now =
      if 80 ≤ crc24 r.frame then e.checkReset r
      else
        let e' := (e.checkReset r).1.touch (be24 (r.frame.drop 1)) now true
        (e', (e.checkReset r).2 ++ e'.forward (be24 (r.frame.drop 1)) r) := by
  unfold Engine.onReception
  simp only [hdf]
  rw [if_neg (by decide), if_pos trivial]

/-- The reset test counts no message: it drops pairing state at most. -/
theorem checkReset_msgsInWindow (e : Engine) (r : Reception) (addr : UInt32) :
    ((e.checkReset r).1.aircraft addr).map Aircraft.msgsInWindow
      = (e.aircraft addr).map Aircraft.msgsInWindow := by
  rcases Engine.checkReset_cases e r with h | h <;> rw [h]
  simp only [Engine.inputReset, Option.map_map]
  rfl

/-- The entry a validated frame leaves behind counts one message more than the
    entry it found, or one if it found none. -/
theorem touch_validated (e : Engine) (addr : UInt32) (now : Instant) :
    ∃ a, (e.touch addr now true).aircraft addr = some a ∧ a.lastSeen = now ∧
      a.msgsInWindow = ((e.aircraft addr).map Aircraft.msgsInWindow).getD 0 + 1 := by
  rw [Engine.touch_aircraft_self]
  cases e.aircraft addr with
  | none => exact ⟨_, rfl, rfl, rfl⟩
  | some a => exact ⟨_, rfl, rfl, rfl⟩

/-- The engine accepts a DF11 exactly when the remainder over the whole frame
    is below 80. A rejected frame leaves the message count as it was, which is
    how the two cases are told apart from outside. -/
theorem treatsAsValidated_iff (e : Engine) (r : Reception) (now : Instant)
    (hdf : dfOf r.frame = some 11) :
    TreatsAsValidated e r now ↔ crc24 r.frame < 80 := by
  unfold TreatsAsValidated
  rw [onReception_df11 e r now hdf]
  by_cases hc : 80 ≤ crc24 r.frame
  · rw [if_pos hc]
    refine ⟨?_, fun h => absurd hc (UInt32.not_le.mpr h)⟩
    rintro ⟨⟨a, ha, _, hmsgs⟩, _⟩
    have hkept := checkReset_msgsInWindow e r (be24 (r.frame.drop 1))
    rw [ha, Option.map_some] at hkept
    rw [← hkept, Option.getD_some] at hmsgs
    omega
  · rw [if_neg hc]
    refine ⟨fun _ => UInt32.not_le.mp hc, fun _ => ⟨?_, ?_⟩⟩
    · rw [← checkReset_msgsInWindow e r]
      exact touch_validated _ _ _
    · intro s hs hreq
      rcases touch_validated (e.checkReset r).1 (be24 (r.frame.drop 1)) now with ⟨a, ha, _⟩
      refine List.mem_append_right _ ?_
      simp only [Engine.forward, ha]
      refine List.mem_map.mpr ⟨s, List.mem_filter.mpr ⟨List.mem_range.mpr ?_, hreq a ha⟩, rfl⟩
      rw [Engine.touch_nServers, Engine.checkReset_nServers]
      exact hs

/-- A frame of seven bytes is its first four and the parity field. -/
theorem low24_crc24_df11 (f : List UInt8) (hlen : f.length = 7) :
    low24 (crc24 f) = (lfsr gen24)^[24] (low24 (interrogatorCode f)) := by
  rcases f with _ | ⟨b0, _ | ⟨b1, _ | ⟨b2, _ | ⟨b3, _ | ⟨b4, _ | ⟨b5, _ | ⟨b6, tail⟩⟩⟩⟩⟩⟩⟩ <;>
    simp only [List.length_cons, List.length_nil] at hlen
  all_goals first | omega | skip
  have htail : tail = [] := List.length_eq_zero_iff.mp (by omega)
  subst htail
  have happ := low24_crc24_append [b0, b1, b2, b3] b4 b5 b6
  rw [← low24_be24, ← low24_xor] at happ
  exact happ

theorem interrogatorCode_lt (f : List UInt8) : (interrogatorCode f).toNat < 2 ^ 24 := by
  rw [interrogatorCode, UInt32.toNat_xor]
  exact Nat.xor_lt_two_pow (crc24_lt _) (be24_lt _)

/-- The alias codes are what their name says, checked remainder by remainder;
    none but the first is itself below 80. -/
theorem aliasCode_spec : ∀ k, k < 80 →
    (lfsr gen24)^[24] (low24 (aliasCode k)) = BitVec.ofNat 24 k ∧
      (aliasCode k).toNat < 2 ^ 24 ∧ (0 < k → 80 ≤ aliasCode k) := by
  decide +kernel

/-- The small remainders belong to the alias codes and to no other. -/
theorem crc24_lt_iff_aliasCode (f : List UInt8) (hlen : f.length = 7) :
    crc24 f < 80 ↔ ∃ k, k < 80 ∧ interrogatorCode f = aliasCode k := by
  have hcode := low24_crc24_df11 f hlen
  constructor
  · intro h
    have hk : (crc24 f).toNat < 80 := h
    rcases aliasCode_spec _ hk with ⟨hspec, hlt, _⟩
    refine ⟨(crc24 f).toNat, hk, eq_of_low24_eq (interrogatorCode_lt f) hlt ?_⟩
    refine iterate_lfsr_injective gen24 (by decide) 24 ?_
    rw [← hcode, hspec]
    rfl
  · rintro ⟨k, hk, heq⟩
    rw [heq, (aliasCode_spec k hk).1] at hcode
    have hnat := congrArg BitVec.toNat hcode
    rw [low24, BitVec.toNat_setWidth, UInt32.toNat_toBitVec, Nat.mod_eq_of_lt (crc24_lt f),
      BitVec.toNat_ofNat, Nat.mod_eq_of_lt (by omega)] at hnat
    rw [UInt32.lt_iff_toNat_lt, hnat]
    exact hk

/-- Where the engine decides by the interrogator code: at code zero, which it
    accepts, and at the codes from 80 on that alias no small remainder, which
    it rejects. On every other code it decides the other way. -/
theorem df11_acceptance_exact (e : Engine) (r : Reception) (now : Instant)
    (hlen : r.frame.length = 7) (hdf : dfOf r.frame = some 11) :
    (TreatsAsValidated e r now ↔ interrogatorCode r.frame < 80) ↔
      interrogatorCode r.frame = 0 ∨
        (80 ≤ interrogatorCode r.frame ∧
          ∀ k, 0 < k → k < 80 → interrogatorCode r.frame ≠ aliasCode k) := by
  have hzero : aliasCode 0 = 0 := by decide
  rw [treatsAsValidated_iff e r now hdf, crc24_lt_iff_aliasCode r.frame hlen]
  constructor
  · intro h
    by_cases hic : interrogatorCode r.frame < 80
    · -- A code below 80 is accepted only through the alias of remainder zero.
      rcases h.mpr hic with ⟨k, hk, heq⟩
      rcases Nat.eq_zero_or_pos k with rfl | hpos
      · exact Or.inl (heq.trans hzero)
      · rw [heq] at hic
        exact absurd ((aliasCode_spec k hk).2.2 hpos) (UInt32.not_le.mpr hic)
    · refine Or.inr ⟨UInt32.not_lt.mp hic, fun k _ hk heq => hic (h.mp ⟨k, hk, heq⟩)⟩
  · rintro (h0 | ⟨hge, hne⟩)
    · rw [h0]
      exact ⟨fun _ => by decide, fun _ => ⟨0, by decide, hzero.symm⟩⟩
    · refine ⟨?_, fun hlt => absurd hge (UInt32.not_le.mpr hlt)⟩
      rintro ⟨k, hk, heq⟩
      rcases Nat.eq_zero_or_pos k with rfl | hpos
      · rw [heq, hzero] at hge
        exact absurd hge (by decide)
      · exact absurd heq (hne k hpos hk)

/-- A reply to interrogator one, from a station the engine has never heard. -/
def df11CodeOne : Reception :=
  { counts12mhz := 1000, frame := [0x5d, 0x3c, 0x64, 0x44, 0xdc, 0x6d, 0x6b] }

theorem df11_code_zero_decides :
    let r : Reception := { counts12mhz := 1000, frame := df11 ⟨0x3C6444⟩ 5 }
    (TreatsAsValidated (Engine.new "t" 0 1) r 0 ↔ interrogatorCode r.frame < 80) :=
  (df11_acceptance_exact _ _ _ (by decide) (by decide)).mpr (Or.inl (by decide +kernel))

/-- The reply with code one has a code below 80 and is not taken. -/
theorem df11_code_one_rejected :
    df11CodeOne.frame.length = 7 ∧ dfOf df11CodeOne.frame = some 11 ∧
      interrogatorCode df11CodeOne.frame = 1 ∧
      ¬ (TreatsAsValidated (Engine.new "t" 0 1) df11CodeOne 0 ↔
        interrogatorCode df11CodeOne.frame < 80) := by
  refine ⟨by decide, by decide, by decide +kernel, ?_⟩
  rw [treatsAsValidated_iff _ _ _ (by decide)]
  decide +kernel

end Client

end MlatBench
