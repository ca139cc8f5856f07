import MlatBench.Core.Replay
import MlatBench.Theory.Handshake
import MlatBench.Theory.Reception
import MlatBench.Theory.Records
import MlatBench.Theory.Stamps
import MlatBench.Theory.Tap
import MlatBench.Theory.Uploads

/-!
# What Is Generated Is Heard

From the simulator to the message loop of a server, by way of a file. The lines of a
receiver go into records and frames; the records and the handshake go into a file;
a replay asks the server with the handshake and sends the rest; and what the message
loop reads are the lines, in order of arrival, whatever the pieces they come in.

Each part is a theorem on its own: what is generated is what a session writes that
takes the same messages, so the session's theorems say what is read of it.

## Main definitions

* `Server.Uplink.Reads`: What a message loop reads of a stream.
* `Sim.lineText`, `Sim.said`: The texts of generated lines.
* `Sim.session`: The session that takes what is generated.
* `Sim.Sendable`: A client's handshake and lines can be sent.

## Theorems

* `Capture.items_enough`, `Capture.replayFile_records`: What a replay sends of a file.
* `Sim.frameLines_nonempty`: Records have lines in them.
* `Sim.encodeFrames_carry`: Frames carry what was encoded.
* `Sim.generated_sound`: What is generated is what a session writes.
* `Client.Writer.Sound.read`: What is read of a session.
* `Sim.captureRecords_fit`: Records fit their lengths.
* `Sim.generated_heard`: A generated capture is replayed to a server.
-/

namespace MlatBench

open Library F64 Framing Server

namespace Capture

/-- Records that are written are iterated over, with any turns to spare. -/
theorem items_enough (rs : List Record) (h : ∀ r ∈ rs, Fits r) (n : Nat) (hn : rs.length < n) :
    RecordIter.items n (serialise rs) = rs.map .ok := by
  induction rs generalizing n with
  | nil =>
      cases n with
      | zero => exact absurd hn (Nat.not_lt_zero 0)
      | succ n => rfl
  | cons r rs ih =>
      cases n with
      | zero => exact absurd hn (Nat.not_lt_zero _)
      | succ n =>
          have hcons : serialise (r :: rs) = r.bytes ++ serialise rs := List.flatMap_cons
          rw [hcons, RecordIter.items, RecordIter.next_bytes r (h r List.mem_cons_self)]
          simp only [List.map_cons]
          rw [ih (fun r' hr' => h r' (List.mem_cons_of_mem r hr')) n (Nat.lt_of_succ_lt_succ hn)]

theorem length_serialise (rs : List Record) : rs.length ≤ (serialise rs).length := by
  induction rs with
  | nil => exact Nat.le_refl 0
  | cons r rs ih =>
      have hcons : serialise (r :: rs) = r.bytes ++ serialise rs := List.flatMap_cons
      rw [hcons, List.length_append, List.length_cons, length_bytes]
      omega

/-- The start of a file is read. -/
theorem clientRecords_file (json : Json → String) (hraw : ∀ v, newline ∉ utf8 (json v))
    (id : String) (rs : List Record) :
    clientRecords (clientFile json id rs) = .ok (serialise rs) := by
  unfold clientRecords clientFile clientWriter
  rw [List.append_assoc, List.append_assoc, readExact_append mbcMagic _ 4 rfl]
  simp only [ne_eq, not_true_eq_false, if_false]
  rw [List.singleton_append, readLine_utf8 _ (hraw _)]

/-- A replay of a file sends what the file says the client sent, if the server goes
    along, and else the first line. -/
theorem replayFile_records (json : Json → String) (hraw : ∀ v, newline ∉ utf8 (json v))
    (id entryCompress : String) (ask : List UInt8 → Reply) (r : Record) (rs : List Record)
    (hr : r.kind = recConnect) (h : ∀ r' ∈ r :: rs, Fits r') :
    replayFile entryCompress ask (clientFile json id (r :: rs)) =
      .ok (if (ask r.payload).matches entryCompress then clientBytes (r :: rs) else r.payload) := by
  unfold replayFile
  rw [clientRecords_file json hraw]
  simp only []
  rw [items_enough (r :: rs) h _ (Nat.lt_succ_of_le (length_serialise _))]
  simp only [List.map_cons]
  by_cases hmatch : (ask r.payload).matches entryCompress = true
  · rw [if_pos hmatch, ← List.map_cons, feedClient_file entryCompress _ hmatch r rs hr]
  · rw [if_neg hmatch, feedClient, if_neg (not_not.mpr hr), if_neg hmatch]

end Capture

namespace Sim

section

variable {F R : Type} [F64Ln F]

/-- `frame_lines` makes records, and frames them. -/
theorem frameBytes_records {τ : Type} (text : Line F → List UInt8) (z : Library.Calls UInt8 UInt8 τ)
    (fuelZ : Nat) (rand : Rand F R) (fuel : Nat) (compress : String) (latencyS jitterS : F)
    (lines : List (Line F)) (rng : R) :
    frameBytes text z fuelZ rand fuel compress latencyS jitterS lines rng =
      (frameLines rand fuel compress latencyS jitterS lines rng).bind
        (wireRecords text z fuelZ compress) := by
  unfold frameBytes
  cases frameLines rand fuel compress latencyS jitterS lines rng with
  | none => rfl
  | some rs => rfl

/-- A batch that goes out has lines in it. -/
theorem closeWindows_nonempty (rand : Rand F R) (latencyS jitterS t : F) (fuel : Nat) (w : F)
    (batch : List (Line F)) (rng : R) (rs : List (SendRecord F)) (w' : F)
    (left : List (Line F)) (rng' : R)
    (h : closeWindows rand latencyS jitterS t fuel w batch rng = some (rs, w', left, rng')) :
    ∀ r ∈ rs, r.lines ≠ [] := by
  induction fuel generalizing w batch rng rs with
  | zero =>
      unfold closeWindows at h
      split_ifs at h
      cases h
      exact fun r hr => absurd hr List.not_mem_nil
  | succ fuel ih =>
      unfold closeWindows at h
      split_ifs at h with hw hbatch
      · exact ih _ _ _ _ h
      · rcases Option.map_eq_some_iff.mp h with ⟨⟨rs', w'', left', rng''⟩, hrest, heq⟩
        cases heq
        intro r hr
        rcases List.mem_cons.mp hr with rfl | hr
        · exact hbatch
        · exact ih _ _ _ _ hrest r hr
      · cases h
        exact fun r hr => absurd hr List.not_mem_nil

theorem recordBatches_nonempty (rand : Rand F R) (fuel : Nat) (latencyS jitterS : F)
    (ls : List (Line F)) (w : F) (batch : List (Line F)) (rng : R) (rs : List (SendRecord F))
    (h : recordBatches rand fuel latencyS jitterS ls w batch rng = some rs) :
    ∀ r ∈ rs, r.lines ≠ [] := by
  induction ls generalizing w batch rng rs with
  | nil =>
      unfold recordBatches at h
      split_ifs at h with hbatch
      · cases h
        exact fun r hr => absurd hr List.not_mem_nil
      · cases h
        intro r hr
        rw [List.mem_singleton.mp hr]
        exact hbatch
  | cons l ls ih =>
      unfold recordBatches at h
      cases hclose : closeWindows rand latencyS jitterS l.t fuel w batch rng with
      | none =>
          rw [hclose] at h
          exact absurd h (Option.some_ne_none rs).symm
      | some out =>
          obtain ⟨rs₁, w', left, rng'⟩ := out
          rw [hclose] at h
          rcases Option.map_eq_some_iff.mp h with ⟨rs₂, hrest, rfl⟩
          intro r hr
          rcases List.mem_append.mp hr with hr | hr
          · exact closeWindows_nonempty rand latencyS jitterS l.t fuel w batch rng rs₁ w' left rng'
              hclose r hr
          · exact ih _ _ _ _ hrest r hr

/-- Records have lines in them, and one each unless they are batches. -/
theorem frameLines_nonempty (rand : Rand F R) (fuel : Nat) (compress : String)
    (latencyS jitterS : F) (ls : List (Line F)) (rng : R) (rs : List (SendRecord F))
    (h : frameLines rand fuel compress latencyS jitterS ls rng = some rs) :
    ∀ r ∈ rs, r.lines ≠ [] ∧ (compress ≠ "zlib2" → ∃ l, r.lines = [l]) := by
  unfold frameLines at h
  by_cases hmode : compress = "zlib2"
  · -- A window that has no lines sends no batch.
    rw [if_pos hmode] at h
    intro r hr
    refine ⟨?_, fun hother => absurd hmode hother⟩
    cases ls with
    | nil =>
        cases h
        exact absurd hr List.not_mem_nil
    | cons l ls => exact recordBatches_nonempty rand fuel latencyS jitterS _ _ [] rng rs h r hr
  · rw [if_neg hmode] at h
    cases h
    have hone : ∀ (ms : List (Line F)) (rng : R), ∀ r ∈ recordEach rand latencyS jitterS ms rng,
        ∃ l, r.lines = [l] := by
      intro ms
      induction ms with
      | nil => exact fun _ r hr => absurd hr List.not_mem_nil
      | cons m ms ih =>
          intro rng r hr
          rcases List.mem_cons.mp hr with rfl | hr
          · exact ⟨m, rfl⟩
          · exact ih _ r hr
    intro r hr
    rcases hone ls rng r hr with ⟨l, hl⟩
    refine ⟨?_, fun _ => ⟨l, hl⟩⟩
    rw [hl]
    exact List.cons_ne_nil l []

end

section

open Client

variable {F τ σ : Type} (toVec : Json → List UInt8) (z : Library.Calls UInt8 UInt8 τ)
  (whole : List UInt8 → Option (List UInt8)) (enough : Nat → Nat) (Text : List UInt8 → Prop)
  (At : τ → List UInt8 → List UInt8 → Prop)

/-- The text of a line. -/
def lineText (l : Line F) : List UInt8 := lineOf toVec l.msg

theorem bytes_text (r : SendRecord F) :
    r.bytes (lineText toVec) = text (r.lines.map (lineText toVec)) := by
  unfold SendRecord.bytes text
  rw [List.flatMap_map]
  rfl

/-- Frames in a row carry what was encoded. -/
theorem encodeFrames_carry (h : z.Flushes whole syncTrailer enough Text At)
    (henough : ∀ k ≤ 64 * 1024, enough k ≤ k + 1024) (fuel : Nat) (s : τ)
    (taken given : List UInt8) (chunks frames : List (List UInt8)) (hs : At s taken given)
    (hchunks : ∀ c ∈ chunks, c ≠ [] ∧ c.length ≤ 64 * 1024)
    (htext : ∀ pre, pre <+: chunks → Text (taken ++ pre.flatten))
    (hframes : encodeFrames z (fuel + 1) s chunks = some frames) :
    ∃ ps, frames = ps.map frameOf ∧ Carry whole given taken ps chunks := by
  induction chunks generalizing s taken given frames with
  | nil =>
      cases hframes
      exact ⟨[], rfl, trivial⟩
  | cons c cs ih =>
      rcases hchunks c List.mem_cons_self with ⟨hne, hshort⟩
      have hone : Text (taken ++ c) := by
        have hpre := htext [c] (List.prefix_append [c] cs)
        rwa [List.flatten_cons, List.flatten_nil, List.append_nil] at hpre
      rcases encodeFrame_flush z whole enough Text At h s taken given c fuel hs hne hone
        (henough _ hshort) with ⟨p, s', hwhole, hs', hframe⟩
      unfold encodeFrames at hframes
      rw [hframe] at hframes
      by_cases hlarge : 65535 < p.length
      · rw [if_pos hlarge] at hframes
        exact absurd hframes (Option.some_ne_none frames).symm
      · rw [if_neg hlarge] at hframes
        rcases Option.map_eq_some_iff.mp hframes with ⟨rest, hrest, rfl⟩
        have hmore : ∀ pre, pre <+: cs → Text (taken ++ c ++ pre.flatten) := by
          intro pre hpre
          have hcons := htext (c :: pre) (List.cons_prefix_cons.mpr ⟨rfl, hpre⟩)
          rwa [List.flatten_cons, ← List.append_assoc] at hcons
        rcases ih s' (taken ++ c) (given ++ (p ++ syncTrailer)) rest hs'
          (fun c' hc' => hchunks c' (List.mem_cons_of_mem c hc')) hmore hrest with
          ⟨ps, rfl, hcarry⟩
        exact ⟨p :: ps, rfl, by omega, hwhole, hcarry⟩

/-- The bytes of records, and whose they are. -/
theorem wireRecords_cases (txt : Line F → List UInt8) (fuelZ : Nat) (compress : String)
    (rs : List (SendRecord F)) (ws : List WireRecord)
    (h : wireRecords txt z fuelZ compress rs = some ws) :
    (compress = "none" → ws.map WireRecord.bytes = rs.map (SendRecord.bytes txt)) ∧
      (compress ≠ "none" → encodeFrames z fuelZ z.start (rs.map (SendRecord.bytes txt)) =
        some (ws.map WireRecord.bytes)) := by
  unfold wireRecords at h
  rcases Option.map_eq_some_iff.mp h with ⟨wires, hwires, rfl⟩
  have hbytes : wires.length = rs.length →
      ((rs.zip wires).map fun p : SendRecord F × List UInt8 =>
        ({ t := p.1.t, bytes := p.2 } : WireRecord)).map WireRecord.bytes = wires := fun hlength =>
    List.map_map.trans (List.map_snd_zip hlength.le)
  by_cases hnone : compress = "none"
  · rw [if_pos hnone] at hwires
    cases hwires
    exact ⟨fun _ => hbytes (List.length_map _), fun hno => absurd hnone hno⟩
  · rw [if_neg hnone] at hwires
    refine ⟨fun hyes => absurd hyes hnone, fun _ => ?_⟩
    rw [hwires, hbytes ((encodeFrames_length z fuelZ _ _ wires hwires).trans (List.length_map _))]

/-- A session that has taken some messages and written some bytes. -/
def session (framed : Bool) (ms : List Proto.ClientMsg) (bytes : List UInt8) : Writer τ :=
  { framed := framed, loop := { Batching.start z with taken := ms, wire := bytes }
    sent := bytes, finished := false }

/-- What is generated is what a session writes that takes its messages. -/
theorem generated_sound (h : z.Flushes whole syncTrailer enough Text At)
    (henough : ∀ k ≤ 64 * 1024, enough k ≤ k + 1024) (fuel : Nat) (compress : String)
    (rs : List (SendRecord F)) (ws : List WireRecord)
    (hws : wireRecords (lineText toVec) z (fuel + 1) compress rs = some ws)
    (hlines : ∀ r ∈ rs, r.lines ≠ [])
    (hshort : compress ≠ "none" → ∀ r ∈ rs, (r.bytes (lineText toVec)).length ≤ 64 * 1024)
    (htext : compress ≠ "none" →
      ∀ ls, ls <+: (rs.flatMap SendRecord.lines).map (lineText toVec) → Text (text ls)) :
    Writer.Sound toVec whole (fun _ _ _ => True) (session z (Server.framedUp compress)
      ((rs.flatMap SendRecord.lines).map Line.msg) (ws.flatMap WireRecord.bytes)) := by
  rcases wireRecords_cases z (lineText toVec) (fuel + 1) compress rs ws hws with ⟨hplain, hframed⟩
  have hchunks : rs.map (SendRecord.bytes (lineText toVec)) =
      (rs.map fun r => r.lines.map (lineText toVec)).map text := by
    rw [List.map_map]
    exact List.map_congr_left fun r _ => bytes_text toVec r
  have hgroups : ∀ ks : List (SendRecord F),
      (ks.map fun r => r.lines.map (lineText toVec)).flatten =
        (ks.flatMap SendRecord.lines).map (lineText toVec) := by
    intro ks
    rw [List.map_flatMap, List.flatMap_def]
  have htaken : ((rs.flatMap SendRecord.lines).map Line.msg).map (lineOf toVec) =
      (rs.flatMap SendRecord.lines).map (lineText toVec) := List.map_map
  refine ⟨fun hmode => ?_, fun hmode => ⟨?_, rfl⟩, List.prefix_refl _, fun _ => ⟨rfl, rfl⟩⟩
  · have hne : compress ≠ "none" := of_decide_eq_true hmode
    -- What goes into the frames up to some record is a text of first lines.
    have hpre : ∀ pre, pre <+: rs.map (SendRecord.bytes (lineText toVec)) →
        Text ([] ++ pre.flatten) := by
      intro pre hpre
      rw [List.nil_append, List.prefix_iff_eq_take.mp hpre, ← List.map_take]
      have hfirst := htext hne
        ((rs.take pre.length).flatMap SendRecord.lines |>.map (lineText toVec))
        (((List.take_prefix _ rs).flatMap _).map _)
      rw [← hgroups, ← text_flatten, List.map_map] at hfirst
      have hsame : (rs.take pre.length).map (SendRecord.bytes (lineText toVec)) =
          (rs.take pre.length).map (text ∘ fun r => r.lines.map (lineText toVec)) :=
        List.map_congr_left fun r _ => bytes_text toVec r
      rw [hsame]
      exact hfirst
    rcases encodeFrames_carry z whole enough Text At h henough fuel z.start [] [] _ _ h.start
      (fun c hc => by
        rcases List.mem_map.mp hc with ⟨r, hr, rfl⟩
        refine ⟨?_, hshort hne r hr⟩
        rw [bytes_text]
        exact text_ne_nil _ fun hnil => hlines r hr (List.map_eq_nil_iff.mp hnil))
      hpre (hframed hne) with ⟨ps, hps, hcarry⟩
    refine ⟨ps, rs.map fun r => r.lines.map (lineText toVec), [], [], ?_, ?_, fun g hg => ?_, rfl,
      ?_, fun _ => ⟨rfl, trivial⟩, fun _ => rfl⟩
    · change ws.flatMap WireRecord.bytes = _
      rw [List.flatMap_def, hps]
    · rwa [← hchunks]
    · rcases List.mem_map.mp hg with ⟨r, hr, rfl⟩
      rw [← bytes_text]
      exact hshort hne r hr
    · rw [List.append_nil, List.append_nil, hgroups]
      exact htaken
  · have hnone : compress = "none" := not_not.mp (of_decide_eq_false hmode)
    change ws.flatMap WireRecord.bytes = text (((rs.flatMap SendRecord.lines).map Line.msg).map
      (lineOf toVec))
    rw [htaken, ← hgroups, ← text_flatten, ← hchunks, ← hplain hnone, List.flatMap_def]

end

end Sim

namespace Server

variable {σ : Type}

/-- What a message loop reads of a stream, in whatever pieces it arrives, while no
    timer drops a read that has begun: always the first of some lines, and all of them
    when everything has arrived and is read. -/
def Uplink.Reads (inflate : Library.Calls UInt8 UInt8 σ) (fuel : Nat) (framed wantsStats : Bool)
    (stream : List UInt8) (lines : List (List UInt8)) : Prop :=
  ∀ es : List Uplink.Event, Along (Uplink.step (decodes inflate fuel)) Uplink.QuietTick
      (Uplink.start framed wantsStats) es → ∀ u : Uplink,
    u = exec (Uplink.step (decodes inflate fuel)) (Uplink.start framed wantsStats) es →
    u.stream <+: stream →
    linesOut inflate fuel framed u.processed <+: lines ∧
      (u.stream = stream → u.ended ≠ some .idle → ∀ k, u.avail.length ≤ k →
        linesOut inflate fuel framed (exec (Uplink.step (decodes inflate fuel)) u
          (List.replicate k .poll)).processed = lines)

end Server

namespace Client

variable {τ σ : Type} (toVec : Json → List UInt8) (whole : List UInt8 → Option (List UInt8))
  (At : τ → List UInt8 → List UInt8 → Prop)

/-- What a message loop reads of what a session has written. -/
theorem Writer.Sound.read (inflate : Library.Calls UInt8 UInt8 σ)
    (AtD : σ → List UInt8 → List UInt8 → Prop) (hgrows : Grows whole)
    (hinflate : inflate.Meets whole AtD) (hlines : ∀ v, newline ∉ toVec v ∧ toVec v ≠ [])
    (n : Nat) (s : Writer τ) (hs : Writer.Sound toVec whole At s) (hbatch : s.loop.batch = [])
    (hshort : s.framed = false → ∀ m ∈ s.loop.taken, (lineOf toVec m).length < lineLimit)
    (wantsStats : Bool) :
    Uplink.Reads inflate (n + 2) s.framed wantsStats s.loop.wire
      (s.loop.taken.map fun m => Link.lineFor s.framed (lineOf toVec m)) := by
  intro es hquiet u hu hstream
  rcases Writer.stream_lines toVec whole At inflate AtD hgrows hinflate hlines n s hs hshort
    u.stream hstream with ⟨hvalid, hpre, hall⟩
  have hframed : u.framed = s.framed := by
    rw [hu]
    exact Uplink.run_framed _ _ es
  have hsound : Uplink.Sound u := by
    rw [hu] at hvalid ⊢
    exact Uplink.run_sound _ s.framed wantsStats es hquiet hvalid
  refine ⟨?_, fun hend hidle k hk => ?_⟩
  · have hread := Uplink.Synced.prefix u hsound.synced
    rw [hframed] at hread
    exact (linesOut_mono inflate (n + 2) s.framed _ _ hread).trans hpre
  · -- The polls take the rest.
    rcases Uplink.drain _ u k hsound hidle (by rwa [hframed]) hk with ⟨hdrained, hsame, havail⟩
    rw [Uplink.Synced.all _ hdrained.synced havail, hsame, Uplink.run_framed, hframed]
    exact hall hend hbatch

end Client

namespace Sim

open Client Proto Capture

section

variable {F R : Type} [F64Ln F]

omit [F64Ln F] in
/-- What has been checked passed with some names before it. -/
theorem checkAll_mem {α : Type} (name : α → String)
    (check : List String → α → Except (ScenarioError F) Unit) (xs : List α) (seen : List String)
    (h : checkAll name check seen xs = .ok ()) : ∀ x ∈ xs, ∃ before, check before x = .ok () := by
  induction xs generalizing seen with
  | nil => exact fun x hx => absurd hx List.not_mem_nil
  | cons x xs ih =>
      rw [checkAll] at h
      cases hx : check seen x with
      | error e =>
          rw [hx] at h
          exact absurd h (by simp only [reduceCtorEq, not_false_eq_true])
      | ok u =>
          rw [hx] at h
          intro x' hx'
          rcases List.mem_cons.mp hx' with rfl | hx'
          · exact ⟨seen, hx⟩
          · exact ih _ h x' hx'

/-- The compression of a receiver of a valid scenario is known. -/
theorem validate_compress (sc : Scenario F) (h : sc.validate = .ok ()) :
    ∀ rx ∈ sc.receivers, ∃ c, rx.compress = compressName c := by
  unfold Scenario.validate at h
  split_ifs at h
  cases hreceivers : checkAll ReceiverSpec.id ReceiverSpec.validate [] sc.receivers with
  | error e =>
      rw [hreceivers] at h
      exact absurd h (by simp only [reduceCtorEq, not_false_eq_true])
  | ok u =>
      intro rx hrx
      rcases checkAll_mem _ _ _ _ hreceivers rx hrx with ⟨before, hcheck⟩
      unfold ReceiverSpec.validate at hcheck
      split_ifs at hcheck with _ _ _ hknown
      by_cases hnone : rx.compress = "none"
      · exact ⟨.none, hnone⟩
      · by_cases hzlib : rx.compress = "zlib"
        · exact ⟨.zlib, hzlib⟩
        · by_cases hzlib2 : rx.compress = "zlib2"
          · exact ⟨.zlib2, hzlib2⟩
          · exact absurd ⟨hnone, hzlib, hzlib2⟩ hknown

theorem generate_valid (rand : Rand F R) (fuel : Nat) (sc : Scenario F) (cap : GeneratedCapture F)
    (h : generate rand fuel sc = some (.ok cap)) : sc.validate = .ok () := by
  unfold generate at h
  cases hvalid : sc.validate with
  | error e =>
      rw [hvalid] at h
      exact absurd h (by simp only [Option.some.injEq, reduceCtorEq, not_false_eq_true])
  | ok u => rfl

/-- What a client says of itself, and its records. -/
theorem buildClient_spec (rand : Rand F R) (fuel : Nat) (sc : Scenario F) (rx : ReceiverSpec F)
    (bs : List (Broadcast F)) (c : ClientStream F) (h : buildClient rand fuel sc rx bs = some c) :
    c.compress = rx.compress ∧ c.handshake.user = rx.id ∧
      ∀ r ∈ c.records, r.lines ≠ [] ∧ (rx.compress ≠ "zlib2" → ∃ l, r.lines = [l]) := by
  unfold buildClient at h
  simp only [] at h
  split_ifs at h
  rcases Option.map_eq_some_iff.mp h with ⟨rs, hframe, rfl⟩
  exact ⟨rfl, rfl, frameLines_nonempty rand fuel _ _ _ _ _ rs hframe⟩

end

section

variable {F R τ σ : Type} [F64Ln F] (toVec : Json → List UInt8)
  (parse : List UInt8 → Except String Json) (z : Library.Calls UInt8 UInt8 τ)
  (inflate : Library.Calls UInt8 UInt8 σ) (whole : List UInt8 → Option (List UInt8))
  (enough : Nat → Nat) (Text : List UInt8 → Prop) (At : τ → List UInt8 → List UInt8 → Prop)
  (AtD : σ → List UInt8 → List UInt8 → Prop)

/-- A client's handshake is finite, and is read as it was written. Its lines are short
    enough to be read, or they can be compressed and no record is longer than the
    buffer of a server. -/
structure Sendable (hs : ClientHandshake) (client : ClientStream F) : Prop where
  read : parse (hs.toLine toVec) = .ok hs.toJson
  fits : (toVec hs.toJson).length < handshakeLimit
  finite : hs.lat ≠ none ∧ hs.lon ≠ none ∧ hs.alt ≠ none
  plain : client.compress = "none" →
    ∀ l ∈ client.records.flatMap SendRecord.lines, (lineText toVec l).length < lineLimit
  text : client.compress ≠ "none" → ∀ ls,
    ls <+: (client.records.flatMap SendRecord.lines).map (lineText toVec) → Text (text ls)
  small : client.compress ≠ "none" →
    ∀ r ∈ client.records, (r.bytes (lineText toVec)).length ≤ 64 * 1024

omit [F64Ln F] in
theorem encodeFrames_short (fuel : Nat) (s : τ) (chunks frames : List (List UInt8))
    (h : encodeFrames z fuel s chunks = some frames) : ∀ f ∈ frames, f.length ≤ 2 + 65535 := by
  induction chunks generalizing s frames with
  | nil =>
      cases h
      exact fun f hf => absurd hf List.not_mem_nil
  | cons c cs ih =>
      unfold encodeFrames at h
      cases hframe : encodeFrame z fuel s c with
      | error e =>
          rw [hframe] at h
          exact absurd h (Option.some_ne_none frames).symm
      | running =>
          rw [hframe] at h
          exact absurd h (Option.some_ne_none frames).symm
      | ok frame s' =>
          rw [hframe] at h
          rcases Option.map_eq_some_iff.mp h with ⟨rest, hrest, rfl⟩
          intro f hf
          rcases List.mem_cons.mp hf with rfl | hf
          · -- A payload that is too long is an error.
            unfold encodeFrame at hframe
            split at hframe
            · simp only [] at hframe
              split_ifs at hframe with _ hlarge
              cases hframe
              rw [List.length_append, length_beBytes]
              omega
            · exact absurd hframe (by simp only [reduceCtorEq, not_false_eq_true])
            · exact absurd hframe (by simp only [reduceCtorEq, not_false_eq_true])
          · exact ih s' rest hrest f hf

omit [F64Ln F] in
/-- Every record of a file fits its length. -/
theorem captureRecords_fit (hs : ClientHandshake) (client : ClientStream F)
    (h : Sendable toVec parse Text hs client)
    (hone : client.compress = "none" → ∀ r ∈ client.records, ∃ l, r.lines = [l]) (fuelZ : Nat)
    (ws : List WireRecord)
    (hws : wireRecords (lineText toVec) z fuelZ client.compress client.records = some ws) :
    ∀ r ∈ captureRecords (hs.toLine toVec) ws, Fits r := by
  have hbytes : ∀ b ∈ ws.map WireRecord.bytes, b.length < 2 ^ 32 := by
    rcases wireRecords_cases z (lineText toVec) fuelZ _ _ ws hws with ⟨hplain, hframed⟩
    by_cases hnone : client.compress = "none"
    · rw [hplain hnone]
      intro b hb
      rcases List.mem_map.mp hb with ⟨r, hr, rfl⟩
      rcases hone hnone r hr with ⟨l, hl⟩
      have hmem : l ∈ client.records.flatMap SendRecord.lines := by
        refine List.mem_flatMap.mpr ⟨r, hr, ?_⟩
        rw [hl]
        exact List.mem_singleton_self l
      have hlen := h.plain hnone l hmem
      rw [bytes_text, hl, List.map_singleton, text_singleton, List.length_append,
        List.length_singleton]
      rw [lineLimit] at hlen
      omega
    · intro b hb
      have hlen := encodeFrames_short z fuelZ z.start _ _ (hframed hnone) b hb
      omega
  intro r hr
  rcases List.mem_cons.mp hr with rfl | hr
  · have hlen := h.fits
    unfold Fits ClientHandshake.toLine
    rw [handshakeLimit] at hlen
    rw [List.length_append, List.length_singleton]
    omega
  · rcases List.mem_map.mp hr with ⟨w, hw, rfl⟩
    exact hbytes w.bytes (List.mem_map_of_mem hw)

omit [F64Ln F] in
/-- What a file says its client sent. -/
theorem clientBytes_capture (line : List UInt8) (ws : List WireRecord) :
    clientBytes (captureRecords line ws) = line ++ ws.flatMap WireRecord.bytes := by
  have hall : ∀ ws : List WireRecord, c2sBytes (ws.map fun w =>
      ({ tNanos := UInt64.ofNat w.t, kind := recC2s, payload := w.bytes } : Record)) =
        ws.flatMap WireRecord.bytes := by
    intro ws
    induction ws with
    | nil => rfl
    | cons w ws ih =>
        unfold c2sBytes at ih ⊢
        rw [List.map_cons, List.filter_cons_of_pos (by exact decide_eq_true rfl),
          List.flatMap_cons, ih, List.flatMap_cons]
  exact congrArg (line ++ ·) (hall ws)

omit [F64Ln F] in
theorem matches_name (c : Compress) :
    (Reply.accept (compressName c)).matches (compressName c) = true := by
  cases c <;> rfl

/-- The texts of lines as a message loop reads them. -/
def said (framed : Bool) (ls : List (Line F)) : List (List UInt8) :=
  ls.map fun l => Link.lineFor framed (lineText toVec l)

/-- A generated capture is replayed to a server. Every client has a handshake. If its
    frames can be made, and it and its lines can be sent, the server accepts it with the
    compression, the name and the clock of its scenario, and the replay sends all of the
    file. What the message loop reads of it, while no timer of the server drops a read
    that has begun, is always the first of the lines of the receiver's loop, in order of
    arrival, and all of them when everything has arrived and is read. -/
theorem generated_heard (h : z.Flushes whole syncTrailer enough Text At)
    (henough : ∀ k ≤ 64 * 1024, enough k ≤ k + 1024) (hgrows : Grows whole)
    (hinflate : inflate.Meets whole AtD) (hlines : ∀ v, Server.newline ∉ toVec v ∧ toVec v ≠ [])
    (json : Json → String) (hjson : ∀ v, Capture.newline ∉ utf8 (json v)) (number : F → Option ℚ)
    (version : String) (n : Nat) (rand : Rand F R) (fuel : Nat) (sc : Scenario F)
    (cap : GeneratedCapture F) (hcap : generate rand fuel sc = some (.ok cap)) :
    ∃ bs, broadcasts rand fuel sc = some bs ∧ List.Forall₂ (fun rx client =>
      ∃ hs, client.message number version rx.clock = some hs ∧ ∀ ws,
        wireRecords (lineText toVec) z (n + 2) client.compress client.records = some ws →
        Sendable toVec parse Text hs client →
        ∃ a : Accepted F, answer hs.toJson = .accept a ∧ a.negotiated = rx.compress ∧
          a.info.user = rx.id ∧ a.info.freqHz = rx.clock.clockType.freqHz ∧
          replayFile client.compress (reply F parse)
              (clientCapture json client.id (hs.toLine toVec) ws) =
            .ok (hs.toLine toVec ++ ws.flatMap WireRecord.bytes) ∧
          greet parse (hs.toLine toVec ++ ws.flatMap WireRecord.bytes) =
            .ok (.accept a, ws.flatMap WireRecord.bytes) ∧
          Uplink.Reads inflate (n + 2) (framedUp a.negotiated) a.wantsStats
            (ws.flatMap WireRecord.bytes)
            (said toVec (framedUp a.negotiated) (Loop.run rand fuel sc.seed rx bs).sorted))
      sc.receivers cap.clients := by
  rcases generate_clients rand fuel sc cap hcap with ⟨bs, hbs, hclients⟩
  refine ⟨bs, hbs, List.forall₂_iff_zip.mpr ⟨hclients.length_eq, fun {rx client} hmem => ?_⟩⟩
  have hbuild := (List.forall₂_iff_zip.mp hclients).2 hmem
  rcases buildClient_spec rand fuel sc rx bs client hbuild with ⟨hcompress, huser, hrecords⟩
  have hrun := (buildClient_lines rand fuel sc rx bs client hbuild).2
  rcases validate_compress sc (generate_valid rand fuel sc cap hcap) rx
    (List.of_mem_zip hmem).1 with ⟨c, hc⟩
  refine ⟨client.handshake.message number version c rx.clock, ?_, fun ws hws hsend => ?_⟩
  · unfold ClientStream.message
    rw [hcompress, hc, compressOf_name]
    rfl
  · obtain ⟨hs, hhs⟩ : ∃ hs, hs = client.handshake.message number version c rx.clock := ⟨_, rfl⟩
    rw [← hhs] at hsend ⊢
    -- The server has no reason to deny the client: it offers one method, and its position
    -- is finite.
    rcases answer_toJson (F := F) hs with ⟨a, c', ha, hneg, hagreed⟩ | ⟨d, _, hwhy⟩
    · have hoffered : c' = c := by
        have hmem := hagreed.offered
        rw [hhs] at hmem
        exact List.mem_singleton.mp hmem
      rw [hoffered] at hneg
      have hsame : a.negotiated = client.compress := by rw [hneg, hcompress, hc]
      have hline := (hlines hs.toJson).1
      have hgreet := greet_line (F := F) parse toVec hs hsend.read hline hsend.fits
      have hask : (reply F parse (hs.toLine toVec)).matches client.compress = true := by
        have hnothing := hgreet []
        rw [List.append_nil, ha] at hnothing
        unfold reply
        rw [hnothing]
        simp only [replyOf, parse_accept a c hneg]
        rw [hcompress, hc]
        exact matches_name c
      have hreplay := replayFile_records json hjson client.id client.compress (reply F parse) _ _
        rfl (captureRecords_fit toVec parse z Text hs client hsend
          (fun hnone r hr => (hrecords r hr).2 (by rw [← hcompress, hnone]; decide)) (n + 2) ws hws)
      have hwriter := generated_sound toVec z whole enough Text At h henough (n + 1) client.compress
        client.records ws hws (fun r hr => (hrecords r hr).1) hsend.small hsend.text
      -- What the session has written is what the file has behind the handshake.
      refine ⟨a, ha, by rw [hneg, hc], ?_, ?_, ?_, ?_, ?_⟩
      · rw [hagreed.user, hhs]
        exact huser
      · rw [hagreed.freq, hhs]
        rfl
      · rw [if_pos hask] at hreplay
        exact hreplay.trans (congrArg Except.ok (clientBytes_capture _ ws))
      · rw [hgreet, ha]
      · rw [hsame]
        have hread := hwriter.read toVec whole _ inflate AtD hgrows hinflate hlines n _ rfl
          (fun hmode m hm => by
            rcases List.mem_map.mp hm with ⟨l, hl, rfl⟩
            exact hsend.plain (not_not.mp (of_decide_eq_false hmode)) l hl)
          a.wantsStats
        have hsaid : ((client.records.flatMap SendRecord.lines).map Line.msg).map
            (fun m => Link.lineFor (framedUp client.compress) (lineOf toVec m)) =
              said toVec (framedUp client.compress) (Loop.run rand fuel sc.seed rx bs).sorted := by
          rw [List.map_map, hrun]
          rfl
        rw [← hsaid]
        exact hread
    · rcases hwhy with hnone | hlat | hlon | halt
      · rw [hhs] at hnone
        exact absurd hnone (List.cons_ne_nil c [])
      · exact absurd hlat hsend.finite.1
      · exact absurd hlon hsend.finite.2.1
      · exact absurd halt hsend.finite.2.2

end

section Example

/-- Arithmetic is exact. -/
local instance exactReplay : F64Ln ℚ := F64.exactLn ℚ

/-- One second of the near aircraft, with a receiver that compresses. -/
def packed (c : Compress) : Scenario ℚ :=
  { second [near] with receivers := [{ station with compress := compressName c }] }

/-- What its client says of itself. -/
def stationHello (c : Compress) : ClientHandshake :=
  { version := 3, user := "rx-000", uuid := none, compress := [c], lat := some 0, lon := some 0
    alt := some 0, clockType := .dump1090, returnResults := some false
    returnResultFormat := none, clientVersion := some "mlat-bench 0.1.2"
    selectiveTraffic := none, heartbeat := none, returnStats := none }

def stationText (compress : String) : List UInt8 :=
  asciiBytes ("\x7b\"version\":3,\"user\":\"rx-000\",\"compress\":[\"" ++ compress ++
    "\"],\"lat\":0.0,\"lon\":0.0,\"alt\":0.0,\"clock_type\":\"dump1090\"," ++
    "\"return_results\":false,\"client_version\":\"mlat-bench 0.1.2\"\x7d")

/-- The lines of the second. -/
def stationLines : List (List UInt8) :=
  [asciiBytes "\x7b\"input_connected\":\"connected\"\x7d",
    asciiBytes "\x7b\"seen\":[\"3c6444\"]\x7d",
    asciiBytes ("\x7b\"sync\":\x7b\"et\":1600082,\"ot\":7643903," ++
      "\"em\":\"8d3c6444589b80000000003a81d8\",\"om\":\"8d3c6444589b840000000036aae0\"\x7d\x7d")]

/-- Writes these and the handshake. -/
def stationVec : Json → List UInt8
  | .obj (("alt", _) :: _ :: _ :: ("compress", .arr [.str "zlib"]) :: _) => stationText "zlib"
  | .obj (("alt", _) :: _) => stationText "none"
  | .obj [("input_connected", _)] => stationLines.getD 0 []
  | .obj [("seen", _)] => stationLines.getD 1 []
  | .obj [("sync", _)] => stationLines.getD 2 []
  | _ => Downlink.braces

theorem stationVec_line (v : Json) : Server.newline ∉ stationVec v ∧ stationVec v ≠ [] := by
  unfold stationVec
  split <;> decide +kernel

/-- The payloads of the lines. -/
def stationPayloads : List (List UInt8) :=
  [[0x78, 0x9c, 0xaa, 0x56, 0xca, 0xcc, 0x2b, 0x28, 0x2d, 0x89, 0x4f, 0xce, 0xcf, 0xcb, 0x4b,
      0x4d, 0x2e, 0x49, 0x4d, 0x51, 0xb2, 0x52, 0x42, 0xb0, 0x6b, 0xb9, 0x00, 0x00],
    [0xaa, 0x56, 0x2a, 0x4e, 0x4d, 0xcd, 0x53, 0xb2, 0x8a, 0x56, 0x32, 0x4e, 0x36, 0x33, 0x31,
      0x31, 0x51, 0x8a, 0xad, 0xe5, 0x02, 0x00],
    [0x02, 0x8a, 0x55, 0xe6, 0x25, 0x2b, 0x59, 0x55, 0x2b, 0xa5, 0x96, 0x28, 0x59, 0x19, 0x9a,
      0x19, 0x18, 0x18, 0x58, 0x18, 0xe9, 0x28, 0xe5, 0x03, 0x39, 0xe6, 0x66, 0x26, 0xc6, 0x96,
      0x06, 0xc6, 0x3a, 0x4a, 0xa9, 0xb9, 0x40, 0x83, 0x2c, 0x52, 0x20, 0x9a, 0x4c, 0x2d, 0x2c,
      0x93, 0x2c, 0x0c, 0x60, 0xc0, 0x38, 0xd1, 0xc2, 0x30, 0xc5, 0x42, 0x09, 0xa8, 0x01, 0x43,
      0x8d, 0x09, 0x5c, 0x8d, 0x59, 0x62, 0x62, 0xaa, 0x81, 0x52, 0x6d, 0x2d, 0x17, 0x00]]

def stationFrames : List (List UInt8 × List UInt8) :=
  stationPayloads.zip (stationLines.map (· ++ [Server.newline]))

def stationWhole : List UInt8 → Option (List UInt8) := framesWhole stationFrames

def stationDeflate : Library.Calls UInt8 UInt8 (Library.Units UInt8 UInt8) :=
  framesWriter stationFrames

/-- Reads the handshakes. -/
def stationParse (bytes : List UInt8) : Except String Json :=
  if bytes = stationText "none" ++ [Server.newline] then .ok (stationHello .none).toJson
  else if bytes = stationText "zlib" ++ [Server.newline] then .ok (stationHello .zlib).toJson
  else .error "expected value"

/-- What the client sends behind its handshake. -/
def stationStream (c : Compress) : List UInt8 :=
  if c = .none then text stationLines else stationPayloads.flatMap frameOf

/-- It arrives in two pieces. -/
def stationEvents (c : Compress) : List Uplink.Event :=
  [.arrive ((stationStream c).take 40), .poll, .arrive ((stationStream c).drop 40)]

theorem flushes_stationDeflate : stationDeflate.Flushes stationWhole syncTrailer (· + 1024)
    (frameUnits stationFrames).Text (frameUnits stationFrames).WriterAt :=
  flushes_framesWriter stationFrames (by decide +kernel) (by decide +kernel)

theorem text_stationLines (ls : List (List UInt8)) (h : ls <+: stationLines) :
    (frameUnits stationFrames).Text (text ls) := by
  have hall : ∀ k ≤ 3, text (stationLines.take k) =
      Library.Units.plain ((frameUnits stationFrames).take k) := by decide +kernel
  refine ⟨ls.length, ?_⟩
  rw [← hall ls.length h.length_le, ← List.prefix_iff_eq_take.mp h]

/-- What there is of the client. -/
theorem station_facts : ∀ c ∈ [Compress.none, .zlib], ∀ bs ∈ broadcasts seeded 10 (packed c),
    ∀ client ∈ buildClient seeded 10 (packed c) { station with compress := compressName c } bs,
      (client.handshake.lat = 0 ∧ client.handshake.lon = 0 ∧ client.handshake.alt = 0) ∧
      (client.records.flatMap SendRecord.lines).map (lineText stationVec) = stationLines ∧
      (wireRecords (lineText stationVec) stationDeflate 2 client.compress client.records).map
        (fun ws => ws.flatMap WireRecord.bytes) = some (stationStream c) ∧
      ∀ r ∈ client.records, (r.bytes (lineText stationVec)).length ≤ 64 * 1024 := by
  decide +kernel

theorem stationHello_line (c : Compress) (hc : c ∈ [Compress.none, .zlib]) :
    (stationHello c).toLine stationVec = stationText (compressName c) ++ [Server.newline] ∧
      stationParse (stationText (compressName c) ++ [Server.newline]) =
        .ok (stationHello c).toJson := by
  rcases List.mem_cons.mp hc with rfl | hc
  · exact ⟨rfl, if_pos rfl⟩
  · have hother :
        stationText "zlib" ++ [Server.newline] ≠ stationText "none" ++ [Server.newline] := by
      intro heq
      have hmethod := congrArg (fun bytes => bytes.getD 43 0) heq
      revert hmethod
      decide +kernel
    rw [List.mem_singleton.mp hc]
    exact ⟨rfl, (if_neg hother).trans (if_pos rfl)⟩

theorem sendable_station (c : Compress) (hc : c ∈ [Compress.none, .zlib]) (client : ClientStream ℚ)
    (hlines : (client.records.flatMap SendRecord.lines).map (lineText stationVec) = stationLines)
    (hsmall : ∀ r ∈ client.records, (r.bytes (lineText stationVec)).length ≤ 64 * 1024) :
    Sendable stationVec stationParse (frameUnits stationFrames).Text (stationHello c) client where
  read := by
    rw [(stationHello_line c hc).1, (stationHello_line c hc).2]
  fits := by
    have hall : ∀ c ∈ [Compress.none, .zlib],
        (stationVec (stationHello c).toJson).length < handshakeLimit := by decide +kernel
    exact hall c hc
  finite := ⟨Option.some_ne_none 0, Option.some_ne_none 0, Option.some_ne_none 0⟩
  plain := by
    intro _ l hl
    have hmem : lineText stationVec l ∈ stationLines := hlines ▸ List.mem_map_of_mem hl
    exact (by decide +kernel : ∀ l ∈ stationLines, l.length < lineLimit) _ hmem
  text := by
    intro _ ls hls
    rw [hlines] at hls
    exact text_stationLines ls hls
  small := fun _ => hsmall

/-- What its client says of itself. -/
theorem message_station (c : Compress) (bs : List (Broadcast ℚ)) (client : ClientStream ℚ)
    (h : buildClient seeded 10 (packed c) { station with compress := compressName c } bs =
      some client)
    (hplace : client.handshake.lat = 0 ∧ client.handshake.lon = 0 ∧ client.handshake.alt = 0) :
    client.message some "0.1.2" station.clock = some (stationHello c) := by
  rcases buildClient_spec seeded 10 _ _ bs client h with ⟨hcompress, huser, _⟩
  rw [ClientStream.message, hcompress, compressOf_name, Option.map_some, Handshake.message, huser,
    hplace.1, hplace.2.1, hplace.2.2]
  rfl

theorem wantsStats_station (c : Compress) (hc : c ∈ [Compress.none, .zlib]) (a : Accepted ℚ)
    (h : answer (stationHello c).toJson = .accept a) : a.wantsStats = false := by
  rcases List.mem_cons.mp hc with rfl | hc
  · cases h
    rfl
  · rw [List.mem_singleton.mp hc] at h
    cases h
    rfl

/-- It has all arrived and goes on. -/
theorem stationEvents_arrive : ∀ c ∈ [Compress.none, .zlib], ∀ u : Uplink,
    u = exec (Uplink.step (decodes (greedy stationWhole) 2))
      (Uplink.start (Server.framedUp (compressName c)) false) (stationEvents c) →
    u.stream = stationStream c ∧ u.ended ≠ some .idle ∧ u.avail.length ≤ 300 := by
  have hall : ∀ c ∈ [Compress.none, .zlib],
      let u := exec (Uplink.step (decodes (greedy stationWhole) 2))
        (Uplink.start (Server.framedUp (compressName c)) false) (stationEvents c)
      u.stream = stationStream c ∧ u.ended ≠ some .idle ∧ u.avail.length ≤ 300 := by
    decide +kernel
  rintro c hc u rfl
  exact hall c hc

/-- The capture of the second is replayed, and its lines are heard. -/
def HeardNear (c : Compress) : Prop :=
  ∃ cap client ws, generate seeded 10 (packed c) = some (.ok cap) ∧ cap.clients = [client] ∧
    replayFile client.compress (reply ℚ stationParse)
        (clientCapture (fun _ => "\x7b\x7d") client.id ((stationHello c).toLine stationVec) ws) =
      .ok (stationText (compressName c) ++ [Server.newline] ++ stationStream c) ∧
    linesOut (greedy stationWhole) 2 (Server.framedUp (compressName c))
        (exec (Uplink.step (decodes (greedy stationWhole) 2))
          (Uplink.start (Server.framedUp (compressName c)) false)
          (stationEvents c ++ List.replicate 300 .poll)).processed =
      stationLines.map (Link.lineFor (Server.framedUp (compressName c)))

/-- In lines and in frames. -/
theorem generated_heard_near : HeardNear .none ∧ HeardNear .zlib := by
  suffices hboth : ∀ c ∈ [Compress.none, .zlib], HeardNear c from
    ⟨hboth .none List.mem_cons_self, hboth .zlib (List.mem_cons_of_mem _ List.mem_cons_self)⟩
  intro c hc
  have hok : ∀ c ∈ [Compress.none, .zlib],
      (generate seeded 10 (packed c)).elim false Except.isOk = true := by decide +kernel
  rcases generate_single seeded 10 (packed c) { station with compress := compressName c } rfl
    (hok c hc) with ⟨cap, bs, client, hcap, hbs, hclient, hbuild, hsorted⟩
  rcases station_facts c hc bs hbs client hbuild with ⟨hplace, hlines, hwire, hsmall⟩
  rcases Option.map_eq_some_iff.mp hwire with ⟨ws, hws, hstream⟩
  rcases generated_heard stationVec stationParse stationDeflate (greedy stationWhole) stationWhole
    (· + 1024) _ _ _ flushes_stationDeflate (fun _ _ => Nat.le_refl _) (grows_framesWhole _)
    (greedy_meets _ (grows_framesWhole _)) stationVec_line (fun _ => "\x7b\x7d")
    (fun _ => by decide +kernel) some "0.1.2" 0 seeded 10 (packed c) cap hcap with
    ⟨bs', hbs', hall⟩
  rw [hbs] at hbs'
  cases hbs'
  rw [hclient] at hall
  rcases List.forall₂_cons.mp hall with ⟨⟨hs, hhs, hheard⟩, _⟩
  have hhello : hs = stationHello c :=
    Option.some.inj (hhs.symm.trans (message_station c bs client hbuild hplace))
  subst hhello
  rcases hheard ws hws (sendable_station c hc client hlines hsmall) with
    ⟨a, ha, hneg, _, _, hreplay, _, hread⟩
  rw [hstream] at hread
  rw [(stationHello_line c hc).1, hstream] at hreplay
  rw [hneg, wantsStats_station c hc a ha] at hread
  have hsaid : said stationVec (Server.framedUp (compressName c))
      (Loop.run seeded 10 189 { station with compress := compressName c } bs).sorted =
        stationLines.map (Link.lineFor (Server.framedUp (compressName c))) := by
    rw [← hlines, hsorted, List.map_map]
    rfl
  refine ⟨cap, client, ws, hcap, hclient, ?_, ?_⟩
  · rw [(stationHello_line c hc).1]
    exact hreplay
  · rcases stationEvents_arrive c hc _ rfl with ⟨harrived, hidle, hshort⟩
    rw [exec_append, ← hsaid]
    refine (hread (stationEvents c) ?_ _ rfl (harrived ▸ List.prefix_refl _)).2 harrived hidle 300
      hshort
    -- No timer fires.
    refine along_of_forall _ _ _ _ fun e he u push hpush => ?_
    rw [hpush] at he
    simp [stationEvents] at he

end Example

end Sim

end MlatBench
