import MlatBench.Core.Handshake

/-!
# Both Sides Agree

A handshake is one line each way, and each side reads its own from what it gets.
The server looks the compression up among the offered names and writes the name it
found; the client looks that up again. The names are distinct, so it is one the
client offered, the first of those the server likes best, and both sides make the
same of it: lines of the client go in frames unless nothing is compressed, lines of
the server only with `zlib2`.

The server also takes a clock's frequency from its name, where it has a table of
its own. It is that of `mb-proto` (`clockFreqHz_name`).

## Main definitions

* `Proto.preferred`: The compression the server likes best.
* `Server.Agreed`: What both sides know after a handshake.

## Theorems

* `get_fields`: The fields of a handshake line.
* `negotiated_names`: What is negotiated was offered.
* `firstLine_append`: A line is read up to its newline.
* `answer_line`: An answer is one line.
* `greeted_accept`, `greeted_deny`: The client's side.
* `handshake_agrees`: Both sides.
-/

namespace MlatBench

open Library F64 F64Fn

/-- A line is read up to its newline, and the rest is left. -/
theorem firstLine_append (line rest : List UInt8) (h : Server.newline ∉ line) :
    firstLine (line ++ Server.newline :: rest) = (line ++ [Server.newline], rest) := by
  have hstop : ∀ b ∈ line, decide (b ≠ Server.newline) = true := by
    intro b hb
    rw [decide_eq_true_eq]
    intro hc
    exact h (hc ▸ hb)
  have htake : (line ++ Server.newline :: rest).takeWhile (· ≠ Server.newline) = line := by
    rw [List.takeWhile_append_of_pos hstop]
    exact List.append_nil _
  have hdrop : (line ++ Server.newline :: rest).dropWhile (· ≠ Server.newline) =
      Server.newline :: rest := by
    rw [List.dropWhile_append_of_pos hstop]
    rfl
  simp only [firstLine, htake, hdrop, List.take_succ_cons, List.take_zero, List.drop_succ_cons,
    List.drop_zero]

namespace Proto

theorem find_optional (key k : String) (v : Option Json) :
    (optional key v).find? (fun f => f.1 == k) =
      if key = k then v.map fun v => (key, v) else none := by
  unfold optional
  cases v with
  | none => simp
  | some v =>
      by_cases hk : key = k
      · simp [hk]
      · simp [hk]

/-- The fields of a handshake line the server looks at. -/
theorem get_fields (h : ClientHandshake) :
    h.toJson.get "lat" = some (jsonNumber h.lat) ∧ h.toJson.get "lon" = some (jsonNumber h.lon) ∧
      h.toJson.get "alt" = some (jsonNumber h.alt) ∧
      h.toJson.get "compress" = some (.arr (h.compress.map fun c => .str (compressName c))) ∧
      h.toJson.get "clock_type" = some (.str h.clockType.name) ∧
      h.toJson.get "user" = some (.str h.user) ∧
      h.toJson.get "return_results" = h.returnResults.map .bool ∧
      h.toJson.get "return_stats" = h.returnStats.map .bool := by
  refine ⟨?_, ?_, ?_, ?_, ?_, ?_, ?_, ?_⟩ <;>
    simp [Json.get, ClientHandshake.toJson, List.find?_append, find_optional, Function.comp_def]

theorem compressName_injective : Function.Injective compressName := by
  intro c d hcd
  revert hcd
  cases c <;> cases d <;> decide

theorem compressOf_name (c : Client.Compress) : Client.compressOf (compressName c) = some c := by
  cases c <;> rfl

/-- The compression the server likes best of those offered. -/
def preferred (offered : List Client.Compress) : Option Client.Compress :=
  [.zlib2, .zlib, .none].find? fun c => decide (c ∈ offered)

theorem preferred_mem (offered : List Client.Compress) (c : Client.Compress)
    (h : preferred offered = some c) : c ∈ offered := by
  unfold preferred at h
  have hmem := List.find?_some h
  exact of_decide_eq_true hmem

theorem preferred_best (offered : List Client.Compress) (c : Client.Compress)
    (h : preferred offered = some c) :
    (.zlib2 ∈ offered → c = .zlib2) ∧ (.zlib2 ∉ offered → .zlib ∈ offered → c = .zlib) := by
  unfold preferred at h
  refine ⟨fun hbest => ?_, fun hnot hsecond => ?_⟩
  · rw [List.find?_cons_of_pos (by exact decide_eq_true hbest)] at h
    exact (Option.some.inj h).symm
  · rw [List.find?_cons_of_neg (by simpa using hnot),
      List.find?_cons_of_pos (by exact decide_eq_true hsecond)] at h
    exact (Option.some.inj h).symm

theorem preferred_eq_none (offered : List Client.Compress) :
    preferred offered = none ↔ offered = [] := by
  unfold preferred
  rw [List.find?_eq_none, List.eq_nil_iff_forall_not_mem]
  constructor
  · intro h c
    have hc := h c (by cases c <;> decide)
    exact fun hmem => hc (decide_eq_true hmem)
  · exact fun h c _ hc => h c (of_decide_eq_true hc)

end Proto

namespace Server

open Proto

/-- What is negotiated is the name of the preferred one. -/
theorem negotiated_names (offered : List Client.Compress) :
    negotiated (offered.map compressName) = (preferred offered).map compressName := by
  have hmem : ∀ c, compressName c ∈ offered.map compressName ↔ c ∈ offered := fun c =>
    List.mem_map_of_injective compressName_injective
  have hnames : (["zlib2", "zlib", "none"] : List String) =
      [Client.Compress.zlib2, .zlib, .none].map compressName := rfl
  unfold negotiated preferred
  rw [hnames, List.find?_map]
  refine congrArg _ (congrFun (congrArg _ ?_) _)
  funext c
  simp only [Function.comp_apply, hmem]

variable {F : Type} [F64Fn F]

/-- The server's table of frequencies. -/
theorem clockFreqHz_name (t : ClockType) : (clockFreqHz t.name : F) = t.freqHz := by
  cases t <;> rfl

theorem gps_name (t : ClockType) :
    "radarcape_gps".toList.isPrefixOf t.name.toList = decide (t = .radarcapeGps) := by
  cases t <;> rfl

/-- What both sides know after a handshake. -/
structure Agreed (h : ClientHandshake) (a : Accepted F) (c : Client.Compress) : Prop where
  offered : c ∈ h.compress
  best : .zlib2 ∈ h.compress → c = .zlib2
  second : .zlib2 ∉ h.compress → .zlib ∈ h.compress → c = .zlib
  up : framedUp a.negotiated = Client.framedUp c
  down : framedDown a.negotiated = Client.framedDown c
  user : a.info.user = h.user
  geo : ∃ lat lon alt, h.lat = some lat ∧ h.lon = some lon ∧ h.alt = some alt ∧
    a.info.geo = ⟨lit lat, lit lon, lit alt⟩ ∧ a.info.ecef = a.info.geo.toEcef
  freq : a.info.freqHz = h.clockType.freqHz
  gps : a.info.gps = decide (h.clockType = .radarcapeGps)
  results : a.wantsResults = h.returnResults.getD false
  stats : a.wantsStats = h.returnStats.getD false

theorem asNum_jsonNumber (x : Option ℚ) : (jsonNumber x).asNum = x := by
  cases x <;> rfl

theorem readHandshake_toJson (h : ClientHandshake) : (readHandshake h.toJson : Handshake F) =
    { compress := h.compress.map compressName
      lat := h.lat.map lit, lon := h.lon.map lit, alt := h.alt.map lit
      clockType := some h.clockType.name, user := some h.user } := by
  rcases get_fields h with ⟨hlat, hlon, halt, hcompress, hclock, huser, _, _⟩
  have hnames : (h.compress.map fun c => Json.str (compressName c)).filterMap Json.asStr =
      h.compress.map compressName := by
    induction h.compress with
    | nil => rfl
    | cons c cs ih => rw [List.map_cons, List.filterMap_cons, ih, List.map_cons, Json.asStr]
  unfold readHandshake
  rw [hlat, hlon, halt, hcompress, hclock, huser]
  simp only [Option.bind_some, asNum_jsonNumber, Json.asArray, Option.getD_some, hnames,
    Json.asStr]

theorem flag_toJson (b : Option Bool) : ((b.map Json.bool).bind Json.asBool) = b := by
  cases b <;> rfl

/-- What the server makes of a handshake line. -/
theorem answer_toJson (h : ClientHandshake) :
    (∃ (a : Accepted F) (c : Client.Compress), answer h.toJson = .accept a ∧
      a.negotiated = compressName c ∧ Agreed h a c) ∨
    ∃ d, (answer h.toJson : Answer F) = .deny d ∧
      (h.compress = [] ∨ h.lat = none ∨ h.lon = none ∨ h.alt = none) := by
  rcases get_fields h with ⟨_, _, _, _, _, _, hresults, hstats⟩
  unfold answer
  rw [readHandshake_toJson, hresults, hstats, flag_toJson, flag_toJson]
  simp only [Handshake.info, negotiated_names]
  cases hpref : preferred h.compress with
  | none => exact Or.inr ⟨_, rfl, Or.inl ((preferred_eq_none _).mp hpref)⟩
  | some c =>
      cases hlat : h.lat with
      | none => exact Or.inr ⟨_, rfl, Or.inr (Or.inl rfl)⟩
      | some lat =>
          cases hlon : h.lon with
          | none => exact Or.inr ⟨_, rfl, Or.inr (Or.inr (Or.inl rfl))⟩
          | some lon =>
              cases halt : h.alt with
              | none => exact Or.inr ⟨_, rfl, Or.inr (Or.inr (Or.inr rfl))⟩
              | some alt =>
                  refine Or.inl ⟨_, c, rfl, rfl, ?_⟩
                  have hbest := preferred_best _ c hpref
                  exact
                    { offered := preferred_mem _ c hpref
                      best := hbest.1
                      second := hbest.2
                      up := by cases c <;> rfl
                      down := by cases c <;> rfl
                      user := rfl
                      geo := ⟨lat, lon, alt, hlat, hlon, halt, rfl, rfl⟩
                      freq := clockFreqHz_name h.clockType
                      gps := gps_name h.clockType
                      results := rfl
                      stats := rfl }

/-- No newline in a text. -/
def Unbroken (s : String) : Prop := newline ∉ asciiBytes s

instance (s : String) : Decidable (Unbroken s) := inferInstanceAs (Decidable (newline ∉ asciiBytes s))

theorem asciiBytes_append (s t : String) : asciiBytes (s ++ t) = asciiBytes s ++ asciiBytes t := by
  unfold asciiBytes
  rw [String.toList_append, List.map_append]

theorem Unbroken.append (s t : String) (hs : Unbroken s) (ht : Unbroken t) : Unbroken (s ++ t) := by
  unfold Unbroken
  rw [asciiBytes_append, List.mem_append, not_or]
  exact ⟨hs, ht⟩

theorem unbroken_flag (b : Bool) : Unbroken (toString b) := by
  cases b <;> decide +kernel

omit [F64Fn F] in
/-- An answer is one line. -/
theorem text_line (x : Answer F) (h : ∀ a, x = .accept a → Unbroken a.negotiated) :
    ∃ body, asciiBytes x.text = body ++ [newline] ∧ newline ∉ body := by
  have hline : ∀ s t : String, Unbroken s → asciiBytes t = (asciiBytes t).dropLast ++ [newline] →
      newline ∉ (asciiBytes t).dropLast →
      ∃ body, asciiBytes (s ++ t) = body ++ [newline] ∧ newline ∉ body := by
    intro s t hs ht htail
    refine ⟨asciiBytes s ++ (asciiBytes t).dropLast, ?_, ?_⟩
    · rw [asciiBytes_append, ht, List.dropLast_concat, List.append_assoc]
    · rw [List.mem_append, not_or]
      exact ⟨hs, htail⟩
  cases x with
  | deny d =>
      unfold Answer.text
      refine hline _ "\"],\"reconnect_in\":300\x7d\n" (Unbroken.append _ _ ?_ ?_) (by decide +kernel)
        (by decide +kernel)
      · decide +kernel
      · cases d <;> decide +kernel
  | accept a =>
      unfold Answer.text
      refine hline _ ",\"motd\":\"mlat-bench candidate mlatd\"\x7d\n" ?_ (by decide +kernel)
        (by decide +kernel)
      refine Unbroken.append _ _ (Unbroken.append _ _ (Unbroken.append _ _ (Unbroken.append _ _
        (Unbroken.append _ _ (Unbroken.append _ _ ?_ (h a rfl)) ?_) ?_) (unbroken_flag _)) ?_)
        (unbroken_flag _)
      all_goals decide +kernel

theorem answer_line (v : Json) : ∃ body, asciiBytes (answer v : Answer F).text = body ++ [newline] ∧
    newline ∉ body := by
  refine text_line _ fun a ha => ?_
  unfold answer at ha
  simp only [] at ha
  cases hneg : negotiated (readHandshake v : Handshake F).compress with
  | none =>
      rw [hneg] at ha
      exact absurd ha (by simp only [reduceCtorEq, not_false_eq_true])
  | some m =>
      rw [hneg] at ha
      cases hinfo : (readHandshake v : Handshake F).info with
      | none =>
          rw [hinfo] at ha
          exact absurd ha (by simp only [reduceCtorEq, not_false_eq_true])
      | some info =>
          rw [hinfo] at ha
          have hm : a.negotiated = m := by
            rw [← Answer.accept.inj ha]
          have hmem := List.mem_of_find?_eq_some hneg
          rw [hm]
          simp only [List.mem_cons, List.not_mem_nil, or_false] at hmem
          rcases hmem with rfl | rfl | rfl <;> decide +kernel

/-- The server reads one line and leaves the rest. -/
theorem greet_line (parse : List UInt8 → Except String Json) (toVec : Json → List UInt8)
    (h : ClientHandshake) (hgreet : parse (h.toLine toVec) = .ok h.toJson)
    (hline : newline ∉ toVec h.toJson) (hfits : (toVec h.toJson).length < handshakeLimit)
    (up : List UInt8) :
    greet parse (h.toLine toVec ++ up) = .ok ((answer h.toJson : Answer F), up) := by
  have htake : (h.toLine toVec ++ up).take handshakeLimit =
      toVec h.toJson ++ newline :: up.take (handshakeLimit - (toVec h.toJson).length - 1) := by
    unfold ClientHandshake.toLine
    rw [List.append_assoc, List.take_append, List.take_of_length_le (Nat.le_of_lt hfits),
      List.singleton_append, List.take_cons (by omega)]
  have hfirst := firstLine_append _ (up.take (handshakeLimit - (toVec h.toJson).length - 1)) hline
  have hdrop : (h.toLine toVec ++ up).drop (toVec h.toJson ++ [newline]).length = up :=
    List.drop_left
  unfold greet
  simp only [htake, hfirst, hdrop]
  rw [if_neg (List.append_ne_nil_of_right_ne_nil _ (List.cons_ne_nil _ _)),
    if_neg (by rw [List.getLast?_concat]; exact fun hc => hc rfl)]
  unfold ClientHandshake.toLine at hgreet
  rw [hgreet]

end Server

namespace Client

open Proto Server

variable {F : Type} [F64Fn F] (parse : List UInt8 → Except String Json) (addr : String)

theorem greeted_line (body down : List UInt8) (v : Json) (hbody : newline ∉ body)
    (hparse : parse (body ++ [newline]) = .ok v) :
    greeted parse addr (body ++ [newline] ++ down) =
      match parseHandshakeReply v with
      | .error e => .error e
      | .ok (.accept c) => .ok (c, down)
      | .ok (.deny v) => .error (.denied v) := by
  have hfirst := firstLine_append body down hbody
  rw [List.append_assoc, List.singleton_append]
  unfold greeted
  simp only [hfirst]
  unfold handshake
  simp only [Except.mapError, orSystem, bind, Except.bind, hparse,
    if_neg (List.append_ne_nil_of_right_ne_nil body (List.cons_ne_nil newline []))]
  cases parseHandshakeReply v with
  | error e => rfl
  | ok reply =>
      cases reply with
      | accept c => rfl
      | deny v => rfl

omit [F64Fn F] in
theorem parse_accept (a : Accepted F) (c : Compress) (h : a.negotiated = compressName c) :
    parseHandshakeReply (Answer.accept a).json = .ok (.accept c) := by
  have hname := compressOf_name c
  rw [← h] at hname
  unfold parseHandshakeReply Answer.json
  simp [Json.get, Json.asStr, hname]

omit [F64Fn F] in
theorem parse_deny (d : Denial) :
    parseHandshakeReply (Answer.deny d : Answer F).json = .ok (.deny (Answer.deny d : Answer F).json) :=
  rfl

end Client

open Client Server Proto

variable {F : Type} [F64Fn F]

/-- Whatever a client says of itself, if `serde_json` reads the two lines as they
    were written, the server answers the handshake and leaves what is behind it for
    its loop. Either it accepts, and both sides agree on how lines travel, who the
    receiver is, where, with which clock, and what it wants, and the client leaves
    what is behind the answer for its own loop; or nothing was offered or the
    position is not finite, and the client's session ends denied. -/
theorem handshake_agrees (parse : List UInt8 → Except String Json) (toVec : Json → List UInt8)
    (addr : String) (h : ClientHandshake) (hgreet : parse (h.toLine toVec) = .ok h.toJson)
    (hline : newline ∉ toVec h.toJson) (hfits : (toVec h.toJson).length < handshakeLimit)
    (hreply : parse (asciiBytes (answer h.toJson : Answer F).text) =
      .ok (answer h.toJson : Answer F).json)
    (up down : List UInt8) :
    greet parse (h.toLine toVec ++ up) = .ok ((answer h.toJson : Answer F), up) ∧
      ((∃ (a : Accepted F) (c : Compress), answer h.toJson = .accept a ∧
          greeted parse addr (asciiBytes (answer h.toJson : Answer F).text ++ down) = .ok (c, down) ∧
          Agreed h a c) ∨
        ∃ d, (answer h.toJson : Answer F) = .deny d ∧
          (h.compress = [] ∨ h.lat = none ∨ h.lon = none ∨ h.alt = none) ∧
          greeted parse addr (asciiBytes (answer h.toJson : Answer F).text ++ down) =
            .error (.denied (Answer.deny d : Answer F).json)) := by
  refine ⟨greet_line parse toVec h hgreet hline hfits up, ?_⟩
  rcases answer_line (F := F) h.toJson with ⟨body, htext, hbody⟩
  rw [htext] at hreply ⊢
  have hclient := greeted_line parse addr body down _ hbody hreply
  rcases answer_toJson (F := F) h with ⟨a, c, ha, hname, hagreed⟩ | ⟨d, hd, hwhy⟩
  · refine Or.inl ⟨a, c, ha, ?_, hagreed⟩
    rw [hclient, ha, parse_accept a c hname]
  · refine Or.inr ⟨d, hd, hwhy, ?_⟩
    rw [hclient, hd, parse_deny d]

/-- What an `mlatc` says of itself. -/
def mlatcHello : ClientHandshake :=
  mlatcHandshake "rx" none (some 48) (some (23 / 2)) (some 520) .dump1090 true none "0.1.0"

/-- Its line. -/
def mlatcText : List UInt8 :=
  asciiBytes ("\x7b\"version\":3,\"user\":\"rx\",\"compress\":[\"zlib2\",\"none\"],\"lat\":48.0," ++
    "\"lon\":11.5,\"alt\":520.0,\"clock_type\":\"dump1090\",\"return_results\":true," ++
    "\"client_version\":\"mlatc 0.1.0\",\"selective_traffic\":true,\"heartbeat\":true\x7d")

/-- The two lines of its handshake are read. -/
def helloParse (bytes : List UInt8) : Except String Json :=
  if bytes = mlatcText ++ [newline] then .ok mlatcHello.toJson
  else if bytes = asciiBytes (answer mlatcHello.toJson : Answer ℚ).text then
    .ok (answer mlatcHello.toJson : Answer ℚ).json
  else .error "expected value"

/-- It goes on with `zlib2`. -/
theorem handshake_agrees_mlatc : ∃ (a : Accepted ℚ) (c : Compress),
    answer mlatcHello.toJson = .accept a ∧ Agreed mlatcHello a c ∧ c = .zlib2 ∧
      greet helloParse (mlatcHello.toLine (fun _ => mlatcText) ++ [0, 1]) =
        .ok (.accept a, [0, 1]) := by
  have hother : asciiBytes (answer mlatcHello.toJson : Answer ℚ).text ≠ mlatcText ++ [newline] := by
    intro hc
    have hcompress := congrArg (fun bytes => bytes.getD 2 0) hc
    revert hcompress
    decide +kernel
  have hboth := handshake_agrees (F := ℚ) helloParse (fun _ => mlatcText) "localhost" mlatcHello
    (if_pos rfl) (by decide +kernel) (by decide +kernel) ((if_neg hother).trans (if_pos rfl)) [0, 1] []
  rcases hboth with ⟨hgreet, ⟨a, c, ha, _, hagreed⟩ | ⟨d, _, hwhy, _⟩⟩
  · refine ⟨a, c, ha, hagreed, hagreed.best (by decide), ?_⟩
    rw [hgreet, ha]
  · exact absurd hwhy (by simp [mlatcHello, mlatcHandshake])

end MlatBench
