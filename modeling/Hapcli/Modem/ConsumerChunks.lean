/-
  Subject:   DETECTION DOES NOT DEPEND ON THE CHUNKS: text followed by a ZMODEM hex header starts the
             same transfer however the bytes are cut into calls of `process_server_output`.

  * `detection_independent_of_chunks` -- **the transfer, the text on the terminal and the bytes
    handed over are the same for every cut**.
-/
import Hapcli.Modem.ZmodemParse
import Hapcli.Modem.ConsumerLedger

namespace Hapcli.Modem

open Hapcli.Process Hapcli.Rust

/-! ## 1. Finding a pattern -/

variable {front p q u v w : List UInt8} {x : UInt8}

theorem prefix_of_split {a b : List UInt8} (hx : x ∉ u) (h : u ++ v = a ++ x :: q ++ b) :
    ∃ a', a = u ++ a' ∧ v = a' ++ x :: q ++ b := by
  rw [List.append_assoc] at h
  rcases List.append_eq_append_iff.mp h with ⟨a', ha, hv⟩ | ⟨c', hu, hc⟩
  · exact ⟨a', ha, by rw [hv, List.append_assoc]⟩
  · cases c' with
    | nil =>
      refine ⟨[], by simpa using hu.symm, ?_⟩
      simpa using hc.symm
    | cons c c' =>
      obtain ⟨rfl, -⟩ := List.cons.inj hc
      exact absurd (hu ▸ List.mem_append_right _ List.mem_cons_self) hx

theorem place_iff (i : Nat) (hp : p ≠ []) :
    ((w.drop i).take p.length == p && decide (i + p.length > 0)) = true ↔
      ∃ b, w.drop i = p ++ b := by
  have hpos : 0 < p.length := List.length_pos_iff.mpr hp
  rw [Bool.and_eq_true, beq_iff_eq, decide_eq_true_eq]
  constructor
  · rintro ⟨h, -⟩
    refine ⟨(w.drop i).drop p.length, ?_⟩
    nth_rewrite 1 [← List.take_append_drop p.length (w.drop i)]
    rw [h]
  · rintro ⟨b, h⟩
    exact ⟨by rw [h, List.take_left], by omega⟩

theorem findPattern_none (h : ¬ p <:+: w) : findPatternCrossingCurrentChunk w 0 p = none := by
  unfold findPatternCrossingCurrentChunk
  split
  · rfl
  · rename_i hc
    rw [List.find?_eq_none]
    intro i _ hi
    obtain ⟨b, hb⟩ := (place_iff i fun hp => hc (.inl hp)).mp hi
    exact h ⟨w.take i, b, by rw [List.append_assoc, ← hb, List.take_append_drop]⟩

theorem findPattern_first (hx : x ∉ u) :
    findPatternCrossingCurrentChunk (u ++ x :: q ++ v) 0 (x :: q) = some u.length := by
  unfold findPatternCrossingCurrentChunk
  rw [if_neg (by simp; omega), List.find?_range_eq_some]
  refine ⟨(place_iff _ (by simp)).mpr ⟨v, by simp⟩, List.mem_range.mpr (by simp; omega), ?_⟩
  intro j hj
  rw [Bool.not_eq_true', Bool.eq_false_iff]
  intro hfound
  obtain ⟨b, hb⟩ := (place_iff j (by simp)).mp hfound
  have hsplit : u ++ (x :: q ++ v) = (u ++ x :: q ++ v).take j ++ x :: q ++ b := by
    rw [List.append_assoc _ (x :: q), ← hb, List.take_append_drop, List.append_assoc]
  obtain ⟨a', ha, -⟩ := prefix_of_split hx hsplit
  have hlen := congrArg List.length ha
  simp at hlen
  omega

theorem findPattern_byte (hx : x ∈ w) :
    ∃ u v, w = u ++ x :: v ∧ findPatternCrossingCurrentChunk w 0 [x] = some u.length := by
  obtain ⟨u, v, rfl, hu⟩ := List.eq_append_cons_of_mem hx
  exact ⟨u, v, rfl, by simpa using findPattern_first (q := []) (v := v) hu⟩

theorem infix_behind (hx : x ∉ u) (h : x :: q <:+: u ++ v) : x :: q <:+: v := by
  obtain ⟨a, b, hab⟩ := h
  obtain ⟨a', -, hv⟩ := prefix_of_split hx hab.symm
  exact ⟨a', b, hv.symm⟩

/-! ## 2. What the detector makes of text and a start -/

/-- The front of a hex header. -/
def hexStart : List UInt8 := [zpad, zpad, zdle, zhex]

theorem hexStart_fronts (hf : front <+: hexStart) (hlt : front.length < 4) :
    front ∈ [[], [zpad], [zpad, zpad], [zpad, zpad, zdle]] := by
  have hfront : front = hexStart.take front.length := List.prefix_iff_eq_take.mp hf
  rw [hfront]
  generalize front.length = n at hlt
  revert n
  decide

theorem findZmodemStart_none (hu : zpad ∉ u) (hf : front <+: hexStart) (hlt : front.length < 4) :
    findZmodemStart (u ++ front) 0 = none := by
  have hnone : ∀ p ∈ zmodemPatterns, findPatternCrossingCurrentChunk (u ++ front) 0 p = none := by
    have hshort : ∀ front ∈ [[], [zpad], [zpad, zpad], [zpad, zpad, zdle]],
        ∀ p ∈ zmodemPatterns, p.head? = some zpad ∧ ¬ p <:+: front := by decide
    intro p hp
    obtain ⟨hhead, hfar⟩ := hshort front (hexStart_fronts hf hlt) p hp
    obtain ⟨q, rfl⟩ := List.head?_eq_some_iff.mp hhead
    exact findPattern_none fun h => hfar (infix_behind hu h)
  unfold findZmodemStart
  rw [List.filterMap_eq_nil_iff.mpr hnone]
  rfl

theorem findZmodemStart_some {rest : List UInt8} (hu : zpad ∉ u) (hr : zpad ∉ rest) :
    findZmodemStart (u ++ (hexStart ++ rest)) 0 = some ⟨.zmodem, u.length⟩ := by
  have hhex : findPatternCrossingCurrentChunk (u ++ (hexStart ++ rest)) 0 hexStart =
      some u.length := by
    rw [← List.append_assoc]
    exact findPattern_first hu
  -- the binary patterns would have to start at one of the two pads
  have hbin : ∀ encoding, encoding ≠ zhex →
      findPatternCrossingCurrentChunk (u ++ (hexStart ++ rest)) 0 [zpad, zdle, encoding] = none := by
    intro encoding he
    refine findPattern_none fun h => ?_
    obtain ⟨a, b, hab⟩ := infix_behind hu h
    rcases a with _ | ⟨a₁, _ | ⟨a₂, a⟩⟩
    · exact absurd (List.cons.inj (List.cons.inj hab).2).1 (by decide)
    · exact he (List.cons.inj (List.cons.inj (List.cons.inj (List.cons.inj hab).2).2).2).1
    · have htail : a ++ [zpad, zdle, encoding] ++ b = [zdle, zhex] ++ rest :=
        (List.cons.inj (List.cons.inj hab).2).2
      have hmem : zpad ∈ [zdle, zhex] ++ rest := by
        rw [← htail]
        simp
      rcases List.mem_append.mp hmem with hm | hm
      · exact absurd hm (by decide)
      · exact hr hm
  unfold findZmodemStart
  have hall : zmodemPatterns.filterMap
      (findPatternCrossingCurrentChunk (u ++ (hexStart ++ rest)) 0) = [u.length] := by
    rw [show zmodemPatterns = [hexStart, [zpad, zdle, zbin], [zpad, zdle, zbin32]] from rfl]
    simp only [List.filterMap_cons, List.filterMap_nil, hhex, hbin zbin (by decide),
      hbin zbin32 (by decide)]
  rw [hall]
  rfl

theorem detectXymodemStart_none (hc : wantCrc ∉ w) (hn : nak ∉ w) :
    detectXymodemStart w 0 = none := by
  unfold detectXymodemStart
  have hbyte : ∀ b : UInt8, b ∉ w → findPatternCrossingCurrentChunk w 0 [b] = none :=
    fun b hb => findPattern_none fun h => hb (h.subset List.mem_cons_self)
  simp [hbyte _ hc, hbyte _ hn]

theorem detectXymodemStart_some (h : wantCrc ∈ w ∨ nak ∈ w) :
    ∃ u b v, w = u ++ b :: v ∧ (b = wantCrc ∨ b = nak) ∧
      detectXymodemStart w 0 = some ⟨.xymodemNegotiation, u.length⟩ := by
  unfold detectXymodemStart
  by_cases hc : wantCrc ∈ w
  · obtain ⟨u, v, hw, hfind⟩ := findPattern_byte hc
    exact ⟨u, wantCrc, v, hw, .inl rfl, by simp [hfind]⟩
  · obtain ⟨u, v, hw, hfind⟩ := findPattern_byte (h.resolve_left hc)
    have hnone : findPatternCrossingCurrentChunk w 0 [wantCrc] = none :=
      findPattern_none fun h => hc (h.subset List.mem_cons_self)
    exact ⟨u, nak, v, hw, .inr rfl, by simp [hnone, hfind]⟩

theorem scanFirst_new (hw : w ≠ []) :
    (({} : ModemDetector).scanFirst w).2 = (findZmodemStart w 0).or (detectXymodemStart w 0) := by
  simp [ModemDetector.scanFirst, hw]

/-- What is held back: the longest end of the bytes that is a proper beginning of a start. -/
theorem holdBack_spec (w : List UInt8) :
    ∃ pre p, w = pre ++ p ∧ p.length = possibleModemPrefixSuffixLen w ∧ p ∈ [] :: modemPrefixes ∧
      ∀ q ∈ modemPrefixes, q <:+ w → q.length ≤ p.length := by
  unfold possibleModemPrefixSuffixLen
  cases hmax : ((modemPrefixes.filter fun p => p.isSuffixOf w).map List.length).max? with
  | none =>
    have hnil := List.map_eq_nil_iff.mp (List.max?_eq_none_iff.mp hmax)
    refine ⟨w, [], by simp, rfl, List.mem_cons_self, fun q hq hs => ?_⟩
    exact absurd (List.isSuffixOf_iff_suffix.mpr hs) (by simpa using List.filter_eq_nil_iff.mp hnil q hq)
  | some n =>
    obtain ⟨hmem, hle⟩ := List.max?_eq_some_iff.mp hmax
    obtain ⟨p, hp, rfl⟩ := List.mem_map.mp hmem
    obtain ⟨hmodem, hs⟩ := List.mem_filter.mp hp
    obtain ⟨pre, hw⟩ := List.isSuffixOf_iff_suffix.mp hs
    refine ⟨pre, p, hw.symm, rfl, List.mem_cons_of_mem _ hmodem, fun q hq hqs => ?_⟩
    exact hle _ (List.mem_map_of_mem (List.mem_filter.mpr ⟨hq, List.isSuffixOf_iff_suffix.mpr hqs⟩))

/-! ## 3. The consumer before a start -/

theorem lastHistory_append (a b : List UInt8) :
    Modems.lastHistory (Modems.lastHistory a ++ b) = Modems.lastHistory (a ++ b) := by
  unfold Modems.lastHistory
  by_cases h : a.length ≤ plainHistoryLimit
  · rw [Nat.sub_eq_zero_of_le h, List.drop_zero]
  · have hsplit : a.drop (a.length - plainHistoryLimit) ++ b =
        (a ++ b).drop (a.length - plainHistoryLimit) :=
      (List.drop_append_of_le_length (by omega)).symm
    have hlen : (a.length - plainHistoryLimit) +
        (((a ++ b).drop (a.length - plainHistoryLimit)).length - plainHistoryLimit) =
        (a ++ b).length - plainHistoryLimit := by
      rw [List.length_drop, List.length_append]
      omega
    rw [hsplit, List.drop_drop, hlen]

/-- The consumer while it reads plain text: `written` is on the terminal, `tail` held back. -/
def Modems.reading (written tail : List UInt8) : Modems :=
  { consumer :=
      { plainTail := tail, detectionTail := tail, plainHistory := Modems.lastHistory written } }

@[simp] theorem reading_plainHistory (written tail : List UInt8) :
    (Modems.reading written tail).consumer.plainHistory = Modems.lastHistory written := by
  simp only [Modems.reading]

theorem remember_reading (written tail bytes : List UInt8) :
    (Modems.reading written tail).rememberPlainOutput bytes = .reading (written ++ bytes) tail := by
  unfold Modems.rememberPlainOutput
  split
  · rename_i h
    rw [h, List.append_nil]
  · simp only [Modems.reading, lastHistory_append]

/-- The bytes that change the detection scope. -/
def OpensScope (b : UInt8) : Prop := b = 0x1b ∨ b = 0x90 ∨ b = 0x9d ∨ b = 0x9f

variable {b : UInt8} {bytes wire written : List UInt8}

theorem maskControlStrings_ground (h : ∀ b ∈ bytes, ¬ OpensScope b) :
    ModemDetectionScope.ground.maskControlStrings bytes = (.ground, bytes) := by
  induction bytes with
  | nil => rfl
  | cons b bytes ih =>
    have hb : ModemDetectionScope.ground.maskByte b = (.ground, b) := by
      have hopen := h b List.mem_cons_self
      simp only [OpensScope, not_or] at hopen
      simp [ModemDetectionScope.maskByte, hopen]
    simp only [ModemDetectionScope.maskControlStrings, hb,
      ih fun c hc => h c (List.mem_cons_of_mem _ hc)]

/-- A call while plain text is read: the bytes held back and the new ones are looked at as
    they are. -/
theorem processServerOutput_reading (written tail : List UInt8) (hb : bytes ≠ [])
    (hopen : ∀ b ∈ bytes, ¬ OpensScope b) :
    (Modems.reading written tail).processServerOutput bytes =
      match (findZmodemStart (tail ++ bytes) 0).or (detectXymodemStart (tail ++ bytes) 0) with
      | none => (Modems.reading written []).processPlain (tail ++ bytes) (tail ++ bytes)
      | some start =>
        (Modems.reading written []).processDetected (tail ++ bytes) (tail ++ bytes) start := by
  have hscan := scanFirst_new (w := tail ++ bytes) (by simp [hb])
  have hmask := maskControlStrings_ground hopen
  cases hstart : (findZmodemStart (tail ++ bytes) 0).or (detectXymodemStart (tail ++ bytes) 0) with
  | none =>
    rw [hstart] at hscan
    simp [Modems.processServerOutput, Modems.reading, hb, Modems.processIdle, hmask, hscan,
      Modems.takeTails]
  | some start =>
    rw [hstart] at hscan
    simp [Modems.processServerOutput, Modems.reading, hb, Modems.processIdle, hmask, hscan,
      Modems.takeTails]

/-- Nothing is detected and nothing asked for: what may be the front of a start is held back. -/
theorem processPlain_reading {pre : List UInt8} (hne : pre ++ p ≠ [])
    (hlen : p.length = possibleModemPrefixSuffixLen (pre ++ p))
    (hquiet : xymodemDownloadRequest (Modems.lastHistory (written ++ pre)) = none) :
    ∃ events, (Modems.reading written []).processPlain (pre ++ p) (pre ++ p) =
        (.reading (written ++ pre) p, events) ∧
      events.flatMap (·.terminal) = pre ∧ events.filterMap (·.started) = [] := by
  unfold Modems.processPlain
  simp only [← hlen]
  split
  · rename_i hall
    have hpre : pre = [] := by
      have : pre.length = 0 := by simpa using hall
      exact List.length_eq_zero_iff.mp this
    subst hpre
    exact ⟨[], by simp [Modems.reading], rfl, rfl⟩
  · have hsplit : (pre ++ p).length - p.length = pre.length := by simp
    refine ⟨[.writeTerminal pre], ?_, by simp [ModemConsumerEvent.terminal],
      by simp [ModemConsumerEvent.started]⟩
    have hheld : ({ Modems.reading written [] with consumer :=
        { (Modems.reading written []).consumer with
          plainTail := p, detectionTail := p } } : Modems) = .reading written p := by
      simp only [Modems.reading]
    simp only [hsplit, List.drop_left, List.take_left, hheld, remember_reading]
    rw [reading_plainHistory, hquiet]

theorem processDetected_negotiation
    (hquiet : xymodemNegotiationProtocolHint (Modems.lastHistory (written ++ u)) = none) :
    ∃ events, (Modems.reading written []).processDetected (u ++ b :: v) (u ++ b :: v)
        ⟨.xymodemNegotiation, u.length⟩ = (.reading (written ++ (u ++ b :: v)) [], events) ∧
      events.flatMap (·.terminal) = u ++ b :: v ∧ events.filterMap (·.started) = [] := by
  have hrequest : requestForProtocol .xymodemNegotiation (b :: v)
      (Modems.lastHistory (written ++ u)) = none := by
    simp [requestForProtocol, hquiet]
  have hhandled : (Modems.reading (written ++ u) []).handleProtocolBytes .xymodemNegotiation
      (b :: v) = (.reading (written ++ (u ++ b :: v)) [], [.writeTerminal (b :: v)]) := by
    unfold Modems.handleProtocolBytes
    rw [reading_plainHistory, hrequest]
    simp [shouldWaitForProtocolConfirmation, zmodemControlPrefixLen, remember_reading]
  refine ⟨(if u.length > 0 then [.writeTerminal u] else []) ++ [.writeTerminal (b :: v)], ?_, ?_, ?_⟩
  · simp only [Modems.processDetected, List.take_left, List.drop_left, remember_reading, hhandled]
  all_goals
    cases u <;> simp [ModemConsumerEvent.terminal, ModemConsumerEvent.started]

/-! ## 4. Text and a header -/

/-- Plain ASCII text without a pad and without an escape sequence. -/
structure PlainText (text : List UInt8) : Prop where
  ascii : ∀ b ∈ text, b < 0x80
  noPad : zpad ∉ text
  noEscape : 0x1b ∉ text

/-- **The text asks for no X/YMODEM transfer itself**: it submits no `sx` or `sb` command, and where
    a negotiation byte stands, no `rx` or `rb` command stands before it. -/
structure Unannounced (text : List UInt8) : Prop where
  noDownload : ∀ front, front <+: text →
    xymodemDownloadRequest (Modems.lastHistory front) = none
  noUpload : ∀ front b, front ++ [b] <+: text → b = wantCrc ∨ b = nak →
    xymodemNegotiationProtocolHint (Modems.lastHistory front) = none

/-- The transfer that a complete `ZRQINIT` or `ZRINIT` header starts. -/
inductive StartFrame : ZFrameType → ModemTransferRequest → Prop where
  | zrqInit : StartFrame .zrqInit ⟨.zmodem, .download⟩
  | zrInit : StartFrame .zrInit ⟨.zmodem, .upload⟩

/-- A complete hex header that starts a transfer, up to its line end. -/
structure StartWire (request : ModemTransferRequest) (wire : List UInt8) : Prop where
  split : ∃ t p body, wire = zpad :: zpad :: zdle :: body ∧ HeaderBody t p .hex body ∧
    StartFrame t request

/-- A chunk ends within the front of the header and has a negotiation byte of the text in it. -/
def CutsNegotiation (text : List UInt8) (chunks : List (List UInt8)) : Prop :=
  ∃ before chunk after, chunks = before ++ chunk :: after ∧
    text.length < (before.flatten ++ chunk).length ∧
    (before.flatten ++ chunk).length < text.length + hexStart.length ∧
    (wantCrc ∈ chunk ∨ nak ∈ chunk)

theorem hexDigit_plain : ∀ b : UInt8, (hexDigit b).isSome → b ≠ zpad ∧ ¬ OpensScope b := by
  refine fun b h => ⟨?_, ?_⟩
  · rintro rfl
    cases h
  · rintro (rfl | rfl | rfl | rfl) <;> cases h

theorem HexBytes.digits {ds bs : List UInt8} (h : HexBytes ds bs) :
    ∀ d ∈ ds, (hexDigit d).isSome := by
  induction h with
  | nil => nofun
  | cons hn hm hb hs ih =>
    intro d hd
    rcases List.mem_cons.mp hd with rfl | hd
    · rw [hn]; rfl
    rcases List.mem_cons.mp hd with rfl | hd
    · rw [hm]; rfl
    exact ih d hd

section

variable (h : StartWire request wire)

include h

theorem StartWire.rest :
    ∃ rest, wire = hexStart ++ rest ∧ ∀ b ∈ rest, b ≠ zpad ∧ ¬ OpensScope b := by
  obtain ⟨t, p, body, rfl, hbody, -⟩ := h.split
  cases hbody with
  | @hex digits lf hlf hdigits =>
    refine ⟨digits ++ [0x0d, lf], rfl, fun b hb => ?_⟩
    rcases List.mem_append.mp hb with hb | hb
    · exact hexDigit_plain b (hdigits.digits b hb)
    · simp only [List.mem_cons, List.not_mem_nil, or_false] at hb
      obtain rfl | rfl := hb
      · unfold OpensScope
        decide
      · refine ⟨?_, ?_⟩
        · rintro rfl
          cases hlf
        · rintro (rfl | rfl | rfl | rfl) <;> cases hlf

theorem StartWire.reads :
    ∃ header, Reads (readZmodemHeader : ModemProc Unit ZHeader) wire (.ok header) ∧
      StartFrame header.frameType request := by
  obtain ⟨t, p, body, rfl, hbody, hframe⟩ := h.split
  exact ⟨⟨t, p, .hex⟩, reads_header [] nofun (HeaderWire.twoPads hbody), hframe⟩

theorem StartWire.request (more history : List UInt8) :
    requestForProtocol .zmodem (wire ++ more) history = some request := by
  obtain ⟨⟨t, p, encoding⟩, hreads, hframe⟩ := h.reads
  simp only [requestForProtocol, completeHeader, parseZmodemHeaderPrefix_reads hreads, prefixResult]
  cases hframe <;> rfl

end

theorem StartWire.wait {request : ModemTransferRequest} {more : List UInt8}
    (h : StartWire request (front ++ b :: more)) (history : List UInt8) :
    requestForProtocol .zmodem front history = none ∧
      shouldWaitForProtocolConfirmation .zmodem front = true := by
  obtain ⟨header, hreads, -⟩ := h.reads
  have hnone := parseZmodemHeaderPrefix_starved hreads
  simp [requestForProtocol, completeHeader, shouldWaitForProtocolConfirmation, hnone]

/-! ## 5. The consumer, chunk by chunk -/

/-- The consumer while a header waits for its rest. -/
def Modems.waiting (text front : List UInt8) : Modems :=
  { consumer := { (Modems.reading text []).consumer with pending := some ⟨.zmodem, front⟩ } }

/-- **What the consumer has done with `done`**: the text is being read, the header waited for, or
    the transfer started. -/
inductive Progress (text wire : List UInt8) (request : ModemTransferRequest) (done : List UInt8)
    (session : Session) : Prop where
  | plain {written tail : List UInt8} (hdone : done = written ++ tail) (hwritten : written <+: text)
      (hcrc : wantCrc ∉ tail) (hnak : nak ∉ tail)
      (hshort : done.length < text.length + hexStart.length)
      (hmodems : session.modems = .reading written tail) (hterminal : session.terminal = written)
      (hstarted : session.started = [])
  | waiting {front more : List UInt8} {b : UInt8} (hdone : done = text ++ front)
      (hwire : wire = front ++ b :: more) (hmodems : session.modems = .waiting text front)
      (hterminal : session.terminal = text) (hstarted : session.started = [])
  | started {front : List UInt8} (hdone : done = text ++ front)
      (hinput : session.modems.consumer.transferInput = some 0)
      (hone : session.modems.transfers.length = 1) (hhanded : session.modems.handedTo 0 = front)
      (hterminal : session.terminal = text) (hstarted : session.started = [request])

section Chunks

variable {text wire trail : List UInt8} {request : ModemTransferRequest}

variable {chunk front tail written : List UInt8} {session : Session}

/-- The front of a header that starts a transfer: it is waited for, or starts the transfer. -/
theorem handleProtocolBytes_front (hwire : StartWire request wire)
    (hfront : front <+: wire ++ trail) :
    (∃ b more, wire = front ++ b :: more ∧ (Modems.reading text []).handleProtocolBytes .zmodem
      front = (.waiting text front, [])) ∨
    ((Modems.reading text []).handleProtocolBytes .zmodem front =
      ((Modems.reading text []).startTransfer front request, [.transferStarted request])) := by
  obtain ⟨rest, hrest⟩ := hfront
  rcases List.append_eq_append_iff.mp hrest with ⟨a', ha, -⟩ | ⟨c', hc, -⟩
  · cases a' with
    | nil =>
      right
      have hreq := hwire.request [] (Modems.lastHistory text)
      rw [ha, List.append_nil, List.append_nil] at hreq
      simp only [Modems.handleProtocolBytes, reading_plainHistory, hreq]
    | cons b more =>
      left
      obtain ⟨hreq, hwait⟩ := StartWire.wait (ha ▸ hwire) (Modems.lastHistory text)
      refine ⟨b, more, ha, ?_⟩
      simp only [Modems.handleProtocolBytes, reading_plainHistory, hreq, hwait, if_true]
      simp only [Modems.waiting, Modems.reading]
  · right
    have hreq := hwire.request c' (Modems.lastHistory text)
    rw [← hc] at hreq
    simp only [Modems.handleProtocolBytes, reading_plainHistory, hreq]

theorem progress_front (hwire : StartWire request wire) (events : List ModemConsumerEvent)
    (hfront : front <+: wire ++ trail) (hcall : session.modems.processServerOutput chunk =
      (((Modems.reading text []).handleProtocolBytes .zmodem front).1,
        events ++ ((Modems.reading text []).handleProtocolBytes .zmodem front).2))
    (hterminal : session.terminal ++ events.flatMap (·.terminal) = text)
    (hstarted : session.started ++ events.filterMap (·.started) = []) :
    Progress text wire request (text ++ front) (session.call (.processServerOutput chunk)) := by
  rcases handleProtocolBytes_front hwire hfront with ⟨b, more, hmore, hwait⟩ | hstart
  · rw [hwait] at hcall
    refine .waiting rfl hmore ?_ ?_ ?_
    · simp only [Session.call, hcall]
    · simpa [Session.call, hcall] using hterminal
    · simpa [Session.call, hcall] using hstarted
  · rw [hstart] at hcall
    refine .started rfl ?_ ?_ ?_ ?_ ?_
    · simp [Session.call, hcall, Modems.startTransfer, Modems.reading]
    · simp [Session.call, hcall, Modems.startTransfer, Modems.reading]
    · simp [Session.call, hcall, Modems.startTransfer, Modems.reading, Modems.handedTo]
    · simpa [Session.call, hcall, ModemConsumerEvent.terminal] using hterminal
    · simp only [Session.call, hcall, List.filterMap_append]
      rw [← List.append_assoc, hstarted]
      rfl

theorem progress_plain (hquiet : Unannounced text)
    (hmodems : session.modems = .reading written tail) (hterminal : session.terminal = written)
    (hstarted : session.started = []) (hchunk : chunk ≠ []) (hopen : ∀ b ∈ chunk, ¬ OpensScope b)
    (hnone : findZmodemStart (tail ++ chunk) 0 = none) (hcrc : wantCrc ∉ tail ++ chunk)
    (hnak : nak ∉ tail ++ chunk)
    (hshort : (written ++ (tail ++ chunk)).length < text.length + hexStart.length)
    (hwritten : ∀ pre p, tail ++ chunk = pre ++ p →
      (∀ q ∈ modemPrefixes, q <:+ tail ++ chunk → q.length ≤ p.length) → written ++ pre <+: text) :
    Progress text wire request (written ++ (tail ++ chunk))
      (session.call (.processServerOutput chunk)) := by
  obtain ⟨pre, p, hsplit, hlen, hp, hmax⟩ := holdBack_spec (tail ++ chunk)
  have hpre := hwritten pre p hsplit hmax
  have hcall := processServerOutput_reading written tail hchunk hopen
  rw [hnone, detectXymodemStart_none hcrc hnak, ← hmodems] at hcall
  rw [hsplit] at hlen hcall hcrc hnak
  obtain ⟨events, hplain, hterm, hstart⟩ := processPlain_reading
    (by rw [← hsplit]; simp [hchunk]) hlen (hquiet.noDownload _ hpre)
  rw [Option.or_none, hplain] at hcall
  refine .plain (by rw [hsplit, List.append_assoc]) hpre
    (fun h => hcrc (List.mem_append_right _ h)) (fun h => hnak (List.mem_append_right _ h)) hshort
    ?_ ?_ ?_
  · simp only [Session.call, hcall]
  · simp only [Session.call, hcall, hterm, hterminal]
  · simp only [Session.call, hcall, hstart, hstarted]
    rfl

theorem progress_negotiation (hplain : PlainText text) (hquiet : Unannounced text)
    (hmodems : session.modems = .reading written tail) (hterminal : session.terminal = written)
    (hstarted : session.started = []) (hchunk : chunk ≠ []) (hopen : ∀ b ∈ chunk, ¬ OpensScope b)
    (htext : written ++ (tail ++ chunk) <+: text)
    (hnegotiation : wantCrc ∈ tail ++ chunk ∨ nak ∈ tail ++ chunk) :
    Progress text wire request (written ++ (tail ++ chunk))
      (session.call (.processServerOutput chunk)) := by
  obtain ⟨u, b, v, hsplit, hb, hdetect⟩ := detectXymodemStart_some hnegotiation
  have hpad : zpad ∉ tail ++ chunk := fun h =>
    hplain.noPad (htext.subset (List.mem_append_right _ h))
  have hnone : findZmodemStart (tail ++ chunk) 0 = none := by
    simpa using findZmodemStart_none hpad (List.nil_prefix) (by decide)
  have hcall := processServerOutput_reading written tail hchunk hopen
  rw [hnone, hdetect, ← hmodems] at hcall
  rw [hsplit] at hcall htext ⊢
  have hbefore : (written ++ u) ++ [b] <+: text :=
    List.IsPrefix.trans ⟨v, by simp⟩ htext
  obtain ⟨events, hdetected, hterm, hstart⟩ := processDetected_negotiation
    (u := u) (v := v) (b := b) (hquiet.noUpload _ b hbefore hb)
  rw [Option.none_or] at hcall
  dsimp only at hcall
  rw [hdetected] at hcall
  refine .plain (List.append_nil _).symm htext nofun nofun ?_ ?_ ?_ ?_
  · exact Nat.lt_of_le_of_lt htext.length_le (by simp [hexStart])
  · simp only [Session.call, hcall]
  · simp only [Session.call, hcall, hterm, hterminal]
  · simp only [Session.call, hcall, hstart, hstarted]
    rfl

theorem progress_detected (hplain : PlainText text) (hwire : StartWire request wire)
    (htrail : ∀ b ∈ trail, b ≠ zpad ∧ ¬ OpensScope b)
    (hmodems : session.modems = .reading written tail) (hterminal : session.terminal = written)
    (hstarted : session.started = []) (hchunk : chunk ≠ []) (hopen : ∀ b ∈ chunk, ¬ OpensScope b)
    (htext : written ++ u = text) (hsplit : tail ++ chunk = u ++ front)
    (hfront : front <+: wire ++ trail) (hlong : hexStart.length ≤ front.length) :
    Progress text wire request (text ++ front) (session.call (.processServerOutput chunk)) := by
  obtain ⟨rest, hrest, hplainRest⟩ := hwire.rest
  have hu : zpad ∉ u := fun h => hplain.noPad (htext ▸ List.mem_append_right _ h)
  -- the whole start is there, and no other pad
  obtain ⟨rest', rfl⟩ : hexStart <+: front :=
    List.prefix_of_prefix_length_le ⟨rest ++ trail, by rw [hrest, List.append_assoc]⟩ hfront hlong
  have hpad : zpad ∉ rest' := by
    intro h
    have hpre : rest' <+: rest ++ trail := by
      rw [hrest, List.append_assoc] at hfront
      exact (List.prefix_append_right_inj _).mp hfront
    rcases List.mem_append.mp (hpre.subset h) with hm | hm
    · exact (hplainRest _ hm).1 rfl
    · exact (htrail _ hm).1 rfl
  have hcall := processServerOutput_reading written tail hchunk hopen
  rw [hsplit, findZmodemStart_some hu hpad, ← hmodems, Option.some_or] at hcall
  simp only [Modems.processDetected, List.take_left, List.drop_left, remember_reading, htext] at hcall
  refine progress_front hwire _ hfront hcall ?_ ?_
  · cases u <;> simp_all [ModemConsumerEvent.terminal]
  · cases u <;> simp [hstarted, ModemConsumerEvent.started]

theorem Progress.call (hplain : PlainText text) (hquiet : Unannounced text)
    (hwire : StartWire request wire) (htrail : ∀ b ∈ trail, b ≠ zpad ∧ ¬ OpensScope b)
    {done : List UInt8} (h : Progress text wire request done session)
    (hnext : done ++ chunk <+: text ++ (wire ++ trail))
    (hcut : text.length < (done ++ chunk).length →
      (done ++ chunk).length < text.length + hexStart.length → wantCrc ∉ chunk ∧ nak ∉ chunk) :
    Progress text wire request (done ++ chunk) (session.call (.processServerOutput chunk)) := by
  by_cases hchunk : chunk = []
  · subst hchunk
    have hsame : session.call (.processServerOutput []) = session := by
      simp [Session.call, Modems.processServerOutput]
    rw [hsame, List.append_nil]
    exact h
  cases h with
  | @plain written tail hdone hwritten hcrc hnak hshort hmodems hterminal hstarted =>
    subst hdone
    obtain ⟨rest, hrest, hplainRest⟩ := hwire.rest
    have hopen : ∀ b ∈ chunk, ¬ OpensScope b := by
      have hascii : ∀ b : UInt8, b < 0x80 → b ≠ 0x1b → ¬ OpensScope b := by
        rintro b hlow hne (rfl | rfl | rfl | rfl)
        · exact hne rfl
        all_goals exact absurd hlow (by decide)
      have hstart : ∀ b ∈ hexStart, ¬ OpensScope b := by
        simp [hexStart, OpensScope, zpad, zdle, zhex]
      intro b hb
      have hmem := hnext.subset (List.mem_append_right _ hb)
      rw [hrest] at hmem
      simp only [List.mem_append] at hmem
      rcases hmem with hm | (hm | hm) | hm
      · exact hascii b (hplain.ascii b hm) fun h => hplain.noEscape (h ▸ hm)
      · exact hstart b hm
      · exact (hplainRest b hm).2
      · exact (htrail b hm).2
    rw [List.append_assoc] at hnext hcut ⊢
    by_cases hin : (written ++ (tail ++ chunk)).length ≤ text.length
    · -- the chunk ends within the text
      have htext : written ++ (tail ++ chunk) <+: text :=
        List.prefix_of_prefix_length_le hnext (List.prefix_append _ _) hin
      by_cases hneg : wantCrc ∈ tail ++ chunk ∨ nak ∈ tail ++ chunk
      · exact progress_negotiation hplain hquiet hmodems hterminal hstarted hchunk hopen htext hneg
      · obtain ⟨hc, hn⟩ := not_or.mp hneg
        have hpad : zpad ∉ tail ++ chunk := fun h =>
          hplain.noPad (htext.subset (List.mem_append_right _ h))
        refine progress_plain hquiet hmodems hterminal hstarted hchunk hopen ?_ hc hn ?_ ?_
        · simpa using findZmodemStart_none hpad List.nil_prefix (by decide)
        · exact Nat.lt_of_le_of_lt htext.length_le (by simp [hexStart])
        · intro pre p hsplit _
          rw [hsplit, ← List.append_assoc] at htext
          exact (List.prefix_append _ _).trans htext
    · -- the chunk ends within the header
      obtain ⟨front, hfront⟩ : text <+: written ++ (tail ++ chunk) :=
        List.prefix_of_prefix_length_le (List.prefix_append _ _) hnext (by omega)
      obtain ⟨u, hu⟩ := hwritten
      have hsplit : tail ++ chunk = u ++ front := by
        rw [← hu, List.append_assoc] at hfront
        exact (List.append_cancel_left hfront).symm
      have hpre : front <+: wire ++ trail := by
        rw [← hfront] at hnext
        exact (List.prefix_append_right_inj _).mp hnext
      have hlen := congrArg List.length hfront
      rw [List.length_append] at hlen
      rw [← hfront]
      by_cases hlong : hexStart.length ≤ front.length
      · exact progress_detected hplain hwire htrail hmodems hterminal hstarted hchunk hopen hu
          hsplit hpre hlong
      · have hstart : front <+: hexStart := by
          refine List.prefix_of_prefix_length_le hpre ⟨rest ++ trail, ?_⟩ (by omega)
          rw [hrest, List.append_assoc]
        have hshort' : front.length < 4 := by
          simpa [hexStart] using hlong
        obtain ⟨hc, hn⟩ := hcut (by omega) (by omega)
        have hu' : zpad ∉ u := fun h => hplain.noPad (hu ▸ List.mem_append_right _ h)
        rw [hfront]
        refine progress_plain hquiet hmodems hterminal hstarted hchunk hopen ?_
          (by simp [hcrc, hc]) (by simp [hnak, hn]) (by omega) ?_
        · rw [hsplit]
          exact findZmodemStart_none hu' hstart hshort'
        · -- at least the front of the header is held back
          intro pre p hpp hmax
          have hheld : front.length ≤ p.length := by
            have hne : front ≠ [] := by
              rintro rfl
              rw [List.length_nil] at hlen
              omega
            refine hmax front ?_ ⟨u, hsplit.symm⟩
            have := hexStart_fronts hstart hshort'
            simp only [List.mem_cons, List.not_mem_nil, or_false, hne, false_or] at this
            rcases this with rfl | rfl | rfl <;> decide
          have hlens := congrArg List.length (hsplit.symm.trans hpp)
          simp only [List.length_append] at hlens
          have hpu : pre <+: u := List.prefix_of_prefix_length_le ⟨p, rfl⟩
            ⟨front, hsplit.symm.trans hpp⟩ (by omega)
          rw [← hu]
          exact (List.prefix_append_right_inj _).mpr hpu
  | @waiting front more b hdone hmore hmodems hterminal hstarted =>
    subst hdone
    have hpre : front ++ chunk <+: wire ++ trail := by
      rw [List.append_assoc] at hnext
      exact (List.prefix_append_right_inj _).mp hnext
    rw [List.append_assoc]
    refine progress_front hwire [] hpre ?_ (by simpa using hterminal)
      (by simpa using hstarted)
    rw [hmodems]
    simp only [Modems.processServerOutput, Modems.waiting, Modems.processPendingServerOutput,
      hchunk, if_false, Modems.reading, List.nil_append]
  | @started front hdone hinput hone hhanded hterminal hstarted =>
    subst hdone
    have hcall : session.modems.processServerOutput chunk =
        (session.modems.modifyTransfer 0 (·.pushRemoteOutput chunk), [.transferDataQueued]) := by
      simp [Modems.processServerOutput, hchunk, hinput]
    refine .started (List.append_assoc ..) ?_ ?_ ?_ ?_ ?_
    · simp only [Session.call, hcall, Modems.modifyTransfer, hinput]
    · simp only [Session.call, hcall, Modems.modifyTransfer, List.length_modify, hone]
    · simp only [Session.call, hcall]
      rw [handedTo_modify 0 0 chunk (by omega) fun t => rfl, hhanded, if_pos rfl]
    · simp [Session.call, hcall, hterminal, ModemConsumerEvent.terminal]
    · simp [Session.call, hcall, hstarted, ModemConsumerEvent.started]

theorem progress_start : Progress text wire request [] {} :=
  .plain rfl List.nil_prefix nofun nofun (by simp [hexStart]) rfl rfl rfl

theorem Progress.chunks (hplain : PlainText text) (hquiet : Unannounced text)
    (hwire : StartWire request wire) (htrail : ∀ b ∈ trail, b ≠ zpad ∧ ¬ OpensScope b)
    {chunks : List (List UInt8)} {done : List UInt8} (h : Progress text wire request done session)
    (hchunks : done ++ chunks.flatten = text ++ (wire ++ trail))
    (hcut : ∀ before chunk after, chunks = before ++ chunk :: after →
      text.length < (done ++ (before.flatten ++ chunk)).length →
      (done ++ (before.flatten ++ chunk)).length < text.length + hexStart.length →
      wantCrc ∉ chunk ∧ nak ∉ chunk) :
    Progress text wire request (text ++ (wire ++ trail))
      (session.runCalls (chunks.map .processServerOutput)) := by
  induction chunks generalizing done session with
  | nil =>
    rw [← hchunks]
    simpa using h
  | cons chunk chunks ih =>
    rw [List.flatten_cons, ← List.append_assoc] at hchunks
    have hstep := h.call hplain hquiet hwire htrail ⟨_, hchunks⟩
      (by simpa using hcut [] chunk chunks rfl)
    refine ih hstep hchunks fun before chunk' after heq => ?_
    have := hcut (chunk :: before) chunk' after (by rw [heq]; rfl)
    simpa [List.append_assoc, Nat.add_assoc] using this

end Chunks

/-- A run of the consumer on nothing but server output. -/
def runChunks (chunks : List (List UInt8)) : Session :=
  ({} : Session).runCalls (chunks.map .processServerOutput)

/-- **Detection does not depend on the chunks**, for plain text that asks for no transfer itself,
    and a complete header. -/
theorem detection_independent_of_chunks {text wire : List UInt8} {request : ModemTransferRequest}
    {includeXon : Bool} {chunks : List (List UInt8)} (hplain : PlainText text)
    (hquiet : Unannounced text) (hwire : StartWire request wire)
    (hchunks : chunks.flatten = text ++ (wire ++ if includeXon then [xon] else []))
    (hcut : ¬ CutsNegotiation text chunks) :
    (runChunks chunks).started = [request] ∧ (runChunks chunks).terminal = text ∧
      (runChunks chunks).modems.handedTo 0 = wire ++ if includeXon then [xon] else [] := by
  have htrail : ∀ b ∈ (if includeXon then [xon] else []), b ≠ zpad ∧ ¬ OpensScope b := by
    cases includeXon <;> simp [OpensScope, xon, zpad]
  obtain ⟨rest, hrest, -⟩ := hwire.rest
  have hend := (progress_start).chunks hplain hquiet hwire htrail hchunks
    (by
      rintro before chunk after heq hlow hhigh
      exact not_or.mp fun hneg => hcut ⟨before, chunk, after, heq, hlow, hhigh, hneg⟩)
  unfold runChunks
  cases hend with
  | plain hdone hwritten hcrc hnak hshort =>
    rw [hrest] at hshort
    simp only [List.length_append] at hshort
    omega
  | waiting hdone hmore =>
    have hlen := congrArg List.length (List.append_cancel_left hdone)
    rw [hmore] at hlen
    simp at hlen
  | started hdone hinput hone hhanded hterminal hstarted =>
    exact ⟨hstarted, hterminal, by rw [hhanded, List.append_cancel_left hdone]⟩

theorem startWire_encode {t : ZFrameType} {request : ModemTransferRequest} (p : Position)
    (hframe : StartFrame t request) : StartWire request (encodeHexHeader t p false) := by
  refine ⟨t, p, _, ?_, @HeaderBody.hex _ _ _ (0x0a ||| 0x80) (by decide)
    (hexBytes_push (headerPayload t p ++ headerCrc .hex (headerPayload t p))), hframe⟩
  simp [encodeHexHeader, headerCrc]

/-- The header `sz` sends first. -/
def zrqInitWire : List UInt8 := encodeHexHeader .zrqInit (positionHeader 0) false

/-- A line with a negotiation byte, and a header cut in its front. -/
theorem detection_independent_of_chunks_line :
    PlainText [0x43, 0x0a] ∧ Unannounced [0x43, 0x0a] ∧
    (runChunks [[0x43], [0x0a, zpad], [zpad], zrqInitWire.drop 2 ++ [xon]]).started =
      [⟨.zmodem, .download⟩] ∧
    (runChunks [[0x43], [0x0a, zpad], [zpad], zrqInitWire.drop 2 ++ [xon]]).terminal =
      [0x43, 0x0a] := by
  have hplain : PlainText [0x43, 0x0a] := ⟨by simp, by decide, by decide⟩
  have hfronts : ∀ front : List UInt8, front <+: [0x43, 0x0a] →
      front ∈ [[], [0x43], [0x43, 0x0a]] := by
    intro front h
    have hlen : front.length < 3 := Nat.lt_succ_of_le h.length_le
    rw [List.prefix_iff_eq_take.mp h]
    generalize front.length = n at hlen
    revert n
    decide
  have hquiet : Unannounced [0x43, 0x0a] := by
    refine ⟨fun front h => ?_, fun front b h _ => ?_⟩
    · have hall : ∀ front ∈ ([[], [0x43], [0x43, 0x0a]] : List (List UInt8)),
          xymodemDownloadRequest (Modems.lastHistory front) = none := by decide
      exact hall front (hfronts front h)
    · have hall : ∀ front ∈ ([[], [0x43], [0x43, 0x0a]] : List (List UInt8)),
          xymodemNegotiationProtocolHint (Modems.lastHistory front) = none := by decide
      exact hall front (hfronts front (List.IsPrefix.trans (List.prefix_append _ _) h))
  obtain ⟨hstarted, hterminal, -⟩ := @detection_independent_of_chunks _ _ _ true
    [[0x43], [0x0a, zpad], [zpad], zrqInitWire.drop 2 ++ [xon]] hplain hquiet (startWire_encode (positionHeader 0) .zrqInit) rfl (by
      rintro ⟨before, chunk, after, hsplit, hlow, hhigh, hneg⟩
      rcases before with _ | ⟨b₁, _ | ⟨b₂, _ | ⟨b₃, before⟩⟩⟩
      · obtain ⟨rfl, -⟩ := List.cons.inj hsplit
        simp at hlow
      · obtain ⟨-, rfl, -⟩ := hsplit
        revert hneg
        decide
      · obtain ⟨-, -, rfl, -⟩ := hsplit
        revert hneg
        decide
      · simp only [List.cons_append, List.cons.injEq] at hsplit
        obtain ⟨rfl, rfl, rfl, hlast⟩ := hsplit
        cases before with
        | nil =>
          obtain ⟨rfl, -⟩ := List.cons.inj hlast
          revert hhigh
          decide
        | cons b before => simp at hlast)
  exact ⟨hplain, hquiet, hstarted, hterminal⟩

/-- **Where the chunks do matter**: a command submitted before the header, and a `C` in the chunk
    that ends within the front of the header. -/
theorem submitted_sx_differs :
    (PlainText [0x73, 0x78, 0x0a] ∧ StartWire ⟨.zmodem, .download⟩ zrqInitWire ∧
      (runChunks [[0x73, 0x78, 0x0a], zrqInitWire]).started ≠
        (runChunks [[0x73, 0x78, 0x0a] ++ zrqInitWire]).started) ∧
    (PlainText [0x43] ∧ (runChunks [[0x43, zpad], zrqInitWire.tail]).started ≠
      (runChunks [[0x43] ++ zrqInitWire]).started) := by
  refine ⟨⟨⟨by simp, by decide, by decide⟩, startWire_encode _ .zrqInit, ?_⟩,
    ⟨by simp, by decide, by decide⟩, ?_⟩
  · decide +kernel
  · decide +kernel

end Hapcli.Modem
