/-
  Subject:   The streaming ZMODEM parsers against the wire format and the encoders.

  * `reads_header`, `reads_header_inv` -- `readZmodemHeader` accepts exactly a header on the wire,
    with bytes before it that start none;
  * `reads_data`, `reads_data_inv` -- `readZmodemData` accepts exactly the CRC-valid subpackets of
    at most the given length;
  * `reads_bin16` -- a 16-bit binary header is checked by its DIRECT residue, while the encoder
    sends the AUGMENTED CRC;
  * `parseZmodemHeaderPrefix_total` -- the parser on a slice never runs out of fuel;
  * `headerCodec_iff` -- when the encoders, the streaming parser and the slice parsers agree.
-/
import Hapcli.Modem.ZmodemWire

namespace Hapcli.Modem

open Hapcli.Process Hapcli.Rust Proc ModemProc

variable {H : Type}

/-! ## 1. Bytes -/

variable {b e n : UInt8} {bs w : List UInt8} {h : ZHeader} {p : Position} {t : ZFrameType}

theorem reads_decodeZescapedFollowup (h : unescape e = some b) :
    Reads (decodeZescapedFollowup e : ModemProc H UInt8) [] (.ok b) := by
  unfold decodeZescapedFollowup
  rw [h]
  exact .ret b

variable {α : Type} {a : α}

theorem reads_expectCancel_inv {n : Nat} :
    ¬ Reads (expectCancel n : ModemProc H α) bs (.ok a) := by
  induction n generalizing bs with
  | zero => exact reads_fail_inv
  | succ n ih =>
    intro h
    obtain ⟨b, cs, rfl, hk⟩ := reads_read_inv h
    split at hk
    · exact reads_fail_inv hk
    · exact ih hk

theorem reads_decodeZescapedFollowup_inv
    (h : Reads (decodeZescapedFollowup e : ModemProc H UInt8) bs (.ok b)) :
    bs = [] ∧ unescape e = some b := by
  unfold decodeZescapedFollowup at h
  split at h
  · rename_i c hc
    obtain ⟨rfl, rfl⟩ := reads_ret_inv h
    exact ⟨rfl, hc⟩
  · split at h
    · exact absurd h reads_expectCancel_inv
    · exact absurd h reads_fail_inv

theorem reads_readZescapedByte (h : EscapedByte w b) :
    Reads (readZescapedByte : ModemProc H UInt8) w (.ok b) := by
  obtain ⟨flow, tail, rfl, hflow, htail⟩ := h
  induction flow with
  | nil =>
    refine Reads.leave ?_
    rcases htail with ⟨rfl, hf, hz⟩ | ⟨e, rfl, he⟩
    · refine Reads.read ?_
      rw [if_neg (by simp [hf]), if_neg hz]
      exact .ret _
    · exact Reads.read (Reads.read (Reads.bind (reads_decodeZescapedFollowup he) (.ret _)))
  | cons c flow ih =>
    have hc := hflow c List.mem_cons_self
    refine Reads.again [c] (Reads.read ?_)
      (ih fun d hd => hflow d (List.mem_cons_of_mem c hd))
    rw [if_pos hc]
    exact .ret _

theorem reads_readZescapedByte_inv (h : Reads (readZescapedByte : ModemProc H UInt8) w (.ok b)) :
    EscapedByte w b := by
  refine reads_loop_ok (motive := fun _ w => EscapedByte w b) ?_ ?_ h
  · rintro _ _ bs cs h ⟨flow, tail, rfl, hflow, htail⟩
    obtain ⟨c, bs, rfl, hk⟩ := reads_read_inv h
    split at hk
    · rename_i hc
      obtain ⟨rfl, -⟩ := reads_ret_inv hk
      refine ⟨c :: flow, tail, rfl, fun d hd => ?_, htail⟩
      rcases List.mem_cons.mp hd with rfl | hd
      · exact hc
      · exact hflow d hd
    · split at hk
      · obtain ⟨e, cs, rfl, hk'⟩ := reads_read_inv hk
        obtain ⟨d, bs₁, bs₂, rfl, -, hd⟩ := reads_bind_ok hk'
        exact nomatch (reads_ret_inv hd).2
      · exact nomatch (reads_ret_inv hk).2
  · intro _ bs h
    obtain ⟨c, bs, rfl, hk⟩ := reads_read_inv h
    split at hk
    · exact nomatch (reads_ret_inv hk).2
    · rename_i hc
      split at hk
      · rename_i hz
        subst hz
        obtain ⟨e, cs, rfl, hk'⟩ := reads_read_inv hk
        obtain ⟨d, bs₁, bs₂, rfl, h1, hd⟩ := reads_bind_ok hk'
        obtain ⟨rfl, he⟩ := reads_decodeZescapedFollowup_inv h1
        obtain ⟨rfl, hd⟩ := reads_ret_inv hd
        cases hd
        exact ⟨[], _, rfl, nofun, .inr ⟨e, rfl, he⟩⟩
      · rename_i hz
        obtain ⟨rfl, hd⟩ := reads_ret_inv hk
        cases hd
        exact ⟨[], _, rfl, nofun, .inl ⟨rfl, by simpa using hc, hz⟩⟩

variable {k : UInt8 → ModemProc H α}

theorem Reads.escaped {w' : List UInt8}
    {r : Except ModemTransferError α} (hb : EscapedByte w b) (h : Reads (k b) w' r) :
    Reads (readZescapedByte.bind k) (w ++ w') r :=
  Reads.bind (reads_readZescapedByte hb) h

theorem reads_escaped_inv (h : Reads (readZescapedByte.bind k) w (.ok a)) :
    ∃ b w₁ w₂, w = w₁ ++ w₂ ∧ EscapedByte w₁ b ∧ Reads (k b) w₂ (.ok a) := by
  obtain ⟨b, w₁, w₂, hw, h1, h2⟩ := reads_bind_ok h
  exact ⟨b, w₁, w₂, hw, reads_readZescapedByte_inv h1, h2⟩

/-! ## 2. Hexadecimal -/

theorem reads_readHexNibble {d : UInt8} (h : hexDigit d = some n) :
    Reads (readHexNibble : ModemProc H UInt8) [d] (.ok n) := by
  refine Reads.read ?_
  rw [h]
  exact .ret n

theorem reads_readHexNibble_inv (h : Reads (readHexNibble : ModemProc H UInt8) bs (.ok n)) :
    ∃ d, bs = [d] ∧ hexDigit d = some n := by
  obtain ⟨d, cs, rfl, hk⟩ := reads_read_inv h
  split at hk
  · rename_i m hm
    obtain ⟨rfl, rfl⟩ := reads_ret_inv hk
    exact ⟨d, rfl, hm⟩
  · exact absurd hk reads_fail_inv

theorem Reads.hexSlot {high low m : UInt8}
    {r : Except ModemTransferError α} (hn : hexDigit high = some n) (hm : hexDigit low = some m)
    (hb : (n <<< 4) ||| m = b) (h : Reads (k b) w r) :
    Reads (readHexSlot.bind k) (high :: low :: w) r := by
  subst hb
  have hs : Reads (readHexSlot : ModemProc H UInt8) [high, low] (.ok ((n <<< 4) ||| m)) :=
    Reads.bind (reads_readHexNibble hn) (Reads.bind (reads_readHexNibble hm) (.ret _))
  exact Reads.bind hs h

theorem reads_hexSlot_inv (h : Reads (readHexSlot.bind k) w (.ok a)) :
    ∃ high low n m b w', w = high :: low :: w' ∧ hexDigit high = some n ∧ hexDigit low = some m ∧
      (n <<< 4) ||| m = b ∧ Reads (k b) w' (.ok a) := by
  obtain ⟨b, w₁, w', rfl, h1, h2⟩ := reads_bind_ok h
  obtain ⟨n, w₂, w₃, rfl, hn, h3⟩ := reads_bind_ok h1
  obtain ⟨m, w₄, w₅, rfl, hm, h4⟩ := reads_bind_ok h3
  obtain ⟨high, rfl, hn'⟩ := reads_readHexNibble_inv hn
  obtain ⟨low, rfl, hm'⟩ := reads_readHexNibble_inv hm
  obtain ⟨rfl, rfl⟩ := reads_ret_inv h4
  exact ⟨high, low, n, m, _, w', rfl, hn', hm', rfl, h2⟩

theorem reads_lineEnd {lf : UInt8} (h : lf &&& 0x7f = 0x0a) :
    Reads (consumeHexHeaderLineEnd : ModemProc H Unit) [0x0d, lf] (.ok ()) := by
  refine Reads.read ?_
  rw [if_neg (by decide)]
  refine Reads.read ?_
  rw [if_neg (by simp [h])]
  exact .ret ()

theorem reads_lineEnd_inv (h : Reads (consumeHexHeaderLineEnd : ModemProc H Unit) bs (.ok ())) :
    ∃ lf, bs = [0x0d, lf] ∧ lf &&& 0x7f = 0x0a := by
  obtain ⟨cr, cs, rfl, h1⟩ := reads_read_inv h
  split at h1
  · exact absurd h1 reads_fail_inv
  · rename_i hcr
    obtain ⟨lf, cs, rfl, h2⟩ := reads_read_inv h1
    split at h2
    · exact absurd h2 reads_fail_inv
    · rename_i hlf
      obtain ⟨rfl, -⟩ := reads_ret_inv h2
      exact ⟨lf, by rw [not_not.mp hcr], not_not.mp hlf⟩

/-! ## 3. Headers -/

theorem reads_frameHeader (t : ZFrameType) (p : Position) (enc : ZHeaderEncoding) :
    Reads (frameHeader t.toByte p enc : ModemProc H ZHeader) [] (.ok ⟨t, p, enc⟩) := by
  unfold frameHeader
  rw [ZFrameType.fromByte_toByte]
  exact .ret _

theorem fromByte_eq_some (h : ZFrameType.fromByte b = some t) : b = t.toByte := by
  have hall : ∀ b : UInt8, (ZFrameType.fromByte b).all (·.toByte == b) = true := by
    refine forall_byte ?_
    decide +kernel
  have hb := hall b
  rw [h] at hb
  exact (beq_iff_eq.mp hb).symm

theorem reads_frameHeader_inv {t : UInt8} {enc : ZHeaderEncoding}
    (hr : Reads (frameHeader t p enc : ModemProc H ZHeader) bs (.ok h)) :
    bs = [] ∧ t = h.frameType.toByte ∧ p = h.position ∧ enc = h.encoding := by
  unfold frameHeader at hr
  split at hr
  · rename_i ft ht
    obtain ⟨rfl, rfl⟩ := reads_ret_inv hr
    exact ⟨rfl, fromByte_eq_some ht, rfl, rfl⟩
  · exact absurd hr reads_fail_inv

/-- A 16-bit binary header is accepted by its direct residue, whatever CRC it carries. -/
theorem reads_bin16 {high low : UInt8} (hw : EscapedBytes w (headerPayload t p ++ [high, low])) :
    Reads (readBinaryZheader .bin16 : ModemProc H ZHeader) w
      (if (headerPayload t p ++ [high, low]).foldl crc16XmodemUpdate 0 ≠ 0 then
        .error (.protocol .invalidCrc) else .ok ⟨t, p, .bin16⟩) := by
  obtain ⟨p0, p1, p2, p3⟩ := p
  obtain _ | ⟨ht, hw⟩ := hw
  obtain _ | ⟨h0, hw⟩ := hw
  obtain _ | ⟨h1, hw⟩ := hw
  obtain _ | ⟨h2, hw⟩ := hw
  obtain _ | ⟨h3, hw⟩ := hw
  obtain _ | ⟨h4, hw⟩ := hw
  obtain _ | ⟨h5, hw⟩ := hw
  obtain _ | _ := hw
  refine Reads.escaped ht (Reads.escaped h0 (Reads.escaped h1 (Reads.escaped h2 (Reads.escaped h3
    (Reads.escaped h4 (Reads.escaped h5 ?_))))))
  by_cases hc : (headerPayload t ⟨p0, p1, p2, p3⟩ ++ [high, low]).foldl crc16XmodemUpdate 0 = 0
  · rw [if_neg (not_not.mpr hc)]
    exact reads_of_eq (if_neg (not_not.mpr hc)) (reads_frameHeader t _ .bin16)
  · rw [if_pos hc]
    exact reads_of_eq (if_pos hc) (.fail _)

theorem reads_headerBody {enc : ZHeaderEncoding} (h : HeaderBody t p enc w) : ∃ e w', w = e :: w' ∧
      Reads (readEncodedHeader e : ModemProc H ZHeader) w' (.ok ⟨t, p, enc⟩) := by
  cases h with
  | hex hlf hd =>
    refine ⟨zhex, _, rfl, reads_of_eq (if_pos rfl) ?_⟩
    obtain ⟨p0, p1, p2, p3⟩ := p
    obtain _ | ⟨nt, mt, et, hd⟩ := hd
    obtain _ | ⟨n0, m0, e0, hd⟩ := hd
    obtain _ | ⟨n1, m1, e1, hd⟩ := hd
    obtain _ | ⟨n2, m2, e2, hd⟩ := hd
    obtain _ | ⟨n3, m3, e3, hd⟩ := hd
    obtain _ | ⟨n4, m4, e4, hd⟩ := hd
    obtain _ | ⟨n5, m5, e5, hd⟩ := hd
    obtain _ | _ := hd
    refine Reads.hexSlot nt mt et (Reads.hexSlot n0 m0 e0 (Reads.hexSlot n1 m1 e1
      (Reads.hexSlot n2 m2 e2 (Reads.hexSlot n3 m3 e3 (Reads.hexSlot n4 m4 e4
        (Reads.hexSlot n5 m5 e5 (reads_of_eq (if_neg ?_) ?_)))))))
    · rw [not_not, u16FromBeBytes_crc]
      rfl
    · have h := Reads.bind (f := fun _ => frameHeader t.toByte ⟨p0, p1, p2, p3⟩ .hex)
        (reads_lineEnd (H := H) hlf) (reads_frameHeader t _ .hex)
      exact h
  | @bin16 w hw =>
    refine ⟨zbin, w, rfl, reads_of_eq (if_neg (by decide)) (reads_of_eq (if_pos rfl) ?_)⟩
    have h := reads_bin16 (H := H) hw
    rwa [if_neg] at h
    rw [List.foldl_append, not_not]
    exact (crc16_residue _ _ _).mpr ⟨rfl, rfl⟩
  | @bin32 w hw =>
    refine ⟨zbin32, w, rfl, reads_of_eq (if_neg (by decide)) (reads_of_eq (if_neg (by decide))
      (reads_of_eq (if_pos rfl) ?_))⟩
    obtain ⟨p0, p1, p2, p3⟩ := p
    obtain _ | ⟨ht, hw⟩ := hw
    obtain _ | ⟨h0, hw⟩ := hw
    obtain _ | ⟨h1, hw⟩ := hw
    obtain _ | ⟨h2, hw⟩ := hw
    obtain _ | ⟨h3, hw⟩ := hw
    obtain _ | ⟨c0, hw⟩ := hw
    obtain _ | ⟨c1, hw⟩ := hw
    obtain _ | ⟨c2, hw⟩ := hw
    obtain _ | ⟨c3, hw⟩ := hw
    obtain _ | _ := hw
    refine Reads.escaped ht (Reads.escaped h0 (Reads.escaped h1 (Reads.escaped h2
      (Reads.escaped h3 (Reads.escaped c0 (Reads.escaped c1 (Reads.escaped c2 (Reads.escaped c3
        (reads_of_eq (if_neg ?_) (reads_frameHeader t _ .bin32))))))))))
    rw [not_not, u32FromLeBytes_toLeBytes]
    rfl

theorem reads_hexZheader_inv (hr : Reads (readHexZheader : ModemProc H ZHeader) w (.ok h)) :
    HeaderBody h.frameType h.position h.encoding (zhex :: w) := by
  obtain ⟨dt, et, nt, mt, t, w, rfl, hnt, hmt, hbt, h1⟩ := reads_hexSlot_inv hr
  obtain ⟨d0, e0, n0, m0, p0, w, rfl, hn0, hm0, hb0, h2⟩ := reads_hexSlot_inv h1
  obtain ⟨d1, e1, n1, m1, p1, w, rfl, hn1, hm1, hb1, h3⟩ := reads_hexSlot_inv h2
  obtain ⟨d2, e2, n2, m2, p2, w, rfl, hn2, hm2, hb2, h4⟩ := reads_hexSlot_inv h3
  obtain ⟨d3, e3, n3, m3, p3, w, rfl, hn3, hm3, hb3, h5⟩ := reads_hexSlot_inv h4
  obtain ⟨d4, e4, n4, m4, high, w, rfl, hn4, hm4, hb4, h6⟩ := reads_hexSlot_inv h5
  obtain ⟨d5, e5, n5, m5, low, w, rfl, hn5, hm5, hb5, h7⟩ := reads_hexSlot_inv h6
  split at h7
  · exact absurd h7 reads_fail_inv
  · rename_i hcrc
    obtain ⟨u, w₁, w₂, rfl, h8, h9⟩ := reads_bind_ok h7
    obtain ⟨lf, rfl, hlf⟩ := reads_lineEnd_inv h8
    obtain ⟨rfl, rfl, hp, he⟩ := reads_frameHeader_inv h9
    obtain ⟨hh, hl⟩ := (u16FromBeBytes_eq_iff high low _).mp (not_not.mp hcrc).symm
    rw [← hp, ← he]
    refine @HeaderBody.hex _ _ [dt, et, d0, e0, d1, e1, d2, e2, d3, e3, d4, e4, d5, e5] _ hlf ?_
    exact .cons hnt hmt hbt (.cons hn0 hm0 hb0 (.cons hn1 hm1 hb1 (.cons hn2 hm2 hb2
      (.cons hn3 hm3 hb3 (.cons hn4 hm4 (hb4.trans hh) (.cons hn5 hm5 (hb5.trans hl) .nil))))))

theorem reads_bin16Zheader_inv
    (hr : Reads (readBinaryZheader .bin16 : ModemProc H ZHeader) w (.ok h)) :
    HeaderBody h.frameType h.position h.encoding (zbin :: w) := by
  obtain ⟨t, wt, w, rfl, ht, h1⟩ := reads_escaped_inv hr
  obtain ⟨p0, w0, w, rfl, h0', h2⟩ := reads_escaped_inv h1
  obtain ⟨p1, w1, w, rfl, h1', h3⟩ := reads_escaped_inv h2
  obtain ⟨p2, w2, w, rfl, h2', h4⟩ := reads_escaped_inv h3
  obtain ⟨p3, w3, w, rfl, h3', h5⟩ := reads_escaped_inv h4
  obtain ⟨high, w4, w, rfl, h4', h6⟩ := reads_escaped_inv h5
  obtain ⟨low, w5, w, rfl, h5', h7⟩ := reads_escaped_inv h6
  split at h7
  · exact absurd h7 reads_fail_inv
  · rename_i hcrc
    obtain ⟨rfl, rfl, hp, he⟩ := reads_frameHeader_inv h7
    obtain ⟨rfl, rfl⟩ := (crc16_residue _ high low).mp (not_not.mp hcrc)
    rw [← hp, ← he]
    exact .bin16 (.cons ht (.cons h0' (.cons h1' (.cons h2' (.cons h3' (.cons h4'
      (.cons h5' .nil)))))))

theorem reads_bin32Zheader_inv
    (hr : Reads (readBinaryZheader .bin32 : ModemProc H ZHeader) w (.ok h)) :
    HeaderBody h.frameType h.position h.encoding (zbin32 :: w) := by
  obtain ⟨t, wt, w, rfl, ht, h1⟩ := reads_escaped_inv hr
  obtain ⟨p0, w0, w, rfl, h0', h2⟩ := reads_escaped_inv h1
  obtain ⟨p1, w1, w, rfl, h1', h3⟩ := reads_escaped_inv h2
  obtain ⟨p2, w2, w, rfl, h2', h4⟩ := reads_escaped_inv h3
  obtain ⟨p3, w3, w, rfl, h3', h5⟩ := reads_escaped_inv h4
  obtain ⟨c0, w4, w, rfl, h4', h6⟩ := reads_escaped_inv h5
  obtain ⟨c1, w5, w, rfl, h5', h7⟩ := reads_escaped_inv h6
  obtain ⟨c2, w6, w, rfl, h6', h8⟩ := reads_escaped_inv h7
  obtain ⟨c3, w7, w, rfl, h7', h9⟩ := reads_escaped_inv h8
  split at h9
  · exact absurd h9 reads_fail_inv
  · rename_i hcrc
    obtain ⟨rfl, rfl, hp, he⟩ := reads_frameHeader_inv h9
    have hc : headerCrc .bin32 (headerPayload h.frameType ⟨p0, p1, p2, p3⟩) = [c0, c1, c2, c3] := by
      rw [← u32ToLeBytes_fromLeBytes c0 c1 c2 c3, ← not_not.mp hcrc]
      rfl
    rw [← hp, ← he]
    refine .bin32 ?_
    rw [hc]
    exact .cons ht (.cons h0' (.cons h1' (.cons h2' (.cons h3' (.cons h4' (.cons h5'
      (.cons h6' (.cons h7' .nil))))))))

theorem reads_encodedHeader_inv (hr : Reads (readEncodedHeader e : ModemProc H ZHeader) w (.ok h)) :
    HeaderBody h.frameType h.position h.encoding (e :: w) := by
  unfold readEncodedHeader at hr
  split at hr
  · rename_i he
    exact he ▸ reads_hexZheader_inv hr
  · split at hr
    · rename_i he
      exact he ▸ reads_bin16Zheader_inv hr
    · split at hr
      · rename_i he
        exact he ▸ reads_bin32Zheader_inv hr
      · exact absurd hr reads_fail_inv

variable {r : Except ModemTransferError ZHeader}

theorem reads_headerTurn (h : Reads (readEncodedHeader e : ModemProc H ZHeader) w r)
    (twoPads : Bool) :
    Reads (readZmodemHeaderTurn () : ModemProc H _)
      (zpad :: (if twoPads then [zpad] else []) ++ zdle :: e :: w) (r.map .done) := by
  refine Reads.read ?_
  rw [if_neg (by decide)]
  cases twoPads with
  | true =>
    refine Reads.read ?_
    rw [if_pos rfl]
    refine Reads.read ?_
    rw [if_neg (by decide)]
    exact Reads.read (Reads.map Turn.done h)
  | false =>
    refine Reads.read ?_
    rw [if_neg (by decide), if_pos rfl]
    exact Reads.read (Reads.map Turn.done h)

theorem Reads.skipNoise {noise : List UInt8} (hn : zpad ∉ noise)
    (h : Reads (readZmodemHeader : ModemProc H ZHeader) bs r) :
    Reads (readZmodemHeader : ModemProc H ZHeader) (noise ++ bs) r := by
  induction noise with
  | nil => exact h
  | cons b noise ih =>
    obtain ⟨hb, hn⟩ := not_or.mp (List.mem_cons.not.mp hn)
    refine Reads.again [b] (Reads.read ?_) (ih hn)
    rw [if_pos (Ne.symm hb)]
    exact .ret _

theorem reads_header (noise : List UInt8) (hn : zpad ∉ noise) (hw : HeaderWire h w) :
    Reads (readZmodemHeader : ModemProc H ZHeader) (noise ++ w) (.ok h) := by
  refine Reads.skipNoise hn (Reads.last ?_)
  cases hw with
  | onePad hb =>
    obtain ⟨e, w', rfl, hr⟩ := reads_headerBody (H := H) hb
    exact reads_headerTurn hr false
  | twoPads hb =>
    obtain ⟨e, w', rfl, hr⟩ := reads_headerBody (H := H) hb
    exact reads_headerTurn hr true

theorem reads_header_inv (hr : Reads (readZmodemHeader : ModemProc H ZHeader) bs (.ok h)) :
    ∃ noise w, bs = noise ++ w ∧ HeaderWire h w := by
  refine reads_loop_ok (motive := fun _ bs => ∃ noise w, bs = noise ++ w ∧ HeaderWire h w) ?_ ?_ hr
  · rintro _ _ bs _ - ⟨noise, w, rfl, hw⟩
    exact ⟨bs ++ noise, w, (List.append_assoc _ _ _).symm, hw⟩
  · intro _ bs hb
    refine ⟨[], bs, rfl, ?_⟩
    obtain ⟨c0, bs, rfl, h1⟩ := reads_read_inv hb
    split at h1
    · exact nomatch (reads_ret_inv h1).2
    · rename_i hc0
      obtain ⟨c1, bs, rfl, h2⟩ := reads_read_inv h1
      have hc0 : c0 = zpad := not_not.mp hc0
      subst hc0
      split at h2
      · rename_i hc1
        subst hc1
        obtain ⟨c2, bs, rfl, h3⟩ := reads_read_inv h2
        split at h3
        · exact nomatch (reads_ret_inv h3).2
        · rename_i hc2
          have hc2 : c2 = zdle := not_not.mp hc2
          subst hc2
          obtain ⟨e, bs, rfl, h4⟩ := reads_read_inv h3
          obtain ⟨h', w, w', rfl, h5, h6⟩ := reads_bind_ok h4
          obtain ⟨rfl, he⟩ := reads_ret_inv h6
          cases he
          rw [List.append_nil]
          exact .twoPads (reads_encodedHeader_inv h5)
      · split at h2
        · rename_i hc1
          subst hc1
          obtain ⟨e, bs, rfl, h3⟩ := reads_read_inv h2
          obtain ⟨h', w, w', rfl, h5, h6⟩ := reads_bind_ok h3
          obtain ⟨rfl, he⟩ := reads_ret_inv h6
          cases he
          rw [List.append_nil]
          exact .onePad (reads_encodedHeader_inv h5)
        · exact nomatch (reads_ret_inv h2).2

/-! ## 4. Data subpackets -/

theorem unescape_no_marker : ∀ e : UInt8, unescape e ≠ none → ZDataEnd.fromMarker e = none := by
  intro e h
  rw [ZDataEnd.fromMarker, if_neg, if_neg, if_neg, if_neg] <;>
  · rintro rfl
    exact h (by decide)

variable {acc payload : List UInt8} {frame : ZDataFrame} {maxPayload : Nat} {useCrc32 : Bool}

theorem reads_payload {pw : List UInt8} (e : ZDataEnd) (hw : PayloadWire pw payload)
    (acc : List UInt8) (hlen : acc.length + payload.length ≤ maxPayload) :
    Reads (loop (readPayloadTurn maxPayload) acc : ModemProc H _) (pw ++ [zdle, e.marker])
      (.ok (acc ++ payload, e)) := by
  induction hw generalizing acc with
  | nil =>
    rw [List.append_nil]
    refine Reads.leave (Reads.read (Reads.read ?_))
    rw [ZDataEnd.fromMarker_marker]
    exact .ret _
  | @flow c w payload hc _ ih =>
    refine Reads.again [c] (Reads.read ?_) (ih acc hlen)
    rw [if_pos hc]
    exact .ret _
  | @plain b w payload hf hb _ ih =>
    simp only [List.length_cons] at hlen
    have h := ih (acc ++ [b]) (by simp only [List.length_append, List.length_singleton]; omega)
    rw [List.append_assoc] at h
    refine Reads.again [b] (Reads.read ?_) h
    rw [if_neg (by simp [hf]), if_pos hb, if_neg (by omega)]
    exact .ret _
  | @escaped c b w payload hc _ ih =>
    simp only [List.length_cons] at hlen
    have h := ih (acc ++ [b]) (by simp only [List.length_append, List.length_singleton]; omega)
    rw [List.append_assoc] at h
    refine Reads.again [zdle, c] (Reads.read (Reads.read ?_)) h
    rw [unescape_no_marker c (by simp [hc])]
    refine reads_of_eq (if_neg (by omega)) ?_
    exact Reads.bind (reads_decodeZescapedFollowup hc) (.ret _)

theorem reads_payloadTurn_again {acc' : List UInt8}
    (h : Reads (readPayloadTurn maxPayload acc : ModemProc H _) bs (.ok (.again acc'))) :
    ∃ bytes, acc' = acc ++ bytes ∧ ∀ w payload, PayloadWire w payload →
      PayloadWire (bs ++ w) (bytes ++ payload) := by
  obtain ⟨c, bs, rfl, h1⟩ := reads_read_inv h
  split at h1
  · rename_i hc
    obtain ⟨rfl, ha⟩ := reads_ret_inv h1
    cases ha
    exact ⟨[], (List.append_nil _).symm, fun w payload hw => .flow hc hw⟩
  · rename_i hc
    split at h1
    · rename_i hz
      split at h1
      · exact absurd h1 reads_fail_inv
      · obtain ⟨rfl, ha⟩ := reads_ret_inv h1
        cases ha
        exact ⟨[c], rfl, fun w payload hw => .plain (by simpa using hc) hz hw⟩
    · rename_i hz
      obtain ⟨e, bs, rfl, h2⟩ := reads_read_inv h1
      split at h2
      · exact nomatch (reads_ret_inv h2).2
      · split at h2
        · exact absurd h2 reads_fail_inv
        · obtain ⟨b, bs₁, bs₂, rfl, h3, h4⟩ := reads_bind_ok h2
          obtain ⟨rfl, he⟩ := reads_decodeZescapedFollowup_inv h3
          obtain ⟨rfl, ha⟩ := reads_ret_inv h4
          cases ha
          refine ⟨[b], rfl, fun w payload hw => ?_⟩
          rw [not_not.mp hz]
          exact .escaped he hw

theorem reads_payloadTurn_done {e : ZDataEnd}
    (h : Reads (readPayloadTurn maxPayload acc : ModemProc H _) bs (.ok (.done (payload, e)))) :
    bs = [zdle, e.marker] ∧ payload = acc := by
  obtain ⟨c, bs, rfl, h1⟩ := reads_read_inv h
  split at h1
  · exact nomatch (reads_ret_inv h1).2
  · split at h1
    · split at h1
      · exact absurd h1 reads_fail_inv
      · exact nomatch (reads_ret_inv h1).2
    · rename_i hz
      obtain ⟨m, bs, rfl, h2⟩ := reads_read_inv h1
      split at h2
      · rename_i e' he
        obtain ⟨rfl, hp⟩ := reads_ret_inv h2
        cases hp
        exact ⟨by rw [not_not.mp hz, ZDataEnd.marker_of_fromMarker he], rfl⟩
      · split at h2
        · exact absurd h2 reads_fail_inv
        · obtain ⟨b, bs₁, bs₂, rfl, -, h4⟩ := reads_bind_ok h2
          exact nomatch (reads_ret_inv h4).2

theorem reads_payload_inv {e : ZDataEnd}
    (h : Reads (loop (readPayloadTurn maxPayload) acc : ModemProc H _) bs (.ok (payload, e))) :
    ∃ pw bytes, bs = pw ++ [zdle, e.marker] ∧ PayloadWire pw bytes ∧ payload = acc ++ bytes := by
  refine reads_loop_ok (motive := fun acc bs => ∃ pw bytes, bs = pw ++ [zdle, e.marker] ∧
    PayloadWire pw bytes ∧ payload = acc ++ bytes) ?_ ?_ h
  · rintro acc acc' bs _ hb ⟨pw, bytes, rfl, hpw, rfl⟩
    obtain ⟨more, rfl, hmore⟩ := reads_payloadTurn_again hb
    exact ⟨bs ++ pw, more ++ bytes, (List.append_assoc _ _ _).symm, hmore pw bytes hpw,
      List.append_assoc _ _ _⟩
  · intro acc bs hb
    obtain ⟨rfl, rfl⟩ := reads_payloadTurn_done hb
    exact ⟨[], [], rfl, .nil, (List.append_nil _).symm⟩

theorem reads_checkDataCrc {e : ZDataEnd} (hw : EscapedBytes w (dataCrc useCrc32 payload e)) :
    Reads (checkDataCrc useCrc32 payload e : ModemProc H ZDataFrame) w (.ok ⟨payload, e⟩) := by
  cases useCrc32 with
  | true =>
    obtain _ | ⟨h0, hw⟩ := hw
    obtain _ | ⟨h1, hw⟩ := hw
    obtain _ | ⟨h2, hw⟩ := hw
    obtain _ | ⟨h3, hw⟩ := hw
    obtain _ | _ := hw
    refine Reads.escaped h0 (Reads.escaped h1 (Reads.escaped h2 (Reads.escaped h3
      (reads_of_eq (if_neg ?_) (.ret _)))))
    rw [not_not, u32FromLeBytes_toLeBytes, crc32Ieee, List.foldl_append]
    rfl
  | false =>
    obtain _ | ⟨h0, hw⟩ := hw
    obtain _ | ⟨h1, hw⟩ := hw
    obtain _ | _ := hw
    refine Reads.escaped h0 (Reads.escaped h1 (reads_of_eq (if_neg ?_) (.ret _)))
    rw [not_not, crc16_residue, crc16Xmodem, List.foldl_append]
    exact ⟨rfl, rfl⟩

theorem reads_checkDataCrc_inv {e : ZDataEnd}
    (h : Reads (checkDataCrc useCrc32 payload e : ModemProc H ZDataFrame) w (.ok frame)) :
    frame = ⟨payload, e⟩ ∧ EscapedBytes w (dataCrc useCrc32 payload e) := by
  cases useCrc32 with
  | true =>
    obtain ⟨c0, w0, w, rfl, h0, h1⟩ := reads_escaped_inv h
    obtain ⟨c1, w1, w, rfl, h1', h2⟩ := reads_escaped_inv h1
    obtain ⟨c2, w2, w, rfl, h2', h3⟩ := reads_escaped_inv h2
    obtain ⟨c3, w3, w, rfl, h3', h4⟩ := reads_escaped_inv h3
    dsimp only at h4
    split at h4
    · exact absurd h4 reads_fail_inv
    · rename_i hcrc
      obtain ⟨rfl, rfl⟩ := reads_ret_inv h4
      have hc : dataCrc true payload e = [c0, c1, c2, c3] := by
        rw [← u32ToLeBytes_fromLeBytes c0 c1 c2 c3, ← not_not.mp hcrc]
        simp [dataCrc, crc32Ieee]
      rw [hc]
      exact ⟨rfl, .cons h0 (.cons h1' (.cons h2' (.cons h3' .nil)))⟩
  | false =>
    obtain ⟨high, w0, w, rfl, h0, h1⟩ := reads_escaped_inv h
    obtain ⟨low, w1, w, rfl, h1', h2⟩ := reads_escaped_inv h1
    dsimp only at h2
    split at h2
    · exact absurd h2 reads_fail_inv
    · rename_i hcrc
      obtain ⟨rfl, rfl⟩ := reads_ret_inv h2
      obtain ⟨rfl, rfl⟩ := (crc16_residue _ high low).mp (not_not.mp hcrc)
      have hc : dataCrc false payload e = [crcHigh (crc16XmodemUpdate (payload.foldl
          crc16XmodemUpdate 0) e.marker), crcLow (crc16XmodemUpdate (payload.foldl
          crc16XmodemUpdate 0) e.marker)] := by
        simp [dataCrc, crc16Xmodem]
      rw [hc]
      exact ⟨rfl, .cons h0 (.cons h1' .nil)⟩

theorem reads_data
    (hw : SubpacketWire useCrc32 frame w) (hlen : frame.payload.length ≤ maxPayload) :
    Reads (readZmodemData useCrc32 maxPayload : ModemProc H ZDataFrame) w (.ok frame) := by
  obtain ⟨pw, cw, rfl, hpw, hcw⟩ := hw
  exact Reads.bind (reads_payload frame.end hpw [] (by simpa using hlen)) (reads_checkDataCrc hcw)

theorem reads_data_inv
    (h : Reads (readZmodemData useCrc32 maxPayload : ModemProc H ZDataFrame) w (.ok frame)) :
    SubpacketWire useCrc32 frame w := by
  obtain ⟨⟨payload, e⟩, w₁, w₂, rfl, h1, h2⟩ := reads_bind_ok h
  obtain ⟨pw, bytes, rfl, hpw, rfl⟩ := reads_payload_inv h1
  obtain ⟨rfl, hcw⟩ := reads_checkDataCrc_inv h2
  exact ⟨pw, w₂, rfl, hpw, hcw⟩

/-! ## 5. The parsers only read, and every turn of theirs reads -/

theorem readOnly_expectCancel (n : Nat) : ReadOnly (expectCancel n : ModemProc H α) := by
  induction n with
  | zero => exact .fail _
  | succ n ih =>
    refine readOnly_read fun b => ?_
    split
    · exact .fail _
    · exact ih

theorem readOnly_followup (e : UInt8) :
    ReadOnly (decodeZescapedFollowup e : ModemProc H UInt8) := by
  unfold decodeZescapedFollowup
  split
  · exact .ret _
  · split
    · exact readOnly_expectCancel 3
    · exact .fail _

theorem readOnly_zescapedByte : ReadOnly (readZescapedByte : ModemProc H UInt8) := by
  refine readOnly_loop readZescapedTurn (fun _ => ⟨_, rfl⟩) (fun _ => readOnly_read fun b => ?_) ()
  split
  · exact .ret _
  · split
    · exact readOnly_read fun e => (readOnly_followup e).bind fun _ => .ret _
    · exact .ret _

theorem readOnly_hexSlot : ReadOnly (readHexSlot : ModemProc H UInt8) := by
  have hn : ReadOnly (readHexNibble : ModemProc H UInt8) := by
    refine readOnly_read fun b => ?_
    split
    · exact .ret _
    · exact .fail _
  exact hn.bind fun _ => hn.bind fun _ => .ret _

theorem readOnly_lineEnd : ReadOnly (consumeHexHeaderLineEnd : ModemProc H Unit) := by
  refine readOnly_read fun b => ?_
  split
  · exact .fail _
  · refine readOnly_read fun b => ?_
    split
    · exact .fail _
    · exact .ret _

theorem readOnly_frameHeader (t : UInt8) (p : Position) (enc : ZHeaderEncoding) :
    ReadOnly (frameHeader t p enc : ModemProc H ZHeader) := by
  unfold frameHeader
  split
  · exact .ret _
  · exact .fail _

theorem readOnly_encodedHeader (e : UInt8) :
    ReadOnly (readEncodedHeader e : ModemProc H ZHeader) := by
  have hhex : ReadOnly (readHexZheader : ModemProc H ZHeader) := by
    refine (readOnly_hexSlot).bind fun t => (readOnly_hexSlot).bind fun p0 => (readOnly_hexSlot).bind
      fun p1 => (readOnly_hexSlot).bind fun p2 => (readOnly_hexSlot).bind fun p3 =>
      (readOnly_hexSlot).bind fun high => (readOnly_hexSlot).bind fun low => ?_
    split
    · exact .fail _
    · exact (readOnly_lineEnd).bind fun _ => readOnly_frameHeader t _ _
  have hbin : ∀ enc, ReadOnly (readBinaryZheader enc : ModemProc H ZHeader) := by
    intro enc
    refine (readOnly_zescapedByte).bind fun t => (readOnly_zescapedByte).bind fun p0 =>
      (readOnly_zescapedByte).bind fun p1 => (readOnly_zescapedByte).bind fun p2 =>
      (readOnly_zescapedByte).bind fun p3 => ?_
    cases enc with
    | bin16 =>
      refine (readOnly_zescapedByte).bind fun high => (readOnly_zescapedByte).bind fun low => ?_
      split
      · exact .fail _
      · exact readOnly_frameHeader t _ _
    | bin32 =>
      refine (readOnly_zescapedByte).bind fun c0 => (readOnly_zescapedByte).bind fun c1 =>
        (readOnly_zescapedByte).bind fun c2 => (readOnly_zescapedByte).bind fun c3 => ?_
      split
      · exact .fail _
      · exact readOnly_frameHeader t _ _
    | hex => exact (readOnly_zescapedByte).bind fun _ => (readOnly_zescapedByte).bind fun _ => .fail _
  unfold readEncodedHeader
  split
  · exact hhex
  · split
    · exact hbin _
    · split
      · exact hbin _
      · exact .fail _

theorem readOnly_header : ReadOnly (readZmodemHeader : ModemProc H ZHeader) := by
  refine readOnly_loop readZmodemHeaderTurn (fun _ => ⟨_, rfl⟩) (fun _ => readOnly_read fun b => ?_) ()
  split
  · exact .ret _
  · refine readOnly_read fun b => ?_
    split
    · refine readOnly_read fun b => ?_
      split
      · exact .ret _
      · exact readOnly_read fun e => (readOnly_encodedHeader e).bind fun _ => .ret _
    · split
      · exact readOnly_read fun e => (readOnly_encodedHeader e).bind fun _ => .ret _
      · exact .ret _

theorem readOnly_data (useCrc32 : Bool) (maxPayload : Nat) :
    ReadOnly (readZmodemData useCrc32 maxPayload : ModemProc H ZDataFrame) := by
  refine ReadOnly.bind (readOnly_loop (readPayloadTurn maxPayload) (fun _ => ⟨_, rfl⟩)
    (fun acc => readOnly_read fun b => ?_) []) fun pe => ?_
  · split
    · exact .ret _
    · split
      · split
        · exact .fail _
        · exact .ret _
      · refine readOnly_read fun e => ?_
        split
        · exact .ret _
        · split
          · exact .fail _
          · exact (readOnly_followup e).bind fun _ => .ret _
  · obtain ⟨payload, e⟩ := pe
    cases useCrc32 with
    | true =>
      refine (readOnly_zescapedByte).bind fun c0 => (readOnly_zescapedByte).bind fun c1 =>
        (readOnly_zescapedByte).bind fun c2 => (readOnly_zescapedByte).bind fun c3 => ?_
      dsimp only
      split
      · exact .fail _
      · exact .ret _
    | false =>
      refine (readOnly_zescapedByte).bind fun c0 => (readOnly_zescapedByte).bind fun c1 => ?_
      dsimp only
      split
      · exact .fail _
      · exact .ret _

/-! ## 6. The parser on a slice -/

/-- The header parser on a slice always ends within the fuel it is given. -/
theorem parseZmodemHeaderPrefix_total (bytes : List UInt8) :
    (exec (memoryModemIo (H := Unit)) (bytes.length + 1) readZmodemHeader ⟨bytes, []⟩).isSome :=
  readOnly_header.grazes.1.exec_isSome bytes []

/-- What `parseZmodemHeaderPrefix` makes of the parser's result. -/
def prefixResult : Except ModemTransferError ZHeader → Except ModemError (Option ZHeader)
  | .ok header => .ok (some header)
  | .error .timeout => .ok none
  | .error (.protocol error) => .error error
  | .error _ => .error .invalidMarker

theorem parseZmodemHeaderPrefix_eq {bytes : List UInt8} {n : Nat} {t : Tape UInt8}
    (h : exec (memoryModemIo (H := Unit)) n readZmodemHeader ⟨bytes, []⟩ = some (r, t)) :
    parseZmodemHeaderPrefix bytes = prefixResult r := by
  obtain ⟨r', hr'⟩ := Option.isSome_iff_exists.mp (parseZmodemHeaderPrefix_total bytes)
  obtain rfl := exec_det hr' h
  unfold parseZmodemHeaderPrefix prefixResult
  rw [hr']
  rcases r with (_ | _ | _) | _ <;> rfl

theorem parseZmodemHeaderPrefix_reads {rest : List UInt8}
    (h : Reads (readZmodemHeader : ModemProc Unit ZHeader) bs r) :
    parseZmodemHeaderPrefix (bs ++ rest) = prefixResult r := by
  obtain ⟨n, hn⟩ := h.exec rest []
  exact parseZmodemHeaderPrefix_eq hn

theorem parseZmodemHeaderPrefix_starved {pre post : List UInt8}
    (h : Reads (readZmodemHeader : ModemProc Unit ZHeader) (pre ++ b :: post) r) :
    parseZmodemHeaderPrefix pre = .ok none := by
  obtain ⟨n, hn⟩ := h.starved readOnly_header rfl []
  exact parseZmodemHeaderPrefix_eq hn

/-! ## 7. The encoders, the streaming parser and the slice parsers -/

/-- `read_zmodem_header` run on a channel that holds `bytes` ends with `r` and leaves `rest`. -/
def HeaderRead (bytes : List UInt8) (r : Except ModemTransferError ZHeader) (rest : List UInt8) :
    Prop :=
  ∃ n, exec (memoryModemIo (H := Unit)) n readZmodemHeader ⟨bytes, []⟩ = some (r, ⟨rest, []⟩)

theorem HeaderRead.of_reads (h : Reads (readZmodemHeader : ModemProc Unit ZHeader) bs r)
    (rest : List UInt8) : HeaderRead (bs ++ rest) r rest :=
  h.exec rest []

theorem HeaderRead.det {bytes rest rest' : List UInt8} {r' : Except ModemTransferError ZHeader}
    (h : HeaderRead bytes r rest) (h' : HeaderRead bytes r' rest') : r = r' := by
  obtain ⟨n, hn⟩ := h
  obtain ⟨m, hm⟩ := h'
  exact congrArg Prod.fst (exec_det hn hm)

/-- **Agreement of the header codec**: on the bytes of each encoder, followed by anything, the
    streaming parser returns the header and leaves what follows, and so does the slice parser of
    that encoding. -/
structure HeaderCodecAgrees (t : ZFrameType) (p : Position) (esc : Bool) : Prop where
  hex : ∀ includeXon rest, HeaderRead (encodeHexHeader t p includeXon ++ rest) (.ok ⟨t, p, .hex⟩)
    ((if includeXon then [xon] else []) ++ rest)
  hexSlice : ∀ includeXon, parseHexHeader (encodeHexHeader t p includeXon) = .ok ⟨t, p, .hex⟩
  bin16 : ∀ rest, HeaderRead (encodeBin16HeaderWithEscape t p esc ++ rest) (.ok ⟨t, p, .bin16⟩) rest
  bin16Slice : parseBinaryHeader (encodeBin16HeaderWithEscape t p esc) = .ok ⟨t, p, .bin16⟩
  bin32 : ∀ rest, HeaderRead (encodeBin32HeaderWithEscape t p esc ++ rest) (.ok ⟨t, p, .bin32⟩) rest
  bin32Slice : parseBinaryHeader (encodeBin32HeaderWithEscape t p esc) = .ok ⟨t, p, .bin32⟩

theorem headerRead_hex (t : ZFrameType) (p : Position) (includeXon : Bool) (rest : List UInt8) :
    HeaderRead (encodeHexHeader t p includeXon ++ rest) (.ok ⟨t, p, .hex⟩)
      ((if includeXon then [xon] else []) ++ rest) := by
  rw [encodeHexHeader_xon, List.append_assoc]
  exact .of_reads (reads_header [] nofun (headerWire_hex t p)) _

theorem headerRead_bin32 (t : ZFrameType) (p : Position) (esc : Bool) (rest : List UInt8) :
    HeaderRead (encodeBin32HeaderWithEscape t p esc ++ rest) (.ok ⟨t, p, .bin32⟩) rest :=
  .of_reads (reads_header [] nofun (headerWire_bin32 t p esc)) rest

/-- The CRC bytes that the encoder sends behind a 16-bit binary header: those of the augmented CRC. -/
def augmentedCrc (t : ZFrameType) (p : Position) : List UInt8 :=
  let crc := crc16XmodemUpdate (crc16XmodemUpdate (crc16Xmodem (headerPayload t p)) 0) 0
  [crcHigh crc, crcLow crc]

theorem encodeBin16_eq (t : ZFrameType) (p : Position) (esc : Bool) :
    encodeBin16HeaderWithEscape t p esc =
      zpad :: zdle :: zbin :: escaped esc (headerPayload t p ++ augmentedCrc t p) := by
  simp [encodeBin16HeaderWithEscape, augmentedCrc, crc16Xmodem]

/-- What the streaming parser makes of an encoded 16-bit binary header, behind its introducer. -/
theorem reads_bin16_encoded (t : ZFrameType) (p : Position) (esc : Bool) :
    Reads (readEncodedHeader zbin : ModemProc H ZHeader)
      (escaped esc (headerPayload t p ++ augmentedCrc t p))
      (if crc16Xmodem (headerPayload t p) = 0 ∨ crc16Xmodem (headerPayload t p) = 0xf01f#16 then
        .ok ⟨t, p, .bin16⟩ else .error (.protocol .invalidCrc)) := by
  obtain ⟨crc, hcrc⟩ : ∃ crc, crc = crc16Xmodem (headerPayload t p) := ⟨_, rfl⟩
  obtain ⟨aug, haug⟩ : ∃ aug, aug = crc16XmodemUpdate (crc16XmodemUpdate crc 0) 0 := ⟨_, rfl⟩
  have hbytes : augmentedCrc t p = [crcHigh aug, crcLow aug] := by
    rw [haug, hcrc]
    rfl
  have hr := reads_bin16 (H := H) (escapedBytes_escaped esc
    (headerPayload t p ++ [crcHigh aug, crcLow aug]))
  -- the direct residue vanishes exactly when the augmented CRC is the direct one
  have hres : (headerPayload t p ++ [crcHigh aug, crcLow aug]).foldl crc16XmodemUpdate 0 ≠ 0 ↔
      ¬ (crc = 0 ∨ crc = 0xf01f#16) := by
    rw [List.foldl_append, not_iff_not, ← crc16_two_zeros, ← haug]
    refine (crc16_residue _ _ _).trans ?_
    rw [← u16FromBeBytes_eq_iff, u16FromBeBytes_crc]
    rw [hcrc]
    rfl
  rw [← hcrc, hbytes]
  refine reads_of_eq ((if_neg (by decide)).trans (if_pos rfl)) ?_
  by_cases hc : crc = 0 ∨ crc = 0xf01f#16
  · rw [if_neg (hres.not.mpr (not_not.mpr hc))] at hr
    rwa [if_pos hc]
  · rw [if_pos (hres.mpr hc)] at hr
    rwa [if_neg hc]

theorem headerRead_bin16 (t : ZFrameType) (p : Position) (esc : Bool) (rest : List UInt8) :
    HeaderRead (encodeBin16HeaderWithEscape t p esc ++ rest)
      (if crc16Xmodem (headerPayload t p) = 0 ∨ crc16Xmodem (headerPayload t p) = 0xf01f#16 then
        .ok ⟨t, p, .bin16⟩ else .error (.protocol .invalidCrc)) rest := by
  rw [encodeBin16_eq]
  exact .of_reads (Reads.last (reads_headerTurn (reads_bin16_encoded t p esc) false)) rest

/-- **When the header codec agrees**: exactly when the CRC-16 of the header's five bytes is one of
    the two registers that feeding two zero bytes leaves as they are. -/
theorem headerCodec_iff (t : ZFrameType) (p : Position) (esc : Bool) :
    HeaderCodecAgrees t p esc ↔
      crc16Xmodem (headerPayload t p) = 0 ∨ crc16Xmodem (headerPayload t p) = 0xf01f#16 := by
  constructor
  · intro h
    have h16 := headerRead_bin16 t p esc []
    by_contra hc
    rw [if_neg hc] at h16
    exact nomatch (h.bin16 []).det h16
  · intro hc
    refine ⟨headerRead_hex t p, parseHexHeader_encode t p, fun rest => ?_,
      parseBinaryHeader_encode16 t p esc, headerRead_bin32 t p esc,
      parseBinaryHeader_encode32 t p esc⟩
    have h16 := headerRead_bin16 t p esc rest
    rwa [if_pos hc] at h16

/-- The 16-bit header of `ZDATA` at position 4096 is refused by the streaming parser. -/
theorem headerCodec_zdata_4096 : ¬ HeaderCodecAgrees .zData (positionHeader 4096) false := by
  intro h
  have hread : HeaderRead (encodeBin16HeaderWithEscape .zData (positionHeader 4096) false ++ [])
      (.error (.protocol .invalidCrc)) [] := ⟨20, by decide +kernel⟩
  exact nomatch (h.bin16 []).det hread

end Hapcli.Modem
