/-
  Subject:   THE ZMODEM WIRE FORMAT as a grammar: which bytes are a header, which are a CRC-valid
             data subpacket. No program occurs here; the streaming parsers are compared with it in
             `ZmodemParse`.
-/
import Hapcli.Modem.ZmodemTransfer

namespace Hapcli.Modem

open Hapcli.Rust

/-! ## 1. Escapes and digits -/

/-- `w` is one byte on the wire: flow control, then the byte itself or its escape. -/
structure EscapedByte (w : List UInt8) (b : UInt8) : Prop where
  split : ∃ flow tail, w = flow ++ tail ∧ (∀ c ∈ flow, isFlowControl c = true) ∧
    ((tail = [b] ∧ isFlowControl b = false ∧ b ≠ zdle) ∨ ∃ e, tail = [zdle, e] ∧ unescape e = some b)

/-- A run of bytes on the wire. -/
inductive EscapedBytes : List UInt8 → List UInt8 → Prop where
  | nil : EscapedBytes [] []
  | cons {w w' : List UInt8} {b : UInt8} {bs : List UInt8} (h : EscapedByte w b)
      (hs : EscapedBytes w' bs) : EscapedBytes (w ++ w') (b :: bs)

/-- A run of bytes in hexadecimal, digits of either case. -/
inductive HexBytes : List UInt8 → List UInt8 → Prop where
  | nil : HexBytes [] []
  | cons {high low n m b : UInt8} {ds bs : List UInt8} (hn : hexDigit high = some n)
      (hm : hexDigit low = some m) (hb : (n <<< 4) ||| m = b) (hs : HexBytes ds bs) :
      HexBytes (high :: low :: ds) (b :: bs)

/-- A payload on the wire: flow control may also stand behind its last byte. -/
inductive PayloadWire : List UInt8 → List UInt8 → Prop where
  | nil : PayloadWire [] []
  | flow {c : UInt8} {w payload : List UInt8} (hc : isFlowControl c = true)
      (h : PayloadWire w payload) : PayloadWire (c :: w) payload
  | plain {b : UInt8} {w payload : List UInt8} (hf : isFlowControl b = false) (hb : b ≠ zdle)
      (h : PayloadWire w payload) : PayloadWire (b :: w) (b :: payload)
  | escaped {e b : UInt8} {w payload : List UInt8} (he : unescape e = some b)
      (h : PayloadWire w payload) : PayloadWire (zdle :: e :: w) (b :: payload)

/-! ## 2. Headers and subpackets -/

/-- The CRC bytes of a header in a binary or hexadecimal encoding. -/
def headerCrc (encoding : ZHeaderEncoding) (payload : List UInt8) : List UInt8 :=
  match encoding with
  | .bin32 => u32ToLeBytes (crc32Ieee payload)
  | _ => [crcHigh (crc16Xmodem payload), crcLow (crc16Xmodem payload)]

/-- The encoding byte of a header, and what follows it. -/
inductive HeaderBody (t : ZFrameType) (p : Position) : ZHeaderEncoding → List UInt8 → Prop where
  | hex {digits : List UInt8} {lf : UInt8} (hlf : lf &&& 0x7f = 0x0a)
      (h : HexBytes digits (headerPayload t p ++ headerCrc .hex (headerPayload t p))) :
      HeaderBody t p .hex (zhex :: digits ++ [0x0d, lf])
  | bin16 {w : List UInt8}
      (h : EscapedBytes w (headerPayload t p ++ headerCrc .bin16 (headerPayload t p))) :
      HeaderBody t p .bin16 (zbin :: w)
  | bin32 {w : List UInt8}
      (h : EscapedBytes w (headerPayload t p ++ headerCrc .bin32 (headerPayload t p))) :
      HeaderBody t p .bin32 (zbin32 :: w)

/-- **`w` is the header `h` on the wire**: one or two pads, ZDLE, the encoded header with its
    CRC. -/
inductive HeaderWire (h : ZHeader) : List UInt8 → Prop where
  | onePad {w : List UInt8} (hb : HeaderBody h.frameType h.position h.encoding w) :
      HeaderWire h (zpad :: zdle :: w)
  | twoPads {w : List UInt8} (hb : HeaderBody h.frameType h.position h.encoding w) :
      HeaderWire h (zpad :: zpad :: zdle :: w)

/-- The CRC bytes of a data subpacket: the CRC of the payload and the end marker. -/
def dataCrc (useCrc32 : Bool) (payload : List UInt8) (e : ZDataEnd) : List UInt8 :=
  if useCrc32 then u32ToLeBytes (crc32Ieee (payload ++ [e.marker]))
  else [crcHigh (crc16Xmodem (payload ++ [e.marker])), crcLow (crc16Xmodem (payload ++ [e.marker]))]

/-- **`w` is a CRC-valid data subpacket**: the payload, its end marker, its CRC. -/
structure SubpacketWire (useCrc32 : Bool) (frame : ZDataFrame) (w : List UInt8) : Prop where
  split : ∃ pw cw, w = pw ++ [zdle, frame.end.marker] ++ cw ∧ PayloadWire pw frame.payload ∧
    EscapedBytes cw (dataCrc useCrc32 frame.payload frame.end)

/-! ## 3. What the encoders write -/

theorem not_flowControl_of_plain : ∀ b : UInt8, shouldEscapeZdle b = false →
    isFlowControl b = false ∧ b ≠ zdle := by
  refine forall_byte ?_
  decide +kernel

theorem escapedByte_push (esc : Bool) (b : UInt8) :
    EscapedByte (pushZdleEscapedWithControl esc b) b := by
  refine ⟨[], _, rfl, nofun, ?_⟩
  rcases pushZdleEscaped_cases esc b with ⟨e, hp, he⟩ | ⟨hp, hb⟩
  · exact .inr ⟨e, hp, he⟩
  · exact .inl ⟨hp, not_flowControl_of_plain b hb⟩

theorem escapedBytes_escaped (esc : Bool) (bs : List UInt8) : EscapedBytes (escaped esc bs) bs := by
  induction bs with
  | nil => exact .nil
  | cons b bs ih => exact .cons (escapedByte_push esc b) ih

theorem hexBytes_push (bs : List UInt8) : HexBytes (bs.flatMap pushHexByte) bs := by
  induction bs with
  | nil => exact .nil
  | cons b bs ih =>
    obtain ⟨high, low, n, m, hp, hn, hm, hb⟩ := pushHexByte_digits b
    rw [List.flatMap_cons, hp]
    exact .cons hn hm hb ih

theorem payloadWire_escaped (esc : Bool) (bs : List UInt8) : PayloadWire (escaped esc bs) bs := by
  induction bs with
  | nil => exact .nil
  | cons b bs ih =>
    rw [escaped_cons]
    rcases pushZdleEscaped_cases esc b with ⟨e, hp, he⟩ | ⟨hp, hb⟩
    · rw [hp]
      exact .escaped he ih
    · obtain ⟨hf, hz⟩ := not_flowControl_of_plain b hb
      rw [hp]
      exact .plain hf hz ih

theorem headerWire_hex (t : ZFrameType) (p : Position) :
    HeaderWire ⟨t, p, .hex⟩ (encodeHexHeader t p false) := by
  have hb := @HeaderBody.hex t p _ (0x0a ||| 0x80) (by decide)
    (hexBytes_push (headerPayload t p ++ headerCrc .hex (headerPayload t p)))
  have hw := HeaderWire.twoPads (h := ⟨t, p, .hex⟩) hb
  simpa [encodeHexHeader, headerCrc] using hw

theorem encodeHexHeader_xon (t : ZFrameType) (p : Position) (includeXon : Bool) :
    encodeHexHeader t p includeXon =
      encodeHexHeader t p false ++ if includeXon then [xon] else [] := by
  simp [encodeHexHeader]

theorem headerWire_bin32 (t : ZFrameType) (p : Position) (esc : Bool) :
    HeaderWire ⟨t, p, .bin32⟩ (encodeBin32HeaderWithEscape t p esc) := by
  have hb := HeaderBody.bin32 (t := t) (p := p)
    (escapedBytes_escaped esc (headerPayload t p ++ headerCrc .bin32 (headerPayload t p)))
  have hw := HeaderWire.onePad (h := ⟨t, p, .bin32⟩) hb
  simpa [encodeBin32HeaderWithEscape, headerCrc, crc32Ieee] using hw

theorem encodeZdata_split (payload : List UInt8) (e : ZDataEnd) (useCrc32 esc : Bool) :
    encodeZdata payload e useCrc32 esc =
      escaped esc payload ++ [zdle, e.marker] ++ escaped esc (dataCrc useCrc32 payload e) ++
        if e = .endWithAck then [xon] else [] := by
  unfold encodeZdata dataCrc
  cases useCrc32 <;> simp [crc32Ieee, crc16Xmodem]

theorem subpacketWire_encode (payload : List UInt8) (e : ZDataEnd) (useCrc32 esc : Bool) :
    SubpacketWire useCrc32 ⟨payload, e⟩
      (escaped esc payload ++ [zdle, e.marker] ++ escaped esc (dataCrc useCrc32 payload e)) :=
  ⟨_, _, rfl, payloadWire_escaped esc payload, escapedBytes_escaped esc _⟩

end Hapcli.Modem
