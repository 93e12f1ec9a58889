/-
  Subject:   The ZMODEM frame codec (`zmodem.rs`): header encoders and the parsers that read a
             header out of a slice.
-/
import Hapcli.Modem.Crc
import Hapcli.Modem.Io

namespace Hapcli.Modem

open Hapcli.Rust

/-! ## 1. Bytes -/

def zpad : UInt8 := 0x2a
def zdle : UInt8 := 0x18
def zbin : UInt8 := 0x41
def zhex : UInt8 := 0x42
def zbin32 : UInt8 := 0x43
def xon : UInt8 := 0x11
def zcrce : UInt8 := 0x68
def zcrcg : UInt8 := 0x69
def zcrcq : UInt8 := 0x6a
def zcrcw : UInt8 := 0x6b
def zrub0 : UInt8 := 0x6c
def zrub1 : UInt8 := 0x6d

/-! ## 2. Frame types, positions, headers -/

inductive ZFrameType where
  | zrqInit
  | zrInit
  | zsInit
  | zAck
  | zFile
  | zSkip
  | zNak
  | zAbort
  | zFin
  | zRpos
  | zData
  | zEof
  | zFerr
  | zCrc
  | zChallenge
  | zCompl
  | zCan
  | zFreeCnt
  | zCommand
  | zStderr
  deriving DecidableEq

namespace ZFrameType

/-- `frame_type as u8`. -/
def toByte : ZFrameType → UInt8
  | zrqInit => 0
  | zrInit => 1
  | zsInit => 2
  | zAck => 3
  | zFile => 4
  | zSkip => 5
  | zNak => 6
  | zAbort => 7
  | zFin => 8
  | zRpos => 9
  | zData => 10
  | zEof => 11
  | zFerr => 12
  | zCrc => 13
  | zChallenge => 14
  | zCompl => 15
  | zCan => 16
  | zFreeCnt => 17
  | zCommand => 18
  | zStderr => 19

def fromByte (byte : UInt8) : Option ZFrameType :=
  match byte.toNat with
  | 0 => some zrqInit
  | 1 => some zrInit
  | 2 => some zsInit
  | 3 => some zAck
  | 4 => some zFile
  | 5 => some zSkip
  | 6 => some zNak
  | 7 => some zAbort
  | 8 => some zFin
  | 9 => some zRpos
  | 10 => some zData
  | 11 => some zEof
  | 12 => some zFerr
  | 13 => some zCrc
  | 14 => some zChallenge
  | 15 => some zCompl
  | 16 => some zCan
  | 17 => some zFreeCnt
  | 18 => some zCommand
  | 19 => some zStderr
  | _ => none

@[simp] theorem fromByte_toByte (t : ZFrameType) : fromByte t.toByte = some t := by
  cases t <;> rfl

end ZFrameType

inductive ZHeaderEncoding where
  | bin16
  | bin32
  | hex
  deriving DecidableEq

/-- The four position (or flag) bytes of a header, `[u8; 4]`. -/
structure Position where
  b0 : UInt8
  b1 : UInt8
  b2 : UInt8
  b3 : UInt8
  deriving DecidableEq

/-- The bytes on the wire. -/
def Position.bytes (p : Position) : List UInt8 := [p.b0, p.b1, p.b2, p.b3]

/-- `u32::from_le_bytes`. -/
def Position.toU32 (p : Position) : BitVec 32 := u32FromLeBytes p.b0 p.b1 p.b2 p.b3

/-- `position_header`: `to_le_bytes`. -/
def positionHeader (position : BitVec 32) : Position :=
  ⟨⟨position.setWidth 8⟩, ⟨(position >>> 8).setWidth 8⟩, ⟨(position >>> 16).setWidth 8⟩,
    ⟨(position >>> 24).setWidth 8⟩⟩

@[simp] theorem positionHeader_toU32 (n : BitVec 32) : (positionHeader n).toU32 = n :=
  u32FromLeBytes_toLeBytes n

structure ZHeader where
  frameType : ZFrameType
  position : Position
  encoding : ZHeaderEncoding
  deriving DecidableEq

/-- `position_u32() as u64`. -/
def ZHeader.positionU32 (h : ZHeader) : Nat := h.position.toU32.toNat

inductive ZDataEnd where
  | end
  | continue
  | continueWithAck
  | endWithAck
  deriving DecidableEq

namespace ZDataEnd

def marker : ZDataEnd → UInt8
  | .end => zcrce
  | .continue => zcrcg
  | .continueWithAck => zcrcq
  | .endWithAck => zcrcw

def fromMarker (byte : UInt8) : Option ZDataEnd :=
  if byte = zcrce then some .end
  else if byte = zcrcg then some .continue
  else if byte = zcrcq then some .continueWithAck
  else if byte = zcrcw then some .endWithAck
  else none

@[simp] theorem fromMarker_marker (e : ZDataEnd) : fromMarker e.marker = some e := by
  cases e <;> rfl

theorem marker_of_fromMarker {b : UInt8} {e : ZDataEnd} (h : fromMarker b = some e) :
    b = e.marker := by
  unfold fromMarker at h
  repeat' split at h
  all_goals cases h
  all_goals assumption

end ZDataEnd

/-! ## 3. Hexadecimal digits and ZDLE escapes -/

/-- The table `HEX`. -/
def hexTable : List UInt8 :=
  [0x30, 0x31, 0x32, 0x33, 0x34, 0x35, 0x36, 0x37, 0x38, 0x39, 0x61, 0x62, 0x63, 0x64, 0x65, 0x66]

/-- `push_hex_byte`: the two bytes pushed. -/
def pushHexByte (byte : UInt8) : List UInt8 :=
  [hexTable.getD (byte >>> 4).toNat 0, hexTable.getD (byte &&& 0x0f).toNat 0]

/-- The value of a hexadecimal digit, either case. -/
def hexDigit (byte : UInt8) : Option UInt8 :=
  if 0x30 ≤ byte ∧ byte ≤ 0x39 then some (byte - 0x30)
  else if 0x61 ≤ byte ∧ byte ≤ 0x66 then some (byte - 0x61 + 10)
  else if 0x41 ≤ byte ∧ byte ≤ 0x46 then some (byte - 0x41 + 10)
  else none

def hexValue (byte : UInt8) : Except ModemError UInt8 :=
  match hexDigit byte with
  | some n => .ok n
  | none => .error .invalidFrameEncoding

def readHexByte : List UInt8 → Except ModemError UInt8
  | [high, low] => do
      let high ← hexValue high
      let low ← hexValue low
      return (high <<< 4) ||| low
  | _ => .error .incomplete

def shouldEscapeZdle (byte : UInt8) : Bool :=
  byte == zdle || byte == 0x10 || byte == 0x11 || byte == 0x13 || byte == 0x90 || byte == 0x91 ||
    byte == 0x93

/-- `push_zdle_escaped_with_control`: the bytes pushed. -/
def pushZdleEscapedWithControl (escapeControl : Bool) (byte : UInt8) : List UInt8 :=
  if shouldEscapeZdle byte || (escapeControl && byte &&& 0x60 == 0) then [zdle, byte ^^^ 0x40]
  else [byte]

/-- A run of bytes, each pushed through the escape. -/
def escaped (escapeControl : Bool) (bytes : List UInt8) : List UInt8 :=
  bytes.flatMap (pushZdleEscapedWithControl escapeControl)

variable (esc : Bool)

@[simp] theorem escaped_nil : escaped esc [] = [] := rfl

@[simp] theorem escaped_cons (b : UInt8) (bs : List UInt8) :
    escaped esc (b :: bs) = pushZdleEscapedWithControl esc b ++ escaped esc bs := rfl

@[simp] theorem escaped_append (bs cs : List UInt8) :
    escaped esc (bs ++ cs) = escaped esc bs ++ escaped esc cs := by
  simp [escaped]

/-- The byte an escape `ZDLE e` stands for. -/
def unescape (e : UInt8) : Option UInt8 :=
  if e = zrub0 then some 0x7f
  else if e = zrub1 then some 0xff
  else if e &&& 0x60 = 0x40 then some (e ^^^ 0x40)
  else none

def decodeZdlePayload (bytes : List UInt8) : Nat → Except ModemError (List UInt8)
  | 0 => .ok []
  | n + 1 =>
    match bytes with
    | [] => .error .incomplete
    | byte :: bytes =>
      if byte = zdle then
        match bytes with
        | [] => .error .incomplete
        | e :: bytes =>
          match unescape e with
          | some decoded => do
              let rest ← decodeZdlePayload bytes n
              return decoded :: rest
          | none => .error .invalidEscape
      else do
        let rest ← decodeZdlePayload bytes n
        return byte :: rest
termination_by structural decodedLen => decodedLen

/-! ## 4. Headers -/

variable (frameType : ZFrameType)

/-- The five bytes a header's CRC covers. -/
def headerPayload (position : Position) : List UInt8 :=
  frameType.toByte :: position.bytes

def encodeHexHeader (position : Position) (includeXon : Bool) : List UInt8 :=
  let payload := headerPayload frameType position
  let crc := crc16Xmodem payload
  [zpad, zpad, zdle, zhex] ++ payload.flatMap pushHexByte ++ pushHexByte (crcHigh crc) ++
    pushHexByte (crcLow crc) ++ [0x0d, 0x0a ||| 0x80] ++ if includeXon then [xon] else []

/-- `encode_bin16_header_with_escape`: the CRC is that of the payload and two zero bytes. -/
def encodeBin16HeaderWithEscape (position : Position) (escapeControl : Bool) : List UInt8 :=
  let crcPayload := headerPayload frameType position
  let crc := crcPayload.foldl crc16XmodemUpdate 0
  let crc := crc16XmodemUpdate (crc16XmodemUpdate crc 0) 0
  [zpad, zdle, zbin] ++ escaped escapeControl crcPayload ++
    pushZdleEscapedWithControl escapeControl (crcHigh crc) ++
    pushZdleEscapedWithControl escapeControl (crcLow crc)

def encodeBin32HeaderWithEscape (position : Position) (escapeControl : Bool) : List UInt8 :=
  let crcPayload := headerPayload frameType position
  let crc := crcPayload.foldl crc32IeeeUpdate 0xffffffff#32
  let crc := ~~~ crc
  [zpad, zdle, zbin32] ++ escaped escapeControl crcPayload ++ escaped escapeControl (u32ToLeBytes crc)

def parseHexHeader (bytes : List UInt8) : Except ModemError ZHeader :=
  if bytes.length < 18 then .error .incomplete
  else if ¬ [zpad, zpad, zdle, zhex] <+: bytes then .error .invalidMarker
  else do
    let decoded ← (List.range 7).mapM fun index => readHexByte ((bytes.drop (4 + index * 2)).take 2)
    match decoded with
    | [t, p0, p1, p2, p3, high, low] =>
      if crc16Xmodem [t, p0, p1, p2, p3] ≠ u16FromBeBytes high low then .error .invalidCrc
      else match ZFrameType.fromByte t with
        | none => .error .invalidFrameType
        | some frameType => .ok ⟨frameType, ⟨p0, p1, p2, p3⟩, .hex⟩
    | _ => .error .incomplete

def parseBinaryHeader (bytes : List UInt8) : Except ModemError ZHeader :=
  match bytes with
  | m0 :: m1 :: m2 :: rest =>
    if m0 ≠ zpad ∨ m1 ≠ zdle then .error .invalidMarker
    else if m2 = zbin then do
      match ← decodeZdlePayload rest (5 + 2) with
      | [t, p0, p1, p2, p3, high, low] =>
        match ZFrameType.fromByte t with
        | none => .error .invalidFrameType
        | some frameType =>
          let expected := [t, p0, p1, p2, p3].foldl crc16XmodemUpdate 0
          let expected := crc16XmodemUpdate (crc16XmodemUpdate expected 0) 0
          if expected ≠ u16FromBeBytes high low then .error .invalidCrc
          else .ok ⟨frameType, ⟨p0, p1, p2, p3⟩, .bin16⟩
      | _ => .error .incomplete
    else if m2 = zbin32 then do
      match ← decodeZdlePayload rest (5 + 4) with
      | [t, p0, p1, p2, p3, c0, c1, c2, c3] =>
        match ZFrameType.fromByte t with
        | none => .error .invalidFrameType
        | some frameType =>
          if crc32Ieee [t, p0, p1, p2, p3] ≠ u32FromLeBytes c0 c1 c2 c3 then
            .error .invalidCrc
          else .ok ⟨frameType, ⟨p0, p1, p2, p3⟩, .bin32⟩
      | _ => .error .incomplete
    else .error .invalidFrameEncoding
  | _ => .error .incomplete

/-! ## 5. What the codec undoes -/

theorem pushHexByte_digits :
    ∀ b : UInt8, ∃ high low n m, pushHexByte b = [high, low] ∧ hexDigit high = some n ∧
      hexDigit low = some m ∧ (n <<< 4) ||| m = b := by
  refine forall_byte fun n => ⟨_, _, (UInt8.ofFin n) >>> 4, (UInt8.ofFin n) &&& 0x0f, rfl, ?_⟩
  revert n
  decide +kernel

@[simp] theorem readHexByte_pushHexByte (b : UInt8) : readHexByte (pushHexByte b) = .ok b := by
  obtain ⟨high, low, n, m, hp, hn, hm, rfl⟩ := pushHexByte_digits b
  simp [hp, readHexByte, hexValue, hn, hm, bind, Except.bind, pure, Except.pure]

theorem unescape_of_escaped : ∀ b : UInt8,
    shouldEscapeZdle b = true ∨ b &&& 0x60 = 0 → unescape (b ^^^ 0x40) = some b := by
  refine forall_byte ?_
  decide +kernel

theorem pushZdleEscaped_cases (b : UInt8) :
    (∃ e, pushZdleEscapedWithControl esc b = [zdle, e] ∧ unescape e = some b) ∨
      (pushZdleEscapedWithControl esc b = [b] ∧ shouldEscapeZdle b = false) := by
  unfold pushZdleEscapedWithControl
  split
  · rename_i h
    refine .inl ⟨_, rfl, unescape_of_escaped b ?_⟩
    rw [Bool.or_eq_true, Bool.and_eq_true, beq_iff_eq] at h
    exact h.imp_right And.right
  · rename_i h
    rw [Bool.or_eq_true, not_or] at h
    exact .inr ⟨rfl, by simpa using h.1⟩

theorem decodeZdlePayload_escaped (bytes rest : List UInt8) :
    decodeZdlePayload (escaped esc bytes ++ rest) bytes.length = .ok bytes := by
  induction bytes with
  | nil => rfl
  | cons b bytes ih =>
    rw [escaped_cons, List.append_assoc, List.length_cons]
    rcases pushZdleEscaped_cases esc b with ⟨e, hp, he⟩ | ⟨hp, hb⟩
    · simp [hp, decodeZdlePayload, he, ih, bind, Except.bind, pure, Except.pure]
    · have hne : b ≠ zdle := by
        rintro rfl
        exact absurd hb (by decide)
      simp [hp, decodeZdlePayload, hne, ih, bind, Except.bind, pure, Except.pure]

variable (t : ZFrameType)

theorem parseHexHeader_encode (p : Position) (includeXon : Bool) :
    parseHexHeader (encodeHexHeader t p includeXon) = .ok ⟨t, p, .hex⟩ := by
  obtain ⟨p0, p1, p2, p3⟩ := p
  generalize hc : crc16Xmodem [t.toByte, p0, p1, p2, p3] = crc
  have hread : ∀ b rest, readHexByte ((pushHexByte b ++ rest).take 2) = .ok b :=
    fun b _ => readHexByte_pushHexByte b
  have hdec : (List.range 7).mapM (fun index =>
      readHexByte (((encodeHexHeader t ⟨p0, p1, p2, p3⟩ includeXon).drop (4 + index * 2)).take 2)) =
      .ok [t.toByte, p0, p1, p2, p3, crcHigh crc, crcLow crc] := by
    subst hc
    have hstep : ∀ (i : Nat) (is : List Nat) (b : UInt8) (bs rest : List UInt8),
        (encodeHexHeader t ⟨p0, p1, p2, p3⟩ includeXon).drop (4 + i * 2) = pushHexByte b ++ rest →
        is.mapM (fun index => readHexByte (((encodeHexHeader t ⟨p0, p1, p2, p3⟩
          includeXon).drop (4 + index * 2)).take 2)) = .ok bs →
        (i :: is).mapM (fun index => readHexByte (((encodeHexHeader t ⟨p0, p1, p2, p3⟩
          includeXon).drop (4 + index * 2)).take 2)) = .ok (b :: bs) := by
      intro i is b bs rest h1 h2
      rw [List.mapM_cons, h1, hread, h2]
      rfl
    refine hstep 0 _ _ _ _ rfl (hstep 1 _ _ _ _ rfl (hstep 2 _ _ _ _ rfl (hstep 3 _ _ _ _ rfl
      (hstep 4 _ _ _ _ rfl (hstep 5 _ _ _ _ rfl (hstep 6 _ _ _ _ rfl rfl))))))
  unfold parseHexHeader
  rw [hdec, if_neg (by simp [encodeHexHeader, headerPayload, Position.bytes, pushHexByte]),
    if_neg (by simp [encodeHexHeader])]
  simp [bind, Except.bind, hc]

theorem parseBinaryHeader_encode16 (p : Position) (esc : Bool) :
    parseBinaryHeader (encodeBin16HeaderWithEscape t p esc) = .ok ⟨t, p, .bin16⟩ := by
  obtain ⟨p0, p1, p2, p3⟩ := p
  obtain ⟨crc, hc⟩ : ∃ crc, crc16XmodemUpdate (crc16XmodemUpdate
    ([t.toByte, p0, p1, p2, p3].foldl crc16XmodemUpdate 0) 0) 0 = crc := ⟨_, rfl⟩
  have hd : decodeZdlePayload _ (5 + 2) = _ :=
    decodeZdlePayload_escaped esc [t.toByte, p0, p1, p2, p3, crcHigh crc, crcLow crc] []
  simp only [parseBinaryHeader, encodeBin16HeaderWithEscape, headerPayload, Position.bytes, hc,
    escaped_cons, escaped_nil, List.append_assoc, List.cons_append, List.nil_append,
    List.append_nil, ne_eq, not_true, or_self, if_true, if_false] at hd ⊢
  rw [hd]
  simp [bind, Except.bind, ← hc]

theorem parseBinaryHeader_encode32 (p : Position) (esc : Bool) :
    parseBinaryHeader (encodeBin32HeaderWithEscape t p esc) = .ok ⟨t, p, .bin32⟩ := by
  obtain ⟨p0, p1, p2, p3⟩ := p
  obtain ⟨crc, hc⟩ : ∃ crc,
    ~~~ ([t.toByte, p0, p1, p2, p3].foldl crc32IeeeUpdate 0xffffffff#32) = crc := ⟨_, rfl⟩
  have hd : decodeZdlePayload _ (5 + 4) = _ :=
    decodeZdlePayload_escaped esc ([t.toByte, p0, p1, p2, p3] ++ u32ToLeBytes crc) []
  have h32 : zbin32 ≠ zbin := by decide
  simp only [parseBinaryHeader, encodeBin32HeaderWithEscape, headerPayload, Position.bytes, hc,
    u32ToLeBytes, escaped_cons, escaped_nil, List.append_assoc, List.cons_append,
    List.nil_append, List.append_nil, h32, ne_eq, not_true, or_self, if_true, if_false] at hd ⊢
  rw [hd]
  simpa [bind, Except.bind, crc32Ieee] using hc

end Hapcli.Modem
