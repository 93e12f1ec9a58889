/-
  Subject:   The setup packet that an X11 client sends first (`protocol.rs`, `auth.rs`).

  A slice that is out of bounds would stop the program (`Checked`). A `u16` is a number below 65536.

  * **`setupPacketTotalLen_bytes`**, **`exists_packet`** -- bytes begin with a packet just where the
    announced length is there;
  * **`parseSetupPacket_bytes`**, **`rewriteAuthData_bytes`** -- parsing finds the parts, and rewriting
    changes the authentication data, its length and its padding.
-/
import Hapcli.Lib.Slices
import Hapcli.Rust.Text

namespace Hapcli.X11

open Hapcli.Lib Hapcli.Rust

/-! ## 1. Cookies and errors -/

/-- `X11ForwardingError`, as far as the setup meets it. -/
inductive X11ForwardingError
  | invalidAuthCookie (text : Str)
  | unsupportedAuthProtocol (name : Str)
  | authCookieMismatch
  | incompleteSetupPacket
  | setupPacketTooLarge (limit : Nat)
  | unsupportedByteOrder (byte : UInt8)
  | invalidSetupPacketLength
  deriving DecidableEq

abbrev X11Result (α : Type) := Checked X11ForwardingError α

inductive X11AuthProtocol
  | mitMagicCookie1
  deriving DecidableEq

def X11AuthProtocol.sshName (_ : X11AuthProtocol) : Str := "MIT-MAGIC-COOKIE-1".toList

def X11AuthProtocol.parse (input : Str) : X11Result X11AuthProtocol :=
  if trim input = "MIT-MAGIC-COOKIE-1".toList then pure .mitMagicCookie1
  else throw (.unsupportedAuthProtocol (trim input))

/-- `X11AuthCookie`: never without a byte. -/
abbrev X11AuthCookie := { bytes : List UInt8 // bytes ≠ [] }

def X11AuthCookie.fromBytes (bytes : List UInt8) : X11Result X11AuthCookie :=
  if h : bytes = [] then throw (.invalidAuthCookie "cookie bytes must not be empty".toList)
  else pure ⟨bytes, h⟩

structure X11AuthMaterial where
  protocol : X11AuthProtocol
  fakeCookie : X11AuthCookie
  localCookie : X11AuthCookie
  deriving DecidableEq

/-! ## 2. Fields of a packet -/

inductive X11ByteOrder
  | bigEndian
  | littleEndian
  deriving DecidableEq

def setupHeaderLen : Nat := 12

def parseByteOrder (byte : UInt8) : X11Result X11ByteOrder :=
  if byte = 0x42 then pure .bigEndian
  else if byte = 0x6c then pure .littleEndian
  else throw (.unsupportedByteOrder byte)

variable (packet : List UInt8)

/-- `parse_byte_order(packet[0])`. -/
def readByteOrder : X11Result X11ByteOrder := do
  let byte ← (packet[0]? : Option UInt8)
  parseByteOrder byte

/-- The byte a byte order is announced with. -/
def X11ByteOrder.byte : X11ByteOrder → UInt8
  | .bigEndian => 0x42
  | .littleEndian => 0x6c

/-- `u16::from_be_bytes`, `u16::from_le_bytes`. -/
def u16FromBytes (order : X11ByteOrder) (first second : UInt8) : Nat :=
  match order with
  | .bigEndian => first.toNat * 256 + second.toNat
  | .littleEndian => second.toNat * 256 + first.toNat

/-- `u16::to_be_bytes`, `u16::to_le_bytes`. -/
def u16ToBytes (order : X11ByteOrder) (value : Nat) : List UInt8 :=
  match order with
  | .bigEndian => [.ofNat (value / 256), .ofNat value]
  | .littleEndian => [.ofNat value, .ofNat (value / 256)]

/-- `read_u16(&packet[start..start + 2], byte_order)`. -/
def readU16 (start : Nat) (order : X11ByteOrder) : X11Result Nat := do
  match ← slice packet start (start + 2) with
  | [first, second] => pure (u16FromBytes order first second)
  | _ => Checked.stop

def paddedLen (len : Nat) : X11Result Nat :=
  if len + 3 ≤ u64Max then pure ((len + 3) / 4 * 4) else throw .invalidSetupPacketLength

/-- `checked_add`, with the error that every caller gives it. -/
def checkedAdd (a b : Nat) : X11Result Nat :=
  if a + b ≤ u64Max then pure (a + b) else throw .invalidSetupPacketLength

/-- `setup_packet_total_len`, which `required_setup_packet_len` is. -/
def setupPacketTotalLen : X11Result (Option Nat) :=
  if packet.length < setupHeaderLen then pure none
  else do
    let order ← readByteOrder packet
    let authProtocolLen ← readU16 packet 6 order
    let authDataLen ← readU16 packet 8 order
    let authProtocolPaddedLen ← paddedLen authProtocolLen
    let authDataPaddedLen ← paddedLen authDataLen
    let total ← checkedAdd (← checkedAdd setupHeaderLen authProtocolPaddedLen) authDataPaddedLen
    pure (some total)

structure X11SetupRequest where
  byteOrder : X11ByteOrder
  protocolMajor : Nat
  protocolMinor : Nat
  authProtocol : Str
  authDataLen : Nat
  deriving DecidableEq

/-- `ParsedSetup`; the range of the data by its two ends. -/
structure ParsedSetup where
  request : X11SetupRequest
  authProtocolBytes : List UInt8
  authDataStart : Nat
  authDataEnd : Nat
  authDataPaddedEnd : Nat
  deriving DecidableEq

def parseSetupPacket : X11Result ParsedSetup := do
  match ← setupPacketTotalLen packet with
  | none => throw .incompleteSetupPacket
  | some packetMinLen =>
    Checked.ensure (packetMinLen ≤ packet.length) .incompleteSetupPacket
    let byteOrder ← readByteOrder packet
    let protocolMajor ← readU16 packet 2 byteOrder
    let protocolMinor ← readU16 packet 4 byteOrder
    let authProtocolLen ← readU16 packet 6 byteOrder
    let authDataLen ← readU16 packet 8 byteOrder
    let authProtocolPaddedLen ← paddedLen authProtocolLen
    let authProtocolEnd ← checkedAdd setupHeaderLen authProtocolLen
    let authDataStart ← checkedAdd setupHeaderLen authProtocolPaddedLen
    let authDataEnd ← checkedAdd authDataStart authDataLen
    let authProtocolBytes ← slice packet setupHeaderLen authProtocolEnd
    pure { request := { byteOrder, protocolMajor, protocolMinor,
                        authProtocol := fromUtf8Lossy authProtocolBytes, authDataLen }
           authProtocolBytes, authDataStart, authDataEnd, authDataPaddedEnd := packetMinLen }

def inspectSetupRequest : X11Result X11SetupRequest := do
  pure (← parseSetupPacket packet).request

structure X11SetupAuthentication where
  request : X11SetupRequest
  protocol : X11AuthProtocol
  fakeCookie : X11AuthCookie

def inspectSetupAuthentication : X11Result X11SetupAuthentication := do
  let parsed ← parseSetupPacket packet
  let protocol ← X11AuthProtocol.parse parsed.request.authProtocol
  let fakeCookie ←
    X11AuthCookie.fromBytes (← slice packet parsed.authDataStart parsed.authDataEnd)
  pure { request := parsed.request, protocol, fakeCookie }

/-! ## 3. Rewriting and refusing -/

/-- `rewrite_auth_data`: the packet afterwards. -/
def rewriteAuthData (parsed : ParsedSetup) (replacement : List UInt8) : X11Result (List UInt8) := do
  Checked.ensure (replacement.length ≤ 65535) .invalidSetupPacketLength
  let packet ← copyInto packet 8 10 (u16ToBytes parsed.request.byteOrder replacement.length)
  if replacement.length = parsed.authDataEnd - parsed.authDataStart then
    copyInto packet parsed.authDataStart parsed.authDataEnd replacement
  else do
    let tail ← slice packet parsed.authDataPaddedEnd packet.length
    let padded ← paddedLen replacement.length
    pure (packet.take parsed.authDataStart ++ replacement ++
      List.replicate (padded - replacement.length) 0 ++ tail)

/-- `rewrite_setup_authentication`: the request, and the packet afterwards. -/
def rewriteSetupAuthentication (auth : X11AuthMaterial) :
    X11Result (X11SetupRequest × List UInt8) := do
  let parsed ← parseSetupPacket packet
  Checked.ensure (parsed.authProtocolBytes = asBytes auth.protocol.sshName)
    (.unsupportedAuthProtocol (fromUtf8Lossy parsed.authProtocolBytes))
  let suppliedCookie ← slice packet parsed.authDataStart parsed.authDataEnd
  Checked.ensure (suppliedCookie = auth.fakeCookie.1) .authCookieMismatch
  let packet ← rewriteAuthData packet parsed auth.localCookie.1
  pure (parsed.request, packet)

/-- `build_auth_failure_response`: the response. -/
def buildAuthFailureResponse (request : X11SetupRequest) (reason : Str) : X11Result (List UInt8) := do
  let reasonBytes := asBytes reason
  Checked.ensure (reasonBytes.length ≤ 255) .invalidSetupPacketLength
  let paddedReasonLen ← paddedLen reasonBytes.length
  let lengthUnits := paddedReasonLen / 4
  Checked.ensure (lengthUnits ≤ 65535) .invalidSetupPacketLength
  pure ([0, .ofNat reasonBytes.length] ++ u16ToBytes request.byteOrder request.protocolMajor ++
    u16ToBytes request.byteOrder request.protocolMinor ++ u16ToBytes request.byteOrder lengthUnits ++
    reasonBytes ++ List.replicate (paddedReasonLen - reasonBytes.length) 0)

/-! ## 4. A packet by its parts -/

/-- How long a field of `len` bytes is with its padding. -/
def padded (len : Nat) : Nat := (len + 3) / 4 * 4

/-- A setup packet: the version, two fields with their padding, and the bytes of the header that
    nothing reads. -/
structure SetupPacket where
  order : X11ByteOrder
  unused : UInt8
  protocolMajor : Nat
  protocolMinor : Nat
  reserved : List UInt8
  name : List UInt8
  namePadding : List UInt8
  data : List UInt8
  dataPadding : List UInt8
  protocolMajor_lt : protocolMajor < 65536
  protocolMinor_lt : protocolMinor < 65536
  reserved_length : reserved.length = 2
  name_length : name.length < 65536
  data_length : data.length < 65536
  namePadding_length : namePadding.length = padded name.length - name.length
  dataPadding_length : dataPadding.length = padded data.length - data.length

namespace SetupPacket

/-- The twelve bytes before the fields. -/
def header (p : SetupPacket) : List UInt8 :=
  p.order.byte :: p.unused :: (u16ToBytes p.order p.protocolMajor ++
    (u16ToBytes p.order p.protocolMinor ++ (u16ToBytes p.order p.name.length ++
      (u16ToBytes p.order p.data.length ++ p.reserved))))

/-- The header and the name of the protocol, with its padding. -/
def front (p : SetupPacket) : List UInt8 := p.header ++ p.name ++ p.namePadding

/-- The packet as it is sent. -/
def bytes (p : SetupPacket) : List UInt8 := p.front ++ p.data ++ p.dataPadding

/-- The packet with other authentication data: padding of zeros where the length is another one. -/
def withData (p : SetupPacket) (data : List UInt8) (hdata : data.length < 65536) : SetupPacket :=
  { p with
    data
    dataPadding :=
      if data.length = p.data.length then p.dataPadding
      else List.replicate (padded data.length - data.length) 0
    data_length := hdata
    dataPadding_length := by
      split
      · next h => rw [p.dataPadding_length, h]
      · exact List.length_replicate }

end SetupPacket

variable {p : SetupPacket} {rest bytes : List UInt8}

theorem u16ToBytes_length (order : X11ByteOrder) (value : Nat) :
    (u16ToBytes order value).length = 2 := by
  cases order <;> rfl

theorem le_padded (len : Nat) : len ≤ padded len := by
  unfold padded
  omega

@[simp] theorem header_length (p : SetupPacket) : p.header.length = 12 := by
  simp only [SetupPacket.header, List.length_cons, List.length_append, u16ToBytes_length,
    p.reserved_length]

theorem front_length (p : SetupPacket) : p.front.length = 12 + padded p.name.length := by
  have := le_padded p.name.length
  simp only [SetupPacket.front, List.length_append, header_length, p.namePadding_length]
  omega

theorem bytes_length (p : SetupPacket) :
    p.bytes.length = 12 + padded p.name.length + padded p.data.length := by
  have := le_padded p.data.length
  simp only [SetupPacket.bytes, List.length_append, front_length, p.dataPadding_length]
  omega

/-! ## 5. The fields are found -/

variable {len start value : Nat} {order : X11ByteOrder} {packet : List UInt8}

theorem u16FromBytes_toBytes (order : X11ByteOrder) (h : value < 65536) :
    ∃ first second, u16ToBytes order value = [first, second] ∧
      u16FromBytes order first second = value := by
  cases order <;> refine ⟨_, _, rfl, ?_⟩ <;>
    simp only [u16FromBytes, UInt8.toNat_ofNat'] <;> omega

theorem u16ToBytes_fromBytes (order : X11ByteOrder) (first second : UInt8) :
    u16FromBytes order first second < 65536 ∧
      u16ToBytes order (u16FromBytes order first second) = [first, second] := by
  have hfirst := first.toNat_lt
  have hsecond := second.toNat_lt
  cases order <;>
    simp only [u16FromBytes, u16ToBytes, List.cons.injEq, and_true, ← UInt8.toNat_inj,
      UInt8.toNat_ofNat'] <;> omega

theorem readU16_of_slice (h : slice packet start (start + 2) = some (u16ToBytes order value))
    (hvalue : value < 65536) : (readU16 packet start order).run = some (.ok value) := by
  obtain ⟨first, second, hbytes, hfrom⟩ := u16FromBytes_toBytes order hvalue
  unfold readU16
  rw [Checked.bind_of_ok (Checked.lift_of (h.trans (congrArg some hbytes)))]
  exact congrArg (fun v => some (Except.ok v)) hfrom

theorem paddedLen_of (h : len < 65536) : (paddedLen len).run = some (.ok (padded len)) := by
  unfold paddedLen
  rw [if_pos (by unfold u64Max; omega)]
  rfl

theorem padded_le (h : len < 65536) : padded len ≤ 65536 := by
  unfold padded
  omega

theorem checkedAdd_of {a b : Nat} (h : a + b ≤ 200000) :
    (checkedAdd a b).run = some (.ok (a + b)) := by
  unfold checkedAdd
  rw [if_pos (by unfold u64Max; omega)]
  rfl

theorem readByteOrder_bytes (p : SetupPacket) (rest : List UInt8) :
    (readByteOrder (p.bytes ++ rest)).run = some (.ok p.order) := by
  have hfirst : (p.bytes ++ rest)[0]? = some p.order.byte := rfl
  unfold readByteOrder
  rw [Checked.bind_of_ok (Checked.lift_of hfirst)]
  cases p.order <;> rfl

theorem slice_header {before part after : List UInt8} (hheader : p.header = before ++ part ++ after)
    (hstart : before.length = start) (rest : List UInt8) :
    slice (p.bytes ++ rest) start (start + part.length) = some part := by
  have hsplit : p.bytes ++ rest = before ++ part ++
      (after ++ p.name ++ p.namePadding ++ p.data ++ p.dataPadding ++ rest) := by
    simp only [SetupPacket.bytes, SetupPacket.front, hheader, List.append_assoc]
  rw [hsplit]
  exact slice_append hstart rfl

theorem readU16_header {before after : List UInt8}
    (hheader : p.header = before ++ u16ToBytes p.order value ++ after)
    (hstart : before.length = start) (hvalue : value < 65536) (rest : List UInt8) :
    (readU16 (p.bytes ++ rest) start p.order).run = some (.ok value) := by
  have hslice := slice_header hheader hstart rest
  rw [u16ToBytes_length] at hslice
  exact readU16_of_slice hslice hvalue

theorem readU16_protocolMajor (p : SetupPacket) (rest : List UInt8) :
    (readU16 (p.bytes ++ rest) 2 p.order).run = some (.ok p.protocolMajor) := by
  have hheader : p.header = [p.order.byte, p.unused] ++ u16ToBytes p.order p.protocolMajor ++
      (u16ToBytes p.order p.protocolMinor ++ (u16ToBytes p.order p.name.length ++
        (u16ToBytes p.order p.data.length ++ p.reserved))) := by
    simp only [SetupPacket.header, List.cons_append, List.nil_append]
  exact readU16_header hheader rfl p.protocolMajor_lt rest

theorem readU16_protocolMinor (p : SetupPacket) (rest : List UInt8) :
    (readU16 (p.bytes ++ rest) 4 p.order).run = some (.ok p.protocolMinor) := by
  have hheader : p.header = (p.order.byte :: p.unused :: u16ToBytes p.order p.protocolMajor) ++
      u16ToBytes p.order p.protocolMinor ++ (u16ToBytes p.order p.name.length ++
        (u16ToBytes p.order p.data.length ++ p.reserved)) := by
    simp only [SetupPacket.header, List.cons_append, List.append_assoc]
  exact readU16_header hheader (by simp only [List.length_cons, u16ToBytes_length])
    p.protocolMinor_lt rest

theorem readU16_nameLength (p : SetupPacket) (rest : List UInt8) :
    (readU16 (p.bytes ++ rest) 6 p.order).run = some (.ok p.name.length) := by
  have hheader : p.header = (p.order.byte :: p.unused :: (u16ToBytes p.order p.protocolMajor ++
      u16ToBytes p.order p.protocolMinor)) ++ u16ToBytes p.order p.name.length ++
        (u16ToBytes p.order p.data.length ++ p.reserved) := by
    simp only [SetupPacket.header, List.cons_append, List.append_assoc]
  exact readU16_header hheader
    (by simp only [List.length_cons, List.length_append, u16ToBytes_length]) p.name_length rest

theorem header_dataLength (p : SetupPacket) : p.header =
    (p.order.byte :: p.unused :: (u16ToBytes p.order p.protocolMajor ++
      (u16ToBytes p.order p.protocolMinor ++ u16ToBytes p.order p.name.length))) ++
        u16ToBytes p.order p.data.length ++ p.reserved := by
  simp only [SetupPacket.header, List.cons_append, List.append_assoc]

theorem readU16_dataLength (p : SetupPacket) (rest : List UInt8) :
    (readU16 (p.bytes ++ rest) 8 p.order).run = some (.ok p.data.length) :=
  readU16_header (header_dataLength p)
    (by simp only [List.length_cons, List.length_append, u16ToBytes_length]) p.data_length rest

/-- The announced length of bytes that begin with a packet is the length of the packet. -/
theorem setupPacketTotalLen_bytes (p : SetupPacket) (rest : List UInt8) :
    (setupPacketTotalLen (p.bytes ++ rest)).run = some (.ok (some p.bytes.length)) := by
  have hname := padded_le p.name_length
  have hdata := padded_le p.data_length
  have hlong : ¬ (p.bytes ++ rest).length < setupHeaderLen := by
    rw [List.length_append, bytes_length, setupHeaderLen]
    omega
  unfold setupPacketTotalLen
  rw [if_neg hlong, Checked.bind_of_ok (readByteOrder_bytes p rest),
    Checked.bind_of_ok (readU16_nameLength p rest), Checked.bind_of_ok (readU16_dataLength p rest),
    Checked.bind_of_ok (paddedLen_of p.name_length), Checked.bind_of_ok (paddedLen_of p.data_length),
    Checked.bind_of_ok (checkedAdd_of (by rw [setupHeaderLen]; omega)),
    Checked.bind_of_ok (checkedAdd_of (by rw [setupHeaderLen]; omega)), bytes_length]
  rfl

/-! ## 6. Bytes begin with a packet -/

theorem of_readU16 (h : (readU16 packet start order).run = some (.ok value)) :
    ∃ first second, slice packet start (start + 2) = some [first, second] ∧
      value = u16FromBytes order first second := by
  obtain ⟨part, hpart, h⟩ := Checked.of_bind_ok h
  have hslice := Checked.of_lift hpart
  match part, h with
  | [first, second], h =>
    cases h
    exact ⟨first, second, hslice, rfl⟩

theorem of_readByteOrder (h : (readByteOrder packet).run = some (.ok order)) :
    packet[0]? = some order.byte := by
  obtain ⟨byte, hbyte, h⟩ := Checked.of_bind_ok h
  have hfirst := Checked.of_lift hbyte
  unfold parseByteOrder at h
  split at h
  · next hbig =>
      cases h
      rw [hfirst, hbig]
      rfl
  · split at h
    · next hlittle =>
        cases h
        rw [hfirst, hlittle]
        rfl
    · cases h

theorem of_paddedLen (h : (paddedLen len).run = some (.ok value)) : value = padded len := by
  unfold paddedLen at h
  split at h
  · cases h
    rfl
  · cases h

theorem of_checkedAdd {a b : Nat} (h : (checkedAdd a b).run = some (.ok value)) :
    value = a + b := by
  unfold checkedAdd at h
  split at h
  · cases h
    rfl
  · cases h

theorem of_setupPacketTotalLen {n : Nat}
    (h : (setupPacketTotalLen bytes).run = some (.ok (some n))) :
    12 ≤ bytes.length ∧ ∃ (order : X11ByteOrder) (n0 n1 d0 d1 : UInt8),
      bytes[0]? = some order.byte ∧ slice bytes 6 8 = some [n0, n1] ∧
      slice bytes 8 10 = some [d0, d1] ∧
      n = 12 + padded (u16FromBytes order n0 n1) + padded (u16FromBytes order d0 d1) := by
  unfold setupPacketTotalLen at h
  split at h
  · cases h
  · next hlong =>
      obtain ⟨order, horder, h⟩ := Checked.of_bind_ok h
      obtain ⟨nameLen, hname, h⟩ := Checked.of_bind_ok h
      obtain ⟨dataLen, hdata, h⟩ := Checked.of_bind_ok h
      obtain ⟨namePadded, hnamePadded, h⟩ := Checked.of_bind_ok h
      obtain ⟨dataPadded, hdataPadded, h⟩ := Checked.of_bind_ok h
      obtain ⟨front, hfront, h⟩ := Checked.of_bind_ok h
      obtain ⟨total, htotal, h⟩ := Checked.of_bind_ok h
      obtain ⟨n0, n1, hnameSlice, rfl⟩ := of_readU16 hname
      obtain ⟨d0, d1, hdataSlice, rfl⟩ := of_readU16 hdata
      obtain rfl := of_paddedLen hnamePadded
      obtain rfl := of_paddedLen hdataPadded
      obtain rfl := of_checkedAdd hfront
      obtain rfl := of_checkedAdd htotal
      cases h
      exact ⟨Nat.not_lt.mp hlong, order, n0, n1, d0, d1, of_readByteOrder horder, hnameSlice,
        hdataSlice, rfl⟩

theorem take_drop_parts (tail : List UInt8) (a b c d : Nat) :
    tail = tail.take a ++ ((tail.drop a).take b ++ ((tail.drop (a + b)).take c ++
      ((tail.drop (a + b + c)).take d ++ tail.drop (a + b + c + d)))) := by
  have hstep : ∀ m n, tail.drop m = (tail.drop m).take n ++ tail.drop (m + n) := by
    intro m n
    rw [← List.drop_drop, List.take_append_drop]
  conv_lhs => rw [← List.take_append_drop a tail, hstep a b, hstep (a + b) c, hstep (a + b + c) d]

/-- Where as many bytes are there as are announced, they begin with a packet. -/
theorem exists_packet {n : Nat} (h : (setupPacketTotalLen bytes).run = some (.ok (some n)))
    (hn : n ≤ bytes.length) : ∃ p rest, bytes = SetupPacket.bytes p ++ rest ∧ p.bytes.length = n := by
  obtain ⟨hlong, order, n0, n1, d0, d1, horder, hname, hdata, rfl⟩ := of_setupPacketTotalLen h
  match bytes, hlong, horder, hname, hdata, hn with
  | b0 :: b1 :: b2 :: b3 :: b4 :: b5 :: b6 :: b7 :: b8 :: b9 :: b10 :: b11 :: tail, _, horder, hname,
      hdata, hn =>
      obtain rfl : b0 = order.byte := Option.some.inj horder
      obtain ⟨rfl, rfl⟩ : b6 = n0 ∧ b7 = n1 := by
        have := Option.some.inj hname
        exact ⟨(List.cons.inj this).1, (List.cons.inj (List.cons.inj this).2).1⟩
      obtain ⟨rfl, rfl⟩ : b8 = d0 ∧ b9 = d1 := by
        have := Option.some.inj hdata
        exact ⟨(List.cons.inj this).1, (List.cons.inj (List.cons.inj this).2).1⟩
      obtain ⟨hnameLen, hnameBytes⟩ := u16ToBytes_fromBytes order b6 b7
      obtain ⟨hdataLen, hdataBytes⟩ := u16ToBytes_fromBytes order b8 b9
      generalize hnl : u16FromBytes order b6 b7 = nameLen at *
      generalize hdl : u16FromBytes order b8 b9 = dataLen at *
      have hnamePadded := le_padded nameLen
      have hdataPadded := le_padded dataLen
      have htail : padded nameLen + padded dataLen ≤ tail.length := by
        simp only [List.length_cons] at hn
        omega
      have hparts := take_drop_parts tail nameLen (padded nameLen - nameLen) dataLen
        (padded dataLen - dataLen)
      have hname_length : (tail.take nameLen).length = nameLen := by
        rw [List.length_take]
        omega
      have hdata_length : ((tail.drop (nameLen + (padded nameLen - nameLen))).take dataLen).length =
          dataLen := by
        rw [List.length_take, List.length_drop]
        omega
      let p : SetupPacket :=
        { order, unused := b1, protocolMajor := u16FromBytes order b2 b3
          protocolMinor := u16FromBytes order b4 b5, reserved := [b10, b11]
          name := tail.take nameLen
          namePadding := (tail.drop nameLen).take (padded nameLen - nameLen)
          data := (tail.drop (nameLen + (padded nameLen - nameLen))).take dataLen
          dataPadding := (tail.drop (nameLen + (padded nameLen - nameLen) + dataLen)).take
            (padded dataLen - dataLen)
          protocolMajor_lt := (u16ToBytes_fromBytes order b2 b3).1
          protocolMinor_lt := (u16ToBytes_fromBytes order b4 b5).1
          reserved_length := rfl
          name_length := by rw [hname_length]; exact hnameLen
          data_length := by rw [hdata_length]; exact hdataLen
          namePadding_length := by
            rw [hname_length, List.length_take, List.length_drop]
            omega
          dataPadding_length := by
            rw [hdata_length, List.length_take, List.length_drop]
            omega }
      refine ⟨p, tail.drop (nameLen + (padded nameLen - nameLen) + dataLen +
        (padded dataLen - dataLen)), ?_, ?_⟩
      · have hheader : p.header = [order.byte, b1, b2, b3, b4, b5, b6, b7, b8, b9, b10, b11] := by
          simp only [SetupPacket.header, p, hname_length, hdata_length, hnameBytes, hdataBytes,
            (u16ToBytes_fromBytes order b2 b3).2, (u16ToBytes_fromBytes order b4 b5).2,
            List.cons_append, List.nil_append]
        simp only [SetupPacket.bytes, SetupPacket.front, hheader, List.append_assoc,
          List.cons_append, List.nil_append, List.cons.injEq, true_and]
        exact hparts
      · rw [bytes_length]
        simp only [p, hname_length, hdata_length]

/-! ## 7. Parsing and rewriting a packet -/

namespace SetupPacket

/-- What a packet asks for. -/
def request (p : SetupPacket) : X11SetupRequest where
  byteOrder := p.order
  protocolMajor := p.protocolMajor
  protocolMinor := p.protocolMinor
  authProtocol := fromUtf8Lossy p.name
  authDataLen := p.data.length

/-- Where its parts are. -/
def parsed (p : SetupPacket) : ParsedSetup where
  request := p.request
  authProtocolBytes := p.name
  authDataStart := p.front.length
  authDataEnd := p.front.length + p.data.length
  authDataPaddedEnd := p.bytes.length

end SetupPacket

theorem parseSetupPacket_bytes (p : SetupPacket) :
    (parseSetupPacket p.bytes).run = some (.ok p.parsed) := by
  have hname := padded_le p.name_length
  have hlong := p.name_length
  have hdata := p.data_length
  have hnil : p.bytes ++ [] = p.bytes := List.append_nil _
  have htotal := setupPacketTotalLen_bytes p []
  have horder := readByteOrder_bytes p []
  have hmajor := readU16_protocolMajor p []
  have hminor := readU16_protocolMinor p []
  have hnameLength := readU16_nameLength p []
  have hdataLength := readU16_dataLength p []
  rw [hnil] at htotal horder hmajor hminor hnameLength hdataLength
  have hslice : slice p.bytes setupHeaderLen (setupHeaderLen + p.name.length) = some p.name := by
    have hsplit : p.bytes = p.header ++ p.name ++ (p.namePadding ++ p.data ++ p.dataPadding) := by
      simp only [SetupPacket.bytes, SetupPacket.front, List.append_assoc]
    rw [hsplit]
    exact slice_append (header_length p) rfl
  unfold parseSetupPacket
  rw [Checked.bind_of_ok htotal]
  dsimp only
  rw [Checked.bind_of_ok (Checked.ensure_of le_rfl), Checked.bind_of_ok horder,
    Checked.bind_of_ok hmajor, Checked.bind_of_ok hminor, Checked.bind_of_ok hnameLength,
    Checked.bind_of_ok hdataLength, Checked.bind_of_ok (paddedLen_of p.name_length),
    Checked.bind_of_ok (checkedAdd_of (by rw [setupHeaderLen]; omega)),
    Checked.bind_of_ok (checkedAdd_of (by rw [setupHeaderLen]; omega)),
    Checked.bind_of_ok (checkedAdd_of (by rw [setupHeaderLen]; omega)),
    Checked.bind_of_ok (Checked.lift_of hslice)]
  simp only [SetupPacket.parsed, front_length]
  rfl

theorem slice_data (p : SetupPacket) :
    slice p.bytes p.parsed.authDataStart p.parsed.authDataEnd = some p.data :=
  slice_append rfl rfl

theorem copyInto_dataLength (p : SetupPacket) {header' : List UInt8}
    (hheader : header' = (p.order.byte :: p.unused :: (u16ToBytes p.order p.protocolMajor ++
      (u16ToBytes p.order p.protocolMinor ++ u16ToBytes p.order p.name.length))) ++
        u16ToBytes p.order value ++ p.reserved) :
    copyInto p.bytes 8 10 (u16ToBytes p.order value) =
      some (header' ++ (p.name ++ p.namePadding ++ p.data ++ p.dataPadding)) := by
  have hbytes : p.bytes = p.header ++ (p.name ++ p.namePadding ++ p.data ++ p.dataPadding) := by
    simp only [SetupPacket.bytes, SetupPacket.front, List.append_assoc]
  have hlength : 10 ≤ p.bytes.length := by
    rw [bytes_length]
    omega
  rw [copyInto_of_le (by decide) hlength (u16ToBytes_length _ _), hheader]
  generalize hrest : p.name ++ p.namePadding ++ p.data ++ p.dataPadding = rest at hbytes
  rw [header_dataLength p] at hbytes
  generalize hbefore : p.order.byte :: p.unused :: (u16ToBytes p.order p.protocolMajor ++
    (u16ToBytes p.order p.protocolMinor ++ u16ToBytes p.order p.name.length)) = before at *
  have hbefore_length : before.length = 8 := by
    rw [← hbefore]
    simp only [List.length_cons, List.length_append, u16ToBytes_length]
  have hten : (before ++ u16ToBytes p.order p.data.length).length = 10 := by
    rw [List.length_append, u16ToBytes_length, hbefore_length]
  have htake : p.bytes.take 8 = before := by
    rw [hbytes, List.append_assoc, List.append_assoc, ← hbefore_length, List.take_left]
  have hdrop : p.bytes.drop 10 = p.reserved ++ rest := by
    rw [hbytes, List.append_assoc, ← hten, List.drop_left]
  rw [htake, hdrop]
  simp only [List.append_assoc]

theorem rewriteAuthData_bytes (p : SetupPacket) {replacement : List UInt8}
    (h : replacement.length < 65536) :
    (rewriteAuthData p.bytes p.parsed replacement).run =
      some (.ok (p.withData replacement h).bytes) := by
  let q := p.withData replacement h
  have hcopy : copyInto p.bytes 8 10
      (u16ToBytes p.parsed.request.byteOrder replacement.length) =
        some (q.header ++ (p.name ++ p.namePadding ++ p.data ++ p.dataPadding)) :=
    copyInto_dataLength p (header_dataLength q)
  have hfront : q.header ++ p.name ++ p.namePadding = q.front := rfl
  have hfront_length : q.front.length = p.front.length := by
    rw [front_length, front_length]
    rfl
  have hpacket : q.header ++ (p.name ++ p.namePadding ++ p.data ++ p.dataPadding) =
      q.front ++ p.data ++ p.dataPadding := by
    rw [← hfront]
    simp only [List.append_assoc]
  unfold rewriteAuthData
  rw [Checked.bind_of_ok (Checked.ensure_of (Nat.le_of_lt_succ h)),
    Checked.bind_of_ok (Checked.lift_of hcopy), hpacket]
  have hstart : p.parsed.authDataStart = q.front.length := hfront_length.symm
  have hend : p.parsed.authDataEnd = q.front.length + p.data.length := by
    rw [hfront_length]
    rfl
  rw [hstart, hend, Nat.add_sub_cancel_left]
  split
  · next hsame =>
      have hwritten : copyInto (q.front ++ p.data ++ p.dataPadding) q.front.length
          (q.front.length + p.data.length) replacement =
            some (q.front ++ replacement ++ p.dataPadding) := by
        rw [copyInto_of_le (Nat.le_add_right _ _) (by simp only [List.length_append]; omega)
          (by omega), ← List.length_append, List.drop_left, List.append_assoc q.front p.data,
          List.take_left]
      rw [Checked.lift_of hwritten]
      have hpadding : q.dataPadding = p.dataPadding := if_pos hsame
      show _ = some (Except.ok (q.front ++ replacement ++ q.dataPadding))
      rw [hpadding]
  · next hother =>
      have htail : slice (q.front ++ p.data ++ p.dataPadding) p.parsed.authDataPaddedEnd
          (q.front ++ p.data ++ p.dataPadding).length = some [] := by
        have hpadded : p.parsed.authDataPaddedEnd = (q.front ++ p.data ++ p.dataPadding).length := by
          show (p.front ++ p.data ++ p.dataPadding).length = _
          simp only [List.length_append, hfront_length]
        rw [hpadded, slice_of_le le_rfl le_rfl, Nat.sub_self, List.take_zero]
      rw [Checked.bind_of_ok (Checked.lift_of htail), Checked.bind_of_ok (paddedLen_of h),
        List.append_assoc q.front p.data, List.take_left, List.append_nil]
      have hpadding : q.dataPadding = List.replicate (padded replacement.length -
          replacement.length) 0 := if_neg hother
      show _ = some (Except.ok (q.front ++ replacement ++ q.dataPadding))
      rw [hpadding]
      rfl

end Hapcli.X11
