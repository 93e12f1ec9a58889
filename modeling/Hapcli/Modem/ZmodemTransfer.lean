/-
  Subject:   The ZMODEM transfer programs (`zmodem_transfer.rs`), statement by statement.

  * `readZmodemHeader`, `readZmodemData` -- the streaming parsers;
  * `receiveZmodem` -- the receiver: `receiveSubpacket` is one turn of the innermost loop,
    `receiveDataHeader` one turn of the loop over a file's headers, `receiveFrame` one turn of the
    session loop; `acceptSubpacket`, `handleDataHeader`, `handleFrame` are what each does with
    what it has read;
  * `sendZmodemStream` -- the sender, cut the same way;
  * `parseZmodemHeaderPrefix` -- the streaming parser on a `MemoryModemIo`.

  A `while`/`loop` of the source is one `Proc.loop`; what it mutates is the loop's state. A
  counter of the source is a number; where it is compared with a width, the comparison is written.
-/
import Hapcli.Modem.Zmodem

namespace Hapcli.Modem

open Hapcli.Process Hapcli.Rust Proc ModemProc

/-! ## 1. Constants and data -/

def zmodemMaxChunk : Nat := 8192
def zmodemMaxPosition : Nat := 2 ^ 32 - 1
def zmodemAttentionMaxBytes : Nat := 32
def zmodemCanFullDuplex : UInt8 := 0x01
def zmodemCanOverlappedIo : UInt8 := 0x02
def zmodemCanCrc32 : UInt8 := 0x20
def zmodemEscapeControl : UInt8 := 0x40
def zmodemBinaryFileConversion : UInt8 := 0x01

def zfileBinaryFlags : Position := ⟨0, 0, 0, zmodemBinaryFileConversion⟩

def zrinitFlags : Position :=
  ⟨UInt8.ofNat (zmodemMaxChunk % 256), UInt8.ofNat (zmodemMaxChunk / 256), 0,
    zmodemCanFullDuplex ||| zmodemCanOverlappedIo ||| zmodemCanCrc32 ||| zmodemEscapeControl⟩

structure ZmodemPeerCapabilities where
  chunkSize : Nat
  useCrc32 : Bool
  escapeControl : Bool
  deriving DecidableEq

structure ZmodemFileHeader where
  fileName : Str
  fileSize : Option Nat
  deriving DecidableEq

structure ZmodemSendStreamEntry (R : Type) where
  fileName : Str
  fileSize : Nat
  reader : R

structure ZDataFrame where
  payload : List UInt8
  «end» : ZDataEnd
  deriving DecidableEq

inductive ZmodemSendDataResult where
  | complete
  | resumeAt (offset : Nat)
  | skip
  deriving DecidableEq

def validateZmodemFileSize (fileSize : Nat) : Except ModemTransferError Unit :=
  if fileSize > zmodemMaxPosition then .error (.unsupportedFileSize fileSize) else .ok ()

def positionHeaderChecked (position : Nat) : Except ModemTransferError Position :=
  if position > zmodemMaxPosition then .error (.unsupportedFileSize position)
  else .ok (positionHeader (BitVec.ofNat 32 position))

def parseZfileHeader (bytes : List UInt8) : Except ModemTransferError (Option ZmodemFileHeader) :=
  match bytes.findIdx? (· == 0) with
  | none => .error (.protocol .invalidLength)
  | some nul =>
    if nul = 0 then .ok none
    else
      let fileName := fromUtf8Lossy (bytes.take nul)
      if fileName.any (fun c => c == '/' || c == '\\') ∨ fileName = ['.'] ∨ fileName = ['.', '.']
      then .error (.protocol .invalidFileName)
      else match (splitWhitespace (fromUtf8Lossy (bytes.drop (nul + 1)))).head? with
        | none => .ok (some ⟨fileName, none⟩)
        | some text =>
          match parseU64 text with
          | some fileSize => .ok (some ⟨fileName, some fileSize⟩)
          | none => .error (.protocol .invalidLength)

def buildZfileHeader (fileName : Str) (fileSize : Nat) : List UInt8 :=
  asBytes fileName ++ [0] ++ asBytes (numToString fileSize)

section Streaming

variable {H : Type}

/-! ## 2. Reading -/

/-- The bytes software flow control may insert anywhere: XON, XOFF, plain or with the high bit. -/
def isFlowControl (byte : UInt8) : Bool := byte == xon || byte == 0x13 || byte == 0x91 || byte == 0x93

/-- Three more ZDLE after `ZDLE ZDLE` are a cancel. -/
def expectCancel {α : Type} : Nat → ModemProc H α
  | 0 => fail .cancelled
  | n + 1 => do
      let byte ← readByte
      if byte ≠ zdle then fail (.protocol .invalidEscape) else expectCancel n

def decodeZescapedFollowup (escaped : UInt8) : ModemProc H UInt8 :=
  match unescape escaped with
  | some byte => ret byte
  | none => if escaped = zdle then expectCancel 3 else fail (.protocol .invalidEscape)

/-- One turn of `read_zescaped_byte`. -/
def readZescapedTurn (_ : Unit) : ModemProc H (Turn Unit UInt8) := do
  let byte ← readByte
  if isFlowControl byte then ret (.again ())
  else if byte = zdle then do
    let escaped ← readByte
    let byte ← decodeZescapedFollowup escaped
    ret (.done byte)
  else ret (.done byte)

def readZescapedByte : ModemProc H UInt8 := loop readZescapedTurn ()

def readHexNibble : ModemProc H UInt8 := do
  let byte ← readByte
  match hexDigit byte with
  | some n => ret n
  | none => fail (.unexpectedByte byte)

/-- One slot of `read_hex_zheader`. -/
def readHexSlot : ModemProc H UInt8 := do
  let high ← readHexNibble
  let low ← readHexNibble
  ret ((high <<< 4) ||| low)

def consumeHexHeaderLineEnd : ModemProc H Unit := do
  let carriageReturn ← readByte
  if carriageReturn ≠ 0x0d then fail (.unexpectedByte carriageReturn)
  else do
    let lineFeed ← readByte
    if lineFeed &&& 0x7f ≠ 0x0a then fail (.unexpectedByte lineFeed) else ret ()

/-- The header of a decoded frame type, if there is such a type. -/
def frameHeader (frameType : UInt8) (position : Position) (encoding : ZHeaderEncoding) :
    ModemProc H ZHeader :=
  match ZFrameType.fromByte frameType with
  | some frameType => ret ⟨frameType, position, encoding⟩
  | none => fail (.protocol .invalidFrameType)

def readHexZheader : ModemProc H ZHeader := do
  let t ← readHexSlot
  let p0 ← readHexSlot
  let p1 ← readHexSlot
  let p2 ← readHexSlot
  let p3 ← readHexSlot
  let high ← readHexSlot
  let low ← readHexSlot
  if crc16Xmodem [t, p0, p1, p2, p3] ≠ u16FromBeBytes high low then fail (.protocol .invalidCrc)
  else do
    consumeHexHeaderLineEnd
    frameHeader t ⟨p0, p1, p2, p3⟩ .hex

def readBinaryZheader (encoding : ZHeaderEncoding) : ModemProc H ZHeader := do
  let t ← readZescapedByte
  let p0 ← readZescapedByte
  let p1 ← readZescapedByte
  let p2 ← readZescapedByte
  let p3 ← readZescapedByte
  match encoding with
  | .bin16 => do
      let high ← readZescapedByte
      let low ← readZescapedByte
      if [t, p0, p1, p2, p3, high, low].foldl crc16XmodemUpdate 0 ≠ 0 then
        fail (.protocol .invalidCrc)
      else frameHeader t ⟨p0, p1, p2, p3⟩ .bin16
  | .bin32 => do
      let c0 ← readZescapedByte
      let c1 ← readZescapedByte
      let c2 ← readZescapedByte
      let c3 ← readZescapedByte
      if ~~~ ([t, p0, p1, p2, p3].foldl crc32IeeeUpdate 0xffffffff#32) ≠ u32FromLeBytes c0 c1 c2 c3
      then fail (.protocol .invalidCrc)
      else frameHeader t ⟨p0, p1, p2, p3⟩ .bin32
  | .hex => do
      let _ ← readZescapedByte
      let _ ← readZescapedByte
      fail .unexpectedFrame

/-- The part of `read_zmodem_header` behind the introducer. -/
def readEncodedHeader (encoding : UInt8) : ModemProc H ZHeader :=
  if encoding = zhex then readHexZheader
  else if encoding = zbin then readBinaryZheader .bin16
  else if encoding = zbin32 then readBinaryZheader .bin32
  else fail (.unexpectedByte encoding)

/-- One turn of `read_zmodem_header`. -/
def readZmodemHeaderTurn (_ : Unit) : ModemProc H (Turn Unit ZHeader) := do
  let first ← readByte
  if first ≠ zpad then ret (.again ())
  else do
    let next ← readByte
    if next = zpad then do
      let escape ← readByte
      if escape ≠ zdle then ret (.again ())
      else do
        let encoding ← readByte
        let header ← readEncodedHeader encoding
        ret (.done header)
    else if next = zdle then do
      let encoding ← readByte
      let header ← readEncodedHeader encoding
      ret (.done header)
    else ret (.again ())

def readZmodemHeader : ModemProc H ZHeader := loop readZmodemHeaderTurn ()

/-- One turn of the payload loop of `read_zmodem_data`. -/
def readPayloadTurn (maxPayload : Nat) (payload : List UInt8) :
    ModemProc H (Turn (List UInt8) (List UInt8 × ZDataEnd)) := do
  let byte ← readByte
  if isFlowControl byte then ret (.again payload)
  else if byte ≠ zdle then
    if payload.length ≥ maxPayload then fail (.protocol .invalidLength)
    else ret (.again (payload ++ [byte]))
  else do
    let escaped ← readByte
    match ZDataEnd.fromMarker escaped with
    | some e => ret (.done (payload, e))
    | none =>
      if payload.length ≥ maxPayload then fail (.protocol .invalidLength)
      else do
        let byte ← decodeZescapedFollowup escaped
        ret (.again (payload ++ [byte]))

/-- The check `read_zmodem_data` makes on what follows the end marker. -/
def checkDataCrc (useCrc32 : Bool) (payload : List UInt8) (e : ZDataEnd) : ModemProc H ZDataFrame :=
  if useCrc32 then do
    let c0 ← readZescapedByte
    let c1 ← readZescapedByte
    let c2 ← readZescapedByte
    let c3 ← readZescapedByte
    let crc := crc32IeeeUpdate (payload.foldl crc32IeeeUpdate 0xffffffff#32) e.marker
    if ~~~ crc ≠ u32FromLeBytes c0 c1 c2 c3 then fail (.protocol .invalidCrc)
    else ret ⟨payload, e⟩
  else do
    let high ← readZescapedByte
    let low ← readZescapedByte
    let crc := crc16XmodemUpdate (payload.foldl crc16XmodemUpdate 0) e.marker
    if crc16XmodemUpdate (crc16XmodemUpdate crc high) low ≠ 0 then fail (.protocol .invalidCrc)
    else ret ⟨payload, e⟩

def readZmodemData (useCrc32 : Bool) (maxPayload : Nat) : ModemProc H ZDataFrame := do
  let (payload, e) ← loop (readPayloadTurn maxPayload) []
  checkDataCrc useCrc32 payload e

/-- `parse_zmodem_header_prefix`. Every turn of a loop of `readZmodemHeader` reads a byte, so one
    turn more than there are bytes is enough (`parseZmodemHeaderPrefix_total`). -/
def parseZmodemHeaderPrefix (bytes : List UInt8) : Except ModemError (Option ZHeader) :=
  match exec (memoryModemIo (H := Unit)) (bytes.length + 1) readZmodemHeader ⟨bytes, []⟩ with
  | some (.ok header, _) => .ok (some header)
  | some (.error .timeout, _) => .ok none
  | some (.error (.protocol error), _) => .error error
  | _ => .error .invalidMarker

/-! ## 3. Writing -/

def writeZheader (frameType : ZFrameType) (position : Position) : ModemProc H Unit :=
  let includeXon := !(frameType == .zFin || frameType == .zAck)
  writeAll (encodeHexHeader frameType position includeXon)

/-- A position header at a checked offset. -/
def writeZheaderAt (frameType : ZFrameType) (offset : Nat) : ModemProc H Unit := do
  let position ← ofExcept (positionHeaderChecked offset)
  writeZheader frameType position

def writeZbinaryHeader (frameType : ZFrameType) (position : Position) (useCrc32 escapeControl : Bool) :
    ModemProc H Unit :=
  writeAll (if useCrc32 then encodeBin32HeaderWithEscape frameType position escapeControl
    else encodeBin16HeaderWithEscape frameType position escapeControl)

/-- The bytes of a data subpacket. -/
def encodeZdata (payload : List UInt8) (e : ZDataEnd) (useCrc32 escapeControl : Bool) : List UInt8 :=
  let crc :=
    if useCrc32 then
      u32ToLeBytes (~~~ (crc32IeeeUpdate (payload.foldl crc32IeeeUpdate 0xffffffff#32) e.marker))
    else
      let crc := crc16XmodemUpdate (payload.foldl crc16XmodemUpdate 0) e.marker
      [crcHigh crc, crcLow crc]
  escaped escapeControl payload ++ [zdle, e.marker] ++ escaped escapeControl crc ++
    if e = .endWithAck then [xon] else []

def writeZdata (payload : List UInt8) (e : ZDataEnd) (useCrc32 escapeControl : Bool) :
    ModemProc H Unit :=
  writeAll (encodeZdata payload e useCrc32 escapeControl)

def sendZrinit : ModemProc H Unit := writeZheader .zrInit zrinitFlags

end Streaming

/-! ## 4. The receiver -/

/-- A program of the receiving side. -/
abbrev ZmodemProc (α : Type) : Type 1 := ModemProc ZmodemFileHeader α

/-- One turn of `finish_zmodem_receive`, on the two counters. -/
def finishReceiveTurn (counters : Nat × Nat) : ZmodemProc (Turn (Nat × Nat) Unit) := do
  let byte ← readByte
  let consecutiveO := if byte = 0x4f then counters.1 + 1 else 0
  if consecutiveO = 2 then ret (.done ())
  else
    let consecutiveCancel := if byte = zdle then counters.2 + 1 else 0
    if consecutiveCancel = 5 then fail .cancelled
    else ret (.again (consecutiveO, consecutiveCancel))

def finishZmodemReceive : ZmodemProc Unit := do
  writeZheader .zFin (positionHeader 0)
  loop finishReceiveTurn (0, 0)

variable (fileSize : Option Nat)

/-- `receive_zmodem` on a subpacket that was read, at the received offset. -/
def acceptSubpacket (offset : Nat) (frame : ZDataFrame) : ZmodemProc (Turn Nat Nat) :=
  let nextOffset := offset + frame.payload.length
  if nextOffset > u64Max then fail .unexpectedFrame
  else if fileSize.any (nextOffset > ·) then fail .unexpectedFrame
  else do
    fileCall (.write frame.payload)
    match frame.end with
    | .continue => ret (.again nextOffset)
    | .continueWithAck => do
        writeZheaderAt .zAck nextOffset
        ret (.again nextOffset)
    | .end => ret (.done nextOffset)
    | .endWithAck => do
        writeZheaderAt .zAck nextOffset
        ret (.done nextOffset)

/-- `receive_zmodem` on the outcome of reading a subpacket. -/
def handleSubpacket (offset : Nat) :
    Except ModemTransferError ZDataFrame → ZmodemProc (Turn Nat Nat)
  | .error (.protocol .invalidCrc) => do
      writeZheaderAt .zRpos offset
      ret (.done offset)
  | .error error => fail error
  | .ok frame => acceptSubpacket fileSize offset frame

/-- One turn of the subpacket loop of `receive_zmodem`, on the received offset. -/
def receiveSubpacket (useCrc32 : Bool) (offset : Nat) : ZmodemProc (Turn Nat Nat) := do
  let frame ← (readZmodemData useCrc32 zmodemMaxChunk).attempt
  handleSubpacket fileSize offset frame

/-- `receive_zmodem` on a header that was read while a file is open. -/
def handleDataHeader (offset : Nat) (header : ZHeader) : ZmodemProc (Turn Nat Unit) :=
  match header.frameType with
  | .zData =>
    if header.positionU32 ≠ offset then do
      writeZheaderAt .zRpos offset
      ret (.again offset)
    else do
      let offset ← loop (receiveSubpacket fileSize (header.encoding == .bin32)) offset
      ret (.again offset)
  | .zEof =>
    if header.positionU32 ≠ offset ∨ ¬ fileSize.all (· == offset) then do
      writeZheaderAt .zRpos offset
      ret (.again offset)
    else do
      fileCall .flush
      sendZrinit
      ret (.done ())
  | .zAbort | .zCan => fail .cancelled
  | _ => fail .unexpectedFrame

/-- One turn of the loop over a file's headers, on the received offset. -/
def receiveDataHeader (offset : Nat) : ZmodemProc (Turn Nat Unit) := do
  let header ← readZmodemHeader
  handleDataHeader fileSize offset header

/-- The check of a size the file header declares, if it declares one. -/
def validateDeclaredSize : Option Nat → Except ModemTransferError Unit
  | some fileSize => validateZmodemFileSize fileSize
  | none => .ok ()

/-- `receive_zmodem` from an accepted file header to the file's end. -/
def receiveFile (fileHeader : ZmodemFileHeader) : ZmodemProc Unit := do
  ofExcept (validateDeclaredSize fileHeader.fileSize)
  fileCall (.openWriter fileHeader)
  writeZheaderAt .zRpos 0
  loop (receiveDataHeader fileHeader.fileSize) 0

variable (received : List ZmodemFileHeader)

/-- `receive_zmodem` on the subpacket behind a `ZFILE` header. -/
def handleFileFrame (frame : ZDataFrame) :
    ZmodemProc (Turn (List ZmodemFileHeader) (List ZmodemFileHeader)) :=
  if frame.end ≠ .endWithAck then fail .unexpectedFrame
  else do
    match ← ofExcept (parseZfileHeader frame.payload) with
    | none => do
        finishZmodemReceive
        ret (.done received)
    | some fileHeader => do
        receiveFile fileHeader
        ret (.again (received ++ [fileHeader]))

/-- `receive_zmodem` on a header that was read between files. -/
def handleFrame (header : ZHeader) :
    ZmodemProc (Turn (List ZmodemFileHeader) (List ZmodemFileHeader)) :=
  match header.frameType with
  | .zrqInit => do
      sendZrinit
      ret (.again received)
  | .zFile => do
      let frame ← readZmodemData (header.encoding == .bin32) zmodemMaxChunk
      handleFileFrame received frame
  | .zsInit => do
      let frame ← readZmodemData (header.encoding == .bin32) zmodemAttentionMaxBytes
      if frame.end ≠ .endWithAck then fail .unexpectedFrame
      else do
        writeZheader .zAck (positionHeader 1)
        ret (.again received)
  | .zFin => do
      finishZmodemReceive
      ret (.done received)
  | .zAbort | .zCan => fail .cancelled
  | _ => ret (.again received)

/-- One turn of the session loop of `receive_zmodem`, on the list `received`. -/
def receiveFrame : ZmodemProc (Turn (List ZmodemFileHeader) (List ZmodemFileHeader)) := do
  let header ← readZmodemHeader
  handleFrame received header

def receiveZmodem : ZmodemProc (List ZmodemFileHeader) := do
  sendZrinit
  loop receiveFrame []

/-! ## 5. The sender -/

section Sender

variable {H R : Type} [Read R] [Seek R]

/-- `wait_for_zrinit` on a header that was read. -/
def handleZrinit (header : ZHeader) : ModemProc H (Turn Unit ZmodemPeerCapabilities) :=
  match header.frameType with
  | .zrInit =>
    let advertisedChunk := header.position.b0.toNat + header.position.b1.toNat * 256
    let chunkSize := if advertisedChunk < 32 then 1024 else min advertisedChunk zmodemMaxChunk
    let flags := header.position.b3
    ret (.done ⟨chunkSize, flags &&& zmodemCanCrc32 != 0, flags &&& zmodemEscapeControl != 0⟩)
  | .zrqInit => do
      writeZheader .zrInit zrinitFlags
      ret (.again ())
  | .zAbort | .zCan => fail .cancelled
  | _ => ret (.again ())

/-- One turn of `wait_for_zrinit`. -/
def waitForZrinitTurn (_ : Unit) : ModemProc H (Turn Unit ZmodemPeerCapabilities) := do
  let header ← readZmodemHeader
  handleZrinit header

def waitForZrinit : ModemProc H ZmodemPeerCapabilities := loop waitForZrinitTurn ()

/-- `send_zfile_data_stream` on the answer to a subpacket that asked for one. -/
def handleAck (reader : R) (sentOffset : Nat) (response : ZHeader) :
    ModemProc H (Turn (R × Nat) (R × Option ZmodemSendDataResult)) :=
  match response.frameType with
  | .zAck =>
    if response.positionU32 = sentOffset then ret (.again (reader, sentOffset))
    else fail .unexpectedFrame
  | .zRpos => ret (.done (reader, some (.resumeAt response.positionU32)))
  | .zSkip => ret (.done (reader, some .skip))
  | .zAbort | .zCan => fail .cancelled
  | _ => fail .unexpectedFrame

/-- One turn of the chunk loop of `send_zfile_data_stream`. It leaves early with a result, or
    without one when the file is through. -/
def sendChunk (fileSize : Nat) (peer : ZmodemPeerCapabilities) (state : R × Nat) :
    ModemProc H (Turn (R × Nat) (R × Option ZmodemSendDataResult)) := do
  let (reader, sentOffset) := state
  if ¬ sentOffset < fileSize then ret (.done (reader, none))
  else do
    let remaining := min (fileSize - sentOffset) peer.chunkSize
    let (bytes, reader) ← ofExcept (readPadded reader remaining)
    if bytes = [] then fail .unexpectedFrame
    else do
      let sentOffset := min (sentOffset + bytes.length) u64Max
      let frameEnd := if sentOffset < fileSize then ZDataEnd.continueWithAck else .end
      writeZdata bytes frameEnd peer.useCrc32 peer.escapeControl
      if frameEnd ≠ .continueWithAck then ret (.again (reader, sentOffset))
      else do
        let response ← readZmodemHeader
        handleAck reader sentOffset response

/-- The subpacket that stands for an empty rest of the file. -/
def writeEmptyRest (start fileSize : Nat) (peer : ZmodemPeerCapabilities) : ModemProc H Unit :=
  if start = fileSize then writeZdata [] .end peer.useCrc32 peer.escapeControl else ret ()

/-- `send_zfile_data_stream` behind its chunk loop. -/
def finishFileData (start fileSize : Nat) (peer : ZmodemPeerCapabilities) :
    R × Option ZmodemSendDataResult → ModemProc H (R × ZmodemSendDataResult)
  | (reader, some result) => ret (reader, result)
  | (reader, none) => do
      writeEmptyRest start fileSize peer
      writeZheaderAt .zEof fileSize
      ret (reader, .complete)

def sendZfileDataStream (reader : R) (fileSize offset : Nat) (peer : ZmodemPeerCapabilities) :
    ModemProc H (R × ZmodemSendDataResult) := do
  let start := min offset fileSize
  let reader ← ofExcept (Seek.seek reader start)
  let position ← ofExcept (positionHeaderChecked start)
  writeZbinaryHeader .zData position peer.useCrc32 peer.escapeControl
  let left ← loop (sendChunk fileSize peer) (reader, start)
  finishFileData start fileSize peer left

/-- `send_zmodem_stream` on the answer to a file's end; the loop leaves with the bytes to count. -/
def handleFollowup (fileSize : Nat) (reader : R) (followup : ZHeader) :
    ModemProc H (Turn (R × Nat) Nat) :=
  match followup.frameType with
  | .zrInit => ret (.done fileSize)
  | .zRpos =>
    if followup.positionU32 > fileSize then fail .unexpectedFrame
    else ret (.again (reader, followup.positionU32))
  | .zSkip => ret (.done 0)
  | .zAbort | .zCan => fail .cancelled
  | _ => fail .unexpectedFrame

/-- `send_zmodem_stream` on the outcome of sending a file's data. -/
def handleDataResult (fileSize : Nat) : R × ZmodemSendDataResult → ModemProc H (Turn (R × Nat) Nat)
  | (reader, .resumeAt nextOffset) =>
    if nextOffset > fileSize then fail .unexpectedFrame else ret (.again (reader, nextOffset))
  | (_, .skip) => ret (.done 0)
  | (reader, .complete) => do
      let followup ← readZmodemHeader
      handleFollowup fileSize reader followup

/-- One turn of the loop that sends a file from an offset. -/
def sendFromOffset (fileSize : Nat) (peer : ZmodemPeerCapabilities) (state : R × Nat) :
    ModemProc H (Turn (R × Nat) Nat) := do
  let result ← sendZfileDataStream state.1 fileSize state.2 peer
  handleDataResult fileSize result

/-- `send_zmodem_stream` on the answer to a file header. -/
def handleFileResponse (entry : ZmodemSendStreamEntry R) (peer : ZmodemPeerCapabilities)
    (response : ZHeader) : ModemProc H (Turn Unit Nat) :=
  match response.frameType with
  | .zRpos =>
    if response.positionU32 > entry.fileSize then fail .unexpectedFrame
    else do
      let sent ← loop (sendFromOffset entry.fileSize peer) (entry.reader, response.positionU32)
      ret (.done sent)
  | .zSkip => ret (.done 0)
  | .zAbort | .zCan => fail .cancelled
  | _ => ret (.again ())

/-- One turn of the loop that waits for the peer's answer to a file header. -/
def awaitFileResponse (entry : ZmodemSendStreamEntry R) (peer : ZmodemPeerCapabilities) (_ : Unit) :
    ModemProc H (Turn Unit Nat) := do
  let response ← readZmodemHeader
  handleFileResponse entry peer response

/-- The body of the entry loop: the bytes the entry adds to the total. -/
def sendEntry (peer : ZmodemPeerCapabilities) (entry : ZmodemSendStreamEntry R) :
    ModemProc H Nat := do
  writeZbinaryHeader .zFile zfileBinaryFlags peer.useCrc32 peer.escapeControl
  writeZdata (buildZfileHeader entry.fileName entry.fileSize) .endWithAck peer.useCrc32
    peer.escapeControl
  loop (awaitFileResponse entry peer) ()

/-- The entry loop of `send_zmodem_stream`, on the total. -/
def sendEntries (peer : ZmodemPeerCapabilities) :
    List (ZmodemSendStreamEntry R) → Nat → ModemProc H Nat
  | [], total => ret total
  | entry :: entries, total => do
      let sent ← sendEntry peer entry
      sendEntries peer entries (total + sent)

/-- `finish_zmodem_send` with the given number of tries. -/
def finishZmodemSendTries : Nat → ModemProc H Unit
  | 0 => fail .timeout
  | n + 1 => do
      writeZheader .zFin (positionHeader 0)
      let header ← readZmodemHeader
      match header.frameType with
      | .zFin => writeAll [0x4f, 0x4f]
      | .zAbort | .zCan | .zFerr => fail .cancelled
      | _ => finishZmodemSendTries n

def finishZmodemSend : ModemProc H Unit := finishZmodemSendTries 3

/-- The size check `send_zmodem_stream` makes on every entry first. -/
def validateEntries (entries : List (ZmodemSendStreamEntry R)) : Except ModemTransferError Unit :=
  entries.forM fun entry => validateZmodemFileSize entry.fileSize

def sendZmodemStream (entries : List (ZmodemSendStreamEntry R)) : ModemProc H Nat := do
  ofExcept (validateEntries entries)
  let peer ← waitForZrinit
  let total ← sendEntries peer entries 0
  finishZmodemSend
  ret total

end Sender

end Hapcli.Modem
