/-
  Subject:   The XMODEM and YMODEM transfer programs (`xymodem_transfer.rs`), statement by
             statement.

  A `for _ in 0..XYMODEM_RETRIES` of the source is a recursion on the tries left. The writer of
  `receive_xmodem` is the file opened last; so is the one `open_writer` returns.
-/
import Hapcli.Modem.Xymodem

namespace Hapcli.Modem

open Hapcli.Process Hapcli.Rust Proc ModemProc

/-! ## 1. Data -/

def xymodemRetries : Nat := 10

inductive XmodemBlockMode where
  | bytes128
  | bytes1024
  deriving DecidableEq

def XmodemBlockMode.blockSize : XmodemBlockMode → XyBlockSize
  | bytes128 => .bytes128
  | bytes1024 => .bytes1024

structure YmodemSendStreamEntry (R : Type) where
  fileName : Str
  fileSize : Nat
  reader : R

inductive XymodemPacket where
  | block (block : XyBlock)
  | endOfTransmission
  deriving DecidableEq

section Streaming

variable {H : Type}

/-! ## 2. Reading -/

/-- `n` bytes, one after another. -/
def readBytes : Nat → ModemProc H (List UInt8)
  | 0 => ret []
  | n + 1 => do
      let byte ← readByte
      let bytes ← readBytes n
      ret (byte :: bytes)

/-- The part of `read_xymodem_block` and `read_xymodem_packet` behind the marker. -/
def readMarkedBlock (useCrc : Bool) (marker : UInt8) : ModemProc H XyBlock :=
  match XyBlockSize.fromMarker marker with
  | none => fail (.unexpectedByte marker)
  | some size => do
      let raw ← readBytes (2 + size.len + checkLen useCrc)
      ofExcept (liftError (XyBlock.parse useCrc (marker :: raw)))

def readXymodemBlock (useCrc : Bool) : ModemProc H XyBlock := do
  let marker ← readByte
  readMarkedBlock useCrc marker

/-- `CAN` was read; a second one cancels, anything else leaves the `CAN` unexpected. -/
def expectSecondCan {α : Type} : ModemProc H α := do
  let byte ← readByte
  if byte = can then fail .cancelled else fail (.unexpectedByte can)

/-- `read_xymodem_packet` behind the marker. -/
def readMarkedPacket (useCrc : Bool) (marker : UInt8) : ModemProc H XymodemPacket :=
  if marker = eot then ret .endOfTransmission
  else if marker = can then expectSecondCan
  else do
    let block ← readMarkedBlock useCrc marker
    ret (.block block)

def readXymodemPacket (useCrc : Bool) : ModemProc H XymodemPacket := do
  let marker ← readByte
  readMarkedPacket useCrc marker

def expectByteOrCancel (expected : UInt8) : ModemProc H Unit := do
  let byte ← readByte
  if byte = expected then ret ()
  else if byte = can then expectSecondCan
  else fail (.unexpectedByte byte)

/-- `wait_for_xymodem_start` with the given number of tries. -/
def waitForStartTries : Nat → ModemProc H Bool
  | 0 => fail .timeout
  | n + 1 => do
      let byte ← readByte
      if byte = wantCrc then ret true
      else if byte = nak then ret false
      else if byte = can then do
        let second ← readByte
        if second = can then fail .cancelled else waitForStartTries n
      else waitForStartTries n

def waitForXymodemStart : ModemProc H Bool := waitForStartTries xymodemRetries

/-! ## 3. The receiver -/

variable (expectedSize : Option Nat)

/-- The bytes of an accepted payload that are written: those up to the expected size. -/
def writeLen (total : Nat) (payload : List UInt8) : Nat :=
  match expectedSize with
  | some size => min (size - total) payload.length
  | none => payload.length

/-- `receive_xymodem_blocks` writes an accepted payload; the new total. -/
def writePayload (total : Nat) (payload : List UInt8) : ModemProc H Nat :=
  if writeLen expectedSize total payload > 0 then do
    fileCall (.write (payload.take (writeLen expectedSize total payload)))
    ret (total + writeLen expectedSize total payload)
  else ret total

/-- What `receive_xymodem_blocks` keeps from turn to turn. -/
structure BlockState where
  expected : UInt8 := 1
  total : Nat := 0
  retries : Nat := 0

/-- `receive_xymodem_blocks` on a block that was read. -/
def handleBlock (state : BlockState) (block : XyBlock) : ModemProc H (Turn BlockState Nat) :=
  if block.number = state.expected then do
    let total ← writePayload expectedSize state.total block.payload
    writeAll [ack]
    ret (.again ⟨state.expected + 1, total, 0⟩)
  else if block.number ≠ state.expected - 1 then do
    writeAll [nak]
    ret (.again { state with retries := 0 })
  else do
    writeAll [ack]
    ret (.again { state with retries := 0 })

/-- YMODEM confirms EOT with NAK/EOT/ACK, unlike XMODEM's single EOT/ACK exchange. -/
def confirmEot (useYmodemEotHandshake : Bool) : ModemProc H Unit :=
  if useYmodemEotHandshake then do
    writeAll [nak]
    expectByteOrCancel eot
  else ret ()

/-- `receive_xymodem_blocks` on an end of transmission. -/
def handleEot (useYmodemEotHandshake : Bool) (state : BlockState) :
    ModemProc H (Turn BlockState Nat) := do
  confirmEot useYmodemEotHandshake
  fileCall .flush
  writeAll [ack]
  ret (.done state.total)

/-- `receive_xymodem_blocks` on an error other than a cancel. -/
def handleBadPacket (state : BlockState) (error : ModemTransferError) :
    ModemProc H (Turn BlockState Nat) :=
  if state.retries < xymodemRetries then do
    writeAll [nak]
    if error = .unexpectedByte eot then fail error
    else ret (.again { state with retries := state.retries + 1 })
  else fail error

/-- `receive_xymodem_blocks` on the outcome of reading a packet. -/
def handlePacket (useYmodemEotHandshake : Bool) (state : BlockState) :
    Except ModemTransferError XymodemPacket → ModemProc H (Turn BlockState Nat)
  | .ok .endOfTransmission => handleEot useYmodemEotHandshake state
  | .ok (.block block) => handleBlock expectedSize state block
  | .error .cancelled => fail .cancelled
  | .error error => handleBadPacket state error

/-- One turn of `receive_xymodem_blocks`. -/
def receivePacket (useCrc : Bool) (expectedSize : Option Nat) (useYmodemEotHandshake : Bool)
    (state : BlockState) : ModemProc H (Turn BlockState Nat) := do
  let packet ← (readXymodemPacket useCrc).attempt
  handlePacket expectedSize useYmodemEotHandshake state packet

def receiveXymodemBlocks (useCrc : Bool) (expectedSize : Option Nat)
    (useYmodemEotHandshake : Bool) : ModemProc H Nat :=
  loop (receivePacket useCrc expectedSize useYmodemEotHandshake) {}

def receiveXmodem (useCrc : Bool) : ModemProc H Nat := do
  writeAll [if useCrc then wantCrc else nak]
  receiveXymodemBlocks useCrc none false

/-- `receive_ymodem` from an accepted file header to the file's end. -/
def receiveYmodemFile (header : YmodemFileHeader) : ModemProc YmodemFileHeader Unit := do
  writeAll [wantCrc]
  fileCall (.openWriter header)
  let bytes ← receiveXymodemBlocks true header.fileSize true
  if header.fileSize.any (bytes < ·) then fail .unexpectedFrame else ret ()

/-- `receive_ymodem` on a header block that was read. -/
def handleHeaderBlock (received : List YmodemFileHeader) (block : XyBlock) :
    ModemProc YmodemFileHeader (Turn (List YmodemFileHeader) (List YmodemFileHeader)) :=
  if block.number ≠ 0 then do
    writeAll [nak]
    ret (.again received)
  else do
    writeAll [ack]
    match ← ofExcept (liftError (YmodemFileHeader.parseBlock0Payload block.payload)) with
    | none => ret (.done received)
    | some header => do
        receiveYmodemFile header
        ret (.again (received ++ [header]))

/-- One turn of `receive_ymodem`, on the list `received`. -/
def receiveHeaderBlock (received : List YmodemFileHeader) :
    ModemProc YmodemFileHeader (Turn (List YmodemFileHeader) (List YmodemFileHeader)) := do
  writeAll [wantCrc]
  let block ← readXymodemBlock true
  handleHeaderBlock received block

def receiveYmodem : ModemProc YmodemFileHeader (List YmodemFileHeader) :=
  loop receiveHeaderBlock []

/-! ## 4. The sender -/

variable {R : Type} [Read R]

/-- The tries of `send_xymodem_block`. -/
def sendBlockTries (bytes : List UInt8) : Nat → ModemProc H Unit
  | 0 => fail .timeout
  | n + 1 => do
      writeAll bytes
      let answer ← readByte
      if answer = ack then ret ()
      else if answer = nak ∨ answer = wantCrc then sendBlockTries bytes n
      else if answer = can then do
        let second ← readByte
        if second = can then fail .cancelled else sendBlockTries bytes n
      else fail (.unexpectedByte answer)

def sendXymodemBlock (number : UInt8) (size : XyBlockSize) (payload : List UInt8) (useCrc : Bool) :
    ModemProc H Unit := do
  let block ← ofExcept (liftError (XyBlock.new number size payload))
  sendBlockTries (block.encode useCrc) xymodemRetries

/-- What `send_xymodem_blocks` puts behind a short read: the buffer is filled with CPMEOF first. -/
def fillBuffer (size : XyBlockSize) (bytes : List UInt8) : List UInt8 :=
  bytes ++ List.replicate (size.len - bytes.length) cpmeof

/-- One turn of `send_xymodem_blocks`, on the reader, the block number and the total. -/
def sendNextBlock (size : XyBlockSize) (useCrc : Bool) (state : R × UInt8 × Nat) :
    ModemProc H (Turn (R × UInt8 × Nat) Nat) := do
  let (reader, number, total) := state
  let (bytes, reader) ← ofExcept (readPadded reader size.len)
  if bytes = [] then ret (.done total)
  else do
    sendXymodemBlock number size (fillBuffer size bytes) useCrc
    ret (.again (reader, number + 1, total + bytes.length))

def sendXymodemBlocks (reader : R) (size : XyBlockSize) (useCrc : Bool) : ModemProc H Nat :=
  loop (sendNextBlock size useCrc) (reader, 1, 0)

/-- `finish_xymodem_send` with the given number of tries. -/
def finishSendTries : Nat → ModemProc H Unit
  | 0 => fail .timeout
  | n + 1 => do
      writeAll [eot]
      let answer ← readByte
      if answer = ack then ret ()
      else if answer = nak then finishSendTries n
      else if answer = can then do
        let second ← readByte
        if second = can then fail .cancelled else finishSendTries n
      else fail (.unexpectedByte answer)

def finishXymodemSend : ModemProc H Unit := finishSendTries xymodemRetries

def sendXmodem (reader : R) (blockMode : XmodemBlockMode) : ModemProc H Nat := do
  let useCrc ← waitForXymodemStart
  let bytesSent ← sendXymodemBlocks reader blockMode.blockSize useCrc
  finishXymodemSend
  ret bytesSent

/-- The body of the entry loop behind block 0: the bytes, at most as many as declared. -/
def sendYmodemData (entry : YmodemSendStreamEntry R) : ModemProc H Nat := do
  expectByteOrCancel wantCrc
  let entryBytes ← sendXymodemBlocks (Take.mk entry.reader entry.fileSize) .bytes1024 true
  if entryBytes ≠ entry.fileSize then fail .unexpectedFrame
  else do
    finishXymodemSend
    ret entryBytes

/-- The body of the entry loop: the bytes the entry adds to the total. -/
def sendYmodemEntry (entry : YmodemSendStreamEntry R) : ModemProc H Nat := do
  let _ ← waitForXymodemStart
  let header ← ofExcept (liftError (YmodemFileHeader.new entry.fileName (some entry.fileSize)))
  let payload ← ofExcept (liftError header.encodeBlock0Payload)
  sendXymodemBlock 0 .bytes128 payload true
  sendYmodemData entry

/-- The entry loop of `send_ymodem_stream`, on the total. -/
def sendYmodemEntries : List (YmodemSendStreamEntry R) → Nat → ModemProc H Nat
  | [], total => ret total
  | entry :: entries, total => do
      let sent ← sendYmodemEntry entry
      sendYmodemEntries entries (total + sent)

def sendYmodemStream (entries : List (YmodemSendStreamEntry R)) : ModemProc H Nat := do
  let total ← sendYmodemEntries entries 0
  let _ ← waitForXymodemStart
  sendXymodemBlock 0 .bytes128 (List.replicate 128 0) true
  ret total

end Streaming

/-! ## 5. The parsers and the wire -/

section Parsing

variable {H : Type}

theorem reads_bytes (bytes : List UInt8) :
    Reads (readBytes bytes.length : ModemProc H (List UInt8)) bytes (.ok bytes) := by
  induction bytes with
  | nil => exact .ret []
  | cons b bytes ih => exact Reads.read (ih.map (b :: ·))

theorem reads_bytes_inv {n : Nat} {bs bytes : List UInt8}
    (h : Reads (readBytes n : ModemProc H (List UInt8)) bs (.ok bytes)) :
    bs = bytes ∧ bytes.length = n := by
  induction n generalizing bs bytes with
  | zero =>
    obtain ⟨rfl, rfl⟩ := reads_ret_inv h
    exact ⟨rfl, rfl⟩
  | succ n ih =>
    obtain ⟨b, cs, rfl, h1⟩ := reads_read_inv h
    obtain ⟨rest, cs₁, cs₂, rfl, h2, h3⟩ := reads_bind_ok h1
    obtain ⟨rfl, rfl⟩ := reads_ret_inv h3
    obtain ⟨rfl, rfl⟩ := ih h2
    simp

theorem readOnly_bytes (n : Nat) : ReadOnly (readBytes n : ModemProc H (List UInt8)) := by
  induction n with
  | zero => exact .ret []
  | succ n ih => exact readOnly_read fun b => ih.bind fun bytes => .ret _

theorem readOnly_ofExcept {α : Type} (r : Except ModemTransferError α) :
    ReadOnly (ofExcept r : ModemProc H α) := by
  cases r with
  | ok a => exact .ret a
  | error e => exact .fail e

theorem readOnly_markedBlock (useCrc : Bool) (marker : UInt8) :
    ReadOnly (readMarkedBlock useCrc marker : ModemProc H XyBlock) := by
  unfold readMarkedBlock
  split
  · exact .fail _
  · exact (readOnly_bytes _).bind fun raw => readOnly_ofExcept _

theorem readOnly_secondCan {α : Type} : ReadOnly (expectSecondCan : ModemProc H α) := by
  refine readOnly_read fun byte => ?_
  split <;> exact .fail _

theorem readOnly_packet (useCrc : Bool) :
    ReadOnly (readXymodemPacket useCrc : ModemProc H XymodemPacket) := by
  refine readOnly_read fun marker => ?_
  unfold readMarkedPacket
  split
  · exact .ret _
  · split
    · exact readOnly_secondCan
    · exact (readOnly_markedBlock useCrc marker).bind fun block => .ret _

variable {block : XyBlock} {useCrc : Bool}

theorem reads_markedBlock {w : List UInt8} (h : BlockWire useCrc block (block.size.marker :: w)) :
    Reads (readMarkedBlock useCrc block.size.marker : ModemProc H XyBlock) w (.ok block) := by
  have hlen : w.length = 2 + block.size.len + checkLen useCrc := by
    have := congrArg List.length h.wire
    simp only [XyBlock.encodeWith, List.length_append, List.length_cons, List.length_nil,
      length_blockCheck, h.size] at this
    omega
  unfold readMarkedBlock
  rw [XyBlockSize.fromMarker_marker]
  have hr := Reads.bind (f := fun raw => ofExcept (liftError (XyBlock.parse useCrc
    (block.size.marker :: raw)))) (reads_bytes (H := H) w) (r := .ok block) (by
      rw [parseBlock_ok_iff.mpr h]
      exact .ret block)
  rw [hlen, List.append_nil] at hr
  exact hr

theorem reads_markedBlock_inv {marker : UInt8} {w : List UInt8}
    (h : Reads (readMarkedBlock useCrc marker : ModemProc H XyBlock) w (.ok block)) :
    BlockWire useCrc block (marker :: w) := by
  unfold readMarkedBlock at h
  split at h
  · exact absurd h reads_fail_inv
  · obtain ⟨raw, w₁, w₂, rfl, h1, h2⟩ := reads_bind_ok h
    obtain ⟨rfl, -⟩ := reads_bytes_inv h1
    cases hp : XyBlock.parse useCrc (marker :: w₁) with
    | error e =>
      rw [hp] at h2
      exact absurd h2 reads_fail_inv
    | ok b =>
      rw [hp] at h2
      obtain ⟨rfl, rfl⟩ := reads_ret_inv h2
      rw [List.append_nil]
      exact parseBlock_ok_iff.mp hp

/-- What stands behind the marker of a block on the wire. -/
def blockRest (useCrc : Bool) (block : XyBlock) : List UInt8 :=
  block.number :: ~~~ block.number :: (block.payload ++ blockCheck useCrc block.payload)

theorem encode_marker (useCrc : Bool) (block : XyBlock) :
    block.encode useCrc = block.size.marker :: blockRest useCrc block := by
  simp [encode_eq, XyBlock.encodeWith, blockRest]

theorem reads_blockRest (h : block.payload.length = block.size.len) :
    Reads (readMarkedBlock useCrc block.size.marker : ModemProc H XyBlock) (blockRest useCrc block)
      (.ok block) :=
  reads_markedBlock ⟨h, by rw [← encode_marker, encode_eq]⟩

theorem reads_block (h : block.payload.length = block.size.len) :
    Reads (readXymodemBlock useCrc : ModemProc H XyBlock) (block.encode useCrc) (.ok block) := by
  rw [encode_marker]
  exact Reads.read (reads_blockRest h)

theorem marker_ne (size : XyBlockSize) : size.marker ≠ eot ∧ size.marker ≠ can := by
  cases size <;> decide

theorem reads_packet (h : block.payload.length = block.size.len) :
    Reads (readXymodemPacket useCrc : ModemProc H XymodemPacket) (block.encode useCrc)
      (.ok (.block block)) := by
  rw [encode_marker]
  refine Reads.read (reads_of_eq (if_neg (marker_ne block.size).1)
    (reads_of_eq (if_neg (marker_ne block.size).2) ?_))
  exact (reads_blockRest h).map XymodemPacket.block

theorem reads_eot (useCrc : Bool) :
    Reads (readXymodemPacket useCrc : ModemProc H XymodemPacket) [eot] (.ok .endOfTransmission) :=
  Reads.read (.ret _)

theorem reads_expected (byte : UInt8) :
    Reads (expectByteOrCancel byte : ModemProc H Unit) [byte] (.ok ()) :=
  Reads.read (reads_of_eq (if_pos rfl) (.ret ()))

theorem reads_start (useCrc : Bool) :
    Reads (waitForXymodemStart : ModemProc H Bool) [if useCrc then wantCrc else nak]
      (.ok useCrc) := by
  cases useCrc <;> exact Reads.read (.ret _)

theorem reads_packet_inv {packet : XymodemPacket} {bs : List UInt8}
    (h : Reads (readXymodemPacket useCrc : ModemProc H XymodemPacket) bs (.ok packet)) :
    (∃ block, packet = .block block ∧ BlockWire useCrc block bs) ∨
      packet = .endOfTransmission ∧ bs = [eot] := by
  obtain ⟨marker, cs, rfl, h1⟩ := reads_read_inv h
  unfold readMarkedPacket at h1
  split_ifs at h1 with h2 h3
  · obtain ⟨rfl, rfl⟩ := reads_ret_inv h1
    exact .inr ⟨rfl, by rw [h2]⟩
  · obtain ⟨b, cs, rfl, h4⟩ := reads_read_inv h1
    split_ifs at h4
    · exact absurd h4 reads_fail_inv
    · exact absurd h4 reads_fail_inv
  · obtain ⟨block, w₁, w₂, rfl, h4, h5⟩ := reads_bind_ok h1
    obtain ⟨rfl, rfl⟩ := reads_ret_inv h5
    rw [List.append_nil]
    exact .inl ⟨block, rfl, reads_markedBlock_inv h4⟩

end Parsing

end Hapcli.Modem
