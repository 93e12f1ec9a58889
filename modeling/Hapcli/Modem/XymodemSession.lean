/-
  Subject:   XMODEM AND YMODEM END TO END: the senders against the receivers.

  The pair is run block by block (`joint_block`, `joint_blocks`), then through the end of a
  transmission (`joint_eot`, with YMODEM's handshake or without) and, for YMODEM, from file to
  file (`joint_ymodemEntry`, `joint_ymodemEntries`). Between two messages both channels are empty.

  * `xmodem_delivers`, `ymodem_delivers` -- **both sides return Ok and the bytes arrive**.
-/
import Hapcli.Modem.XymodemSequence
import Hapcli.Process.Joint

namespace Hapcli.Modem

open Hapcli.Process Hapcli.Rust Proc ModemProc

/-! ## 1. Padding -/

/-- The bytes, padded with CPMEOF to a whole number of blocks. -/
def padToBlocks (size : XyBlockSize) (bytes : List UInt8) : List UInt8 :=
  bytes ++ List.replicate ((size.len - bytes.length % size.len) % size.len) cpmeof

theorem padToBlocks_nil (size : XyBlockSize) : padToBlocks size [] = [] := by
  simp [padToBlocks]

variable {bytes : List UInt8} {size : XyBlockSize}

theorem length_fillBuffer (h : bytes.length ≤ size.len) :
    (fillBuffer size bytes).length = size.len := by
  rw [fillBuffer, List.length_append, List.length_replicate]
  omega

theorem padToBlocks_step (h : bytes ≠ []) :
    padToBlocks size bytes =
      fillBuffer size (bytes.take size.len) ++ padToBlocks size (bytes.drop size.len) := by
  have hpos := size.len_pos
  have hb := List.length_pos_iff.mpr h
  by_cases hle : bytes.length ≤ size.len
  · rw [List.take_of_length_le hle, List.drop_of_length_le hle, padToBlocks_nil, List.append_nil,
      padToBlocks, fillBuffer]
    rcases Nat.eq_or_lt_of_le hle with heq | hlt
    · rw [heq, Nat.mod_self, Nat.sub_zero, Nat.mod_self, Nat.sub_self]
    · rw [Nat.mod_eq_of_lt hlt, Nat.mod_eq_of_lt (by omega)]
  · have hfull : fillBuffer size (bytes.take size.len) = bytes.take size.len := by
      rw [fillBuffer, List.length_take, Nat.min_eq_left (by omega), Nat.sub_self]
      simp
    rw [hfull, padToBlocks, padToBlocks, ← List.append_assoc, List.take_append_drop,
      List.length_drop, ← Nat.mod_eq_sub_mod (by omega)]

/-! ## 2. Blocks -/

/-- The pair over channels that carry nothing. -/
abbrev XJoint {H β₁ β₂ : Type} (p : ModemProc Unit β₁) (q : ModemProc H β₂) (c d : List UInt8)
    (r₁ : Except ModemTransferError β₁) (r₂ : Except ModemTransferError β₂)
    (m : List (FileCall H)) : Prop :=
  Joint accepts accepts p q c d r₁ r₂ [] m

section Pair

variable {H R β₁ β₂ : Type} [Read R] {r₁ : Except ModemTransferError β₁}
  {r₂ : Except ModemTransferError β₂} {m : List (FileCall H)}

theorem XJoint.call {p : ModemProc Unit β₁} {c d : List UInt8} {call : FileCall H}
    {g : Unit → ModemProc H β₂} (h : XJoint p (g ()) c d r₁ r₂ m) :
    XJoint p ((fileCall call).bind g) c d r₁ r₂ (call :: m) :=
  Joint.callR (a := .ok ()) (fun _ => Iff.rfl) h

variable {payload : List UInt8} {expectedSize : Option Nat} {handshake useCrc : Bool}
  {number : UInt8} {reader : R} {total : Nat}

theorem sendXymodemBlock_full (h : payload.length = size.len) :
    (sendXymodemBlock number size payload useCrc : ModemProc Unit Unit) =
      sendBlockTries ((XyBlock.mk number size payload).encode useCrc) xymodemRetries := by
  simp only [sendXymodemBlock, new_full h, liftError_ok, ofExcept_ok, bind_eq, ret_bind]

theorem joint_writePayload (expectedSize : Option Nat) (total : Nat) (payload : List UInt8) :
    ∃ writes : List (List UInt8),
      writes.flatten = payload.take (writeLen expectedSize total payload) ∧
      ∀ (p : ModemProc Unit β₁) (c d : List UInt8) (m : List (FileCall H))
        (g : Nat → ModemProc H β₂),
        XJoint p (g (total + writeLen expectedSize total payload)) c d r₁ r₂ m →
        XJoint p ((writePayload expectedSize total payload).bind g) c d r₁ r₂
          (writes.map .write ++ m) := by
  unfold writePayload
  split
  · exact ⟨[_], List.append_nil _, fun p c d m g h => Joint.assocR (XJoint.call h)⟩
  · rename_i hz
    obtain hz : writeLen expectedSize total payload = 0 := by omega
    refine ⟨[], by rw [hz]; rfl, fun p c d m g h => ?_⟩
    rwa [hz, Nat.add_zero] at h

theorem handlePacket_due {retries : Nat} :
    (handlePacket expectedSize handshake ⟨number, total, retries⟩
      (.ok (.block ⟨number, size, payload⟩)) : ModemProc H _) =
      (writePayload expectedSize total payload).bind fun total =>
        (writeAll [ack]).bind fun _ => ret (.again ⟨number + 1, total, 0⟩) := if_pos rfl

/-- A block goes over: it is written, acknowledged, and the next number is due. -/
theorem joint_block (hlen : payload.length = size.len) :
    ∃ writes : List (List UInt8),
      writes.flatten = payload.take (writeLen expectedSize total payload) ∧
      ∀ (m : List (FileCall H)) (f : Unit → ModemProc Unit β₁) (g : Nat → ModemProc H β₂),
        XJoint (f ()) (iter (receivePacket useCrc expectedSize handshake)
          ⟨number + 1, total + writeLen expectedSize total payload, 0⟩ g) [] [] r₁ r₂ m →
        XJoint ((sendXymodemBlock number size payload useCrc).bind f)
          (iter (receivePacket useCrc expectedSize handshake) ⟨number, total, 0⟩ g) [] [] r₁ r₂
          (writes.map .write ++ m) := by
  obtain ⟨writes, hw, hwrite⟩ := joint_writePayload (H := H) expectedSize
    total payload
  refine ⟨writes, hw, fun m f g h => ?_⟩
  rw [sendXymodemBlock_full hlen]
  refine Joint.assocL (Joint.putL (Joint.turnR (Joint.assocR
    (Joint.takeR (reads_packet hlen).follows.attempt ?_))))
  rw [handlePacket_due]
  refine Joint.assocL (Joint.assocR (hwrite _ _ _ _ _ (Joint.assocR (Joint.putR
    (Joint.takeL (follows_readByte ack) ?_)))))
  rw [if_pos rfl]
  exact h

theorem cutAt_step (expectedSize : Option Nat) (total : Nat) (payload more : List UInt8) :
    cutAt (expectedSize.map (· - total)) (payload ++ more) =
      payload.take (writeLen expectedSize total payload) ++
        cutAt (expectedSize.map (· - (total + writeLen expectedSize total payload))) more := by
  cases expectedSize with
  | none => simp [cutAt, writeLen]
  | some size =>
    simp only [cutAt, writeLen, Option.map_some, List.take_append]
    congr 1
    · rw [List.take_eq_take_iff]
      omega
    · congr 1
      omega

variable {f : Unit → ModemProc Unit β₁} {reader' : R} {sent : Nat} {state : BlockState}

theorem sendNextBlock_more (hread : readPadded reader size.len = .ok (bytes, reader'))
    (hne : bytes ≠ []) :
    (sendNextBlock size useCrc (reader, number, sent) : ModemProc Unit _) =
      (sendXymodemBlock number size (fillBuffer size bytes) useCrc).bind fun _ =>
        ret (.again (reader', number + 1, sent + bytes.length)) := by
  simp only [sendNextBlock, hread, ofExcept_ok, bind_eq, ret_bind, hne, if_false]

theorem sendNextBlock_done (hread : readPadded reader size.len = .ok ([], reader')) :
    (sendNextBlock size useCrc (reader, number, sent) : ModemProc Unit _) = ret (.done sent) := by
  simp only [sendNextBlock, hread, ofExcept_ok, bind_eq, ret_bind, if_true]

/-- All blocks of a reader go over, padded; what is written ends at the expected size. -/
theorem joint_blocks (expectedSize : Option Nat) {rest : List UInt8}
    (hreader : Delivers reader rest) (number : UInt8) (sent total : Nat) :
    ∃ writes : List (List UInt8),
      writes.flatten = cutAt (expectedSize.map (· - total)) (padToBlocks size rest) ∧
      ∀ (m : List (FileCall H)) (f : Nat → ModemProc Unit β₁) (g : Nat → ModemProc H β₂),
        (∀ number', XJoint (f (sent + rest.length)) (iter (receivePacket useCrc expectedSize handshake)
          ⟨number', total + writes.flatten.length, 0⟩ g) [] [] r₁ r₂ m) →
        XJoint (iter (sendNextBlock size useCrc) (reader, number, sent) f)
          (iter (receivePacket useCrc expectedSize handshake) ⟨number, total, 0⟩ g) [] [] r₁ r₂
          (writes.map .write ++ m) := by
  induction hn : rest.length using Nat.strongRecOn generalizing rest reader number sent total with
  | ind n ih =>
    subst hn
    obtain ⟨reader', hread, hreader'⟩ := readPadded_spec hreader size.len
    by_cases hrest : rest = []
    · subst hrest
      rw [List.take_nil] at hread
      refine ⟨[], ?_, fun m f g h => Joint.turnL ?_⟩
      · rw [padToBlocks_nil]
        cases expectedSize <;> simp [cutAt]
      · unfold Proc.unfold
        rw [sendNextBlock_done hread]
        exact h number
    · have hpos := List.length_pos_iff.mpr hrest
      have hsize := size.len_pos
      have hne : rest.take size.len ≠ [] := by
        rw [← List.length_pos_iff, List.length_take]
        omega
      have hfill : (fillBuffer size (rest.take size.len)).length = size.len :=
        length_fillBuffer (List.length_take_le _ _)
      obtain ⟨first, hfirst, hblock⟩ := joint_block (H := H) hfill
      obtain ⟨writes, hw, hrec⟩ := ih (rest.drop size.len).length
        (by rw [List.length_drop]; omega) hreader' (number + 1)
        (sent + (rest.take size.len).length)
        (total + writeLen expectedSize total (fillBuffer size (rest.take size.len))) rfl
      have hle := writeLen_le expectedSize total (fillBuffer size (rest.take size.len))
      have hlen : first.flatten.length =
          writeLen expectedSize total (fillBuffer size (rest.take size.len)) := by
        rw [hfirst, List.length_take, Nat.min_eq_left hle]
      refine ⟨first ++ writes, ?_, fun m f g h => Joint.turnL ?_⟩
      · rw [List.flatten_append, hfirst, hw, padToBlocks_step hrest, cutAt_step]
      · unfold Proc.unfold
        rw [sendNextBlock_more hread hne, List.map_append, List.append_assoc]
        refine Joint.assocL (hblock _ _ _ (hrec m f g fun number' => ?_))
        have hj := h number'
        rw [List.flatten_append, List.length_append, hlen, ← Nat.add_assoc] at hj
        have hsum : sent + (rest.take size.len).length + (rest.drop size.len).length =
            sent + rest.length := by
          rw [List.length_take, List.length_drop]
          omega
        rw [hsum]
        exact hj

/-! ## 3. The end of a transmission -/

theorem handlePacket_eot :
    (handlePacket expectedSize false state (.ok .endOfTransmission) : ModemProc H _) =
      (fileCall .flush).bind fun _ => (writeAll [ack]).bind fun _ => ret (.done state.total) := rfl

theorem handlePacket_eot_handshake :
    (handlePacket expectedSize true state (.ok .endOfTransmission) : ModemProc H _) =
      (writeAll [nak]).bind fun _ => (expectByteOrCancel eot).bind fun _ =>
        (fileCall .flush).bind fun _ => (writeAll [ack]).bind fun _ => ret (.done state.total) := by
  simp only [handlePacket, handleEot, confirmEot, if_true, bind_eq, bind_assoc]

/-- EOT goes over, with YMODEM's handshake or without; the receiver returns its total. -/
theorem joint_eot {g : Nat → ModemProc H β₂} (h : XJoint (f ()) (g total) [] [] r₁ r₂ m) :
    XJoint (finishXymodemSend.bind f)
      (iter (receivePacket useCrc expectedSize handshake) ⟨number, total, 0⟩ g) [] [] r₁ r₂
      (.flush :: m) := by
  refine Joint.assocL (Joint.putL (Joint.turnR (Joint.assocR
    (Joint.takeR (reads_eot useCrc).follows.attempt (Joint.assocL ?_)))))
  cases handshake with
  | false =>
    rw [handlePacket_eot]
    refine Joint.assocR (XJoint.call (Joint.assocR (Joint.putR
      (Joint.takeL (follows_readByte ack) ?_))))
    rw [if_pos rfl]
    exact h
  | true =>
    rw [handlePacket_eot_handshake]
    refine Joint.assocR (Joint.putR (Joint.takeL (follows_readByte nak) ?_))
    rw [if_neg (by decide), if_pos rfl]
    refine Joint.assocL (Joint.putL (Joint.assocR (Joint.assocL
      (Joint.takeR (reads_expected eot).follows ?_))))
    refine Joint.assocR (XJoint.call (Joint.assocR (Joint.putR
      (Joint.takeL (follows_readByte ack) ?_))))
    rw [if_pos rfl]
    exact h

/-! ## 4. XMODEM -/

/-- The state in which an XMODEM transfer has succeeded: the writer got the padded payload. -/
structure XmodemDelivered (mode : XmodemBlockMode) (payload : List UInt8)
    (net : Net UInt8 (FileCall Unit) FileCall.Ans ModemTransferError Nat
      (FileCall Unit) FileCall.Ans ModemTransferError Nat) : Prop where
  sender : net.left = ret payload.length
  receiver : net.right = ret (padToBlocks mode.blockSize payload).length
  written : writtenBytes net.rightLog = padToBlocks mode.blockSize payload

theorem joint_xmodem (hreader : Delivers reader payload) (mode : XmodemBlockMode) (useCrc : Bool) :
    ∃ log, writtenBytes log = padToBlocks mode.blockSize payload ∧
      XJoint (sendXmodem reader mode) (receiveXmodem useCrc : ModemProc Unit Nat) [] []
        (.ok payload.length) (.ok (padToBlocks mode.blockSize payload).length) log := by
  obtain ⟨writes, hw, hblocks⟩ := joint_blocks (H := Unit) none hreader 1 0 0
  replace hw : writes.flatten = padToBlocks mode.blockSize payload := hw
  refine ⟨writes.map .write ++ [.flush], ?_, ?_⟩
  · rw [writtenBytes_append, writtenBytes_writes, hw]
    exact List.append_nil _
  · refine Joint.putR (Joint.takeL (reads_start useCrc).follows (hblocks _ _ _ fun number' => ?_))
    refine joint_eot ?_
    rw [hw, Nat.zero_add, Nat.zero_add]
    exact joint_ret _ _

/-! ## 5. YMODEM -/

/-- What a `send_ymodem_stream` entry must be for the file `bytes` to arrive: a valid name without a
    NUL, a header that fits block 0, a reader of at least as many bytes as declared. -/
structure YmodemSendable (entry : YmodemSendStreamEntry R) (bytes : List UInt8) : Prop where
  name : validateYmodemFileName entry.fileName = .ok ()
  noNul : '\x00' ∉ entry.fileName
  header : (asBytes entry.fileName).length + 1 + (asBytes (numToString entry.fileSize)).length <
    XyBlockSize.bytes128.len
  width : entry.fileSize ≤ u64Max
  reader : ∃ all, Delivers entry.reader all ∧ bytes = all.take entry.fileSize
  size : bytes.length = entry.fileSize

/-- The header the sender makes of an entry. -/
def YmodemSendStreamEntry.header (entry : YmodemSendStreamEntry R) : YmodemFileHeader :=
  ⟨entry.fileName, some entry.fileSize⟩

variable {entry : YmodemSendStreamEntry R} {received : List YmodemFileHeader}

theorem YmodemSendable.block0 (h : YmodemSendable entry bytes) :
    ∃ payload, YmodemFileHeader.encodeBlock0Payload entry.header = .ok payload ∧
      payload.length = XyBlockSize.bytes128.len ∧
      YmodemFileHeader.parseBlock0Payload payload = .ok (some entry.header) := by
  obtain ⟨hne, -⟩ := validateYmodemFileName_ok_iff.mp h.name
  have hfits := h.header
  obtain ⟨payload, hp⟩ : ∃ payload, YmodemFileHeader.encodeBlock0Payload entry.header = .ok payload := by
    unfold YmodemFileHeader.encodeBlock0Payload YmodemSendStreamEntry.header
    dsimp only
    rw [if_neg (by rw [not_or]; exact ⟨asBytes_ne_nil hne, by omega⟩), if_neg (by omega)]
    exact ⟨_, rfl⟩
  exact ⟨payload, hp, parseBlock0Payload_encode h.name h.noNul h.width hp⟩

theorem sendYmodemEntry_header (hname : validateYmodemFileName entry.fileName = .ok ())
    (hp : YmodemFileHeader.encodeBlock0Payload entry.header = .ok payload) :
    (sendYmodemEntry entry : ModemProc Unit Nat) =
      waitForXymodemStart.bind fun _ => (sendXymodemBlock 0 .bytes128 payload true).bind fun _ =>
        sendYmodemData entry := by
  have hnew : YmodemFileHeader.new entry.fileName (some entry.fileSize) = .ok entry.header := by
    unfold YmodemFileHeader.new
    rw [hname]
    rfl
  simp only [sendYmodemEntry, hnew, hp, liftError_ok, ofExcept_ok, bind_eq, ret_bind]

theorem handleHeaderBlock_file {header : YmodemFileHeader}
    (h : YmodemFileHeader.parseBlock0Payload payload = .ok (some header)) :
    handleHeaderBlock received ⟨0, .bytes128, payload⟩ =
      (writeAll [ack]).bind fun _ => (receiveYmodemFile header).bind fun _ =>
        ret (.again (received ++ [header])) := by
  simp only [handleHeaderBlock, ne_eq, not_true, if_false, h, liftError_ok, ofExcept_ok, bind_eq,
    ret_bind]

theorem handleHeaderBlock_end :
    handleHeaderBlock received ⟨0, .bytes128, List.replicate 128 0⟩ =
      (writeAll [ack]).bind fun _ => ret (.done received) := by
  have h : YmodemFileHeader.parseBlock0Payload (List.replicate 128 0) = .ok none := by
    simp [YmodemFileHeader.parseBlock0Payload, List.findIdx?_cons, List.replicate_succ]
  simp only [handleHeaderBlock, ne_eq, not_true, if_false, h, liftError_ok, ofExcept_ok, bind_eq,
    ret_bind]

variable {my : List (FileCall YmodemFileHeader)}

theorem joint_block0 {g : List YmodemFileHeader → ModemProc YmodemFileHeader β₂}
    {k : ModemProc YmodemFileHeader (Turn (List YmodemFileHeader) (List YmodemFileHeader))}
    (hlen : payload.length = XyBlockSize.bytes128.len)
    (hk : handleHeaderBlock received ⟨0, .bytes128, payload⟩ = (writeAll [ack]).bind fun _ => k)
    (h : XJoint (f ()) (k.bind (goOn receiveHeaderBlock g)) [] [] r₁ r₂ my) :
    XJoint (waitForXymodemStart.bind fun _ =>
      (sendXymodemBlock 0 .bytes128 payload true).bind f) (iter receiveHeaderBlock received g)
      [] [] r₁ r₂ my := by
  refine Joint.turnR (Joint.assocR (Joint.putR (Joint.takeL (reads_start true).follows ?_)))
  rw [sendXymodemBlock_full hlen]
  refine Joint.assocL (Joint.putL (Joint.assocR (Joint.takeR (reads_block hlen).follows ?_)))
  rw [hk]
  refine Joint.assocL (Joint.assocR (Joint.putR (Joint.takeL (follows_readByte ack) ?_)))
  rw [if_pos rfl]
  exact h

theorem joint_ymodemData (hfile : YmodemSendable entry bytes) :
    ∃ writes : List (List UInt8), writes.flatten = bytes ∧
      ∀ (my : List (FileCall YmodemFileHeader)) (f : Nat → ModemProc Unit β₁)
        (g : Unit → ModemProc YmodemFileHeader β₂),
        XJoint (f entry.fileSize) (g ()) [] [] r₁ r₂ my →
        XJoint ((sendYmodemData entry).bind f) ((receiveYmodemFile entry.header).bind g) [] [] r₁ r₂
          (fileLog entry.header writes ++ my) := by
  obtain ⟨all, hall, hbytes⟩ := hfile.reader
  have hreader := hall.take entry.fileSize
  rw [← hbytes] at hreader
  obtain ⟨writes, hw, hblocks⟩ := joint_blocks (H := YmodemFileHeader) (some entry.fileSize)
    hreader 1 0 0
  replace hw : writes.flatten = bytes := by
    rw [hw, padToBlocks]
    exact List.take_left' hfile.size
  refine ⟨writes, hw, fun my f g h => ?_⟩
  have hlog : fileLog entry.header writes ++ my =
      .openWriter entry.header :: (writes.map .write ++ .flush :: my) := by
    simp [fileLog]
  rw [hlog]
  refine Joint.assocL (Joint.assocR (Joint.putR (Joint.takeL (reads_expected wantCrc).follows ?_)))
  refine Joint.assocR (XJoint.call (Joint.assocR (Joint.assocL (hblocks _ _ _ fun number' => ?_))))
  rw [Nat.zero_add, hfile.size, hw, hfile.size]
  have hsent : ¬ entry.fileSize ≠ entry.fileSize := not_not.mpr rfl
  simp only [ret_bind, hsent, if_false]
  refine Joint.assocL (joint_eot ?_)
  have hany : ¬ (entry.header.fileSize.any (0 + entry.fileSize < ·)) = true := by
    simp [YmodemSendStreamEntry.header]
  rw [if_neg hany]
  exact h

theorem joint_ymodemEntry (hfile : YmodemSendable entry bytes) :
    ∃ writes : List (List UInt8), writes.flatten = bytes ∧
      ∀ (my : List (FileCall YmodemFileHeader)) (received : List YmodemFileHeader)
        (f : Nat → ModemProc Unit β₁)
        (g : List YmodemFileHeader → ModemProc YmodemFileHeader β₂),
        XJoint (f entry.fileSize) (iter receiveHeaderBlock (received ++ [entry.header]) g) [] []
          r₁ r₂ my →
        XJoint ((sendYmodemEntry entry).bind f) (iter receiveHeaderBlock received g) [] [] r₁ r₂
          (fileLog entry.header writes ++ my) := by
  obtain ⟨payload, hp, hlen, hparse⟩ := hfile.block0
  obtain ⟨writes, hw, hdata⟩ := joint_ymodemData hfile
  refine ⟨writes, hw, fun my received f g h => ?_⟩
  rw [sendYmodemEntry_header hfile.name hp]
  refine Joint.assocL ?_
  simp only [bind_assoc]
  refine joint_block0 hlen (handleHeaderBlock_file hparse) (Joint.assocR (hdata my _ _ ?_))
  exact h

variable (entries : List (YmodemSendStreamEntry R))

/-- The bytes of a list of files, one entry each, in order. -/
def YmodemSendables (files : List (List UInt8)) : Prop :=
  List.Forall₂ YmodemSendable entries files

/-- The total the sender counts. -/
def ymodemTotal : Nat := (entries.map (·.fileSize)).sum

/-- The state in which both sides have returned Ok: the sender the sum of the sizes, the receiver
    the headers in order, its writers exactly the files. -/
structure YmodemDelivered (files : List (List UInt8))
    (net : Net UInt8 (FileCall Unit) FileCall.Ans ModemTransferError Nat
      (FileCall YmodemFileHeader) FileCall.Ans ModemTransferError (List YmodemFileHeader)) :
    Prop where
  sender : net.left = ret (ymodemTotal entries)
  receiver : net.right = ret (entries.map (·.header))
  written : writtenFiles net.rightLog = (entries.map (·.header)).zip files

theorem joint_ymodemEntries {entries : List (YmodemSendStreamEntry R)} {files : List (List UInt8)}
    (hfiles : YmodemSendables entries files) :
    ∃ log, (∀ done, log.foldl applyCall done = done ++ (entries.map (·.header)).zip files) ∧
      ∀ (my : List (FileCall YmodemFileHeader)) (total : Nat) (received : List YmodemFileHeader)
        (f : Nat → ModemProc Unit β₁)
        (g : List YmodemFileHeader → ModemProc YmodemFileHeader β₂),
        XJoint (f (total + ymodemTotal entries))
          (iter receiveHeaderBlock (received ++ entries.map (·.header)) g) [] [] r₁ r₂ my →
        XJoint ((sendYmodemEntries entries total).bind f) (iter receiveHeaderBlock received g)
          [] [] r₁ r₂ (log ++ my) := by
  induction hfiles with
  | nil =>
    refine ⟨[], fun done => by simp, fun my total received f g h => ?_⟩
    rwa [List.map_nil, List.append_nil] at h
  | @cons entry bytes entries files hfile _ ih =>
    obtain ⟨log, hlog, hrest⟩ := ih
    obtain ⟨writes, hw, hentry⟩ := joint_ymodemEntry hfile
    refine ⟨fileLog entry.header writes ++ log, fun done => ?_,
      fun my total received f g h => ?_⟩
    · rw [List.foldl_append, foldl_fileLog, hlog, hw, List.append_assoc]
      rfl
    · rw [List.append_assoc]
      refine Joint.assocL (hentry _ received _ g (hrest my _ _ f g ?_))
      simpa [ymodemTotal, Nat.add_assoc] using h

theorem joint_ymodemEnd :
    XJoint (waitForXymodemStart.bind fun _ =>
      (sendXymodemBlock 0 .bytes128 (List.replicate 128 0) true).bind fun _ => ret total)
      (iter receiveHeaderBlock received ret) [] [] (.ok total) (.ok received) [] :=
  joint_block0 (List.length_replicate ..) handleHeaderBlock_end (joint_ret total received)

end Pair

/-! ## 6. Every interleaving -/

section Completes

variable {R : Type} [Read R]

theorem xmodem_delivers {reader : R} {payload : List UInt8} (hreader : Delivers reader payload)
    (mode : XmodemBlockMode) (useCrc : Bool) :
    Completes (Net.Step accepts accepts) (XmodemDelivered mode payload)
      { left := sendXmodem reader mode, right := receiveXmodem useCrc } := by
  obtain ⟨log, hlog, hj⟩ := joint_xmodem hreader mode useCrc
  refine hj.completes.mono fun net hfinal => ⟨hfinal.left, hfinal.right, ?_⟩
  rw [hfinal.rightLog]
  exact hlog

theorem ymodem_delivers {entries : List (YmodemSendStreamEntry R)} {files : List (List UInt8)}
    (hfiles : YmodemSendables entries files) :
    Completes (Net.Step accepts accepts) (YmodemDelivered entries files)
      { left := sendYmodemStream entries, right := receiveYmodem } := by
  obtain ⟨log, hlog, hjoint⟩ := joint_ymodemEntries hfiles
  have hj : XJoint (sendYmodemStream entries) receiveYmodem [] [] (.ok (ymodemTotal entries))
      (.ok (entries.map (·.header))) (log ++ []) := by
    refine hjoint [] 0 [] _ _ ?_
    rw [Nat.zero_add, List.nil_append]
    exact joint_ymodemEnd
  refine hj.completes.mono fun net hfinal => ⟨hfinal.left, hfinal.right, ?_⟩
  rw [hfinal.rightLog, List.append_nil]
  exact hlog []

/-- **XMODEM and YMODEM end to end**: every interleaving of sender and receiver comes to an end,
    with every file delivered. -/
theorem xymodem_delivers :
    (∀ (entries : List (YmodemSendStreamEntry R)) (files : List (List UInt8)),
      YmodemSendables entries files →
        Completes (Net.Step accepts accepts) (YmodemDelivered entries files)
          { left := sendYmodemStream entries, right := receiveYmodem }) ∧
    ∀ (reader : R) (payload : List UInt8) (mode : XmodemBlockMode) (useCrc : Bool),
      Delivers reader payload →
        Completes (Net.Step accepts accepts) (XmodemDelivered mode payload)
          { left := sendXmodem reader mode, right := receiveXmodem useCrc } :=
  ⟨fun _ _ hfiles => ymodem_delivers hfiles,
    fun _ _ mode useCrc hreader => xmodem_delivers hreader mode useCrc⟩

end Completes

/-- One file of two bytes over YMODEM; the same bytes over XMODEM. -/
theorem xymodem_delivers_hi :
    Completes (Net.Step accepts accepts)
      (YmodemDelivered [⟨['a'], 2, ([0x68, 0x69] : List UInt8)⟩] [[0x68, 0x69]])
      { left := sendYmodemStream [⟨['a'], 2, ([0x68, 0x69] : List UInt8)⟩],
        right := receiveYmodem } ∧
    Completes (Net.Step accepts accepts) (XmodemDelivered .bytes128 [0x68, 0x69])
      { left := sendXmodem ([0x68, 0x69] : List UInt8) .bytes128, right := receiveXmodem true } := by
  refine ⟨xymodem_delivers.1 _ _ (.cons ?_ .nil),
    xymodem_delivers.2 _ _ .bytes128 true (delivers_slice _)⟩
  exact ⟨validateYmodemFileName_ok_iff.mpr (by decide), by decide, by decide, by decide,
    ⟨_, delivers_slice _, rfl⟩, rfl⟩

/-- A file whose name is a path. -/
def slashEntry : YmodemSendStreamEntry (List UInt8) := ⟨['a', '/', 'b'], 0, []⟩

/-- A name the sender refuses: the sender fails, the receiver waits for ever. -/
theorem ymodem_slash_stuck :
    ¬ Completes (Net.Step accepts accepts) (YmodemDelivered [slashEntry] [[]])
      { left := sendYmodemStream [slashEntry], right := receiveYmodem } := by
  -- the sender fails on reading the receiver's first `C`
  obtain ⟨k, hleft, hfail⟩ : ∃ k, (sendYmodemStream [slashEntry] : ModemProc Unit Nat) =
      .act .readByte k ∧ k (.ok wantCrc) = .fail (.protocol .invalidFileName) := ⟨_, rfl, rfl⟩
  obtain ⟨k₁, k₂, hright, hwait⟩ : ∃ k₁ k₂, (Proc.unfold receiveHeaderBlock [] ret :
      ModemProc YmodemFileHeader (List YmodemFileHeader)) = .act (.writeAll [wantCrc]) k₁ ∧
        k₁ (.ok ()) = .act .readByte k₂ := ⟨_, _, rfl, rfl⟩
  have hturn : Net.Step accepts accepts _ _ := .right (.act .readByte k) receiveYmodem
    [] [] [] [] (Move.turn receiveHeaderBlock [] ret [])
  have hwrite : Net.Step accepts accepts _ _ := .right (.act .readByte k)
    (.act (.writeAll [wantCrc]) k₁) [] [] [] [] (Move.writeAll [wantCrc] k₁ [])
  have hread : Net.Step accepts accepts _ _ := .left (.act .readByte k)
    (.act .readByte k₂) [] [wantCrc] [] [] (Move.readByte k wantCrc [])
  rw [hright] at hturn
  rw [hwait] at hwrite
  rw [hfail] at hread
  rw [hleft]
  refine not_completes (((Relation.ReflTransGen.single hturn).tail hwrite).tail hread)
    (Net.stuck_waiting _ _ _ _ _) fun h => ?_
  cases h.sender

end Hapcli.Modem
