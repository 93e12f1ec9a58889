/-
  Subject:   BLOCK SEQUENCING of the XMODEM/YMODEM receiver, for any packets the channel shows it:
             valid, corrupt, repeated, out of order, with the block number wrapping as often as it
             likes.

  `BlockTrace t accepted phase` describes the histories of a receiver that takes the blocks
  1, 2, 3, … modulo 256, each once and in order: an accepted block is on the wire right before its
  bytes are written, an ACK answers an accepted block or a repetition of the last one, and any
  other packet is answered NAK without a write.

  * `receiveXymodemBlocks_sequence` -- **every run of `receive_xymodem_blocks` keeps the blocks
    in sequence**.
-/
import Hapcli.Modem.XymodemTransfer

namespace Hapcli.Modem

open Hapcli.Process Hapcli.Rust Proc ModemProc

variable {H : Type}

/-! ## 1. The histories of an orderly receiver -/

/-- The history of a modem program. -/
abbrev ModemHist (H : Type) := Hist (IoOp UInt8 (FileCall H)) (IoOp.Ans ModemTransferError FileCall.Ans)

/-- The payloads, one behind the other. -/
def blockBytes (blocks : List XyBlock) : List UInt8 := blocks.flatMap (·.payload)

variable (expectedSize : Option Nat)

/-- The front of the bytes, when a size is expected. -/
def cutAt (bytes : List UInt8) : List UInt8 :=
  match expectedSize with
  | some size => bytes.take size
  | none => bytes

@[simp] theorem cutAt_none_yet :
    cutAt expectedSize (blockBytes []) = [] := by
  cases expectedSize <;> simp [cutAt, blockBytes]

/-- The bytes a further block adds to what is to be written. -/
def freshBytes (blocks : List XyBlock) (block : XyBlock) : List UInt8 :=
  (cutAt expectedSize (blockBytes (blocks ++ [block]))).drop
    (cutAt expectedSize (blockBytes blocks)).length

/-- The history of handing bytes to the writer; nothing is handed over if there are none. -/
def writeEvents (bytes : List UInt8) (r : Except ModemTransferError Unit) : ModemHist H :=
  if bytes = [] then [] else [⟨.call (.write bytes), r⟩]

/-- Between packets, behind a packet that will not be taken, behind one that will be
    acknowledged, behind the end of the transmission. -/
inductive BlockPhase where
  | ready
  | refusing
  | acking
  | closing

/-- **The histories of an orderly receiver**, with the blocks accepted so far, oldest first. -/
inductive BlockTrace (useCrc : Bool) (expectedSize : Option Nat) :
    ModemHist H → List XyBlock → BlockPhase → Prop where
  | start : BlockTrace useCrc expectedSize [] [] .ready
  /-- Any input may be refused, also one that breaks off. -/
  | refuse {t : ModemHist H} {blocks : List XyBlock}
      (h : BlockTrace useCrc expectedSize t blocks .ready) (bs : List UInt8) :
      BlockTrace useCrc expectedSize (t ++ readEvents bs) blocks .refusing
  | refuseFailed {t : ModemHist H} {blocks : List XyBlock}
      (h : BlockTrace useCrc expectedSize t blocks .ready) (bs : List UInt8)
      (e : ModemTransferError) :
      BlockTrace useCrc expectedSize (t ++ (readEvents bs ++ readFailed e)) blocks .refusing
  | nak {t : ModemHist H} {blocks : List XyBlock}
      (h : BlockTrace useCrc expectedSize t blocks .refusing)
      (r : Except ModemTransferError Unit) :
      BlockTrace useCrc expectedSize (t ++ [⟨.writeAll [nak], r⟩]) blocks .ready
  /-- A block with valid check bytes and the number that is due is written at once. -/
  | accept {t : ModemHist H} {blocks : List XyBlock}
      (h : BlockTrace useCrc expectedSize t blocks .ready) {block : XyBlock} {w : List UInt8}
      (hw : BlockWire useCrc block w) (hn : block.number = UInt8.ofNat (blocks.length + 1))
      (r : Except ModemTransferError Unit) :
      BlockTrace useCrc expectedSize
        (t ++ readEvents w ++ writeEvents (freshBytes expectedSize blocks block) r)
        (blocks ++ [block]) .acking
  /-- A repetition of the last block is acknowledged again, and not written. -/
  | again {t : ModemHist H} {blocks : List XyBlock}
      (h : BlockTrace useCrc expectedSize t blocks .ready) {block : XyBlock} {w : List UInt8}
      (hw : BlockWire useCrc block w) (hn : block.number = UInt8.ofNat blocks.length) :
      BlockTrace useCrc expectedSize (t ++ readEvents w) blocks .acking
  | ack {t : ModemHist H} {blocks : List XyBlock}
      (h : BlockTrace useCrc expectedSize t blocks .acking) (r : Except ModemTransferError Unit) :
      BlockTrace useCrc expectedSize (t ++ [⟨.writeAll [ack], r⟩]) blocks .ready
  /-- Behind an EOT nothing is written any more. -/
  | eot {t : ModemHist H} {blocks : List XyBlock}
      (h : BlockTrace useCrc expectedSize t blocks .ready) :
      BlockTrace useCrc expectedSize (t ++ readEvents [eot]) blocks .closing
  | hear {t : ModemHist H} {blocks : List XyBlock}
      (h : BlockTrace useCrc expectedSize t blocks .closing) (r : Except ModemTransferError UInt8) :
      BlockTrace useCrc expectedSize (t ++ [⟨.readByte, r⟩]) blocks .closing
  | say {t : ModemHist H} {blocks : List XyBlock}
      (h : BlockTrace useCrc expectedSize t blocks .closing) (bs : List UInt8)
      (r : Except ModemTransferError Unit) :
      BlockTrace useCrc expectedSize (t ++ [⟨.writeAll bs, r⟩]) blocks .closing
  | flush {t : ModemHist H} {blocks : List XyBlock}
      (h : BlockTrace useCrc expectedSize t blocks .closing)
      (r : Except ModemTransferError Unit) :
      BlockTrace useCrc expectedSize (t ++ [⟨.call .flush, r⟩]) blocks .closing

/-! ## 2. What such a history has written -/

@[simp] theorem writtenBytes_writeEvents (bytes : List UInt8) (r : Except ModemTransferError Unit) :
    writtenBytes (madeCalls (writeEvents bytes r : ModemHist H)) = bytes := by
  unfold writeEvents
  split
  · rename_i h
    rw [h]
    rfl
  · rw [madeCalls_call]
    simp [writtenBytes]

/-- The blocks are numbered 1, 2, 3, … modulo 256. -/
def Numbered (blocks : List XyBlock) : Prop :=
  ∀ i (h : i < blocks.length), (blocks.get ⟨i, h⟩).number = UInt8.ofNat (i + 1)

theorem Numbered.append {blocks : List XyBlock} (h : Numbered blocks) {block : XyBlock}
    (hn : block.number = UInt8.ofNat (blocks.length + 1)) : Numbered (blocks ++ [block]) := by
  intro i hi
  by_cases hlt : i < blocks.length
  · have := h i hlt
    simpa [List.getElem_append_left hlt] using this
  · rw [List.length_append, List.length_singleton] at hi
    obtain rfl : i = blocks.length := by omega
    simpa using hn

theorem cutAt_append (as bs : List UInt8) :
    cutAt expectedSize (as ++ bs) =
      cutAt expectedSize as ++ (cutAt expectedSize (as ++ bs)).drop (cutAt expectedSize as).length := by
  cases expectedSize with
  | none => simp [cutAt]
  | some size =>
    simp only [cutAt, List.take_append]
    rw [List.drop_left]

theorem cutAt_blockBytes (blocks : List XyBlock) (block : XyBlock) :
    cutAt expectedSize (blockBytes (blocks ++ [block])) =
      cutAt expectedSize (blockBytes blocks) ++ freshBytes expectedSize blocks block := by
  have h : blockBytes (blocks ++ [block]) = blockBytes blocks ++ block.payload := by
    simp [blockBytes]
  rw [freshBytes, h]
  exact cutAt_append _ _ _

section Trace

variable {useCrc : Bool} {expectedSize : Option Nat} {t : ModemHist H} {blocks : List XyBlock}
  {ph : BlockPhase}

theorem BlockTrace.numbered (h : BlockTrace useCrc expectedSize t blocks ph) : Numbered blocks := by
  induction h with
  | start => exact fun i hi => absurd hi (Nat.not_lt_zero i)
  | refuse _ _ ih => exact ih
  | refuseFailed _ _ _ ih => exact ih
  | nak _ _ ih => exact ih
  | accept _ _ hn _ ih => exact ih.append hn
  | again _ _ _ ih => exact ih
  | ack _ _ ih => exact ih
  | eot _ ih => exact ih
  | hear _ _ ih => exact ih
  | say _ _ _ ih => exact ih
  | flush _ _ ih => exact ih

theorem BlockTrace.written (h : BlockTrace useCrc expectedSize t blocks ph) :
    writtenBytes (madeCalls t) = cutAt expectedSize (blockBytes blocks) := by
  induction h with
  | start => simp [writtenBytes]
  | refuse _ _ ih => simpa using ih
  | refuseFailed _ _ e ih => simpa [readFailed] using ih
  | nak _ _ ih => simpa using ih
  | accept _ _ _ _ ih =>
    rw [cutAt_blockBytes, ← ih]
    simp
  | again _ _ _ ih => simpa using ih
  | ack _ _ ih => simpa using ih
  | eot _ ih => simpa using ih
  | hear _ _ ih => simpa using ih
  | say _ _ _ ih => simpa using ih
  | flush _ _ ih => simpa [writtenBytes] using ih

/-! ## 3. The receiver is orderly -/

/-- Some orderly receiver has this history. -/
def Orderly (useCrc : Bool) (expectedSize : Option Nat) (t : ModemHist H) : Prop :=
  ∃ blocks ph, BlockTrace useCrc expectedSize t blocks ph

theorem BlockTrace.orderly (h : BlockTrace useCrc expectedSize t blocks ph) :
    Orderly useCrc expectedSize t := ⟨blocks, ph, h⟩

/-- The outcome of reading a packet. -/
def PacketRead (useCrc : Bool) (expectedSize : Option Nat) (t : ModemHist H)
    (blocks : List XyBlock) : Except ModemTransferError XymodemPacket → ModemHist H → Prop
  | .ok (.block block), t' => ∃ w, t' = t ++ readEvents w ∧ BlockWire useCrc block w
  | .ok .endOfTransmission, t' => BlockTrace useCrc expectedSize t' blocks .closing
  | .error _, t' => BlockTrace useCrc expectedSize t' blocks .refusing

theorem safe_readPacket (h : BlockTrace useCrc expectedSize t blocks .ready) :
    Safe (Orderly useCrc expectedSize) (PacketRead useCrc expectedSize t blocks) t
      (readXymodemPacket useCrc) := by
  refine safe_readOnly (readOnly_packet useCrc) (fun bs => (h.refuse bs).orderly)
    (fun bs e => (h.refuseFailed bs e).orderly) (fun bs r hr => ?_)
    fun bs e => h.refuseFailed bs e
  cases r with
  | error e => exact h.refuse bs
  | ok packet =>
    rcases reads_packet_inv hr with ⟨block, rfl, hw⟩ | ⟨rfl, rfl⟩
    · exact ⟨bs, rfl, hw⟩
    · exact h.eot

theorem freshBytes_eq (expectedSize : Option Nat) (blocks : List XyBlock) (block : XyBlock) :
    freshBytes expectedSize blocks block =
      block.payload.take
        (writeLen expectedSize (cutAt expectedSize (blockBytes blocks)).length block.payload) := by
  have h : blockBytes (blocks ++ [block]) = blockBytes blocks ++ block.payload := by
    simp [blockBytes]
  rw [freshBytes, h]
  cases expectedSize with
  | none => simp [cutAt, writeLen]
  | some size =>
    simp only [cutAt, writeLen, List.take_append]
    rw [List.drop_left, List.length_take, List.take_eq_take_iff]
    omega

theorem writeLen_le (expectedSize : Option Nat) (total : Nat) (payload : List UInt8) :
    writeLen expectedSize total payload ≤ payload.length := by
  cases expectedSize with
  | none => exact Nat.le_refl _
  | some size => exact Nat.min_le_right _ _

/-- The invariant of the block loop: the number that is due and the bytes written so far. -/
structure BlocksTaken (useCrc : Bool) (expectedSize : Option Nat) (state : BlockState)
    (blocks : List XyBlock) (t : ModemHist H) : Prop where
  due : state.expected = UInt8.ofNat (blocks.length + 1)
  total : state.total = (cutAt expectedSize (blockBytes blocks)).length
  trace : BlockTrace useCrc expectedSize t blocks .ready

/-- What holds when the loop is left. -/
def BlocksDone (useCrc : Bool) (expectedSize : Option Nat) (total : Nat) (t : ModemHist H) : Prop :=
  ∃ blocks, total = (cutAt expectedSize (blockBytes blocks)).length ∧
    BlockTrace useCrc expectedSize t blocks .closing

/-- The postcondition of one turn. -/
abbrev AfterPacket (useCrc : Bool) (expectedSize : Option Nat) :
    Except ModemTransferError (Turn BlockState Nat) → ModemHist H → Prop :=
  onReturn (onFlow (fun state t => ∃ blocks, BlocksTaken useCrc expectedSize state blocks t)
    (BlocksDone useCrc expectedSize))

variable {state : BlockState}

theorem safe_answer {phase : BlockPhase} {answer : List UInt8}
    (due : state.expected = UInt8.ofNat (blocks.length + 1))
    (total : state.total = (cutAt expectedSize (blockBytes blocks)).length)
    (h : BlockTrace useCrc expectedSize t blocks phase)
    (hanswer : ∀ r, BlockTrace useCrc expectedSize (t ++ [⟨.writeAll answer, r⟩]) blocks .ready) :
    Safe (Orderly useCrc expectedSize) (AfterPacket useCrc expectedSize) t
      ((writeAll answer).bind fun _ => ret (.again state)) := by
  refine safe_then (safe_writeAll (P := fun t => BlockTrace useCrc expectedSize t blocks .ready)
    h.orderly (fun r => (hanswer r).orderly) (hanswer _)) fun _ t' h' => ?_
  exact safe_ret h'.orderly ⟨blocks, due, total, h'⟩

theorem safe_writePayload {block : XyBlock} {w : List UInt8}
    (h : BlockTrace useCrc expectedSize t blocks .ready) (hw : BlockWire useCrc block w)
    (hn : block.number = UInt8.ofNat (blocks.length + 1)) :
    Safe (Orderly useCrc expectedSize)
      (onReturn fun total t => total = (cutAt expectedSize (blockBytes (blocks ++ [block]))).length ∧
        BlockTrace useCrc expectedSize t (blocks ++ [block]) .acking)
      (t ++ readEvents w)
      (writePayload expectedSize (cutAt expectedSize (blockBytes blocks)).length block.payload) := by
  have hfresh := freshBytes_eq expectedSize blocks block
  have hle := writeLen_le expectedSize (cutAt expectedSize (blockBytes blocks)).length block.payload
  have hcut := cutAt_blockBytes expectedSize blocks block
  have hacc := h.accept hw hn
  rw [hcut, List.length_append, hfresh, List.length_take, Nat.min_eq_left hle]
  rw [hfresh] at hacc
  unfold writePayload
  split
  · rename_i hpos
    have hne : block.payload.take (writeLen expectedSize
        (cutAt expectedSize (blockBytes blocks)).length block.payload) ≠ [] := by
      rw [← List.length_pos_iff, List.length_take]
      omega
    simp only [writeEvents, hne, if_false] at hacc
    refine safe_then (safe_fileCall (P := fun t => BlockTrace useCrc expectedSize t
      (blocks ++ [block]) .acking) (h.refuse w).orderly (fun r => (hacc r).orderly) hacc)
      fun _ t' h' => ?_
    exact safe_ret h'.orderly ⟨rfl, h'⟩
  · rename_i hpos
    have hz : writeLen expectedSize (cutAt expectedSize (blockBytes blocks)).length
        block.payload = 0 := by omega
    rw [hz, List.take_zero] at hacc
    simp only [writeEvents, if_true, List.append_nil] at hacc
    exact safe_ret (hacc (.ok ())).orderly ⟨by rw [hz, Nat.add_zero], hacc (.ok ())⟩

theorem safe_handleBlock {block : XyBlock} {w : List UInt8}
    (h : BlocksTaken useCrc expectedSize state blocks t) (hw : BlockWire useCrc block w) :
    Safe (Orderly useCrc expectedSize) (AfterPacket useCrc expectedSize) (t ++ readEvents w)
      (handleBlock expectedSize state block) := by
  unfold handleBlock
  rw [h.total]
  split
  · rename_i hn
    refine safe_then (safe_writePayload h.trace hw (hn.trans h.due)) ?_
    rintro _ t' ⟨rfl, h'⟩
    refine safe_answer ?_ rfl h' h'.ack
    rw [h.due, List.length_append, List.length_singleton, UInt8.ofNat_add (blocks.length + 1) 1]
    rfl
  · split
    · have hrefused := h.trace.refuse w
      exact safe_answer h.due rfl hrefused hrefused.nak
    · rename_i hn
      have hagain : block.number = UInt8.ofNat blocks.length := by
        rw [not_not.mp hn, h.due, UInt8.ofNat_add]
        exact UInt8.add_sub_cancel _ _
      have hread := h.trace.again hw hagain
      exact safe_answer h.due rfl hread hread.ack

theorem safe_handleEot {handshake : Bool}
    (total : state.total = (cutAt expectedSize (blockBytes blocks)).length)
    (h : BlockTrace useCrc expectedSize t blocks .closing) :
    Safe (Orderly useCrc expectedSize) (AfterPacket useCrc expectedSize) t
      (handleEot handshake state) := by
  have say : ∀ {t : ModemHist H} (bs : List UInt8),
      BlockTrace useCrc expectedSize t blocks .closing →
      Safe (Orderly useCrc expectedSize)
        (onReturn fun _ t => BlockTrace useCrc expectedSize t blocks .closing) t (writeAll bs) :=
    fun bs h => safe_writeAll h.orderly (fun r => (h.say bs r).orderly) (h.say bs _)
  have hconfirm : Safe (Orderly useCrc expectedSize)
      (onReturn fun _ t => BlockTrace useCrc expectedSize t blocks .closing) t
      (confirmEot handshake) := by
    unfold confirmEot
    split
    · refine safe_then (say [nak] h) fun _ t₁ h₁ => ?_
      refine safe_act h₁.orderly fun r => ?_
      have h₂ := h₁.hear r
      cases r with
      | error e => exact safe_failure h₂.orderly
      | ok byte =>
        simp only [Proc.ofExcept_ok, ret_bind]
        split
        · exact safe_ret h₂.orderly h₂
        · split
          · refine safe_act h₂.orderly fun r => ?_
            have h₃ := h₂.hear r
            cases r with
            | error e => exact safe_failure h₃.orderly
            | ok byte =>
              simp only [Proc.ofExcept_ok, ret_bind]
              split <;> exact safe_failure h₃.orderly
          · exact safe_failure h₂.orderly
    · exact safe_ret h.orderly h
  refine safe_then hconfirm fun _ t₁ h₁ => ?_
  refine safe_then (safe_fileCall (P := fun t => BlockTrace useCrc expectedSize t blocks .closing)
    h₁.orderly (fun r => (h₁.flush r).orderly) h₁.flush) fun _ t₂ h₂ => ?_
  refine safe_then (say [ack] h₂) fun _ t₃ h₃ => ?_
  exact safe_ret h₃.orderly ⟨blocks, total, h₃⟩

theorem safe_handleBadPacket {error : ModemTransferError}
    (due : state.expected = UInt8.ofNat (blocks.length + 1))
    (total : state.total = (cutAt expectedSize (blockBytes blocks)).length)
    (h : BlockTrace useCrc expectedSize t blocks .refusing) :
    Safe (Orderly useCrc expectedSize) (AfterPacket useCrc expectedSize) t
      (handleBadPacket state error) := by
  unfold handleBadPacket
  split
  · refine safe_then (safe_writeAll (P := fun t => BlockTrace useCrc expectedSize t blocks .ready)
      h.orderly (fun r => (h.nak r).orderly) (h.nak _)) fun _ t' h' => ?_
    split
    · exact safe_failure h'.orderly
    · exact safe_ret h'.orderly ⟨blocks, due, total, h'⟩
  · exact safe_failure h.orderly

theorem safe_receivePacket {handshake : Bool} (h : BlocksTaken useCrc expectedSize state blocks t) :
    Safe (Orderly useCrc expectedSize) (AfterPacket useCrc expectedSize) t
      (receivePacket useCrc expectedSize handshake state) := by
  refine safe_bind (safe_attempt (safe_readPacket h.trace)) (fun r t' ho hr => ?_)
    fun _ _ _ hr => hr.elim
  unfold handlePacket
  split
  · exact safe_handleEot h.total hr
  · obtain ⟨w, rfl, hw⟩ := hr
    exact safe_handleBlock h hw
  · exact safe_failure ho
  · exact safe_handleBadPacket h.due h.total hr

/-- **Block sequencing**, at every step of every run of `receive_xymodem_blocks`, whatever packets
    come. -/
theorem receiveXymodemBlocks_sequence {handshake : Bool} {n : Nat} {q : ModemProc H Nat}
    (hr : Run n (receiveXymodemBlocks useCrc expectedSize handshake) t q) :
    ∃ blocks ph, BlockTrace useCrc expectedSize t blocks ph ∧ Numbered blocks ∧
      writtenBytes (madeCalls t) = cutAt expectedSize (blockBytes blocks) ∧
      ∀ total, q = ret total → total = (writtenBytes (madeCalls t)).length := by
  have hsafe : Safe (Orderly useCrc expectedSize) (onReturn (BlocksDone useCrc expectedSize)) []
      (receiveXymodemBlocks useCrc expectedSize handshake : ModemProc H Nat) := by
    refine safe_repeat (fun state t => ∃ blocks, BlocksTaken useCrc expectedSize state blocks t)
      ⟨[], rfl, by simp, .start⟩ ?_
    rintro state t ⟨blocks, h⟩
    exact safe_receivePacket h
  obtain ⟨ho, hret, -⟩ := hsafe n t q hr
  by_cases hq : ∃ total, q = ret total
  · obtain ⟨total, rfl⟩ := hq
    obtain ⟨blocks, rfl, h⟩ := hret total rfl
    refine ⟨blocks, .closing, h, h.numbered, h.written, fun total' h' => ?_⟩
    cases h'
    exact congrArg List.length h.written.symm
  · obtain ⟨blocks, ph, h⟩ := ho
    exact ⟨blocks, ph, h, h.numbered, h.written, fun total h' => absurd ⟨total, h'⟩ hq⟩

end Trace

/-- A block, the same again, a byte that starts no packet, a block out of order, the end. -/
def untidyPeer : List UInt8 :=
  XyBlock.encode false ⟨1, .bytes128, List.replicate 128 0x41⟩ ++
  XyBlock.encode false ⟨1, .bytes128, List.replicate 128 0x41⟩ ++ [0x55] ++
  XyBlock.encode false ⟨7, .bytes128, List.replicate 128 0x42⟩ ++ [eot]

theorem receiveXymodemBlocks_sequence_untidy :
    ∃ (n : Nat) (t : ModemHist Unit), Run n (receiveXymodemBlocks false (some 3) false) t (ret 3) ∧
      ∃ blocks ph, BlockTrace false (some 3) t blocks ph ∧ Numbered blocks ∧
        writtenBytes (madeCalls t) = cutAt (some 3) (blockBytes blocks) ∧
        ∀ total, (ret 3 : ModemProc Unit Nat) = ret total →
          total = (writtenBytes (madeCalls t)).length := by
  have h : (exec memoryModemIo 10 (receiveXymodemBlocks false (some 3) false : ModemProc Unit Nat)
      ⟨untidyPeer, []⟩).map Prod.fst = some (.ok 3) := by decide +kernel
  obtain ⟨⟨r, tape⟩, hx, rfl⟩ := Option.map_eq_some_iff.mp h
  obtain ⟨n, t, hr⟩ := exec_run hx
  exact ⟨n, t, hr, receiveXymodemBlocks_sequence hr⟩

end Hapcli.Modem
