/-
  Subject:   ZMODEM END TO END: `send_zmodem_stream` against `receive_zmodem`.

  The two programs are run against each other once, frame by frame (`joint_chunks`, `joint_file`,
  `joint_entries`); `Joint.completes` makes that the outcome of every interleaving. What is left in
  a channel between two frames is at most the XON behind the last header or subpacket: noise to
  the next header read.

  * `zmodem_delivers` -- **both sides return Ok and every file arrives, byte for byte**.
-/
import Hapcli.Modem.ZmodemParse
import Hapcli.Process.Joint

namespace Hapcli.Modem

open Hapcli.Process Hapcli.Rust Proc ModemProc

/-! ## 1. File headers -/

/-- A file name the receiver accepts. -/
structure AcceptedName (name : Str) : Prop where
  nonempty : name ≠ []
  noNul : '\x00' ∉ name
  noSlash : '/' ∉ name
  noBackslash : '\\' ∉ name
  notDot : name ≠ ['.']
  notDotDot : name ≠ ['.', '.']

variable {name : Str} {offset : Nat}

theorem parseZfileHeader_build {size : Nat} (hname : AcceptedName name) (hsize : size ≤ u64Max) :
    parseZfileHeader (buildZfileHeader name size) = .ok (some ⟨name, some size⟩) := by
  have hnul : (buildZfileHeader name size).findIdx? (· == 0) = some (asBytes name).length := by
    rw [buildZfileHeader, List.append_assoc]
    refine findIdx?_first (fun b hb => ?_) rfl
    rw [beq_eq_false_iff_ne]
    rintro rfl
    exact zero_not_mem_asBytes hname.noNul hb
  have htake : (buildZfileHeader name size).take (asBytes name).length = asBytes name := by
    rw [buildZfileHeader, List.append_assoc, List.take_left]
  have hdrop : (buildZfileHeader name size).drop ((asBytes name).length + 1) =
      asBytes (numToString size) := by
    rw [buildZfileHeader, List.drop_left' (by simp)]
  have hchars : name.any (fun c => c == '/' || c == '\\') = false := by
    rw [List.any_eq_false]
    intro c hc h
    rcases Bool.or_eq_true_iff.mp h with h | h
    · exact hname.noSlash (beq_iff_eq.mp h ▸ hc)
    · exact hname.noBackslash (beq_iff_eq.mp h ▸ hc)
  have hlen : (asBytes name).length ≠ 0 := by
    simpa using asBytes_ne_nil hname.nonempty
  simp only [parseZfileHeader, hnul, htake, hdrop, hlen, if_false, fromUtf8Lossy_asBytes, hchars,
    Bool.false_eq_true, hname.notDot, hname.notDotDot, or_self, splitWhitespace_numToString,
    List.head?_cons, parseU64, parseUnsigned_numToString hsize]

/-! ## 2. What each side does with a frame of the other -/

/-- What a sender learns from this receiver's `ZRINIT`. -/
def zrinitPeer : ZmodemPeerCapabilities := ⟨zmodemMaxChunk, true, true⟩

/-- The position bytes of an offset. -/
def positionAt (offset : Nat) : Position := positionHeader (BitVec.ofNat 32 offset)

section

variable (h : offset ≤ zmodemMaxPosition)

include h

theorem positionHeaderChecked_le : positionHeaderChecked offset = .ok (positionAt offset) := by
  unfold positionHeaderChecked
  rw [if_neg (Nat.not_lt.mpr h)]
  rfl

theorem positionU32_at (t : ZFrameType) (enc : ZHeaderEncoding) :
    (ZHeader.mk t (positionAt offset) enc).positionU32 = offset := by
  simp only [ZHeader.positionU32, positionAt, positionHeader_toU32, BitVec.toNat_ofNat]
  exact Nat.mod_eq_of_lt (by unfold zmodemMaxPosition at h; omega)

theorem writeZheaderAt_le {H : Type} (t : ZFrameType) :
    (writeZheaderAt t offset : ModemProc H Unit) = writeZheader t (positionAt offset) := by
  unfold writeZheaderAt
  rw [positionHeaderChecked_le h]
  rfl

end

section Frames

variable {H R : Type} [Read R]

theorem handleZrinit_flags :
    (handleZrinit ⟨.zrInit, zrinitFlags, .hex⟩ : ModemProc H _) = ret (.done zrinitPeer) := by
  have hchunk : zrinitFlags.b0.toNat + zrinitFlags.b1.toNat * 256 = zmodemMaxChunk := by decide
  have hcrc : (zrinitFlags.b3 &&& zmodemCanCrc32 != 0) = true := by decide
  have hesc : (zrinitFlags.b3 &&& zmodemEscapeControl != 0) = true := by decide
  simp only [handleZrinit, hchunk, hcrc, hesc]
  rfl

theorem sendChunk_more {total : Nat} {peer : ZmodemPeerCapabilities} {reader reader' : R}
    {bytes : List UInt8} (hread : readPadded reader (min (total - offset) peer.chunkSize) =
      .ok (bytes, reader')) (hne : bytes ≠ []) (hmore : offset + bytes.length < total)
    (htotal : total ≤ zmodemMaxPosition) :
    (sendChunk total peer (reader, offset) : ModemProc H _) =
      (writeZdata bytes .continueWithAck peer.useCrc32 peer.escapeControl).bind fun _ =>
        readZmodemHeader.bind (handleAck reader' (offset + bytes.length)) := by
  have hmin : min (offset + bytes.length) u64Max = offset + bytes.length := by
    unfold u64Max zmodemMaxPosition at *
    omega
  simp only [sendChunk, show offset < total by omega, not_true, if_false, hread, ofExcept_ok,
    bind_eq, ret_bind, hne, hmin, hmore, if_true, ne_eq]

theorem sendChunk_last {total : Nat} {peer : ZmodemPeerCapabilities} {reader reader' : R}
    {bytes : List UInt8} (hread : readPadded reader (min (total - offset) peer.chunkSize) =
      .ok (bytes, reader')) (hne : bytes ≠ []) (hlast : offset + bytes.length = total)
    (htotal : total ≤ zmodemMaxPosition) :
    (sendChunk total peer (reader, offset) : ModemProc H _) =
      (writeZdata bytes .end peer.useCrc32 peer.escapeControl).bind fun _ =>
        ret (.again (reader', total)) := by
  have hpos := List.length_pos_iff.mpr hne
  have hmin : min total u64Max = total := by
    unfold u64Max zmodemMaxPosition at *
    omega
  simp only [sendChunk, show offset < total by omega, not_true, if_false, hread, ofExcept_ok,
    bind_eq, ret_bind, hne, hlast, hmin, Nat.lt_irrefl, ne_eq, reduceCtorEq, not_false_iff, if_true]

variable {offset total : Nat} {peer : ZmodemPeerCapabilities} {reader : R}

theorem sendChunk_done :
    (sendChunk total peer (reader, total) : ModemProc H _) = ret (.done (reader, none)) := by
  simp only [sendChunk, Nat.lt_irrefl, not_false_iff, if_true]

omit [Read R] in
theorem handleAck_ack (h : offset ≤ zmodemMaxPosition) :
    (handleAck reader offset ⟨.zAck, positionAt offset, .hex⟩ : ModemProc H _) =
      ret (.again (reader, offset)) := by
  unfold handleAck
  rw [positionU32_at h]
  exact if_pos rfl

variable {reader' : R}

theorem sendZfileDataStream_start [Seek R] (total : Nat)
    (hseek : Seek.seek reader 0 = .ok reader') :
    (sendZfileDataStream reader total 0 zrinitPeer : ModemProc H _) =
      (writeZbinaryHeader .zData (positionAt 0) true true).bind fun _ =>
        (loop (sendChunk total zrinitPeer) (reader', 0)).bind (finishFileData 0 total zrinitPeer) := by
  simp only [sendZfileDataStream, Nat.zero_min, hseek,
    positionHeaderChecked_le (Nat.zero_le zmodemMaxPosition), ofExcept_ok, bind_eq, ret_bind]
  rfl

theorem handleFileResponse_start [Seek R] {entry : ZmodemSendStreamEntry R} :
    (handleFileResponse entry peer ⟨.zRpos, positionAt 0, .hex⟩ : ModemProc H _) =
      (loop (sendFromOffset entry.fileSize peer) (entry.reader, 0)).bind fun sent =>
        ret (.done sent) := by
  simp only [handleFileResponse, positionU32_at (Nat.zero_le zmodemMaxPosition)]
  rw [if_neg (Nat.not_lt_zero _)]
  rfl

end Frames

variable {total : Nat}

theorem acceptSubpacket_within {frame : ZDataFrame} (h : offset + frame.payload.length ≤ total)
    (htotal : total ≤ zmodemMaxPosition) :
    acceptSubpacket (some total) offset frame =
      (fileCall (.write frame.payload)).bind fun _ =>
        match frame.end with
        | .continue => ret (.again (offset + frame.payload.length))
        | .continueWithAck =>
          (writeZheader .zAck (positionAt (offset + frame.payload.length))).bind fun _ =>
            ret (.again (offset + frame.payload.length))
        | .end => ret (.done (offset + frame.payload.length))
        | .endWithAck =>
          (writeZheader .zAck (positionAt (offset + frame.payload.length))).bind fun _ =>
            ret (.done (offset + frame.payload.length)) := by
  have h64 : ¬ offset + frame.payload.length > u64Max := by
    unfold u64Max zmodemMaxPosition at *
    omega
  have hany : ¬ (some total).any (offset + frame.payload.length > ·) = true := by
    simpa using h
  unfold acceptSubpacket
  rw [if_neg h64, if_neg hany, ← writeZheaderAt_le (show _ ≤ zmodemMaxPosition by omega)]
  rfl

theorem handleDataHeader_zData {fileSize : Option Nat} (h : offset ≤ zmodemMaxPosition) :
    handleDataHeader fileSize offset ⟨.zData, positionAt offset, .bin32⟩ =
      (loop (receiveSubpacket fileSize true) offset).bind fun offset => ret (.again offset) := by
  simp only [handleDataHeader, positionU32_at h, ne_eq, not_true, if_false]
  rfl

theorem handleDataHeader_zEof (h : total ≤ zmodemMaxPosition) :
    handleDataHeader (some total) total ⟨.zEof, positionAt total, .hex⟩ =
      (fileCall .flush).bind fun _ => sendZrinit.bind fun _ => ret (.done ()) := by
  simp only [handleDataHeader, positionU32_at h]
  rw [if_neg (by simp)]
  rfl

theorem receiveFile_open (h : total ≤ zmodemMaxPosition) :
    receiveFile ⟨name, some total⟩ =
      (fileCall (.openWriter ⟨name, some total⟩)).bind fun _ =>
        (writeZheader .zRpos (positionAt 0)).bind fun _ =>
          loop (receiveDataHeader (some total)) 0 := by
  simp only [receiveFile, validateDeclaredSize, validateZmodemFileSize,
    if_neg (Nat.not_lt.mpr h), ofExcept_ok, bind_eq, ret_bind, writeZheaderAt_le (Nat.zero_le _)]

theorem handleFileFrame_build {received : List ZmodemFileHeader} (hname : AcceptedName name)
    (h : total ≤ zmodemMaxPosition) :
    handleFileFrame received ⟨buildZfileHeader name total, .endWithAck⟩ =
      (receiveFile ⟨name, some total⟩).bind fun _ =>
        ret (.again (received ++ [⟨name, some total⟩])) := by
  have hparse := parseZfileHeader_build hname (Nat.le_trans h (by decide : _ ≤ u64Max))
  simp only [handleFileFrame, ne_eq, not_true, if_false, hparse, ofExcept_ok, bind_eq, ret_bind]

/-! ## 3. The two sides together -/

/-- The pair over a channel to the receiver that is empty and one to the sender that holds noise. -/
abbrev ZJoint {β₁ β₂ : Type} (p : ModemProc Unit β₁) (q : ZmodemProc β₂) (c d : List UInt8)
    (r₁ : Except ModemTransferError β₁) (r₂ : Except ModemTransferError β₂)
    (m : List (FileCall ZmodemFileHeader)) : Prop :=
  Joint accepts accepts p q c d r₁ r₂ [] m

section Pair

variable {R β₁ β₂ : Type} [Read R] {r₁ : Except ModemTransferError β₁}
  {r₂ : Except ModemTransferError β₂} {m : List (FileCall ZmodemFileHeader)}

variable {c d : List UInt8} {f : Unit → ModemProc Unit β₁} {p : Position} {t : ZFrameType}

variable {g : Unit → ZmodemProc β₂}

theorem ZJoint.call {p : ModemProc Unit β₁} {call : FileCall ZmodemFileHeader}
    (h : ZJoint p (g ()) c d r₁ r₂ m) : ZJoint p ((fileCall call).bind g) c d r₁ r₂ (call :: m) :=
  Joint.callR (a := .ok ()) (fun _ => Iff.rfl) h

theorem ZJoint.subpacket {payload : List UInt8} {e : ZDataEnd} {fileSize : Option Nat}
    {g : Nat → ZmodemProc β₂} (hlen : payload.length ≤ zmodemMaxChunk) (he : e ≠ .endWithAck)
    (h : ZJoint (f ()) ((acceptSubpacket fileSize offset ⟨payload, e⟩).bind
      (goOn (receiveSubpacket fileSize true) g)) [] d r₁ r₂ m) :
    ZJoint ((writeZdata payload e true true).bind f)
      (iter (receiveSubpacket fileSize true) offset g) [] d r₁ r₂ m := by
  have hr := reads_data (H := ZmodemFileHeader) (subpacketWire_encode payload e true true) hlen
  refine Joint.writeL (Joint.turnR (Joint.assocR ?_))
  rw [List.nil_append, encodeZdata_split, if_neg he]
  exact Joint.receiveR hr.follows.attempt h

/-- The receiver's hex header is read by the sender, behind whatever noise its channel holds. -/
theorem ZJoint.answer {f : ZHeader → ModemProc Unit β₁} (hd : zpad ∉ d)
    (h : ∀ d', zpad ∉ d' → ZJoint (f ⟨t, p, .hex⟩) (g ()) c d' r₁ r₂ m) :
    ZJoint (readZmodemHeader.bind f) ((writeZheader t p).bind g) c d r₁ r₂ m := by
  refine Joint.writeR ?_
  rw [encodeHexHeader_xon, ← List.append_assoc]
  refine Joint.readL (reads_header _ hd (headerWire_hex t p)) (h _ ?_)
  split <;> decide

/-- A binary header of the sender is read by the receiver, behind whatever noise its channel
    holds. -/
theorem ZJoint.binaryHeader {g : ZHeader → ZmodemProc β₂} (hc : zpad ∉ c)
    (h : ZJoint (f ()) (g ⟨t, p, .bin32⟩) [] d r₁ r₂ m) :
    ZJoint ((writeZbinaryHeader t p true true).bind f) (readZmodemHeader.bind g) c d r₁ r₂ m := by
  refine Joint.writeL ?_
  have hr := reads_header (H := ZmodemFileHeader) _ hc (headerWire_bin32 t p true)
  have := Joint.readR hr h
  rwa [List.append_nil] at this

/-- A hex header of the sender is read by the receiver, behind whatever noise its channel holds. -/
theorem ZJoint.hexHeader {g : ZHeader → ZmodemProc β₂} (hc : zpad ∉ c)
    (h : ∀ c', zpad ∉ c' → ZJoint (f ()) (g ⟨t, p, .hex⟩) c' d r₁ r₂ m) :
    ZJoint ((writeZheader t p).bind f) (readZmodemHeader.bind g) c d r₁ r₂ m := by
  refine Joint.writeL ?_
  rw [encodeHexHeader_xon, ← List.append_assoc]
  refine Joint.readR (reads_header _ hc (headerWire_hex t p)) (h _ ?_)
  split <;> decide

theorem joint_chunks {total : Nat} (htotal : total ≤ zmodemMaxPosition) {rest : List UInt8}
    (hrest : rest ≠ []) {reader : R} {offset : Nat} (hreader : Delivers reader rest)
    (hoffset : offset + rest.length = total) :
    ∃ writes : List (List UInt8), writes.flatten = rest ∧
      ∀ (d : List UInt8) (f : R × Option ZmodemSendDataResult → ModemProc Unit β₁)
        (g : Nat → ZmodemProc β₂), zpad ∉ d →
        (∀ reader' d', zpad ∉ d' → ZJoint (f (reader', none)) (g total) [] d' r₁ r₂ m) →
        ZJoint (iter (sendChunk total zrinitPeer) (reader, offset) f)
          (iter (receiveSubpacket (some total) true) offset g) [] d r₁ r₂
          (writes.map .write ++ m) := by
  induction hn : rest.length using Nat.strongRecOn generalizing rest reader offset with
  | ind n ih =>
    subst hn
    obtain ⟨reader', hread, hreader'⟩ :=
      readPadded_spec hreader (min (total - offset) zrinitPeer.chunkSize)
    have hpos := List.length_pos_iff.mpr hrest
    by_cases hlast : rest.length ≤ zmodemMaxChunk
    · -- one chunk is left
      have hall : rest.take (min (total - offset) zrinitPeer.chunkSize) = rest := by
        refine List.take_of_length_le ?_
        simp only [zrinitPeer]
        omega
      rw [hall] at hread
      refine ⟨[rest], by simp, fun d f g hd hk => Joint.turnL ?_⟩
      unfold Proc.unfold
      rw [sendChunk_last hread hrest hoffset htotal]
      refine Joint.assocL (ZJoint.subpacket hlast (by decide) ?_)
      rw [acceptSubpacket_within (by simp; omega) htotal]
      refine Joint.assocR (ZJoint.call (Joint.turnL ?_))
      unfold Proc.unfold
      rw [sendChunk_done]
      have := hk reader' d hd
      rw [← hoffset] at this
      exact this
    · -- a full chunk, acknowledged, and the rest
      have hmin : min (total - offset) zrinitPeer.chunkSize = zmodemMaxChunk := by
        simp only [zrinitPeer]
        omega
      rw [hmin] at hreader'
      have hread : readPadded reader (min (total - offset) zrinitPeer.chunkSize) =
          .ok (rest.take zmodemMaxChunk, reader') := by
        rw [hread, hmin]
      have hlen : (rest.take zmodemMaxChunk).length = zmodemMaxChunk := by
        rw [List.length_take]
        omega
      have hne : rest.take zmodemMaxChunk ≠ [] := by
        rw [← List.length_pos_iff, hlen]
        decide
      have hdrop : (rest.drop zmodemMaxChunk).length + zmodemMaxChunk = rest.length := by
        rw [List.length_drop]
        omega
      have hchunk : 0 < zmodemMaxChunk := by decide
      obtain ⟨writes, hw, hwrites⟩ := @ih _ (by omega) (rest.drop zmodemMaxChunk)
        (by rw [← List.length_pos_iff]; omega) reader' (offset + zmodemMaxChunk) hreader' (by omega) rfl
      refine ⟨rest.take zmodemMaxChunk :: writes, ?_, fun d f g hd hk => Joint.turnL ?_⟩
      · rw [List.flatten_cons, hw, List.take_append_drop]
      · unfold Proc.unfold
        rw [sendChunk_more hread hne (by omega) htotal, hlen]
        refine Joint.assocL (ZJoint.subpacket (Nat.le_of_eq hlen) (by decide) ?_)
        rw [acceptSubpacket_within (by simp only [hlen]; omega) htotal]
        simp only [hlen]
        refine Joint.assocL (Joint.assocR (ZJoint.call (Joint.assocR (ZJoint.answer hd ?_))))
        intro d' hd'
        rw [handleAck_ack (by omega)]
        exact hwrites d' f g hd' hk

/-- What a `send_zmodem_stream` entry must be for the file `bytes` to arrive: a size that fits a
    position, an accepted name, a header within its buffer, a reader that hands out the bytes. -/
structure SendableFile [Seek R] (entry : ZmodemSendStreamEntry R) (bytes : List UInt8) : Prop where
  size : entry.fileSize = bytes.length
  fits : entry.fileSize ≤ zmodemMaxPosition
  name : AcceptedName entry.fileName
  header : (buildZfileHeader entry.fileName entry.fileSize).length ≤ zmodemMaxChunk
  reader : ∃ reader, Seek.seek entry.reader 0 = .ok reader ∧ Delivers reader bytes

variable [Seek R]

variable {bytes : List UInt8} {entry : ZmodemSendStreamEntry R}

theorem joint_fileData (hfile : SendableFile entry bytes) :
    ∃ writes : List (List UInt8), writes.flatten = bytes ∧
      ∀ (c d : List UInt8) (f : Nat → ModemProc Unit β₁) (g : Unit → ZmodemProc β₂),
        zpad ∉ c → zpad ∉ d →
        (∀ c' d', zpad ∉ c' → zpad ∉ d' → ZJoint (f entry.fileSize) (g ()) c' d' r₁ r₂ m) →
        ZJoint (iter (sendFromOffset entry.fileSize zrinitPeer) (entry.reader, 0) f)
          (iter (receiveDataHeader (some entry.fileSize)) 0 g) c d r₁ r₂
          (writes.map .write ++ .flush :: m) := by
  obtain ⟨reader, hseek, hreader⟩ := hfile.reader
  obtain ⟨total, ht⟩ : ∃ total, total = entry.fileSize := ⟨_, rfl⟩
  have htotal : total ≤ zmodemMaxPosition := ht ▸ hfile.fits
  have hlen : bytes.length = total := ht ▸ hfile.size.symm
  rw [← ht]
  -- the end of the file, whatever noise there is
  have htail : ∀ (f : Nat → ModemProc Unit β₁) (g : Unit → ZmodemProc β₂),
      (∀ c' d', zpad ∉ c' → zpad ∉ d' → ZJoint (f total) (g ()) c' d' r₁ r₂ m) →
      ∀ (reader' : R) (d : List UInt8), zpad ∉ d →
        ZJoint (((writeZheader .zEof (positionAt total)).bind fun _ =>
          ret (reader', ZmodemSendDataResult.complete)).bind fun result =>
            (handleDataResult total result).bind (goOn (sendFromOffset total zrinitPeer) f))
          (iter (receiveDataHeader (some total)) total g) [] d r₁ r₂ (.flush :: m) := by
    intro f g hk reader' d hd
    refine Joint.turnR (Joint.assocR (Joint.assocL (ZJoint.hexHeader (by decide) ?_)))
    intro c' hc'
    rw [handleDataHeader_zEof htotal]
    refine Joint.assocL (Joint.assocR (ZJoint.call (Joint.assocR (ZJoint.answer hd ?_))))
    intro d' hd'
    exact hk c' d' hc' hd'
  cases bytes with
  | nil =>
    -- an empty file is one empty subpacket
    obtain rfl : total = 0 := hlen.symm
    refine ⟨[[]], rfl, fun c d f g hc hd hk => Joint.turnL (Joint.assocL ?_)⟩
    rw [sendZfileDataStream_start 0 hseek]
    refine Joint.assocL (Joint.turnR (Joint.assocR (ZJoint.binaryHeader hc ?_)))
    rw [handleDataHeader_zData (Nat.zero_le _)]
    refine Joint.assocL (Joint.turnL ?_)
    unfold Proc.unfold
    rw [sendChunk_done]
    refine Joint.assocL (Joint.assocR (ZJoint.subpacket (Nat.zero_le _) (by decide) ?_))
    rw [acceptSubpacket_within (Nat.le_refl 0) htotal]
    refine Joint.assocR (ZJoint.call ?_)
    rw [writeZheaderAt_le htotal]
    exact htail f g hk reader d hd
  | cons b bs =>
    obtain ⟨writes, hw, hwrites⟩ := joint_chunks (m := .flush :: m) htotal
      (List.cons_ne_nil b bs) hreader (by rw [Nat.zero_add]; exact hlen)
    have hne : 0 ≠ total := by
      rw [← hlen]
      exact (Nat.succ_ne_zero _).symm
    refine ⟨writes, hw, fun c d f g hc hd hk => Joint.turnL (Joint.assocL ?_)⟩
    rw [sendZfileDataStream_start total hseek]
    refine Joint.assocL (Joint.turnR (Joint.assocR (ZJoint.binaryHeader hc ?_)))
    rw [handleDataHeader_zData (Nat.zero_le _)]
    refine Joint.assocL (Joint.assocR (hwrites d _ _ hd fun reader' d' hd' => ?_))
    have h := htail f g hk reader' d' hd'
    rw [← writeZheaderAt_le htotal] at h
    unfold finishFileData writeEmptyRest
    rw [if_neg hne]
    exact h

/-- The header the receiver makes of an entry. -/
def ZmodemSendStreamEntry.header (entry : ZmodemSendStreamEntry R) : ZmodemFileHeader :=
  ⟨entry.fileName, some entry.fileSize⟩

theorem joint_entry (hfile : SendableFile entry bytes) :
    ∃ writes : List (List UInt8), writes.flatten = bytes ∧
      ∀ (received : List ZmodemFileHeader) (c d : List UInt8) (f : Nat → ModemProc Unit β₁)
        (g : List ZmodemFileHeader → ZmodemProc β₂), zpad ∉ c → zpad ∉ d →
        (∀ c' d', zpad ∉ c' → zpad ∉ d' →
          ZJoint (f entry.fileSize) (iter receiveFrame (received ++ [entry.header]) g) c' d' r₁ r₂ m) →
        ZJoint ((sendEntry zrinitPeer entry).bind f) (iter receiveFrame received g) c d r₁ r₂
          (fileLog entry.header writes ++ m) := by
  obtain ⟨writes, hw, hdata⟩ := joint_fileData (m := m) hfile
  refine ⟨writes, hw, fun received c d f g hc hd hk => ?_⟩
  have hlog : fileLog entry.header writes ++ m =
      .openWriter entry.header :: (writes.map .write ++ .flush :: m) := by
    simp [fileLog]
  rw [hlog]
  refine Joint.assocL (Joint.turnR (Joint.assocR (ZJoint.binaryHeader hc ?_)))
  refine Joint.assocL (Joint.writeL ?_)
  rw [List.nil_append, encodeZdata_split, if_pos rfl]
  have hr := reads_data (H := ZmodemFileHeader) (subpacketWire_encode
    (buildZfileHeader entry.fileName entry.fileSize) .endWithAck true true) hfile.header
  refine Joint.assocR (Joint.readR hr ?_)
  rw [handleFileFrame_build hfile.name hfile.fits, receiveFile_open hfile.fits]
  refine Joint.assocR (Joint.assocR (ZJoint.call (Joint.assocR ?_)))
  refine Joint.turnL (Joint.assocL (ZJoint.answer hd fun d' hd' => ?_))
  rw [handleFileResponse_start]
  refine Joint.assocL (hdata [xon] d' _ _ (by decide) hd' fun c' d' hc' hd' => ?_)
  exact hk c' d' hc' hd'

variable (entries : List (ZmodemSendStreamEntry R))

/-- The bytes of a list of files, one entry each, in order. -/
def SendableFiles (files : List (List UInt8)) : Prop :=
  List.Forall₂ SendableFile entries files

/-- The files a receiver is left with. -/
def delivered (files : List (List UInt8)) : List (ZmodemFileHeader × List UInt8) :=
  (entries.map (·.header)).zip files

/-- The total the sender counts. -/
def totalSize : Nat := (entries.map (·.fileSize)).sum

theorem joint_entries {entries : List (ZmodemSendStreamEntry R)} {files : List (List UInt8)}
    (hfiles : SendableFiles entries files) :
    ∃ log, (∀ done, log.foldl applyCall done = done ++ delivered entries files) ∧
      ∀ (total : Nat) (received : List ZmodemFileHeader) (c d : List UInt8)
        (f : Nat → ModemProc Unit β₁) (g : List ZmodemFileHeader → ZmodemProc β₂),
        zpad ∉ c → zpad ∉ d →
        (∀ c' d', zpad ∉ c' → zpad ∉ d' → ZJoint (f (total + totalSize entries))
          (iter receiveFrame (received ++ entries.map (·.header)) g) c' d' r₁ r₂ m) →
        ZJoint ((sendEntries zrinitPeer entries total).bind f) (iter receiveFrame received g) c d
          r₁ r₂ (log ++ m) := by
  induction hfiles generalizing m with
  | nil =>
    refine ⟨[], fun done => by simp [delivered], fun total received c d f g hc hd hk => ?_⟩
    have h := hk c d hc hd
    rwa [List.map_nil, List.append_nil] at h
  | @cons entry bytes entries files hfile _ ih =>
    obtain ⟨log, hlog, hrest⟩ := ih (m := m)
    obtain ⟨writes, hw, hentry⟩ := joint_entry (m := log ++ m) hfile
    refine ⟨fileLog entry.header writes ++ log, fun done => ?_,
      fun total received c d f g hc hd hk => ?_⟩
    · rw [List.foldl_append, foldl_fileLog, hlog, hw, List.append_assoc]
      rfl
    · rw [List.append_assoc]
      refine Joint.assocL (hentry received c d _ g hc hd fun c' d' hc' hd' => ?_)
      refine hrest (total + entry.fileSize) _ c' d' f g hc' hd' fun c'' d'' hc'' hd'' => ?_
      have h := hk c'' d'' hc'' hd''
      simpa [totalSize, Nat.add_assoc] using h

theorem reads_overAndOut : Reads (loop finishReceiveTurn (0, 0)) [0x4f, 0x4f] (.ok ()) :=
  Reads.again [0x4f] (Reads.read (.ret _))
    (Reads.leave (Reads.read (.ret _)))

theorem joint_finish {received : List ZmodemFileHeader} (hc : zpad ∉ c) (hd : zpad ∉ d) :
    ZJoint (finishZmodemSend.bind fun _ => ret total) (iter receiveFrame received ret) c d
      (.ok total) (.ok received) [] := by
  have hfin := headerWire_hex .zFin (positionHeader 0)
  refine Joint.assocL (Joint.writeL (Joint.turnR (Joint.assocR ?_)))
  have h1 : ∀ (p : ModemProc Unit Nat) (g : ZHeader → ZmodemProc (List ZmodemFileHeader)),
      ZJoint p (g ⟨.zFin, positionHeader 0, .hex⟩) [] d (.ok total) (.ok received) [] →
      ZJoint p (readZmodemHeader.bind g) (c ++ encodeHexHeader .zFin (positionHeader 0) false) d
        (.ok total) (.ok received) [] := by
    intro p g h
    have := Joint.readR (reads_header _ hc hfin) h
    rwa [List.append_nil] at this
  refine h1 _ _ (Joint.assocR (Joint.assocR (Joint.writeR (Joint.assocL ?_))))
  have h2 : ∀ (f : ZHeader → ModemProc Unit Nat) (q : ZmodemProc (List ZmodemFileHeader)),
      ZJoint (f ⟨.zFin, positionHeader 0, .hex⟩) q [] [] (.ok total) (.ok received) [] →
      ZJoint (readZmodemHeader.bind f) q [] (d ++ encodeHexHeader .zFin (positionHeader 0) false)
        (.ok total) (.ok received) [] := by
    intro f q h
    have := Joint.readL (reads_header _ hd hfin) h
    rwa [List.append_nil] at this
  refine h2 _ _ (Joint.writeL ?_)
  have hend : ∀ g : Unit → ZmodemProc (List ZmodemFileHeader),
      ZJoint (ret total) (g ()) [] [] (.ok total) (.ok received) [] →
      ZJoint (ret total) ((loop finishReceiveTurn (0, 0)).bind g) [0x4f, 0x4f] [] (.ok total)
        (.ok received) [] :=
    fun g h => Joint.readR reads_overAndOut h
  exact hend _ (joint_ret total received)

end Pair

/-! ## 4. Every interleaving -/

section Completes

variable {R : Type} [Read R] [Seek R]

/-- The state in which both sides have returned Ok: the sender the sum of the sizes, the receiver
    the headers in order, its writers exactly the files. -/
structure ZmodemDelivered (entries : List (ZmodemSendStreamEntry R)) (files : List (List UInt8))
    (net : Net UInt8 (FileCall Unit) FileCall.Ans ModemTransferError Nat
      (FileCall ZmodemFileHeader) FileCall.Ans ModemTransferError (List ZmodemFileHeader)) :
    Prop where
  sender : net.left = ret (totalSize entries)
  receiver : net.right = ret (entries.map (·.header))
  written : writtenFiles net.rightLog = delivered entries files

omit [Read R] [Seek R] in
theorem validateEntries_ok {entries : List (ZmodemSendStreamEntry R)}
    (h : ∀ entry ∈ entries, entry.fileSize ≤ zmodemMaxPosition) : validateEntries entries = .ok () := by
  induction entries with
  | nil => rfl
  | cons entry entries ih =>
    have h1 : validateZmodemFileSize entry.fileSize = .ok () :=
      if_neg (Nat.not_lt.mpr (h entry List.mem_cons_self))
    have h2 := ih fun e he => h e (List.mem_cons_of_mem entry he)
    change (validateZmodemFileSize entry.fileSize >>= fun _ => validateEntries entries) = .ok ()
    rw [h1]
    exact h2

theorem SendableFiles.fits {entries : List (ZmodemSendStreamEntry R)} {files : List (List UInt8)}
    (h : SendableFiles entries files) : ∀ entry ∈ entries, entry.fileSize ≤ zmodemMaxPosition := by
  induction h with
  | nil => nofun
  | cons hfile _ ih =>
    intro entry he
    rcases List.mem_cons.mp he with rfl | he
    · exact hfile.fits
    · exact ih entry he

/-- **ZMODEM end to end**: over two reliable channels every interleaving of `send_zmodem_stream`
    and `receive_zmodem` comes to an end, and it ends with every file delivered. -/
theorem zmodem_delivers {entries : List (ZmodemSendStreamEntry R)} {files : List (List UInt8)}
    (hfiles : SendableFiles entries files) :
    Completes (Net.Step accepts accepts) (ZmodemDelivered entries files)
      { left := sendZmodemStream entries, right := receiveZmodem } := by
  obtain ⟨log, hlog, hjoint⟩ := joint_entries (m := []) hfiles
  have hj : ZJoint (sendZmodemStream entries) receiveZmodem [] [] (.ok (totalSize entries))
      (.ok (entries.map (·.header))) (log ++ []) := by
    unfold sendZmodemStream
    rw [validateEntries_ok hfiles.fits]
    refine Joint.turnL (Joint.assocL (ZJoint.answer (by decide) fun d hd => ?_))
    rw [handleZrinit_flags]
    refine hjoint 0 [] [] d _ _ (by decide) hd fun c' d' hc' hd' => ?_
    rw [Nat.zero_add, List.nil_append]
    exact joint_finish hc' hd'
  refine hj.completes.mono fun net hfinal => ⟨hfinal.left, hfinal.right, ?_⟩
  rw [hfinal.rightLog, List.append_nil]
  exact hlog []

theorem zmodem_delivers_two :
    Completes (Net.Step accepts accepts)
      (ZmodemDelivered [⟨['a'], 2, (⟨[0x2a, 0x18], 0⟩ : Cursor)⟩, ⟨['b'], 0, ⟨[], 0⟩⟩]
        [[0x2a, 0x18], []])
      { left := sendZmodemStream [⟨['a'], 2, (⟨[0x2a, 0x18], 0⟩ : Cursor)⟩, ⟨['b'], 0, ⟨[], 0⟩⟩],
        right := receiveZmodem } := by
  have hname : ∀ c : Char, c = 'a' ∨ c = 'b' → AcceptedName [c] := by
    rintro c (rfl | rfl) <;> constructor <;> decide
  refine zmodem_delivers (.cons ?_ (.cons ?_ .nil))
  · exact ⟨rfl, by decide, hname _ (.inl rfl), by decide, _, rfl, delivers_cursor _⟩
  · exact ⟨rfl, by decide, hname _ (.inr rfl), by decide, _, rfl, delivers_cursor _⟩

end Completes

end Hapcli.Modem
