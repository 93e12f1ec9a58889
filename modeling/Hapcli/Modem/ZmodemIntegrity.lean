/-
  Subject:   WHAT THE ZMODEM RECEIVER DOES WITH ANY INPUT: a peer that sends noise, repeats itself
             or lies is answered, but nothing it says reaches a file out of place.

  `ReceiverTrace t done phase` describes the histories a careful receiver may have, in terms of the
  wire format only (`HeaderWire`, `SubpacketWire`), without its program: a data frame is entered by a
  `ZDATA` header at the length of what is written, a payload is written right behind the bytes of
  a CRC-valid subpacket of such a frame, a file is closed right behind a `ZEOF` header at that
  length.

  * `ReceiverTrace.files`, `ReceiverTrace.sound` -- what such a history has written;
  * `receiveZmodem_trace` -- every history of `receiveZmodem` is one;
  * `receiveZmodem_integrity` -- both together.
-/
import Hapcli.Modem.ZmodemParse

namespace Hapcli.Modem

open Hapcli.Process Hapcli.Rust Proc ModemProc

/-! ## 1. The histories of a careful receiver -/

/-- The history of a receiver: its reads, writes and calls with their answers. -/
abbrev ReceiverHist := Hist (IoOp UInt8 (FileCall ZmodemFileHeader))
  (IoOp.Ans ModemTransferError FileCall.Ans)

/-- A subpacket that was taken, with the offset it was taken at. -/
structure AcceptedSubpacket where
  offset : Nat
  frame : ZDataFrame

/-- What was taken for one file, oldest first. -/
structure FileLog where
  header : ZmodemFileHeader
  accepted : List AcceptedSubpacket := []

variable (f : FileLog)

/-- The payloads, one behind the other. -/
def FileLog.bytes : List UInt8 := f.accepted.flatMap (·.frame.payload)

/-- The log with one more subpacket, at the length of what is there. -/
def FileLog.accept (frame : ZDataFrame) : FileLog :=
  { f with accepted := f.accepted ++ [⟨f.bytes.length, frame⟩] }

@[simp] theorem FileLog.accept_header (frame : ZDataFrame) :
    (f.accept frame).header = f.header := rfl

@[simp] theorem FileLog.accept_bytes (frame : ZDataFrame) :
    (f.accept frame).bytes = f.bytes ++ frame.payload := by
  simp [FileLog.accept, FileLog.bytes]

@[simp] theorem FileLog.bytes_empty (header : ZmodemFileHeader) :
    (FileLog.mk header []).bytes = [] := rfl

/-- Where a receiver stands: between files, in a file, in a data frame of a file, behind a file's
    accepted end. -/
inductive ReceiverPhase where
  | idle
  | file (f : FileLog)
  | frame (f : FileLog) (useCrc32 : Bool)
  | closing (f : FileLog)

/-- The file that is open in a phase. -/
def ReceiverPhase.current : ReceiverPhase → List FileLog
  | .idle => []
  | .file f | .frame f _ | .closing f => [f]

/-- The phases in which input may be skipped. -/
def ReceiverPhase.Listening : ReceiverPhase → Prop
  | .idle | .file _ => True
  | .frame _ _ | .closing _ => False

/-- The file a phase may answer about with its offset. -/
def ReceiverPhase.Answers : ReceiverPhase → Prop
  | .file g | .frame g _ => g = f
  | .idle | .closing _ => False

/-- `bytes` tell the peer the offset: `ZRPOS` to resume there, `ZACK` for what came. -/
inductive OffsetReply (offset : Nat) : List UInt8 → Prop where
  | zrpos {p : Position} (h : positionHeaderChecked offset = .ok p) :
      OffsetReply offset (encodeHexHeader .zRpos p true)
  | zack {p : Position} (h : positionHeaderChecked offset = .ok p) :
      OffsetReply offset (encodeHexHeader .zAck p false)

/-- **The histories of a careful receiver**, with the files done and the phase after them. -/
inductive ReceiverTrace : ReceiverHist → List FileLog → ReceiverPhase → Prop where
  | start : ReceiverTrace [] [] .idle
  /-- Between files and between frames any input may pass. -/
  | read {t : ReceiverHist} {done : List FileLog} {ph : ReceiverPhase}
      (h : ReceiverTrace t done ph) (hph : ph.Listening) (r : Except ModemTransferError UInt8) :
      ReceiverTrace (t ++ [⟨.readByte, r⟩]) done ph
  /-- Between files anything may be said. -/
  | say {t : ReceiverHist} {done : List FileLog} (h : ReceiverTrace t done .idle)
      (bytes : List UInt8) (r : Except ModemTransferError Unit) :
      ReceiverTrace (t ++ [⟨.writeAll bytes, r⟩]) done .idle
  | opened {t : ReceiverHist} {done : List FileLog} (h : ReceiverTrace t done .idle)
      (header : ZmodemFileHeader) (r : Except ModemTransferError Unit) :
      ReceiverTrace (t ++ [⟨.call (.openWriter header), r⟩]) done (.file ⟨header, []⟩)
  /-- In a file every word said names the length of what is written. -/
  | reply {t : ReceiverHist} {done : List FileLog} {ph : ReceiverPhase} {f : FileLog}
      (h : ReceiverTrace t done ph) (hph : ph.Answers f) {bytes : List UInt8}
      (hb : OffsetReply f.bytes.length bytes) (r : Except ModemTransferError Unit) :
      ReceiverTrace (t ++ [⟨.writeAll bytes, r⟩]) done ph
  /-- A `ZDATA` header at the length of what is written opens a data frame. -/
  | zdata {t : ReceiverHist} {done : List FileLog} {f : FileLog}
      (h : ReceiverTrace t done (.file f)) {header : ZHeader} {w : List UInt8}
      (hw : HeaderWire header w) (ht : header.frameType = .zData)
      (hp : header.positionU32 = f.bytes.length) :
      ReceiverTrace (t ++ readEvents w) done (.frame f (header.encoding == .bin32))
  /-- A CRC-valid subpacket of an open frame, within the declared size, is written at once. -/
  | subpacket {t : ReceiverHist} {done : List FileLog} {f : FileLog} {useCrc32 : Bool}
      (h : ReceiverTrace t done (.frame f useCrc32)) {frame : ZDataFrame} {w : List UInt8}
      (hw : SubpacketWire useCrc32 frame w)
      (hsize : ∀ n, f.header.fileSize = some n → f.bytes.length + frame.payload.length ≤ n)
      (r : Except ModemTransferError Unit) :
      ReceiverTrace (t ++ readEvents w ++ [⟨.call (.write frame.payload), r⟩]) done
        (.frame (f.accept frame) useCrc32)
  | leave {t : ReceiverHist} {done : List FileLog} {f : FileLog} {useCrc32 : Bool}
      (h : ReceiverTrace t done (.frame f useCrc32)) : ReceiverTrace t done (.file f)
  /-- A `ZEOF` header at the length of what is written, which is the declared size, ends a file. -/
  | zeof {t : ReceiverHist} {done : List FileLog} {f : FileLog}
      (h : ReceiverTrace t done (.file f)) {header : ZHeader} {w : List UInt8}
      (hw : HeaderWire header w) (ht : header.frameType = .zEof)
      (hp : header.positionU32 = f.bytes.length)
      (hsize : ∀ n, f.header.fileSize = some n → f.bytes.length = n)
      (r : Except ModemTransferError Unit) :
      ReceiverTrace (t ++ readEvents w ++ [⟨.call .flush, r⟩]) done (.closing f)
  /-- With the next `ZRINIT` out, the file is done. -/
  | push {t : ReceiverHist} {done : List FileLog} {f : FileLog}
      (h : ReceiverTrace t done (.closing f)) :
      ReceiverTrace (t ++ [⟨.writeAll (encodeHexHeader .zrInit zrinitFlags true), .ok ()⟩])
        (done ++ [f]) .idle
  | broken {t : ReceiverHist} {done : List FileLog} {f : FileLog}
      (h : ReceiverTrace t done (.closing f)) (e : ModemTransferError) :
      ReceiverTrace (t ++ [⟨.writeAll (encodeHexHeader .zrInit zrinitFlags true), .error e⟩])
        done (.closing f)

/-! ## 2. What such a history has written -/

/-- Each subpacket was taken where the ones before it end. -/
def Contiguous : Nat → List AcceptedSubpacket → Prop
  | _, [] => True
  | offset, a :: rest => a.offset = offset ∧ Contiguous (offset + a.frame.payload.length) rest

theorem contiguous_append {offset : Nat} {as : List AcceptedSubpacket} {a : AcceptedSubpacket} :
    Contiguous offset (as ++ [a]) ↔
      Contiguous offset as ∧ a.offset = offset + (as.flatMap (·.frame.payload)).length := by
  induction as generalizing offset with
  | nil => simp [Contiguous]
  | cons b as ih =>
    simp only [List.cons_append, Contiguous, ih, List.flatMap_cons, List.length_append]
    grind

/-- What is known of a file at any time: no gap, no repetition, not past the declared size. -/
structure FileLog.Sound : Prop where
  contiguous : Contiguous 0 f.accepted
  within : ∀ n, f.header.fileSize = some n → f.bytes.length ≤ n

/-- What is known of a file that was reported: as much as was declared. -/
structure FileLog.Complete : Prop extends f.Sound where
  whole : ∀ n, f.header.fileSize = some n → f.bytes.length = n

theorem FileLog.sound_empty (header : ZmodemFileHeader) : (FileLog.mk header []).Sound :=
  ⟨trivial, fun _ _ => Nat.zero_le _⟩

theorem FileLog.Sound.accept {f : FileLog} (hf : f.Sound) {frame : ZDataFrame}
    (hsize : ∀ n, f.header.fileSize = some n → f.bytes.length + frame.payload.length ≤ n) :
    (f.accept frame).Sound := by
  refine ⟨contiguous_append.mpr ⟨hf.contiguous, ?_⟩, fun n hn => ?_⟩
  · rw [Nat.zero_add, FileLog.bytes]
  · rw [FileLog.accept_bytes, List.length_append]
    exact hsize n hn

/-- What is known of the open file in each phase. -/
def ReceiverPhase.Sound : ReceiverPhase → Prop
  | .idle => True
  | .file f | .frame f _ => f.Sound
  | .closing f => f.Complete

theorem ReceiverPhase.Sound.current {ph : ReceiverPhase} (h : ph.Sound) :
    ∀ f ∈ ph.current, f.Sound := by
  intro f hf
  cases ph with
  | idle => cases hf
  | file g =>
    obtain rfl := List.mem_singleton.mp hf
    exact h
  | frame g _ =>
    obtain rfl := List.mem_singleton.mp hf
    exact h
  | closing g =>
    obtain rfl := List.mem_singleton.mp hf
    exact h.toSound

variable {t : ReceiverHist} {done : List FileLog} {ph : ReceiverPhase}

theorem ReceiverTrace.sound (h : ReceiverTrace t done ph) :
    (∀ f ∈ done, f.Complete) ∧ ph.Sound := by
  induction h with
  | start => exact ⟨nofun, trivial⟩
  | read _ _ _ ih => exact ih
  | say _ _ _ ih => exact ih
  | opened _ header _ ih => exact ⟨ih.1, FileLog.sound_empty header⟩
  | reply _ _ _ _ ih => exact ih
  | zdata _ _ _ _ ih => exact ih
  | subpacket _ _ hsize _ ih => exact ⟨ih.1, FileLog.Sound.accept ih.2 hsize⟩
  | leave _ ih => exact ih
  | zeof _ _ _ _ hsize _ ih => exact ⟨ih.1, ⟨ih.2, hsize⟩⟩
  | push _ ih =>
    refine ⟨fun f hf => ?_, trivial⟩
    rcases List.mem_append.mp hf with hf | hf
    · exact ih.1 f hf
    · obtain rfl := List.mem_singleton.mp hf
      exact ih.2
  | broken _ _ ih => exact ih

/-- The files written are the logs: each opened header with the payloads taken for it. -/
theorem ReceiverTrace.files (h : ReceiverTrace t done ph) :
    writtenFiles (madeCalls t) =
      (done ++ ph.current).map fun f => (f.header, f.bytes) := by
  induction h with
  | start => rfl
  | read _ _ _ ih => simpa using ih
  | say _ _ _ ih => simpa using ih
  | opened _ header _ ih =>
    have hc := congrArg (applyCall · (.openWriter header)) ih
    simpa [ReceiverPhase.current] using hc
  | reply _ _ _ _ ih => simpa using ih
  | zdata _ _ _ _ ih => simpa [ReceiverPhase.current] using ih
  | @subpacket t done f useCrc32 _ frame w hw hsize r ih =>
    have hc := congrArg (applyCall · (.write frame.payload)) ih
    simpa [ReceiverPhase.current] using hc
  | leave _ ih => exact ih
  | zeof _ _ _ _ _ _ ih => simpa [ReceiverPhase.current] using ih
  | push _ ih => simpa [ReceiverPhase.current] using ih
  | broken _ _ ih => simpa using ih

/-! ## 3. The receiver is careful -/

/-- Some careful receiver has this history. -/
def Careful (t : ReceiverHist) : Prop := ∃ done ph, ReceiverTrace t done ph

theorem ReceiverTrace.careful (h : ReceiverTrace t done ph) : Careful t := ⟨done, ph, h⟩

section

variable (h : ReceiverTrace t done ph) (hph : ph.Listening) (bs : List UInt8)

include h hph bs

theorem ReceiverTrace.reads : ReceiverTrace (t ++ readEvents bs) done ph := by
  induction bs generalizing t with
  | nil => simpa [readEvents] using h
  | cons b bs ih => simpa [readEvents] using ih (h.read hph (.ok b))

theorem ReceiverTrace.readsFailed (e : ModemTransferError) :
    ReceiverTrace (t ++ (readEvents bs ++ readFailed e)) done ph := by
  rw [← List.append_assoc]
  exact (h.reads hph bs).read hph (.error e)

end

theorem safe_callTrace {c : FileCall ZmodemFileHeader} (hc : Careful t)
    (h : ∀ r, ReceiverTrace (t ++ [⟨.call c, r⟩]) done ph) :
    Safe Careful (onReturn fun _ t => ReceiverTrace t done ph) t (fileCall c) :=
  safe_fileCall (P := fun t => ReceiverTrace t done ph) hc (fun r => (h r).careful) h

theorem safe_say {bytes : List UInt8} (h : ReceiverTrace t done .idle) :
    Safe Careful (onReturn fun _ t => ReceiverTrace t done .idle) t
      (writeAll bytes : ZmodemProc Unit) :=
  safe_writeAll h.careful (fun r => (h.say bytes r).careful) (h.say bytes _)

theorem safe_position {f : FileLog} {kind : ZFrameType} (h : ReceiverTrace t done ph)
    (hph : ph.Answers f) (hreply : ∀ {p}, positionHeaderChecked f.bytes.length = .ok p →
      OffsetReply f.bytes.length (encodeHexHeader kind p (!(kind == .zFin || kind == .zAck)))) :
    Safe Careful (onReturn fun _ t => ReceiverTrace t done ph) t
      (writeZheaderAt kind f.bytes.length) := by
  refine safe_then (P := fun p t' => t' = t ∧ positionHeaderChecked f.bytes.length = .ok p)
    (safe_check h.careful fun p hp => ⟨rfl, hp⟩) ?_
  rintro p _ ⟨rfl, hp⟩
  exact safe_writeAll h.careful (fun r => (h.reply hph (hreply hp) r).careful)
    (h.reply hph (hreply hp) _)

/-- `t'` is `t₁` and then the header `header`, where `t₁` is a careful history. -/
def HeaderBehind (done : List FileLog) (ph : ReceiverPhase) (header : ZHeader)
    (t' : ReceiverHist) : Prop :=
  ∃ t₁ w, t' = t₁ ++ readEvents w ∧ ReceiverTrace t₁ done ph ∧ HeaderWire header w

theorem HeaderBehind.trace {header : ZHeader} (h : HeaderBehind done ph header t)
    (hph : ph.Listening) : ReceiverTrace t done ph := by
  obtain ⟨t₁, w, rfl, ht, -⟩ := h
  exact ht.reads hph w

theorem safe_readHeader (h : ReceiverTrace t done ph) (hph : ph.Listening) :
    Safe Careful (onReturn (HeaderBehind done ph)) t readZmodemHeader := by
  refine safe_readOnly readOnly_header (fun bs => (h.reads hph bs).careful)
    (fun bs e => (h.readsFailed hph bs e).careful) (fun bs r hr => ?_) fun _ _ => trivial
  cases r with
  | error e => trivial
  | ok header =>
    obtain ⟨noise, w, rfl, hw⟩ := reads_header_inv hr
    exact ⟨t ++ readEvents noise, w, by simp [readEvents], h.reads hph noise, hw⟩

theorem safe_readIdle {useCrc32 : Bool} {maxPayload : Nat} (h : ReceiverTrace t done .idle) :
    Safe Careful (onReturn fun _ t => ReceiverTrace t done .idle) t
      (readZmodemData useCrc32 maxPayload) := by
  refine safe_readOnly (readOnly_data useCrc32 maxPayload)
    (fun bs => (h.reads trivial bs).careful)
    (fun bs e => (h.readsFailed trivial bs e).careful) (fun bs r _ => ?_) fun _ _ => trivial
  cases r with
  | error e => trivial
  | ok frame => exact h.reads trivial bs

/-! ### In a data frame -/

/-- The outcome of reading a subpacket of an open frame: its wire, or a frame that is left. -/
def SubpacketRead (t : ReceiverHist) (done : List FileLog) (f : FileLog) (useCrc32 : Bool) :
    Except ModemTransferError ZDataFrame → ReceiverHist → Prop
  | .ok frame, t' => ∃ w, t' = t ++ readEvents w ∧ SubpacketWire useCrc32 frame w
  | .error _, t' => ReceiverTrace t' done (.file f)

variable {f : FileLog} {useCrc32 : Bool}

theorem safe_readSubpacket (h : ReceiverTrace t done (.frame f useCrc32)) :
    Safe Careful (SubpacketRead t done f useCrc32) t
      (readZmodemData useCrc32 zmodemMaxChunk) := by
  refine safe_readOnly (readOnly_data useCrc32 zmodemMaxChunk)
    (fun bs => (h.leave.reads trivial bs).careful)
    (fun bs e => (h.leave.readsFailed trivial bs e).careful) (fun bs r hr => ?_)
    fun bs e => h.leave.readsFailed trivial bs e
  cases r with
  | error e => exact h.leave.reads trivial bs
  | ok frame => exact ⟨bs, rfl, reads_data_inv hr⟩

/-- The invariant of the subpacket loop: the received offset is the length of what is written. -/
def InFrame (done : List FileLog) (header : ZmodemFileHeader) (useCrc32 : Bool) (offset : Nat)
    (t : ReceiverHist) : Prop :=
  ∃ f, f.header = header ∧ f.bytes.length = offset ∧ ReceiverTrace t done (.frame f useCrc32)

/-- The invariant of the loop over a file's headers. -/
def InFile (done : List FileLog) (header : ZmodemFileHeader) (offset : Nat)
    (t : ReceiverHist) : Prop :=
  ∃ f, f.header = header ∧ f.bytes.length = offset ∧ ReceiverTrace t done (.file f)

theorem safe_acceptSubpacket {frame : ZDataFrame} {w : List UInt8}
    (h : ReceiverTrace t done (.frame f useCrc32)) (hw : SubpacketWire useCrc32 frame w) :
    Safe Careful (onReturn (onFlow (InFrame done f.header useCrc32) (InFile done f.header)))
      (t ++ readEvents w) (acceptSubpacket f.header.fileSize f.bytes.length frame) := by
  have hc : Careful (t ++ readEvents w) := (h.leave.reads trivial w).careful
  have hlen : f.bytes.length + frame.payload.length = (f.accept frame).bytes.length := by simp
  unfold acceptSubpacket
  dsimp only
  split
  · exact safe_failure hc
  · split
    · exact safe_failure hc
    · rename_i hsize
      have hwithin : ∀ n, f.header.fileSize = some n →
          f.bytes.length + frame.payload.length ≤ n := fun n hn => by simpa [hn] using hsize
      refine safe_then (safe_callTrace hc (h.subpacket hw hwithin)) fun _ t' h' => ?_
      rw [hlen]
      cases frame.end with
      | «continue» => exact safe_ret h'.careful ⟨f.accept frame, rfl, rfl, h'⟩
      | continueWithAck =>
        exact safe_then (safe_position h' rfl .zack) fun _ t'' h'' =>
          safe_ret h''.careful ⟨f.accept frame, rfl, rfl, h''⟩
      | «end» => exact safe_ret h'.careful ⟨f.accept frame, rfl, rfl, h'.leave⟩
      | endWithAck =>
        exact safe_then (safe_position h' rfl .zack) fun _ t'' h'' =>
          safe_ret h''.careful ⟨f.accept frame, rfl, rfl, h''.leave⟩

theorem safe_receiveSubpacket {header : ZmodemFileHeader} {offset : Nat}
    (h : InFrame done header useCrc32 offset t) :
    Safe Careful (onReturn (onFlow (InFrame done header useCrc32) (InFile done header))) t
      (receiveSubpacket header.fileSize useCrc32 offset) := by
  obtain ⟨f, rfl, rfl, h⟩ := h
  refine safe_bind (safe_attempt (safe_readSubpacket h)) (fun r t' hc hr => ?_) fun _ _ _ hr => hr.elim
  cases r with
  | ok frame =>
    obtain ⟨w, rfl, hw⟩ := hr
    exact safe_acceptSubpacket h hw
  | error e =>
    have hr : ReceiverTrace t' done (.file f) := hr
    unfold handleSubpacket
    split
    · exact safe_then (safe_position hr rfl .zrpos) fun _ t'' h'' => safe_ret h''.careful ⟨f, rfl, rfl, h''⟩
    · exact safe_failure hc
    · contradiction

/-! ### In a file -/

/-- What holds when a file's loop is left: the file is done. -/
def Pushed (done : List FileLog) (header : ZmodemFileHeader) (t : ReceiverHist) : Prop :=
  ∃ f, f.header = header ∧ ReceiverTrace t (done ++ [f]) .idle

theorem safe_handleDataHeader {header : ZHeader} (h : HeaderBehind done (.file f) header t) :
    Safe Careful (onReturn (onFlow (InFile done f.header) fun _ => Pushed done f.header)) t
      (handleDataHeader f.header.fileSize f.bytes.length header) := by
  have hr : ReceiverTrace t done (.file f) := h.trace trivial
  have resume : Safe Careful (onReturn (onFlow (InFile done f.header) fun _ => Pushed done f.header))
      t ((writeZheaderAt .zRpos f.bytes.length).bind fun _ =>
        ret (.again f.bytes.length : Turn Nat Unit)) :=
    safe_then (safe_position hr rfl .zrpos) fun _ t' h' => safe_ret h'.careful ⟨f, rfl, rfl, h'⟩
  obtain ⟨t₁, w, rfl, h₁, hw⟩ := h
  unfold handleDataHeader
  split
  · rename_i hty
    split
    · exact resume
    · rename_i hpos
      refine safe_then (safe_repeat (InFrame done f.header (header.encoding == .bin32))
        ⟨f, rfl, rfl, h₁.zdata hw hty (not_not.mp hpos)⟩ fun offset t' h' => safe_receiveSubpacket h')
        fun offset t' h' => ?_
      obtain ⟨g, hg, ho, h'⟩ := h'
      exact safe_ret h'.careful ⟨g, hg, ho, h'⟩
  · rename_i hty
    split
    · exact resume
    · rename_i hpos
      simp only [not_or, not_not] at hpos
      have hwhole : ∀ n, f.header.fileSize = some n → f.bytes.length = n := by
        intro n hn
        have hall := hpos.2
        rw [hn, Option.all_some, beq_iff_eq] at hall
        exact hall.symm
      refine safe_then (safe_callTrace hr.careful (h₁.zeof hw hty hpos.1 hwhole)) fun _ t' h' => ?_
      refine safe_then (safe_writeAll (P := fun t => ReceiverTrace t (done ++ [f]) .idle)
        h'.careful (fun r => ?_) h'.push) fun _ t'' h'' => safe_ret h''.careful ⟨f, rfl, h''⟩
      cases r with
      | ok u => exact h'.push.careful
      | error e => exact (h'.broken e).careful
  · exact safe_failure hr.careful
  · exact safe_failure hr.careful
  · exact safe_failure hr.careful

theorem safe_receiveFile {fileHeader : ZmodemFileHeader} (h : ReceiverTrace t done .idle) :
    Safe Careful (onReturn fun _ => Pushed done fileHeader) t (receiveFile fileHeader) := by
  refine safe_then (P := fun _ t' => t' = t) (safe_check h.careful fun _ _ => rfl) ?_
  rintro _ _ rfl
  refine safe_then (safe_callTrace h.careful fun r => h.opened fileHeader r) fun _ t' h' => ?_
  refine safe_then (safe_position h' rfl .zrpos) fun _ t'' h'' => ?_
  refine safe_repeat (InFile done fileHeader) ⟨⟨fileHeader, []⟩, rfl, rfl, h''⟩ ?_
  rintro offset t₃ ⟨f, rfl, rfl, h₃⟩
  exact safe_then (safe_readHeader h₃ trivial) fun header t₄ h₄ => safe_handleDataHeader h₄

/-! ### Between files -/

/-- The invariant of the session loop: the reported headers are those of the files done. -/
def BetweenFiles (received : List ZmodemFileHeader) (t : ReceiverHist) : Prop :=
  ∃ done, received = done.map (·.header) ∧ ReceiverTrace t done .idle

theorem safe_finishReceive (h : ReceiverTrace t done .idle) :
    Safe Careful (onReturn fun _ t => ReceiverTrace t done .idle) t finishZmodemReceive := by
  refine safe_then (safe_say h) fun _ t' h' => ?_
  refine safe_repeat (fun _ t => ReceiverTrace t done .idle) h' fun counters t'' h'' => ?_
  refine safe_act h''.careful fun r => ?_
  have h₃ := h''.read trivial r
  cases r with
  | error e => exact safe_failure h₃.careful
  | ok byte =>
    simp only [Proc.ofExcept_ok, ret_bind]
    generalize (if byte = 0x4f then counters.1 + 1 else 0) = consecutiveO
    generalize (if byte = zdle then counters.2 + 1 else 0) = consecutiveCancel
    split
    · exact safe_ret h₃.careful h₃
    · split
      · exact safe_failure h₃.careful
      · exact safe_ret h₃.careful h₃

theorem safe_receiveFrame {received : List ZmodemFileHeader} (h : BetweenFiles received t) :
    Safe Careful (onReturn (onFlow BetweenFiles BetweenFiles)) t (receiveFrame received) := by
  obtain ⟨done, rfl, h⟩ := h
  refine safe_then (safe_readHeader h trivial) fun header t' h' => ?_
  replace h' := h'.trace trivial
  have stay : ∀ {t}, ReceiverTrace t done .idle →
      Safe Careful (onReturn (onFlow BetweenFiles BetweenFiles)) t
        (ret (.again (done.map (·.header))) : ZmodemProc _) :=
    fun h => safe_ret h.careful ⟨done, rfl, h⟩
  have finish : ∀ {t}, ReceiverTrace t done .idle →
      Safe Careful (onReturn (onFlow BetweenFiles BetweenFiles)) t
        (finishZmodemReceive.bind fun _ => ret (.done (done.map (·.header)))) :=
    fun h => safe_then (safe_finishReceive h) fun _ _ h => safe_ret h.careful ⟨done, rfl, h⟩
  unfold handleFrame
  split
  · exact safe_then (safe_say h') fun _ _ h => stay h
  · refine safe_then (safe_readIdle h') fun frame t₁ h₁ => ?_
    unfold handleFileFrame
    split
    · exact safe_failure h₁.careful
    · refine safe_then (P := fun _ t' => t' = t₁) (safe_check h₁.careful fun _ _ => rfl) ?_
      rintro file _ rfl
      cases file with
      | none => exact finish h₁
      | some fileHeader =>
        refine safe_then (safe_receiveFile h₁) ?_
        rintro _ t₂ ⟨f, rfl, h₂⟩
        exact safe_ret h₂.careful ⟨done ++ [f], by simp, h₂⟩
  · refine safe_then (safe_readIdle h') fun frame t₁ h₁ => ?_
    split
    · exact safe_failure h₁.careful
    · exact safe_then (safe_say h₁) fun _ _ h => stay h
  · exact finish h'
  · exact safe_failure h'.careful
  · exact safe_failure h'.careful
  · exact stay h'

/-- Every history of the receiver is careful, and what it reports are the files done. -/
theorem receiveZmodem_trace : Safe Careful (onReturn BetweenFiles) [] receiveZmodem := by
  refine safe_then (safe_say .start) fun _ t h => ?_
  exact safe_repeat BetweenFiles ⟨[], rfl, h⟩ fun received t h => safe_receiveFrame h

/-! ## 4. Integrity -/

/-- What a history has done to the receiver's files: the writers got the payloads of the accepted
    subpackets and nothing else, in place and within the declared size; the files done are whole. -/
structure ZmodemIntegrity (t : ReceiverHist) (done : List FileLog) (ph : ReceiverPhase) : Prop where
  trace : ReceiverTrace t done ph
  written : writtenFiles (madeCalls t) =
    (done ++ ph.current).map fun f => (f.header, f.bytes)
  sound : ∀ f ∈ done ++ ph.current, f.Sound
  complete : ∀ f ∈ done, f.Complete

theorem ReceiverTrace.integrity (h : ReceiverTrace t done ph) : ZmodemIntegrity t done ph := by
  refine ⟨h, h.files, fun f hf => ?_, h.sound.1⟩
  rcases List.mem_append.mp hf with hf | hf
  · exact (h.sound.1 f hf).toSound
  · exact h.sound.2.current f hf

/-- **Whatever the peer sends, and whatever the channel and the host answer**, the files are as
    `ZmodemIntegrity` says. -/
theorem receiveZmodem_integrity {n : Nat} {q : ZmodemProc (List ZmodemFileHeader)}
    (hr : Run n receiveZmodem t q) :
    ∃ done ph, ZmodemIntegrity t done ph ∧
      ∀ received, q = ret received → received = done.map (·.header) := by
  obtain ⟨hc, hret, -⟩ := receiveZmodem_trace n t q hr
  by_cases hq : ∃ received, q = ret received
  · obtain ⟨received, rfl⟩ := hq
    obtain ⟨done, rfl, h⟩ := hret received rfl
    refine ⟨done, .idle, h.integrity, fun received' h' => ?_⟩
    cases h'
    rfl
  · obtain ⟨done, ph, h⟩ := hc
    exact ⟨done, ph, h.integrity, fun received h' => absurd ⟨received, h'⟩ hq⟩

/-- A noisy peer: a subpacket with a wrong CRC, a frame at a wrong position, an early end, then the
    file's two bytes. -/
def noisyPeer : List UInt8 :=
  encodeHexHeader .zFile zfileBinaryFlags true ++
  encodeZdata (buildZfileHeader ['a'] 2) .endWithAck false false ++
  encodeHexHeader .zData (positionHeader 0) true ++ [0x68, zdle, ZDataEnd.end.marker, 0x30, 0x30] ++
  encodeHexHeader .zData (positionHeader 7) true ++
  encodeHexHeader .zEof (positionHeader 0) true ++
  encodeHexHeader .zData (positionHeader 0) true ++ encodeZdata [0x68, 0x69] .end false false ++
  encodeHexHeader .zEof (positionHeader 2) true ++
  encodeHexHeader .zFin (positionHeader 0) false ++ [0x4f, 0x4f]

theorem receiveZmodem_integrity_noisy :
    ∃ n t, Run n receiveZmodem t (ret [⟨['a'], some 2⟩]) ∧ ∃ done ph, ZmodemIntegrity t done ph ∧
      ∀ received, (ret [⟨['a'], some 2⟩] : ZmodemProc (List ZmodemFileHeader)) = ret received →
        received = done.map (·.header) := by
  have h : (exec memoryModemIo 400 receiveZmodem ⟨noisyPeer, []⟩).map Prod.fst =
      some (.ok [⟨['a'], some 2⟩]) := by decide +kernel
  obtain ⟨⟨r, tape⟩, hx, rfl⟩ := Option.map_eq_some_iff.mp h
  obtain ⟨n, t, hr⟩ := exec_run hx
  exact ⟨n, t, hr, receiveZmodem_integrity hr⟩

end Hapcli.Modem
