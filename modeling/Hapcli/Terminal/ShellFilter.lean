/-
  Subject:   The stream filter in front of the terminal's parser (`TerminalShellIntegration::advance`
             of `shell_integration.rs`): OSC sequences are held back until their end is seen, then
             handled, recorded or passed on.

  The code looks ahead within a chunk and keeps what a chunk leaves open. `stepByte` takes the same
  stream byte by byte, and knows no chunks.

  * `advanceInner_eq` -- **a chunk is its bytes, one after another, and then `endChunk`**, which lets
    go of an OSC that has grown too long.
-/
import Hapcli.Terminal.CommandMarks
import Hapcli.Terminal.OscFraming
import Mathlib.Logic.Function.Iterate

namespace Hapcli.Terminal

open Hapcli.Rust

/-! ## 1. Captures -/

def oscLimit : Nat := editorProtocolPayloadLimit

def hapcliRemoteMetadataOsc : Str := "7719".toList

def isPrivateHapcliOsc (payload : List UInt8) : Bool :=
  (asBytes hapcliRemoteMetadataOsc ++ [0x3b]).isPrefixOf payload

namespace OscCapture

/-- `OscCapture::new` with the introducer of every capture. -/
def new : OscCapture := { raw := [esc, bracket] }

variable (capture : OscCapture)

def pushPayloadByte (byte : UInt8) : OscCapture :=
  let raw := if !capture.isPrivate then capture.raw ++ [byte] else capture.raw
  if capture.payload.length < oscLimit then
    { capture with
      raw := raw
      payload := capture.payload ++ [byte]
      isPrivate := isPrivateHapcliOsc (capture.payload ++ [byte]) }
  else { capture with raw := raw }

def finish (terminator : List UInt8) : OscCapture :=
  { capture with
    raw := if !capture.isPrivate then capture.raw ++ terminator else capture.raw
    complete := true }

/-- The loop of `continue_osc_capture`: the capture, and what is left of the chunk. -/
def scan : OscCapture → List UInt8 → OscCapture × List UInt8
  | capture, [] => (capture, [])
  | capture, byte :: rest =>
    if byte = bel then (capture.finish [bel], rest)
    else if byte = esc then
      match rest with
      | [] => ({ capture with pendingEscape := true }, [])
      | next :: later =>
        if next = backslash then (capture.finish [esc, backslash], later)
        else scan (capture.pushPayloadByte byte) (next :: later)
    else scan (capture.pushPayloadByte byte) rest

/-- The capture goes on with a chunk; an escape at the end of the last chunk is looked at first. -/
def resume (bytes : List UInt8) : OscCapture × List UInt8 :=
  match capture.pendingEscape, bytes with
  | true, first :: rest =>
    let capture := { capture with pendingEscape := false }
    if first = backslash then (capture.finish [esc, backslash], rest)
    else scan (capture.pushPayloadByte esc) (first :: rest)
  | _, _ => scan capture bytes

theorem scan_length (byte : UInt8) (rest : List UInt8) :
    (scan capture (byte :: rest)).2.length ≤ rest.length := by
  induction rest generalizing capture byte with
  | nil =>
    unfold scan
    split
    · exact Nat.le_refl _
    · split
      · exact Nat.le_refl _
      · simp [scan]
  | cons next later ih =>
    unfold scan
    split
    · exact Nat.le_refl _
    · have hnext := ih (capture.pushPayloadByte byte) next
      split
      · dsimp only
        split
        · simp
        · simp only [List.length_cons]
          omega
      · simp only [List.length_cons]
        omega

theorem resume_length (byte : UInt8) (rest : List UInt8) :
    (resume capture (byte :: rest)).2.length ≤ rest.length := by
  unfold resume
  cases capture.pendingEscape with
  | false => exact scan_length _ _ _
  | true =>
    dsimp only
    split
    · exact Nat.le_refl _
    · exact scan_length _ _ _

end OscCapture

/-! ## 2. The saved-history detector -/

namespace CsiScanState

/-- One byte of `SavedHistoryClearDetector::advance`: whether it completes a clear, and the state. -/
def step (state : CsiScanState) (byte : UInt8) : Bool × CsiScanState :=
  match state with
  | .ground =>
    (false, if byte = esc then .escape else if byte = 0x9b then .csi else .ground)
  | .escape =>
    (false, if byte = 0x5b then .csi else if byte = esc then .escape
      else if byte = 0x9b then .csi else .ground)
  | .csi =>
    (false, if byte = 0x33 then .savedHistoryParameter else if byte = esc then .escape
      else if byte = 0x9b then .csi else .ground)
  | .savedHistoryParameter =>
    (byte == 0x4a, if byte = 0x4a then .ground else if byte = esc then .escape
      else if byte = 0x9b then .csi else .ground)

/-- `SavedHistoryClearDetector::advance`: the number of clears, and the state. -/
def advance (state : CsiScanState) : List UInt8 → Nat × CsiScanState
  | [] => (0, state)
  | byte :: rest =>
    let (clears, state) := state.step byte
    let (count, state) := advance state rest
    (count + clears.toNat, state)

theorem advance_append (state : CsiScanState) (front back : List UInt8) :
    state.advance (front ++ back) =
      ((state.advance front).1 + ((state.advance front).2.advance back).1,
        ((state.advance front).2.advance back).2) := by
  induction front generalizing state with
  | nil => simp [advance]
  | cons byte front ih =>
    simp only [List.cons_append, advance, ih]
    refine Prod.ext ?_ rfl
    omega

end CsiScanState

/-! ## 3. The filter -/

/-- The `TerminalEvent`s the filter emits. -/
inductive TerminalEvent where
  | commandMark (event : TerminalCommandMarkEvent)
  | shellIntegration (event : ShellIntegrationEvent)
  | editorIntegration (event : TerminalEditorIntegrationEvent)
  | editorClipboard (event : TerminalEditorClipboardEvent)
  | cwdChanged (cwd : Str) (host : Option Str)
  deriving DecidableEq

/-- What the calls of `advance_with_recording` change. `parsed` is all the parser was given, and
    `ticks` counts the calls that read the clock. -/
structure World (T : Type) where
  integration : TerminalShellIntegration := {}
  term : T
  recordable : List UInt8 := []
  emitted : List TerminalEvent := []
  parsed : List UInt8 := []
  ticks : Nat := 0

namespace World

variable {T : Type} [Term T] (clock : Nat → Readings) (w : World T) (bytes : List UInt8)

/-- `parser.advance(term, bytes)`. -/
def parse : World T :=
  { w with term := Term.advance w.term bytes, parsed := w.parsed ++ bytes }

def record : World T := { w with recordable := w.recordable ++ bytes }

def emit (event : TerminalEvent) : World T := { w with emitted := w.emitted ++ [event] }

/-- The mark events of a call that read the clock. -/
def marked (call : List TerminalCommandMarkEvent × TerminalShellIntegration) : World T :=
  { w with
    integration := call.2
    emitted := w.emitted ++ call.1.map .commandMark
    ticks := w.ticks + 1 }

/-- One turn of the loop over the clears in `advance_terminal_bytes`. -/
def clearSavedHistory : World T :=
  w.marked (w.integration.resetCommandMarksForSavedHistoryClear (clock w.ticks).closing)

def advanceTerminalBytes : World T :=
  let w := w.record bytes
  let (count, detector) := w.integration.savedHistoryClearDetector.advance bytes
  let w := { w with integration := { w.integration with savedHistoryClearDetector := detector } }
  (clearSavedHistory clock)^[count] (w.parse bytes)

/-- `handle_osc_payload`, after the payload was found to be text with a code. -/
def handleOscText (code data : Str) : Bool × World T :=
  if code = hapcliRemoteMetadataOsc then
    match parseEditorProtocolMessage data with
    | some (.state event) => (true, w.emit (.editorIntegration event))
    | some (.clipboard event) => (true, w.emit (.editorClipboard event))
    | none =>
      match parseHapcliRemoteMetadata data with
      | some (cwd, host) => (true, w.emit (.cwdChanged cwd host))
      | none => (true, w)
  else if code = "7".toList then
    match parseOsc7Cwd data with
    | some (cwd, host) => (true, w.emit (.cwdChanged cwd host))
    | none => (false, w)
  else
    let cwd :=
      if code = "633".toList then parseOsc633Cwd data
      else if code = "1337".toList then parseOsc1337Cwd data
      else none
    match cwd with
    | some (cwd, host) => (true, w.emit (.cwdChanged cwd host))
    | none =>
      let source : Option ShellIntegrationSource :=
        if code = "133".toList then some .osc133
        else if code = "633".toList then some .osc633
        else none
      match source with
      | none => (false, w)
      | some source =>
        match parseShellIntegrationEvent source data (cursorPosition w.term) with
        | none => (true, w)
        | some event =>
          let w := w.marked (w.integration.handleShellEvent (clock w.ticks) w.term event)
          (true, w.emit (.shellIntegration event))

/-- `handle_osc_payload`: whether the sequence is consumed. -/
def handleOscPayload (payload : List UInt8) : Bool × World T :=
  match fromUtf8 payload with
  | .error _ => (isPrivateHapcliOsc payload, w)
  | .ok text =>
    match splitOnce text [';'] with
    | none => (false, w)
    | some (code, data) => w.handleOscText clock code data

/-- An `ESC ]` was seen: the detector starts anew, and a capture is begun. -/
def beginCapture : World T :=
  { w with integration := { w.integration with
    savedHistoryClearDetector := .ground
    pendingOsc := some OscCapture.new } }

def hold (capture : Option OscCapture) : World T :=
  { w with integration := { w.integration with pendingOsc := capture } }

def holdEscape (pending : Bool) : World T :=
  { w with integration := { w.integration with pendingEscape := pending } }

variable (capture : OscCapture)

/-- A complete capture: recorded unless it is private, then handled, and passed on if it is not
    consumed. -/
def complete : World T :=
  let w := w.hold none
  let w := if !capture.isPrivate then w.record capture.raw else w
  let (consumed, w) := w.handleOscPayload clock capture.payload
  if !consumed then w.parse capture.raw else w

/-- A capture that has grown too long is let go. -/
def release : World T :=
  ((w.hold none).record capture.raw).parse capture.raw

/-- The end of `continue_osc_capture`. -/
def settle : World T :=
  if capture.complete then w.complete clock capture
  else if !capture.isPrivate && decide (oscLimit + 8 < capture.raw.length) then w.release capture
  else w.hold (some capture)

/-- The bytes of `normal_start..index`, if there are any. -/
def flush (normal : List UInt8) : World T :=
  if normal = [] then w else w.advanceTerminalBytes clock normal

/-- The loop of `advance_inner`, with `changed`, the bytes of `normal_start..index` and what is left
    of the chunk. -/
def advanceLoop (changed : Bool) (normal rest : List UInt8) (w : World T) : Bool × World T :=
  match rest with
  | [] => (changed, w.flush clock normal)
  | byte :: rest =>
    match w.integration.pendingOsc with
    | some capture =>
      -- the flush does not touch the capture
      advanceLoop true [] (capture.resume (byte :: rest)).2
        ((w.flush clock normal).settle clock (capture.resume (byte :: rest)).1)
    | none =>
      if byte = esc then
        match rest with
        | [] => (true, (w.flush clock normal).holdEscape true)
        | next :: later =>
          if next = bracket then
            advanceLoop true [] later (w.flush clock normal).beginCapture
          else advanceLoop changed (normal ++ [byte]) (next :: later) w
      else advanceLoop changed (normal ++ [byte]) rest w
termination_by rest.length
decreasing_by
  all_goals simp only [List.length_cons]
  · have := capture.resume_length byte rest
    omega
  all_goals omega

/-- `advance_inner`: whether something changed, and the new world. -/
def advanceInner : Bool × World T :=
  match w.integration.pendingEscape, bytes with
  | true, first :: rest =>
    let w := w.holdEscape false
    if first = bracket then advanceLoop clock true [] rest w.beginCapture
    else advanceLoop clock false [] (first :: rest) (w.advanceTerminalBytes clock [esc])
  | _, _ => advanceLoop clock false [] bytes w

/-- The calls for a stream that comes in chunks. -/
def advanceChunks (chunks : List (List UInt8)) : World T :=
  chunks.foldl (fun w chunk => (w.advanceInner clock chunk).2) w

end World

/-! ## 4. Byte by byte -/

namespace OscCapture

/-- A byte that no escape stands before. -/
def plainByte (capture : OscCapture) (byte : UInt8) : OscCapture :=
  if byte = bel then capture.finish [bel]
  else if byte = esc then { capture with pendingEscape := true }
  else capture.pushPayloadByte byte

/-- A byte of an OSC sequence. -/
def takeByte (capture : OscCapture) (byte : UInt8) : OscCapture :=
  if capture.pendingEscape then
    let capture := { capture with pendingEscape := false }
    if byte = backslash then capture.finish [esc, backslash]
    else (capture.pushPayloadByte esc).plainByte byte
  else capture.plainByte byte

end OscCapture

namespace World

variable {T : Type} [Term T] (clock : Nat → Readings)

/-- A capture after a byte: complete, or held. -/
def deliver (w : World T) (capture : OscCapture) : World T :=
  if capture.complete then w.complete clock capture else w.hold (some capture)

/-- A byte outside of OSC sequences that no escape stands before. -/
def groundByte (w : World T) (byte : UInt8) : World T :=
  if byte = esc then w.holdEscape true else w.advanceTerminalBytes clock [byte]

/-- A byte of the stream. -/
def stepByte (w : World T) (byte : UInt8) : World T :=
  match w.integration.pendingOsc with
  | some capture => w.deliver clock (capture.takeByte byte)
  | none =>
    if w.integration.pendingEscape then
      if byte = bracket then (w.holdEscape false).beginCapture
      else ((w.holdEscape false).advanceTerminalBytes clock [esc]).groundByte clock byte
    else w.groundByte clock byte

/-- The end of a chunk: a public capture that has grown too long is let go. -/
def endChunk (w : World T) : World T :=
  match w.integration.pendingOsc with
  | some capture =>
    if !capture.isPrivate && decide (oscLimit + 8 < capture.raw.length) then w.release capture else w
  | none => w

/-- A capture that is held is open, and no escape is held beside it. -/
structure Tidy (w : World T) : Prop where
  escape : w.integration.pendingEscape = true → w.integration.pendingOsc = none
  unfinished : ∀ capture, w.integration.pendingOsc = some capture → capture.complete = false

end World

/-! ## 5. What the operations leave alone -/

namespace TerminalShellIntegration

/-- Neither the capture nor the escape that are held are touched. -/
structure Spares (s s' : TerminalShellIntegration) : Prop where
  pendingOsc : s'.pendingOsc = s.pendingOsc
  pendingEscape : s'.pendingEscape = s.pendingEscape

theorem Spares.trans {s s' s'' : TerminalShellIntegration} (h : s.Spares s') (h' : s'.Spares s'') :
    s.Spares s'' :=
  ⟨h'.pendingOsc.trans h.pendingOsc, h'.pendingEscape.trans h.pendingEscape⟩

variable (s : TerminalShellIntegration)

theorem spares_close (now line : Nat) (closedBy : TerminalCommandMarkClosedBy)
    (exitCode : Option Int) : s.Spares (s.closeActiveMarkBefore now line closedBy exitCode).2 := by
  unfold closeActiveMarkBefore
  split
  · exact ⟨rfl, rfl⟩
  · dsimp only
    split
    · exact ⟨rfl, rfl⟩
    · exact ⟨rfl, rfl⟩

theorem spares_outputStart {T : Type} [Term T] (now : Readings) (term : T)
    (event : ShellIntegrationEvent) : s.Spares (s.handleOutputStart now term event).2 := by
  have hnote : s.Spares (s.noteCommandText event) := by
    unfold noteCommandText
    split
    · exact ⟨rfl, rfl⟩
    · exact ⟨rfl, rfl⟩
  refine hnote.trans ?_
  unfold handleOutputStart
  dsimp only
  split
  · exact ⟨rfl, rfl⟩
  · exact ⟨rfl, rfl⟩

theorem spares_handleShellEvent {T : Type} [Term T] (now : Readings) (term : T)
    (event : ShellIntegrationEvent) : s.Spares (s.handleShellEvent now term event).2 := by
  unfold handleShellEvent
  cases event.kind with
  | promptStart =>
    have h := spares_close (s.observe now event) now.closing
      (promptBlockStartLine term event.line) .nextCommand none
    exact ⟨h.pendingOsc, h.pendingEscape⟩
  | commandStart =>
    have h := spares_close (s.observe now event) now.closing
      (promptBlockStartLine term event.line) .nextCommand none
    exact ⟨h.pendingOsc, h.pendingEscape⟩
  | outputStart =>
    have h := spares_outputStart (s.observe now event) now term event
    exact ⟨h.pendingOsc, h.pendingEscape⟩
  | commandEnd =>
    have h := spares_close (s.observe now event) now.closing
      (promptBlockStartLine term event.line) .shellIntegration event.exitCode
    exact ⟨h.pendingOsc, h.pendingEscape⟩

end TerminalShellIntegration

namespace World

variable {T : Type}

@[simp] theorem hold_pendingOsc (w : World T) (capture : Option OscCapture) :
    (w.hold capture).integration.pendingOsc = capture := rfl

variable {w : World T}

theorem hold_self {capture : Option OscCapture} (h : w.integration.pendingOsc = capture) :
    w.hold capture = w := by
  subst h
  rfl

theorem holdEscape_self {pending : Bool} (h : w.integration.pendingEscape = pending)
    (other : Bool) : (w.holdEscape other).holdEscape pending = w := by
  subst h
  rfl

/-- Neither the capture nor the escape that are held are touched. -/
abbrev Spares (w w' : World T) : Prop := w.integration.Spares w'.integration

variable (clock : Nat → Readings)

theorem spares_clears (count : Nat) (w : World T) : Spares w
    ((clearSavedHistory clock)^[count] w) := by
  induction count generalizing w with
  | zero => exact ⟨rfl, rfl⟩
  | succ count ih =>
    have hone : Spares w (w.clearSavedHistory clock) := ⟨rfl, rfl⟩
    exact hone.trans (ih (w.clearSavedHistory clock))

theorem clears_detector (count : Nat) (w : World T) :
    ((clearSavedHistory clock)^[count] w).integration.savedHistoryClearDetector =
      w.integration.savedHistoryClearDetector := by
  induction count generalizing w with
  | zero => rfl
  | succ count ih => exact ih (w.clearSavedHistory clock)

/-- Only the marks and the events are touched. -/
structure Reports (w w' : World T) : Prop where
  spares : Spares w w'
  recordable : w'.recordable = w.recordable
  parsed : w'.parsed = w.parsed

theorem reports_self (w : World T) : Reports w w := ⟨⟨rfl, rfl⟩, rfl, rfl⟩

theorem reports_emit (w : World T) (event : TerminalEvent) : Reports w (w.emit event) :=
  ⟨⟨rfl, rfl⟩, rfl, rfl⟩

theorem tidy_none (h : w.integration.pendingOsc = none) : w.Tidy :=
  ⟨fun _ => h, fun capture hcapture => by rw [h] at hcapture; cases hcapture⟩

/-- No public capture that is held is too long. -/
def Short (w : World T) : Prop :=
  ∀ capture, w.integration.pendingOsc = some capture →
    (!capture.isPrivate && decide (oscLimit + 8 < capture.raw.length)) = false

theorem short_none (h : w.integration.pendingOsc = none) : w.Short :=
  fun capture hcapture => by rw [h] at hcapture; cases hcapture

variable [Term T]

theorem spares_advanceTerminalBytes (w : World T) (bytes : List UInt8) :
    Spares w (w.advanceTerminalBytes clock bytes) := by
  have h := spares_clears clock ((w.record bytes).integration.savedHistoryClearDetector.advance
    bytes).1 ({ w.record bytes with integration := { (w.record bytes).integration with
    savedHistoryClearDetector := ((w.record bytes).integration.savedHistoryClearDetector.advance
      bytes).2 } }.parse bytes)
  exact ⟨h.pendingOsc, h.pendingEscape⟩

theorem spares_flush (w : World T) (normal : List UInt8) : Spares w (w.flush clock normal) := by
  unfold flush
  split
  · exact ⟨rfl, rfl⟩
  · exact spares_advanceTerminalBytes clock w normal

theorem reports_handleOscText (w : World T) (code data : Str) :
    Reports w (w.handleOscText clock code data).2 := by
  unfold handleOscText
  dsimp only
  split
  · split
    · exact reports_emit w _
    · exact reports_emit w _
    · split
      · exact reports_emit w _
      · exact reports_self w
  · split
    · split
      · exact reports_emit w _
      · exact reports_self w
    · split
      · exact reports_emit w _
      · split
        · exact reports_self w
        · split
          · exact reports_self w
          · exact ⟨w.integration.spares_handleShellEvent _ _ _, rfl, rfl⟩

theorem reports_handleOscPayload (w : World T) (payload : List UInt8) :
    Reports w (w.handleOscPayload clock payload).2 := by
  unfold handleOscPayload
  split
  · exact reports_self w
  · split
    · exact reports_self w
    · exact reports_handleOscText clock w _ _

theorem spares_complete (w : World T) (capture : OscCapture) :
    Spares (w.hold none) (w.complete clock capture) := by
  unfold complete
  dsimp only
  have hrecord : Spares (w.hold none)
      (if !capture.isPrivate then (w.hold none).record capture.raw else w.hold none) := by
    split
    · exact ⟨rfl, rfl⟩
    · exact ⟨rfl, rfl⟩
  generalize (if !capture.isPrivate then (w.hold none).record capture.raw else w.hold none) = recorded
    at hrecord ⊢
  have hhandled := hrecord.trans (reports_handleOscPayload clock recorded capture.payload).spares
  split
  · exact ⟨hhandled.pendingOsc, hhandled.pendingEscape⟩
  · exact hhandled

end World

/-! ## 6. A chunk is its bytes -/

namespace OscCapture

@[simp] theorem pushPayloadByte_complete (capture : OscCapture) (byte : UInt8) :
    (capture.pushPayloadByte byte).complete = capture.complete := by
  unfold pushPayloadByte
  dsimp only
  split
  · rfl
  · rfl

@[simp] theorem pushPayloadByte_pendingEscape (capture : OscCapture) (byte : UInt8) :
    (capture.pushPayloadByte byte).pendingEscape = capture.pendingEscape := by
  unfold pushPayloadByte
  dsimp only
  split
  · rfl
  · rfl

theorem takeByte_escaped {capture : OscCapture} (h : capture.pendingEscape = false) (byte : UInt8) :
    ({ capture with pendingEscape := true } : OscCapture).takeByte byte =
      if byte = backslash then capture.finish [esc, backslash]
      else (capture.pushPayloadByte esc).plainByte byte := by
  have hback : ({ capture with pendingEscape := false } : OscCapture) = capture := by
    rw [← h]
  simp [takeByte, hback]

theorem takeByte_plain {capture : OscCapture} (h : capture.pendingEscape = false) (byte : UInt8) :
    capture.takeByte byte = capture.plainByte byte := by
  simp [takeByte, h]

end OscCapture

namespace World

variable {T : Type} [Term T] (clock : Nat → Readings)

theorem stepByte_hold (w : World T) (capture : OscCapture) (byte : UInt8) :
    (w.hold (some capture)).stepByte clock byte = w.deliver clock (capture.takeByte byte) := by
  unfold stepByte deliver
  rw [hold_pendingOsc]
  dsimp only
  split
  · rfl
  · rfl

/-- The loop over an OSC takes its bytes one by one, up to its end or the end of the chunk. -/
theorem foldl_scan (w : World T) (capture : OscCapture) (hopen : capture.complete = false)
    (hescape : capture.pendingEscape = false) (bytes : List UInt8) :
    bytes.foldl (stepByte clock) (w.hold (some capture)) =
        (capture.scan bytes).2.foldl (stepByte clock) (w.deliver clock (capture.scan bytes).1) ∧
      ((capture.scan bytes).1.complete = false → (capture.scan bytes).2 = []) := by
  induction bytes generalizing capture with
  | nil => exact ⟨by simp [OscCapture.scan, deliver, hopen], fun _ => rfl⟩
  | cons byte rest ih =>
    have hpushed := ih (capture.pushPayloadByte byte) (by simp [hopen]) (by simp [hescape])
    rw [List.foldl_cons, stepByte_hold, OscCapture.takeByte_plain hescape]
    unfold OscCapture.scan OscCapture.plainByte
    by_cases hbel : byte = bel
    · rw [if_pos hbel, if_pos hbel]
      exact ⟨rfl, fun h => absurd h (by simp [OscCapture.finish])⟩
    · rw [if_neg hbel, if_neg hbel]
      by_cases hesc : byte = esc
      · rw [if_pos hesc, if_pos hesc]
        have hheld : w.deliver clock { capture with pendingEscape := true } =
            w.hold (some { capture with pendingEscape := true }) := by simp [deliver, hopen]
        cases rest with
        | nil => exact ⟨rfl, fun _ => rfl⟩
        | cons next later =>
          rw [hheld, List.foldl_cons, stepByte_hold, OscCapture.takeByte_escaped hescape]
          dsimp only
          by_cases hend : next = backslash
          · rw [if_pos hend, if_pos hend]
            exact ⟨rfl, fun h => absurd h (by simp [OscCapture.finish])⟩
          · rw [if_neg hend, if_neg hend, ← hesc]
            rw [List.foldl_cons, stepByte_hold, OscCapture.takeByte_plain (by simp [hescape])]
              at hpushed
            exact hpushed
      · rw [if_neg hesc, if_neg hesc]
        have hheld : w.deliver clock (capture.pushPayloadByte byte) =
            w.hold (some (capture.pushPayloadByte byte)) := by simp [deliver, hopen]
        rw [hheld]
        exact hpushed

variable {capture : OscCapture} {w : World T}

theorem foldl_resume (w : World T) (hopen : capture.complete = false) (bytes : List UInt8) :
    bytes.foldl (stepByte clock) (w.hold (some capture)) =
        (capture.resume bytes).2.foldl (stepByte clock) (w.deliver clock (capture.resume bytes).1) ∧
      ((capture.resume bytes).1.complete = false → (capture.resume bytes).2 = []) := by
  unfold OscCapture.resume
  cases hescape : capture.pendingEscape with
  | false => exact foldl_scan clock w capture hopen hescape bytes
  | true =>
    cases bytes with
    | nil => exact ⟨by simp [OscCapture.scan, deliver, hopen], fun _ => rfl⟩
    | cons first rest =>
      rw [List.foldl_cons, stepByte_hold]
      unfold OscCapture.takeByte
      rw [if_pos hescape]
      dsimp only
      by_cases hend : first = backslash
      · rw [if_pos hend, if_pos hend]
        exact ⟨rfl, fun h => absurd h (by simp [OscCapture.finish])⟩
      · rw [if_neg hend, if_neg hend]
        have hpushed := foldl_scan clock w
          (({ capture with pendingEscape := false } : OscCapture).pushPayloadByte esc)
          (by simp [hopen]) (by simp) (first :: rest)
        rw [List.foldl_cons, stepByte_hold, OscCapture.takeByte_plain (by simp)] at hpushed
        exact hpushed

theorem endChunk_none (h : w.integration.pendingOsc = none) : w.endChunk = w := by
  simp [endChunk, h]

theorem Short.endChunk_eq (h : w.Short) : w.endChunk = w := by
  cases hosc : w.integration.pendingOsc with
  | none => exact endChunk_none hosc
  | some capture =>
    simp only [endChunk, hosc, h capture hosc]
    rfl

theorem short_endChunk (w : World T) : w.endChunk.Short := by
  cases hosc : w.integration.pendingOsc with
  | none =>
    rw [endChunk_none hosc]
    exact short_none hosc
  | some capture =>
    cases hlong : !capture.isPrivate && decide (oscLimit + 8 < capture.raw.length) with
    | true =>
      simp only [endChunk, hosc, hlong, if_true]
      exact short_none rfl
    | false =>
      have hshort : w.Short := fun held hheld => by
        rw [hosc] at hheld
        rw [← Option.some.inj hheld]
        exact hlong
      rw [hshort.endChunk_eq]
      exact hshort

/-- The end of `continue_osc_capture` is the delivery of a complete capture, or the end of a chunk. -/
theorem settle_complete (w : World T) (h : capture.complete = true) :
    w.settle clock capture = w.deliver clock capture := by
  simp [settle, deliver, h]

theorem settle_open (w : World T) (h : capture.complete = false) :
    w.settle clock capture = (w.deliver clock capture).endChunk := by
  simp only [settle, deliver, h, Bool.false_eq_true, if_false, endChunk, hold_pendingOsc]
  rfl

theorem tidy_deliver (h : w.integration.pendingEscape = false) (capture : OscCapture) :
    (w.deliver clock capture).Tidy ∧
      (w.deliver clock capture).integration.pendingEscape = false := by
  unfold deliver
  split
  · have hspares := spares_complete clock w capture
    exact ⟨tidy_none hspares.pendingOsc, hspares.pendingEscape.trans h⟩
  · rename_i hopen
    refine ⟨⟨fun hescape => ?_, fun held hheld => ?_⟩, h⟩
    · exact absurd (hescape.symm.trans h) (by decide)
    · rw [← Option.some.inj hheld]
      simpa using hopen

theorem tidy_endChunk (h : w.Tidy) : w.endChunk.Tidy ∧
    w.endChunk.integration.pendingEscape = w.integration.pendingEscape := by
  unfold endChunk
  split
  · split
    · exact ⟨tidy_none rfl, rfl⟩
    · exact ⟨h, rfl⟩
  · exact ⟨h, rfl⟩

/-! ### The parser takes its bytes in any pieces -/

/-- `parser.advance` of two pieces is that of both at once. -/
def ParsesInPieces (T : Type) [Term T] : Prop :=
  ∀ (term : T) (front back : List UInt8),
    Term.advance term (front ++ back) = Term.advance (Term.advance term front) back

/-- All of `advance_terminal_bytes` but the clears. -/
def ingest (bytes : List UInt8) (w : World T) : World T :=
  { w with
    recordable := w.recordable ++ bytes
    integration := { w.integration with
      savedHistoryClearDetector := (w.integration.savedHistoryClearDetector.advance bytes).2 }
    term := Term.advance w.term bytes
    parsed := w.parsed ++ bytes }

theorem advanceTerminalBytes_eq (w : World T) (bytes : List UInt8) :
    w.advanceTerminalBytes clock bytes =
      (clearSavedHistory clock)^[(w.integration.savedHistoryClearDetector.advance bytes).1]
        (w.ingest bytes) := rfl

theorem ingest_ingest (hterm : ParsesInPieces T) (w : World T) (front back : List UInt8) :
    (w.ingest front).ingest back = w.ingest (front ++ back) := by
  simp [ingest, CsiScanState.advance_append, hterm w.term front back]

theorem advanceTerminalBytes_append (hterm : ParsesInPieces T) (w : World T)
    (front back : List UInt8) :
    w.advanceTerminalBytes clock (front ++ back) =
      (w.advanceTerminalBytes clock front).advanceTerminalBytes clock back := by
  have hcommute : Function.Commute (clearSavedHistory clock) (ingest back : World T → World T) := fun _ => rfl
  have hback : (w.advanceTerminalBytes clock front).advanceTerminalBytes clock back =
      (clearSavedHistory clock)^[((w.integration.savedHistoryClearDetector.advance front).2.advance
        back).1] ((w.advanceTerminalBytes clock front).ingest back) := by
    rw [advanceTerminalBytes_eq clock (w.advanceTerminalBytes clock front),
      advanceTerminalBytes_eq clock w front, clears_detector]
    rfl
  have hfront : (w.advanceTerminalBytes clock front).ingest back =
      (clearSavedHistory clock)^[(w.integration.savedHistoryClearDetector.advance front).1]
        (w.ingest (front ++ back)) := by
    rw [advanceTerminalBytes_eq, ← ingest_ingest hterm]
    exact ((hcommute.iterate_left _).eq _).symm
  rw [hback, hfront, ← Function.iterate_add_apply, advanceTerminalBytes_eq,
    CsiScanState.advance_append, Nat.add_comm]

theorem flush_concat (hterm : ParsesInPieces T) (w : World T) (normal : List UInt8) (byte : UInt8) :
    w.flush clock (normal ++ [byte]) = (w.flush clock normal).advanceTerminalBytes clock [byte] := by
  unfold flush
  rw [if_neg (by simp)]
  split
  · rename_i hnil
    rw [hnil, List.nil_append]
  · exact advanceTerminalBytes_append clock hterm w normal [byte]

/-! ### The loop over a chunk -/

section

variable (hosc : w.integration.pendingOsc = none) (hescape : w.integration.pendingEscape = false)
  (byte : UInt8)

include hosc hescape byte

theorem stepByte_ground : w.stepByte clock byte = w.groundByte clock byte := by
  simp [stepByte, hosc, hescape]

theorem stepByte_escaped : (w.holdEscape true).stepByte clock byte =
      if byte = bracket then w.beginCapture
      else (w.advanceTerminalBytes clock [esc]).groundByte clock byte := by
  have hback : (w.holdEscape true).holdEscape false = w := holdEscape_self hescape true
  unfold stepByte
  rw [hback]
  have hnone : (w.holdEscape true).integration.pendingOsc = none := hosc
  rw [hnone]
  rfl

end

theorem advanceLoop_eq (hterm : ParsesInPieces T) (changed : Bool) (normal rest : List UInt8)
    (w : World T) (htidy : w.Tidy) (hshort : w.Short)
    (hescape : w.integration.pendingEscape = false) :
    (advanceLoop clock changed normal rest w).2 =
      (rest.foldl (stepByte clock) (w.flush clock normal)).endChunk := by
  fun_induction advanceLoop clock changed normal rest w with
  | case1 changed normal w =>
    have hspares := spares_flush clock w normal
    have hflushed : (w.flush clock normal).Short := by
      intro capture hcapture
      rw [hspares.pendingOsc] at hcapture
      exact hshort capture hcapture
    exact hflushed.endChunk_eq.symm
  | case2 changed normal w next later capture hosc ih =>
    have hspares := spares_flush clock w normal
    have hheld : (w.flush clock normal).hold (some capture) = w.flush clock normal :=
      hold_self (hspares.pendingOsc.trans hosc)
    have hidle := hspares.pendingEscape.trans hescape
    obtain ⟨hfold, hrest⟩ := foldl_resume clock (w.flush clock normal) (htidy.unfinished capture hosc)
      (next :: later)
    rw [hheld] at hfold
    rw [hfold]
    generalize hresume : capture.resume (next :: later) = resumed at ih hrest ⊢
    obtain ⟨after, left⟩ := resumed
    have hdelivered := tidy_deliver clock hidle after
    cases hcomplete : after.complete with
    | true =>
      have hsettled := settle_complete clock (w.flush clock normal) hcomplete
      have hnone : ((w.flush clock normal).deliver clock after).integration.pendingOsc = none := by
        rw [deliver, if_pos hcomplete]
        exact (spares_complete clock (w.flush clock normal) after).pendingOsc
      simp only [hsettled] at ih ⊢
      exact ih hdelivered.1 (short_none hnone) hdelivered.2
    | false =>
      have hsettled := settle_open clock (w.flush clock normal) hcomplete
      have hended := tidy_endChunk hdelivered.1
      have hdone : left = [] := hrest hcomplete
      simp only [hsettled, hdone] at ih ⊢
      rw [ih hended.1 (short_endChunk _) (hended.2.trans hdelivered.2)]
      exact (short_endChunk _).endChunk_eq
  | case3 changed normal w hosc =>
    have hspares := spares_flush clock w normal
    have hflushed := hspares.pendingOsc.trans hosc
    rw [List.foldl_cons, stepByte_ground clock hflushed (hspares.pendingEscape.trans hescape)]
    have hheld : ((w.flush clock normal).holdEscape true).integration.pendingOsc = none := hflushed
    exact (endChunk_none hheld).symm
  | case4 changed normal w hosc later ih =>
    have hspares := spares_flush clock w normal
    have hflushed := hspares.pendingOsc.trans hosc
    have hidle := hspares.pendingEscape.trans hescape
    have hsteps : ((w.flush clock normal).stepByte clock esc).stepByte clock bracket =
        (w.flush clock normal).beginCapture := by
      rw [stepByte_ground clock hflushed hidle]
      exact stepByte_escaped clock hflushed hidle bracket
    rw [List.foldl_cons, List.foldl_cons, hsteps]
    refine ih ⟨fun hpending => ?_, fun held hheld => ?_⟩ (fun held hheld => ?_) hidle
    · exact absurd (hpending.symm.trans hidle) (by decide)
    · rw [← Option.some.inj hheld]
      rfl
    · rw [← Option.some.inj hheld]
      rfl
  | case5 changed normal w hosc next later hnext ih =>
    have hspares := spares_flush clock w normal
    have hflushed := hspares.pendingOsc.trans hosc
    have hidle := hspares.pendingEscape.trans hescape
    have hfed := spares_advanceTerminalBytes clock (w.flush clock normal) [esc]
    have hsteps : ((w.flush clock normal).stepByte clock esc).stepByte clock next =
        ((w.flush clock normal).advanceTerminalBytes clock [esc]).stepByte clock next := by
      rw [stepByte_ground clock hflushed hidle,
        stepByte_ground clock (hfed.pendingOsc.trans hflushed) (hfed.pendingEscape.trans hidle)]
      exact (stepByte_escaped clock hflushed hidle next).trans (if_neg hnext)
    rw [ih htidy hshort hescape, flush_concat clock hterm, List.foldl_cons, List.foldl_cons,
      List.foldl_cons, hsteps]
  | case6 changed normal w byte later hosc hbyte ih =>
    have hspares := spares_flush clock w normal
    have hstep : (w.flush clock normal).stepByte clock byte =
        (w.flush clock normal).advanceTerminalBytes clock [byte] := by
      rw [stepByte_ground clock (hspares.pendingOsc.trans hosc) (hspares.pendingEscape.trans hescape)]
      exact if_neg hbyte
    rw [ih htidy hshort hescape, flush_concat clock hterm, List.foldl_cons, hstep]

theorem advanceInner_eq (hterm : ParsesInPieces T) (w : World T) (htidy : w.Tidy) (hshort : w.Short)
    (bytes : List UInt8) :
    (w.advanceInner clock bytes).2 = (bytes.foldl (stepByte clock) w).endChunk := by
  unfold advanceInner
  cases hescape : w.integration.pendingEscape with
  | false => exact advanceLoop_eq clock hterm false [] bytes w htidy hshort hescape
  | true =>
    have hosc := htidy.escape hescape
    cases bytes with
    | nil =>
      simp only [advanceLoop, flush, if_true]
      exact hshort.endChunk_eq.symm
    | cons first rest =>
      have hidle : (w.holdEscape false).integration.pendingEscape = false := rfl
      have hnone : (w.holdEscape false).integration.pendingOsc = none := hosc
      rw [List.foldl_cons]
      by_cases hfirst : first = bracket
      · have hstep : w.stepByte clock first = (w.holdEscape false).beginCapture := by
          simp [stepByte, hosc, hescape, hfirst]
        simp only [hfirst, if_true]
        rw [← hfirst, hstep]
        refine advanceLoop_eq clock hterm true [] rest _ ⟨fun hpending => ?_, fun held hheld => ?_⟩
          (fun held hheld => ?_) rfl
        · cases hpending
        · rw [← Option.some.inj hheld]
          rfl
        · rw [← Option.some.inj hheld]
          rfl
      · have hfed := spares_advanceTerminalBytes clock (w.holdEscape false) [esc]
        have hfedOsc := hfed.pendingOsc.trans hnone
        have hfedIdle := hfed.pendingEscape.trans hidle
        have hstep : w.stepByte clock first =
            ((w.holdEscape false).advanceTerminalBytes clock [esc]).stepByte clock first := by
          rw [stepByte_ground clock hfedOsc hfedIdle]
          simp [stepByte, hosc, hescape, hfirst]
        simp only [hfirst, if_false]
        rw [hstep]
        exact advanceLoop_eq clock hterm false [] (first :: rest) _ (tidy_none hfedOsc)
          (short_none hfedOsc) hfedIdle

end World

end Hapcli.Terminal
