/-
  Subject:   The stream filter does not depend on how its stream was cut, nor, up to the times it
             notes, on the clock.

  `untimed` sets every time to zero. While the marks are kept in order, the code compares ids with
  ids of its own only, so that it runs untimed as it runs with a clock that stands still.

  * `untimed_stepByte` -- **a byte under any clock, untimed, is the byte under the stopped clock**;
  * `filter_independent_of_chunks` -- **two ways of cutting a stream, under any two clocks, leave the
    same bytes for the parser and the recording, the same events and the same filter**.
-/
import Hapcli.Terminal.RecordingPrivacy

namespace Hapcli.Terminal

open Hapcli.Rust

/-! ## 1. Without the times -/

def CommandId.untimed (id : CommandId) : CommandId := ⟨0, id.sequence⟩

def TerminalCommandMark.untimed (mark : TerminalCommandMark) : TerminalCommandMark :=
  { mark with
    commandId := mark.commandId.untimed
    durationMs := mark.durationMs.map fun _ => 0
    startedAt := 0
    finishedAt := mark.finishedAt.map fun _ => 0 }

def TerminalCommandMarkEvent.untimed : TerminalCommandMarkEvent → TerminalCommandMarkEvent
  | .created mark => .created mark.untimed
  | .closed mark => .closed mark.untimed
  | .reset => .reset

def CursorPosition.untimed (position : CursorPosition) : CursorPosition := ⟨position.line, 0⟩

def ShellIntegrationState.untimed (state : ShellIntegrationState) : ShellIntegrationState :=
  { state with
    lastSeenAt := state.lastSeenAt.map fun _ => 0
    promptStart := state.promptStart.map CursorPosition.untimed
    commandStart := state.commandStart.map CursorPosition.untimed
    activeCommandId := state.activeCommandId.map CommandId.untimed
    startedAt := state.startedAt.map fun _ => 0 }

def TerminalShellIntegration.untimed (s : TerminalShellIntegration) : TerminalShellIntegration :=
  { s with state := s.state.untimed, marks := s.marks.map TerminalCommandMark.untimed }

def TerminalEvent.untimed : TerminalEvent → TerminalEvent
  | .commandMark event => .commandMark event.untimed
  | event => event

def World.untimed {T : Type} (w : World T) : World T :=
  { w with integration := w.integration.untimed, emitted := w.emitted.map TerminalEvent.untimed }

def Book.untimed (book : Book) : Book :=
  ⟨book.done.map TerminalCommandMark.untimed, book.active.map TerminalCommandMark.untimed, book.next⟩

/-- The answer of a call on the marks, untimed. -/
def untimedCall (call : List TerminalCommandMarkEvent × TerminalShellIntegration) :
    List TerminalCommandMarkEvent × TerminalShellIntegration :=
  (call.1.map TerminalCommandMarkEvent.untimed, call.2.untimed)

/-! ## 2. The marks -/

theorem Book.Sound.untimed {book : Book} (h : book.Sound) : book.untimed.Sound := by
  have hmarks : book.untimed.marks = book.marks.map TerminalCommandMark.untimed := by
    cases hactive : book.active <;> simp [Book.untimed, Book.marks, hactive]
  refine ⟨fun mark hmark => ?_, fun mark hmark => ?_, ?_, fun mark hmark => ?_⟩
  · obtain ⟨timed, htimed, rfl⟩ := List.mem_map.mp hmark
    exact h.closed timed htimed
  · obtain ⟨timed, htimed, rfl⟩ := Option.map_eq_some_iff.mp hmark
    exact h.running timed htimed
  · rw [hmarks, List.length_map]
    exact h.few
  · rw [hmarks] at hmark
    obtain ⟨timed, htimed, rfl⟩ := List.mem_map.mp hmark
    exact h.lined timed htimed

namespace TerminalShellIntegration

variable {s : TerminalShellIntegration} {book : Book}

theorem Keeps.untimed (h : s.Keeps book) : s.untimed.Keeps book.untimed where
  marks := by
    show s.marks.map _ = _
    rw [h.marks]
    cases hactive : book.active <;> simp [Book.untimed, Book.marks, hactive]
  active := by
    show s.state.activeCommandId.map _ = _
    rw [h.active]
    cases hactive : book.active <;> simp [Book.untimed, hactive, TerminalCommandMark.untimed]
  start := by
    show s.state.activeStartLine = _
    rw [h.start]
    cases hactive : book.active <;> simp [Book.untimed, hactive, TerminalCommandMark.untimed]
  next := h.next

theorem untimed_closeAt (mark : TerminalCommandMark) (line now : Nat)
    (closedBy : TerminalCommandMarkClosedBy) (exitCode : Option Int) :
    (mark.closeAt line now closedBy exitCode).untimed =
      mark.untimed.closeAt line 0 closedBy exitCode := rfl

theorem untimed_closeByReset (mark : TerminalCommandMark) (now : Nat) :
    (mark.closeByReset now).untimed = mark.untimed.closeByReset 0 := rfl

theorem Keeps.untimed_close (h : s.Keeps book) (hsound : book.Sound) (now line : Nat)
    (closedBy : TerminalCommandMarkClosedBy) (exitCode : Option Int) :
    s.untimed.closeActiveMarkBefore 0 line closedBy exitCode =
      ((s.closeActiveMarkBefore now line closedBy exitCode).1.map TerminalCommandMark.untimed,
        (s.closeActiveMarkBefore now line closedBy exitCode).2.untimed) := by
  rw [h.closeActiveMarkBefore_eq hsound, h.untimed.closeActiveMarkBefore_eq hsound.untimed]
  cases hactive : book.active with
  | none => simp [Book.untimed, hactive, TerminalShellIntegration.untimed,
      ShellIntegrationState.untimed]
  | some mark =>
    simp only [Book.untimed, hactive, Option.map_some, TerminalShellIntegration.untimed,
      ShellIntegrationState.untimed, Option.toList_some, List.map_append, List.map_cons,
      List.map_nil, untimed_closeAt, Option.map_none]
    rfl

theorem untimed_closedEvents (closed : Option TerminalCommandMark) :
    (closed.toList.map TerminalCommandMarkEvent.closed).map TerminalCommandMarkEvent.untimed =
      (closed.map TerminalCommandMark.untimed).toList.map .closed := by
  cases closed with
  | none => rfl
  | some mark => rfl

theorem Keeps.untimed_reset (h : s.Keeps book) (hsound : book.Sound) (now : Nat) :
    s.untimed.resetCommandMarksForCoordinateEpoch 0 =
      untimedCall (s.resetCommandMarksForCoordinateEpoch now) := by
  refine Prod.ext ?_ rfl
  show (s.untimed.resetCommandMarksForCoordinateEpoch 0).1 =
    (s.resetCommandMarksForCoordinateEpoch now).1.map TerminalCommandMarkEvent.untimed
  rw [h.reset_events hsound, h.untimed.reset_events hsound.untimed, List.map_append,
    untimed_closedEvents]
  cases hactive : book.active with
  | none => simp [Book.untimed, hactive, TerminalCommandMarkEvent.untimed]
  | some mark =>
    simp only [Book.untimed, hactive, Option.map_some, untimed_closeByReset, List.map_cons,
      List.map_nil]
    rfl

variable {T : Type} [Term T]

section

variable (h : s.Keeps book) (hsound : book.Sound) (now : Readings) (term : T)
  (event : ShellIntegrationEvent)

include h hsound now term event

theorem Keeps.untimed_promptStart : s.untimed.handlePromptStart stopped term event =
      untimedCall (s.handlePromptStart now term event) := by
  have hclose := h.untimed_close hsound now.closing (promptBlockStartLine term event.line)
    .nextCommand none
  unfold handlePromptStart
  simp only [stopped, hclose]
  generalize s.closeActiveMarkBefore now.closing (promptBlockStartLine term event.line)
    .nextCommand none = call
  generalize promptBlockStartLine term event.line = line
  exact Prod.ext (untimed_closedEvents call.1).symm rfl

theorem Keeps.untimed_commandStart (previous : ShellIntegrationLifecycleState) :
    s.untimed.handleCommandStart stopped term event previous =
      untimedCall (s.handleCommandStart now term event previous) := by
  have hclose := h.untimed_close hsound now.closing (promptBlockStartLine term event.line)
    .nextCommand none
  unfold handleCommandStart
  simp only [stopped, hclose]
  generalize s.closeActiveMarkBefore now.closing (promptBlockStartLine term event.line)
    .nextCommand none = call
  generalize promptBlockStartLine term event.line = line
  refine Prod.ext (untimed_closedEvents call.1).symm ?_
  by_cases hprevious : previous ≠ .prompt
  · simp only [if_pos hprevious]
    rfl
  · simp only [if_neg hprevious]
    rfl

theorem Keeps.untimed_commandEnd : s.untimed.handleCommandEnd stopped term event =
      untimedCall (s.handleCommandEnd now term event) := by
  have hclose := h.untimed_close hsound now.closing (promptBlockStartLine term event.line)
    .shellIntegration event.exitCode
  unfold handleCommandEnd untimedCall
  simp only [stopped, hclose, untimed_closedEvents]

end

theorem untimed_lines (position : Option CursorPosition) :
    (position.map CursorPosition.untimed).map (·.line) = position.map (·.line) := by
  cases position with
  | none => rfl
  | some position => rfl

theorem untimed_noteCommandText (event : ShellIntegrationEvent) :
    (s.noteCommandText event).untimed = s.untimed.noteCommandText event := by
  unfold noteCommandText
  split
  · rfl
  · rfl

theorem untimed_createShellIntegratedMark (s : TerminalShellIntegration) (now : Nat)
    (command : Option Str) (startLine commandLine : Nat) :
    s.untimed.createShellIntegratedMark 0 command startLine commandLine =
      ((s.createShellIntegratedMark now command startLine commandLine).1.untimed,
        (s.createShellIntegratedMark now command startLine commandLine).2.untimed) := by
  have hstarted : ((s.untimed.state.startedAt.or (s.untimed.state.promptStart.map (·.seenAt))).getD 0)
      = 0 := by
    show (((s.state.startedAt.map fun _ => 0).or
      ((s.state.promptStart.map CursorPosition.untimed).map (·.seenAt))).getD 0) = 0
    cases s.state.startedAt with
    | some time => rfl
    | none =>
      cases s.state.promptStart with
      | none => rfl
      | some position => rfl
  have hmark : (s.untimed.createShellIntegratedMark 0 command startLine commandLine).1 =
      (s.createShellIntegratedMark now command startLine commandLine).1.untimed := by
    simp only [createShellIntegratedMark, hstarted]
    rfl
  refine Prod.ext hmark ?_
  have hafter (s : TerminalShellIntegration) (now : Nat) :
      (s.createShellIntegratedMark now command startLine commandLine).2 = { s with
        nextCommandSequence := min (s.nextCommandSequence + 1) u64Max
        marks := (s.createShellIntegratedMark now command startLine commandLine).2.marks } := rfl
  rw [hafter s.untimed, hafter s, createShellIntegratedMark_marks, createShellIntegratedMark_marks,
    hmark]
  simp [TerminalShellIntegration.untimed]

theorem untimed_outputStart (now : Readings) (term : T) (event : ShellIntegrationEvent) :
    s.untimed.handleOutputStart stopped term event =
      untimedCall (s.handleOutputStart now term event) := by
  unfold handleOutputStart
  rw [← untimed_noteCommandText]
  generalize s.noteCommandText event = s
  have hactive : s.untimed.state.activeCommandId.isSome = s.state.activeCommandId.isSome :=
    Option.isSome_map
  have hprompt : s.untimed.state.promptStart.map (·.line) = s.state.promptStart.map (·.line) :=
    untimed_lines _
  have hcommand : s.untimed.state.commandStart.map (·.line) = s.state.commandStart.map (·.line) :=
    untimed_lines _
  have htext : s.untimed.state.pendingCommandText = s.state.pendingCommandText := rfl
  have hprotocol : s.untimed.state.pendingCommandTextFromProtocol =
      s.state.pendingCommandTextFromProtocol := rfl
  simp only [hactive, hprompt, hcommand, htext, hprotocol]
  split
  · rfl
  · have hcreate := untimed_createShellIntegratedMark s now.creating
    simp only [stopped, hcreate]
    rfl

theorem Keeps.untimed_shellEvent (h : s.Keeps book) (hsound : book.Sound) (now : Readings)
    (term : T) (event : ShellIntegrationEvent) :
    s.untimed.handleShellEvent stopped term event =
      untimedCall (s.handleShellEvent now term event) := by
  have hobserved := h.observe now event
  have hsame : s.untimed.observe stopped event = (s.observe now event).untimed := rfl
  unfold handleShellEvent
  rw [hsame]
  dsimp only
  cases event.kind with
  | promptStart => exact hobserved.untimed_promptStart hsound now term event
  | commandStart => exact hobserved.untimed_commandStart hsound now term event _
  | outputStart => exact untimed_outputStart now term event
  | commandEnd => exact hobserved.untimed_commandEnd hsound now term event

end TerminalShellIntegration

/-! ## 3. The filter -/

namespace World

open TerminalShellIntegration (stopped)

variable {T : Type}

/-- The marks are in order. -/
def Kept (w : World T) : Prop := ∃ book : Book, w.integration.Keeps book ∧ book.Sound

/-- The clock that stands still. -/
def stoppedClock : Nat → Readings := fun _ => stopped

theorem untimed_marked (w : World T)
    (call : List TerminalCommandMarkEvent × TerminalShellIntegration) :
    (w.marked call).untimed = w.untimed.marked (untimedCall call) := by
  simp only [untimed, marked, untimedCall, List.map_append, List.map_map]
  rfl

theorem kept_marked (w : World T) {book : Book}
    {call : List TerminalCommandMarkEvent × TerminalShellIntegration} (hsound : book.Sound)
    (h : ∃ book', Book.Step book call.1 book' ∧ call.2.Keeps book') : (w.marked call).Kept := by
  obtain ⟨book', hstep, hkeeps⟩ := h
  exact ⟨book', hkeeps, hsound.step hstep⟩

variable {w : World T}

theorem Kept.same {w' : World T} (h : w.Kept) (hmarks : w'.integration.marks = w.integration.marks)
    (hstate : w'.integration.state = w.integration.state)
    (hnext : w'.integration.nextCommandSequence = w.integration.nextCommandSequence) : w'.Kept := by
  obtain ⟨book, hkeeps, hsound⟩ := h
  exact ⟨book, hkeeps.same hmarks (by rw [hstate]) (by rw [hstate]) hnext, hsound⟩

theorem untimed_emit (w : World T) (event : TerminalEvent) :
    (w.emit event).untimed = w.untimed.emit event.untimed := by
  simp [untimed, emit]

/-- The same answer, and the same world but for the times; the marks stay in order. -/
structure Untimes (answer answer' : Bool × World T) : Prop where
  kept : answer.2.Kept
  same : answer' = (answer.1, answer.2.untimed)

theorem Kept.untimes_self (h : w.Kept) (consumed : Bool) :
    Untimes (consumed, w) (consumed, w.untimed) := ⟨h, rfl⟩

theorem Kept.untimes_emit (h : w.Kept) (consumed : Bool) {event : TerminalEvent}
    (hevent : event.untimed = event) :
    Untimes (consumed, w.emit event) (consumed, w.untimed.emit event) := by
  refine ⟨h, ?_⟩
  rw [untimed_emit, hevent]

variable (clock : Nat → Readings)

theorem Kept.clear (h : w.Kept) :
    (w.clearSavedHistory clock).Kept ∧
      (w.clearSavedHistory clock).untimed = w.untimed.clearSavedHistory stoppedClock := by
  obtain ⟨book, hkeeps, hsound⟩ := h
  refine ⟨kept_marked w hsound (hkeeps.reset hsound _), ?_⟩
  unfold clearSavedHistory
  rw [untimed_marked]
  exact congrArg w.untimed.marked (hkeeps.untimed_reset hsound _).symm

theorem Kept.clears (count : Nat) (h : w.Kept) :
    ((clearSavedHistory clock)^[count] w).Kept ∧
      ((clearSavedHistory clock)^[count] w).untimed =
        (clearSavedHistory stoppedClock)^[count] w.untimed := by
  induction count generalizing w with
  | zero => exact ⟨h, rfl⟩
  | succ count ih =>
    obtain ⟨hkept, hone⟩ := h.clear clock
    rw [Function.iterate_succ_apply, Function.iterate_succ_apply, ← hone]
    exact ih hkept

variable [Term T]

section

variable (h : w.Kept)

include h

theorem Kept.advanceTerminalBytes (bytes : List UInt8) : (w.advanceTerminalBytes clock bytes).Kept ∧
      (w.advanceTerminalBytes clock bytes).untimed =
        w.untimed.advanceTerminalBytes stoppedClock bytes := by
  have hkept : (w.ingest bytes).Kept := h.same rfl rfl rfl
  rw [advanceTerminalBytes_eq, advanceTerminalBytes_eq]
  exact hkept.clears clock _

theorem Kept.groundByte (byte : UInt8) : (w.groundByte clock byte).Kept ∧
      (w.groundByte clock byte).untimed = w.untimed.groundByte stoppedClock byte := by
  unfold World.groundByte
  split
  · exact ⟨h.same rfl rfl rfl, rfl⟩
  · exact h.advanceTerminalBytes clock [byte]

theorem Kept.handleOscText (code data : Str) :
    Untimes (w.handleOscText clock code data) (w.untimed.handleOscText stoppedClock code data) := by
  unfold World.handleOscText
  by_cases hprivate : code = hapcliRemoteMetadataOsc
  · simp only [if_pos hprivate]
    cases parseEditorProtocolMessage data with
    | some message =>
      cases message with
      | state event => exact h.untimes_emit true rfl
      | clipboard event => exact h.untimes_emit true rfl
    | none =>
      dsimp only
      cases parseHapcliRemoteMetadata data with
      | some cwd => exact h.untimes_emit true rfl
      | none => exact h.untimes_self true
  simp only [if_neg hprivate]
  by_cases h7 : code = "7".toList
  · simp only [if_pos h7]
    cases parseOsc7Cwd data with
    | some cwd => exact h.untimes_emit true rfl
    | none => exact h.untimes_self false
  simp only [if_neg h7]
  generalize (if code = "633".toList then parseOsc633Cwd data
    else if code = "1337".toList then parseOsc1337Cwd data else none) = cwd
  cases cwd with
  | some cwd => exact h.untimes_emit true rfl
  | none =>
    dsimp only
    generalize (if code = "133".toList then some ShellIntegrationSource.osc133
      else if code = "633".toList then some ShellIntegrationSource.osc633 else none) = source
    cases source with
    | none => exact h.untimes_self false
    | some source =>
      have hterm : w.untimed.term = w.term := rfl
      dsimp only
      rw [hterm]
      cases parseShellIntegrationEvent source data (cursorPosition w.term) with
      | none => exact h.untimes_self true
      | some event =>
        obtain ⟨book, hkeeps, hsound⟩ := h
        have hkept := kept_marked w hsound
          (hkeeps.shellEvent hsound (clock w.ticks) w.term event)
        have hcall := hkeeps.untimed_shellEvent hsound (clock w.ticks) w.term event
        refine ⟨hkept, Prod.ext rfl ?_⟩
        show (w.untimed.marked (w.integration.untimed.handleShellEvent stopped w.term event)).emit
            _ = _
        rw [hcall, ← untimed_marked, untimed_emit]
        rfl

theorem Kept.handleOscPayload (payload : List UInt8) :
    Untimes (w.handleOscPayload clock payload) (w.untimed.handleOscPayload stoppedClock payload) := by
  unfold World.handleOscPayload
  cases fromUtf8 payload with
  | error message => exact h.untimes_self _
  | ok text =>
    dsimp only
    cases splitOnce text [';'] with
    | none => exact h.untimes_self false
    | some parts => exact h.handleOscText clock parts.1 parts.2

theorem Kept.complete (capture : OscCapture) : (w.complete clock capture).Kept ∧
      (w.complete clock capture).untimed = w.untimed.complete stoppedClock capture := by
  have hrecorded : (if !capture.isPrivate then (w.hold none).record capture.raw else w.hold none).Kept ∧
      (if !capture.isPrivate then (w.hold none).record capture.raw else w.hold none).untimed =
        (if !capture.isPrivate then (w.untimed.hold none).record capture.raw
          else w.untimed.hold none) := by
    split
    · exact ⟨h.same rfl rfl rfl, rfl⟩
    · exact ⟨h.same rfl rfl rfl, rfl⟩
  unfold World.complete
  dsimp only
  rw [← hrecorded.2]
  generalize (if !capture.isPrivate then (w.hold none).record capture.raw else w.hold none) = recorded
    at hrecorded ⊢
  obtain ⟨hkept, hsame⟩ := hrecorded.1.handleOscPayload clock capture.payload
  rw [hsame]
  split
  · exact ⟨hkept, rfl⟩
  · exact ⟨hkept, rfl⟩

theorem untimed_stepByte (byte : UInt8) : (w.stepByte clock byte).Kept ∧
      (w.stepByte clock byte).untimed = w.untimed.stepByte stoppedClock byte := by
  have hosc : w.untimed.integration.pendingOsc = w.integration.pendingOsc := rfl
  have hescape : w.untimed.integration.pendingEscape = w.integration.pendingEscape := rfl
  unfold stepByte
  rw [hosc, hescape]
  cases w.integration.pendingOsc with
  | some capture =>
    dsimp only
    unfold deliver
    split
    · exact h.complete clock _
    · exact ⟨h.same rfl rfl rfl, rfl⟩
  | none =>
    dsimp only
    split
    · split
      · exact ⟨h.same rfl rfl rfl, rfl⟩
      · have hidle : (w.holdEscape false).Kept := h.same rfl rfl rfl
        obtain ⟨hkept, hsame⟩ := hidle.advanceTerminalBytes clock [esc]
        have hback : (w.holdEscape false).untimed = w.untimed.holdEscape false := rfl
        rw [← hback, ← hsame]
        exact hkept.groundByte clock byte
    · exact h.groundByte clock byte

theorem untimed_foldl (bytes : List UInt8) :
    (bytes.foldl (stepByte clock) w).untimed = bytes.foldl (stepByte stoppedClock) w.untimed := by
  induction bytes generalizing w with
  | nil => rfl
  | cons byte bytes ih =>
    obtain ⟨hkept, hstep⟩ := untimed_stepByte clock h byte
    rw [List.foldl_cons, List.foldl_cons, ← hstep]
    exact ih hkept

end

/-! ## 4. Chunks -/

/-- Within the limit the chunks are their bytes, one after another. -/
theorem advanceChunks_eq (hterm : ParsesInPieces T) (chunks : List (List UInt8))
    {before : List UInt8} (h : w.Holds (frame before).2)
    (hwithin : PublicWithin (before ++ chunks.flatten)) :
    w.advanceChunks clock chunks = chunks.flatten.foldl (stepByte clock) w := by
  induction chunks generalizing w before with
  | nil => rfl
  | cons chunk chunks ih =>
    have hassoc : before ++ (chunk :: chunks).flatten = before ++ chunk ++ chunks.flatten := by simp
    have hshort := hwithin.not_overlong
    rw [hassoc] at hwithin
    have htail : (frame ((frame before).2 ++ chunk)).2 = (frame (before ++ chunk)).2 := by
      rw [frame_append before chunk]
    obtain ⟨hholds, -⟩ := h.foldl clock chunk
    rw [htail] at hholds
    have hchunk : (w.advanceInner clock chunk).2 = chunk.foldl (stepByte clock) w := by
      rw [advanceInner_eq clock hterm w h.tidy (h.short hshort)]
      exact (hholds.short hwithin.not_overlong).endChunk_eq
    rw [List.flatten_cons, List.foldl_append, ← hchunk]
    rw [← hchunk] at hholds
    exact ih hholds hwithin

end World

/-- All OSC payloads of the stream are within `OSC_LIMIT`, that of an OSC left open at its end
    included. -/
def WithinLimit (bytes : List UInt8) : Prop :=
  (∀ payload terminator, Piece.osc payload terminator ∈ (frame bytes).1 →
    payload.length ≤ oscLimit) ∧
  ((frame bytes).2.drop 2).length ≤ oscLimit

theorem WithinLimit.publicWithin {bytes : List UInt8} (h : WithinLimit bytes) :
    PublicWithin bytes :=
  ⟨fun payload terminator hmem => .inr (Nat.le_add_right_of_le (h.1 payload terminator hmem)),
    .inr (Nat.le_add_right_of_le h.2)⟩

/-- **The filter does not depend on the chunks**: the same bytes go to the parser, the terminal ends
    the same, and so do the events, the recording and the filter, times aside. -/
theorem filter_independent_of_chunks {T : Type} [Term T] (hterm : World.ParsesInPieces T)
    (clock clock' : Nat → Readings) (term : T) (chunks chunks' : List (List UInt8))
    (hsame : chunks.flatten = chunks'.flatten) (hlimit : WithinLimit chunks.flatten) :
    let w := ({ term := term } : World T).advanceChunks clock chunks
    let w' := ({ term := term } : World T).advanceChunks clock' chunks'
    w.parsed = w'.parsed ∧ w.term = w'.term ∧
      w.emitted.map TerminalEvent.untimed = w'.emitted.map TerminalEvent.untimed ∧
      w.recordable = w'.recordable ∧ w.integration.untimed = w'.integration.untimed := by
  have hkept : ({ term := term } : World T).Kept :=
    ⟨_, TerminalShellIntegration.keeps_default, Book.written_empty.sound⟩
  have hbytes (clock : Nat → Readings) (chunks : List (List UInt8))
      (hlimit : WithinLimit chunks.flatten) :
      (({ term := term } : World T).advanceChunks clock chunks).untimed =
        chunks.flatten.foldl (World.stepByte World.stoppedClock) { term := term } := by
    have hstart : ({ term := term } : World T).Holds (frame []).2 := by
      rw [frame_nil]
      exact .nothing rfl rfl
    rw [World.advanceChunks_eq clock hterm chunks hstart (by simpa using hlimit.publicWithin),
      World.untimed_foldl clock hkept]
    rfl
  have hequal : (({ term := term } : World T).advanceChunks clock chunks).untimed =
      (({ term := term } : World T).advanceChunks clock' chunks').untimed := by
    rw [hbytes clock chunks hlimit, hbytes clock' chunks' (hsame ▸ hlimit), hsame]
  have hparsed := congrArg World.parsed hequal
  have hterm := congrArg World.term hequal
  have hemitted := congrArg World.emitted hequal
  have hrecordable := congrArg World.recordable hequal
  have hintegration := congrArg World.integration hequal
  exact ⟨hparsed, hterm, hemitted, hrecordable, hintegration⟩

/-- A terminal of one line, before plain text. -/
instance lineTerminal : Term (List UInt8) where
  advance line bytes := line ++ bytes
  cursor line := (0, line.length)
  totalLines _ := 1
  screenLines _ := 1
  columns _ := 80
  row line _ := line.map fun byte => { c := Char.ofNat byte.toNat }

/-- A letter and a prompt mark, cut behind the escape. -/
def cutPrompt : List (List UInt8) := [[0x61, esc], [bracket, 0x31, 0x33, 0x33, 0x3b, 0x41, bel]]

theorem filter_independent_of_chunks_prompt :
    let w := ({ term := [] } : World (List UInt8)).advanceChunks World.stoppedClock cutPrompt
    let w' := ({ term := [] } : World (List UInt8)).advanceChunks (fun _ => ⟨1, 2, 3, 4, 5, 6⟩)
      [cutPrompt.flatten]
    w.parsed = w'.parsed ∧ w.term = w'.term ∧
      w.emitted.map TerminalEvent.untimed = w'.emitted.map TerminalEvent.untimed ∧
      w.recordable = w'.recordable ∧ w.integration.untimed = w'.integration.untimed := by
  have hterm : World.ParsesInPieces (List UInt8) := fun term front back =>
    (List.append_assoc term front back).symm
  have hlimit : WithinLimit cutPrompt.flatten := by
    have hframe : frame cutPrompt.flatten =
        ([.single 0x61, .osc [0x31, 0x33, 0x33, 0x3b, 0x41] [bel]], []) := by
      have hcut : cutPayload [0x31, 0x33, 0x33, 0x3b, 0x41, bel] =
          some ([0x31, 0x33, 0x33, 0x3b, 0x41], [bel], []) := by decide
      show frame [0x61, esc, bracket, 0x31, 0x33, 0x33, 0x3b, 0x41, bel] = _
      rw [frame_single (.inl (by decide)), frame_osc hcut, frame_nil]
    unfold WithinLimit
    rw [hframe]
    refine ⟨fun payload terminator hmem => ?_, by decide⟩
    simp only [List.mem_cons, reduceCtorEq, Piece.osc.injEq, List.not_mem_nil, or_false,
      false_or] at hmem
    rw [hmem.1]
    decide
  exact filter_independent_of_chunks hterm World.stoppedClock (fun _ => ⟨1, 2, 3, 4, 5, 6⟩) []
    cutPrompt [cutPrompt.flatten] (by simp) hlimit

end Hapcli.Terminal
