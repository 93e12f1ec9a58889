/-
  Subject:   The command marks of a terminal (`shell_integration.rs`): how the prompt, command,
             output and end events of a shell open and close them, and the two resets.

  The grid of the terminal is that of another crate; what the code asks of it is `Term`. The clock
  is not trusted: every place that reads it gets an answer of its own (`Readings`).

  * `marks_kept` -- **in every run the invariant holds, Created and Closed take turns with matching
    ids, and the ids are unique as long as the sequence number is below its limit**.
-/
import Hapcli.Terminal.OscPayload
import Mathlib.Data.List.Nodup

namespace Hapcli.Terminal

open Hapcli.Rust

/-! ## 1. The grid -/

/-- A cell of the grid; `spacer` stands for the two flags of a wide character. -/
structure Cell where
  c : Char
  spacer : Bool := false
  zerowidth : List Char := []

/-- What the code asks of the parser and the terminal it writes to. -/
class Term (T : Type) where
  advance : T → List UInt8 → T
  cursor : T → Int × Nat
  totalLines : T → Nat
  screenLines : T → Nat
  columns : T → Nat
  row : T → Int → List Cell

section Grid

variable {T : Type} [Term T] (term : T)

/-- `as i32`, and what an `i32` wraps to. -/
def asI32 (n : Int) : Int := n.bmod (2 ^ 32)

/-- The lines above the screen. -/
def scrollback : Nat := Term.totalLines term - Term.screenLines term

def cursorPosition : Nat × Nat :=
  ((max (Term.cursor term).1 0).toNat + scrollback term, (Term.cursor term).2)

/-- `str::trim_end`. -/
def trimEnd (s : Str) : Str := (s.reverse.dropWhile isWhitespace).reverse

def lineText (absoluteLine : Nat) : Str :=
  let line := asI32 (asI32 absoluteLine - asI32 (scrollback term))
  let top := -asI32 (scrollback term)
  let bottom := asI32 (Term.screenLines term)
  if line < top ∨ bottom ≤ line then []
  else
    let cells := ((Term.row term line).take (Term.columns term)).filter fun cell => !cell.spacer
    trimEnd (cells.flatMap fun cell => (if cell.c = '\x00' then ' ' else cell.c) :: cell.zerowidth)

/-- The characters a prompt ends in. -/
def isPromptCharacter (c : Char) : Bool := "❯➜λ>$#%❮›»".toList.contains c

def isLikelyPromptInputLine (text : Str) : Bool :=
  match trim text with
  | [] => true
  | c :: _ => isPromptCharacter c

def isLikelyPromptPreambleLine (text : Str) : Bool :=
  let trimmed := trim text
  if trimmed = [] then false
  else
    let hasPrivateUseGlyph := trimmed.any fun c => 0xe000 ≤ c.toNat && c.toNat ≤ 0xf8ff
    let hasPowerlineGlyph := trimmed.any fun c => 0xe0b0 ≤ c.toNat && c.toNat ≤ 0xe0b3
    let hasRuler := (findStr trimmed "......".toList).isSome || (findStr trimmed "······".toList).isSome
    let hasClock := (splitWhitespace trimmed).any fun part =>
      part.contains ':' && part.any Char.isDigit
    let hasPromptContext := trimmed.contains '@' || trimmed.contains '~' || trimmed.contains '/'
    hasPowerlineGlyph || (hasPrivateUseGlyph && (hasClock || hasRuler || hasPromptContext)) ||
      (hasRuler && (hasClock || hasPromptContext))

/-- The loop of `prompt_block_start_line`: up, over at most so many lines of a preamble. -/
def climbPreamble : Nat → Nat → Nat
  | 0, startLine => startLine
  | lines + 1, startLine =>
    if isLikelyPromptPreambleLine (lineText term (startLine - 1)) then
      climbPreamble lines (startLine - 1)
    else startLine

def promptBlockStartLine (commandLine : Nat) : Nat :=
  if !isLikelyPromptInputLine (lineText term commandLine) then commandLine
  else climbPreamble term (min commandLine 3) commandLine

def stripPromptPrefix (text : Str) : Str := text.dropWhile fun c => isWhitespace c || isPromptCharacter c

def extractCommandFromVisibleBuffer (commandStart : Option Nat) (outputStart : Nat) : Option Str :=
  let startLine := commandStart.getD outputStart
  let endLine := max outputStart startLine
  let lines := (List.range' startLine (endLine + 1 - startLine)).map (lineText term)
  sanitizeShellIntegrationCommandText (stripPromptPrefix (lines.intersperse ['\n']).flatten)

end Grid

/-! ## 2. Marks -/

def maxMarks : Nat := 2000

/-- The number and the time that make a `command_id`. -/
structure CommandId where
  now : Nat
  sequence : Nat
  deriving DecidableEq

/-- The id as it is written: `term-cmd-{now}-{sequence}`. -/
def CommandId.text (id : CommandId) : Str :=
  "term-cmd-".toList ++ numToString id.now ++ '-' :: numToString id.sequence

theorem CommandId.text_inj {a b : CommandId} (h : a.text = b.text) : a = b := by
  have hno (n : Nat) : '-' ∉ numToString n := fun hmem =>
    absurd (isDigit_of_mem_numToString hmem) (by decide)
  obtain ⟨hfront, hback⟩ := append_cons_inj (hno a.sequence) (hno b.sequence) h
  have hnow : a.now = b.now := numToString_inj (List.append_cancel_left hfront)
  have hsequence : a.sequence = b.sequence := numToString_inj hback
  cases a
  simp_all

inductive TerminalCommandMarkDetectionSource where
  | commandBar
  | ai
  | broadcast
  | userInputObserved
  | heuristic
  | shellIntegration
  deriving DecidableEq

inductive TerminalCommandMarkClosedBy where
  | nextCommand
  | shellIntegration
  | terminalReset
  | sessionLost
  | interruptedMode
  | timeout
  | manual
  | unknown
  deriving DecidableEq

inductive TerminalCommandMarkConfidence where
  | high
  | medium
  | low
  | unknown
  deriving DecidableEq

structure TerminalCommandMark where
  commandId : CommandId
  command : Option Str
  startLine : Nat
  commandLine : Nat
  endLine : Option Nat
  isClosed : Bool
  closedBy : Option TerminalCommandMarkClosedBy
  exitCode : Option Int
  durationMs : Option Nat
  detectionSource : TerminalCommandMarkDetectionSource
  submittedBy : Option TerminalCommandMarkDetectionSource
  confidence : TerminalCommandMarkConfidence
  outputConfidence : TerminalCommandMarkConfidence
  stale : Bool
  startedAt : Nat
  finishedAt : Option Nat
  deriving DecidableEq

inductive TerminalCommandMarkEvent where
  | created (mark : TerminalCommandMark)
  | closed (mark : TerminalCommandMark)
  | reset
  deriving DecidableEq

inductive ShellIntegrationLifecycleState where
  | idle
  | prompt
  | command
  | output
  | closed
  deriving DecidableEq

/-- `CursorPosition`: a line, and when the cursor was seen there. -/
structure CursorPosition where
  line : Nat
  seenAt : Nat
  deriving DecidableEq

structure ShellIntegrationState where
  lifecycle : ShellIntegrationLifecycleState := .idle
  integrationSource : Option ShellIntegrationSource := none
  lastSeenAt : Option Nat := none
  promptStart : Option CursorPosition := none
  commandStart : Option CursorPosition := none
  pendingCommandText : Option Str := none
  pendingCommandTextFromProtocol : Bool := false
  activeCommandId : Option CommandId := none
  activeStartLine : Option Nat := none
  startedAt : Option Nat := none
  deriving DecidableEq

structure OscCapture where
  raw : List UInt8
  payload : List UInt8 := []
  pendingEscape : Bool := false
  isPrivate : Bool := false
  complete : Bool := false
  deriving DecidableEq

inductive CsiScanState where
  | ground
  | escape
  | csi
  | savedHistoryParameter
  deriving DecidableEq

structure TerminalShellIntegration where
  state : ShellIntegrationState := {}
  marks : List TerminalCommandMark := []
  pendingOsc : Option OscCapture := none
  pendingEscape : Bool := false
  nextCommandSequence : Nat := 0
  savedHistoryClearDetector : CsiScanState := .ground
  deriving DecidableEq

/-- What the clock answers at the places of one call that read it: `lastSeen`, the closing of a
    mark, the prompt, the command, its start, and the making of a mark. -/
structure Readings where
  lastSeen : Nat
  closing : Nat
  prompt : Nat
  command : Nat
  started : Nat
  creating : Nat

/-- `iter_mut().find(..)` and a change of what was found: the changed element and the new list. -/
def updateFirst {α : Type} (p : α → Bool) (f : α → α) : List α → Option (α × List α)
  | [] => none
  | x :: xs =>
    if p x then some (f x, f x :: xs)
    else (updateFirst p f xs).map fun found => (found.1, x :: found.2)

namespace TerminalCommandMark

/-- What `close_active_mark_before` writes into a mark. -/
def closeAt (mark : TerminalCommandMark) (closeLine now : Nat)
    (closedBy : TerminalCommandMarkClosedBy) (exitCode : Option Int) : TerminalCommandMark :=
  { mark with
    isClosed := true
    closedBy := some closedBy
    outputConfidence := .high
    endLine := some closeLine
    exitCode := exitCode
    finishedAt := some now
    durationMs := some (now - mark.startedAt) }

/-- What a reset of the coordinates writes into a mark. -/
def closeByReset (mark : TerminalCommandMark) (now : Nat) : TerminalCommandMark :=
  { mark with
    isClosed := true
    closedBy := some .terminalReset
    outputConfidence := .unknown
    endLine := some mark.startLine
    finishedAt := some now
    durationMs := some (now - mark.startedAt)
    stale := true }

/-- The mark the code looks for: open, and with this id. -/
def isOpenWith (id : CommandId) (mark : TerminalCommandMark) : Bool :=
  mark.commandId.text == id.text && !mark.isClosed

end TerminalCommandMark

namespace TerminalShellIntegration

variable (s : TerminalShellIntegration)

def closeActiveMarkBefore (now nextBlockStartLine : Nat) (closedBy : TerminalCommandMarkClosedBy)
    (exitCode : Option Int) : Option TerminalCommandMark × TerminalShellIntegration :=
  match s.state.activeCommandId with
  | none => (none, s)
  | some commandId =>
    let fallbackStart :=
      (s.state.activeStartLine.or (s.state.promptStart.map (·.line))).getD nextBlockStartLine
    let closeLine := max (nextBlockStartLine - 1) fallbackStart
    let taken := { s.state with activeCommandId := none }
    match updateFirst (·.isOpenWith commandId) (·.closeAt closeLine now closedBy exitCode) s.marks with
    | none => (none, { s with state := taken })
    | some (mark, marks) =>
      (some mark, { s with marks := marks, state := { taken with activeStartLine := none } })

def createShellIntegratedMark (now : Nat) (command : Option Str) (startLine commandLine : Nat) :
    TerminalCommandMark × TerminalShellIntegration :=
  let sequence := min (s.nextCommandSequence + 1) u64Max
  let mark : TerminalCommandMark := {
    commandId := ⟨now, sequence⟩
    command
    startLine
    commandLine := max commandLine startLine
    endLine := none
    isClosed := false
    closedBy := none
    exitCode := none
    durationMs := none
    detectionSource := .shellIntegration
    submittedBy := none
    confidence := .high
    outputConfidence := .unknown
    stale := false
    startedAt := (s.state.startedAt.or (s.state.promptStart.map (·.seenAt))).getD now
    finishedAt := none }
  let marks := s.marks ++ [mark]
  (mark, { s with
    nextCommandSequence := sequence
    marks := if maxMarks < marks.length then marks.drop (marks.length - maxMarks) else marks })

def resetCommandMarksForCoordinateEpoch (now : Nat) :
    List TerminalCommandMarkEvent × TerminalShellIntegration :=
  let closedMark := s.state.activeCommandId.bind fun commandId =>
    (updateFirst (·.isOpenWith commandId) (·.closeByReset now) s.marks).map (·.1)
  (closedMark.toList.map .closed ++ [.reset],
    { s with
      marks := []
      state := { s.state with
        lifecycle := .closed
        promptStart := none
        commandStart := none
        pendingCommandText := none
        pendingCommandTextFromProtocol := false
        activeCommandId := none
        activeStartLine := none
        startedAt := none } })

def resetCommandMarksForSavedHistoryClear (now : Nat) :
    List TerminalCommandMarkEvent × TerminalShellIntegration :=
  s.resetCommandMarksForCoordinateEpoch now

def resetCommandMarksForGridReflow (now : Nat) :
    List TerminalCommandMarkEvent × TerminalShellIntegration :=
  s.resetCommandMarksForCoordinateEpoch now

/-- What every event sets first: the lifecycle, the source, and when it was seen. -/
def observe (now : Readings) (event : ShellIntegrationEvent) : TerminalShellIntegration :=
  { s with state := { s.state with
    lifecycle := match event.kind with
      | .promptStart => .prompt
      | .commandStart => .command
      | .outputStart => .output
      | .commandEnd => .closed
    integrationSource := some event.source
    lastSeenAt := some now.lastSeen } }

section Events

variable {T : Type} [Term T] (now : Readings) (term : T) (event : ShellIntegrationEvent)

/-- The arm of `PromptStart`. -/
def handlePromptStart : List TerminalCommandMarkEvent × TerminalShellIntegration :=
  let promptStart := promptBlockStartLine term event.line
  let (closed, s) := s.closeActiveMarkBefore now.closing promptStart .nextCommand none
  (closed.toList.map .closed,
    { s with state := { s.state with
      promptStart := some ⟨promptStart, now.prompt⟩
      commandStart := none
      pendingCommandText := none
      pendingCommandTextFromProtocol := false
      startedAt := none } })

/-- The arm of `CommandStart`, with the lifecycle before the event. -/
def handleCommandStart (previous : ShellIntegrationLifecycleState) :
    List TerminalCommandMarkEvent × TerminalShellIntegration :=
  let promptStart := promptBlockStartLine term event.line
  let (closed, s) := s.closeActiveMarkBefore now.closing promptStart .nextCommand none
  (closed.toList.map .closed,
    { s with state := { s.state with
      promptStart :=
        if previous ≠ .prompt then some ⟨promptStart, now.prompt⟩ else s.state.promptStart
      commandStart := some ⟨event.line, now.command⟩
      pendingCommandText := none
      pendingCommandTextFromProtocol := false
      startedAt := some now.started } })

/-- The text the event carries, if it carries one. -/
def noteCommandText : TerminalShellIntegration :=
  if event.command.isSome then
    { s with state := { s.state with
      pendingCommandText := event.command
      pendingCommandTextFromProtocol := true } }
  else s

/-- The arm of `OutputStart`. -/
def handleOutputStart : List TerminalCommandMarkEvent × TerminalShellIntegration :=
  let s := s.noteCommandText event
  if s.state.activeCommandId.isSome then ([], s)
  else
    let promptLine := s.state.promptStart.map (·.line)
    let commandStartLine := s.state.commandStart.map (·.line)
    let startLine := (promptLine.or commandStartLine).getD (event.line - 1)
    let commandLine := (commandStartLine.or promptLine).getD startLine
    let command :=
      if s.state.pendingCommandTextFromProtocol then s.state.pendingCommandText
      else extractCommandFromVisibleBuffer term commandStartLine event.line
    let (mark, s) := s.createShellIntegratedMark now.creating command startLine commandLine
    ([.created mark],
      { s with state := { s.state with
        activeCommandId := some mark.commandId
        activeStartLine := some startLine
        promptStart := none } })

/-- The arm of `CommandEnd`. -/
def handleCommandEnd : List TerminalCommandMarkEvent × TerminalShellIntegration :=
  let endBoundary := promptBlockStartLine term event.line
  let (closed, s) := s.closeActiveMarkBefore now.closing endBoundary .shellIntegration event.exitCode
  (closed.toList.map .closed, s)

def handleShellEvent : List TerminalCommandMarkEvent × TerminalShellIntegration :=
  let previous := s.state.lifecycle
  let s := s.observe now event
  match event.kind with
  | .promptStart => s.handlePromptStart now term event
  | .commandStart => s.handleCommandStart now term event previous
  | .outputStart => s.handleOutputStart now term event
  | .commandEnd => s.handleCommandEnd now term event

end Events

end TerminalShellIntegration

/-! ## 3. The book of marks -/

/-- A mark's lines are in order. -/
def TerminalCommandMark.Lined (mark : TerminalCommandMark) : Prop :=
  mark.startLine ≤ mark.commandLine ∧
    (mark.isClosed = true → ∃ endLine, mark.endLine = some endLine ∧ mark.startLine ≤ endLine)

/-- The marks as they are meant: those that are done, at most one that is open, and the last
    number given out. -/
structure Book where
  done : List TerminalCommandMark
  active : Option TerminalCommandMark
  next : Nat

variable {mark : TerminalCommandMark} {book' : Book} {events : List TerminalCommandMarkEvent}

namespace Book

def marks (book : Book) : List TerminalCommandMark := book.done ++ book.active.toList

structure Sound (book : Book) : Prop where
  closed : ∀ mark ∈ book.done, mark.isClosed = true
  running : ∀ mark ∈ book.active, mark.isClosed = false
  few : book.marks.length ≤ maxMarks
  lined : ∀ mark ∈ book.marks, mark.Lined

/-- A mark is closed: it keeps its id and its lines, and gets an end. -/
structure Closes (mark closed : TerminalCommandMark) : Prop where
  commandId : closed.commandId = mark.commandId
  startLine : closed.startLine = mark.startLine
  commandLine : closed.commandLine = mark.commandLine
  isClosed : closed.isClosed = true
  endLine : ∃ endLine, closed.endLine = some endLine ∧ mark.startLine ≤ endLine

/-- **All that can happen to the marks**, with the notifications that go out. -/
inductive Step (book : Book) : List TerminalCommandMarkEvent → Book → Prop
  | quiet : Step book [] book
  | close (mark closed : TerminalCommandMark) (hactive : book.active = some mark)
      (hcloses : Closes mark closed) :
      Step book [.closed closed] ⟨book.done ++ [closed], none, book.next⟩
  | create (mark : TerminalCommandMark) (dropped : Nat) (hactive : book.active = none)
      (hopen : mark.isClosed = false) (hlined : mark.Lined)
      (hid : mark.commandId.sequence = min (book.next + 1) u64Max)
      (hdropped : book.done.length < maxMarks + dropped) :
      Step book [.created mark] ⟨book.done.drop dropped, some mark, min (book.next + 1) u64Max⟩
  | reset (hactive : book.active = none) : Step book [.reset] ⟨[], none, book.next⟩
  | closeAndReset (mark closed : TerminalCommandMark) (hactive : book.active = some mark)
      (hcloses : Closes mark closed) :
      Step book [.closed closed, .reset] ⟨[], none, book.next⟩

theorem Closes.lined {closed : TerminalCommandMark} (h : Closes mark closed)
    (hlined : mark.Lined) : closed.Lined := by
  refine ⟨?_, fun _ => ?_⟩
  · rw [h.startLine, h.commandLine]
    exact hlined.1
  · rw [h.startLine]
    exact h.endLine

theorem Sound.step {book : Book} (h : book.Sound)
    (hstep : Step book events book') : book'.Sound := by
  cases hstep with
  | quiet => exact h
  | close mark closed hactive hcloses =>
    have hmem : mark ∈ book.marks := by simp [marks, hactive]
    refine ⟨fun other hother => ?_, fun other hother => by simp at hother, ?_,
      fun other hother => ?_⟩
    · rcases List.mem_append.mp hother with hother | hother
      · exact h.closed other hother
      · rw [List.mem_singleton.mp hother]
        exact hcloses.isClosed
    · have hfew := h.few
      simp only [marks, hactive, Option.toList_some, Option.toList_none, List.length_append,
        List.length_singleton, List.append_nil] at hfew ⊢
      exact hfew
    · simp only [marks, Option.toList_none, List.append_nil, List.mem_append,
        List.mem_singleton] at hother
      rcases hother with hother | rfl
      · exact h.lined other (List.mem_append_left _ hother)
      · exact hcloses.lined (h.lined mark hmem)
  | create mark dropped hactive hopen hlined hid hdropped =>
    refine ⟨fun other hother => h.closed other (List.mem_of_mem_drop hother), fun other hother => ?_,
      ?_, fun other hother => ?_⟩
    · rw [← Option.some.inj hother]
      exact hopen
    · simp only [marks, Option.toList_some, List.length_append, List.length_drop,
        List.length_singleton]
      have hmax : maxMarks = 2000 := rfl
      omega
    · simp only [marks, Option.toList_some, List.mem_append, List.mem_singleton] at hother
      rcases hother with hother | rfl
      · exact h.lined other (List.mem_append_left _ (List.mem_of_mem_drop hother))
      · exact hlined
  | reset => exact ⟨by simp, by simp, by simp [marks], by simp [marks]⟩
  | closeAndReset => exact ⟨by simp, by simp, by simp [marks], by simp [marks]⟩

end Book

/-- The open command after a notification. Out of turn are a Created while one is open, a Closed of
    another, and a Reset before the Closed. -/
def turn (current : Option CommandId) : TerminalCommandMarkEvent → Option (Option CommandId)
  | .created mark => if current = none then some (some mark.commandId) else none
  | .closed mark => if current = some mark.commandId then some none else none
  | .reset => if current = none then some none else none

/-- The open command after these notifications, and nothing if one of them is out of turn. -/
def turns (current : Option CommandId) (log : List TerminalCommandMarkEvent) :
    Option (Option CommandId) :=
  log.foldlM turn current

theorem turns_append {current now : Option CommandId} {log : List TerminalCommandMarkEvent}
    (h : turns current log = some now) (events : List TerminalCommandMarkEvent) :
    turns current (log ++ events) = turns now events := by
  unfold turns at h ⊢
  rw [List.foldlM_append, h]
  rfl

/-- The ids that were announced. -/
def createdIds (log : List TerminalCommandMarkEvent) : List CommandId :=
  log.filterMap fun
    | .created mark => some mark.commandId
    | _ => none

@[simp] theorem createdIds_append (log events : List TerminalCommandMarkEvent) :
    createdIds (log ++ events) = createdIds log ++ createdIds events := by
  simp [createdIds]

namespace Book

/-- The book after the notifications of a run. -/
structure Written (log : List TerminalCommandMarkEvent) (book : Book) : Prop where
  sound : book.Sound
  turns : turns none log = some (book.active.map (·.commandId))
  numbers : (createdIds log).map (·.sequence) =
    (List.range (createdIds log).length).map fun i => min (i + 1) u64Max
  next : book.next = min (createdIds log).length u64Max
  kept : (book.marks.map (·.commandId)).Sublist (createdIds log)
  notified : ∀ mark, .created mark ∈ log ∨ .closed mark ∈ log → mark.Lined

theorem written_empty : Written [] ⟨[], none, 0⟩ where
  sound := ⟨by simp, by simp, by simp [marks], by simp [marks]⟩
  turns := rfl
  numbers := rfl
  next := by simp [createdIds]
  kept := by simp [marks]
  notified := by simp

theorem Written.unannounced {log : List TerminalCommandMarkEvent} {book : Book}
    (h : book.Written log) (hsound : book'.Sound) (hids : createdIds events = [])
    (hturns : Terminal.turns (book.active.map (·.commandId)) events =
      some (book'.active.map (·.commandId))) (hnext : book'.next = book.next)
    (hkept : (book'.marks.map (·.commandId)).Sublist (book.marks.map (·.commandId)))
    (hlined : ∀ mark, .created mark ∈ events ∨ .closed mark ∈ events → mark.Lined) :
    book'.Written (log ++ events) where
  sound := hsound
  turns := (turns_append h.turns events).trans hturns
  numbers := by simpa [hids] using h.numbers
  next := by simpa [hids, hnext] using h.next
  kept := by simpa [hids] using hkept.trans h.kept
  notified := fun mark hmark => by
    simp only [List.mem_append] at hmark
    rcases hmark with (hmark | hmark) | hmark | hmark
    · exact h.notified mark (.inl hmark)
    · exact hlined mark (.inl hmark)
    · exact h.notified mark (.inr hmark)
    · exact hlined mark (.inr hmark)

variable {book : Book} {log : List TerminalCommandMarkEvent}

theorem Written.step (h : book.Written log)
    (hstep : Step book events book') : book'.Written (log ++ events) := by
  have hsound : book'.Sound := h.sound.step hstep
  cases hstep with
  | quiet => simpa using h
  | close mark closed hactive hcloses =>
    have hmem : mark ∈ book.marks := by simp [marks, hactive]
    refine h.unannounced hsound rfl ?_ rfl ?_ fun other hother => ?_
    · simp [Terminal.turns, turn, hactive, hcloses.commandId]
    · simp [marks, hactive, hcloses.commandId]
    · simp only [List.mem_singleton, reduceCtorEq, TerminalCommandMarkEvent.closed.injEq,
        false_or] at hother
      rw [hother]
      exact hcloses.lined (h.sound.lined mark hmem)
  | create mark dropped hactive hopen hlined hid hdropped =>
    have hids : createdIds (log ++ [.created mark]) = createdIds log ++ [mark.commandId] := by
      simp [createdIds]
    have hnext : min (book.next + 1) u64Max = min ((createdIds log).length + 1) u64Max := by
      rw [h.next]
      omega
    refine ⟨hsound, ?_, ?_, ?_, ?_, fun other hother => ?_⟩
    · rw [turns_append h.turns, hactive]
      rfl
    · rw [hids, List.map_append, h.numbers, List.length_append, List.length_singleton,
        List.range_succ, List.map_append]
      simp [hid, hnext]
    · rw [hids, List.length_append, List.length_singleton]
      exact hnext
    · rw [hids]
      have hdone : (book.done.map (·.commandId)).Sublist (createdIds log) := by
        simpa [marks, hactive] using h.kept
      have hdrop : ((book.done.drop dropped).map (·.commandId)).Sublist (createdIds log) :=
        ((List.drop_sublist dropped book.done).map _).trans hdone
      simpa [marks] using hdrop.append (List.Sublist.refl [mark.commandId])
    · simp only [List.mem_append, List.mem_singleton, reduceCtorEq,
        TerminalCommandMarkEvent.created.injEq, or_false] at hother
      rcases hother with (hother | rfl) | hother
      · exact h.notified other (.inl hother)
      · exact hlined
      · exact h.notified other (.inr hother)
  | reset hactive =>
    refine h.unannounced hsound rfl ?_ rfl (by simp [marks]) fun other hother => by simp at hother
    simp [Terminal.turns, turn, hactive]
  | closeAndReset mark closed hactive hcloses =>
    have hmem : mark ∈ book.marks := by simp [marks, hactive]
    refine h.unannounced hsound rfl ?_ rfl (by simp [marks]) fun other hother => ?_
    · simp [Terminal.turns, turn, hactive, hcloses.commandId]
    · simp only [List.mem_cons, List.not_mem_nil, or_false, reduceCtorEq,
        TerminalCommandMarkEvent.closed.injEq, false_or] at hother
      rw [hother]
      exact hcloses.lined (h.sound.lined mark hmem)

theorem Written.unique (h : book.Written log) (hroom : (createdIds log).length ≤ u64Max) :
    ((createdIds log).map (·.text)).Nodup := by
  have hsequence : (createdIds log).map (·.sequence) =
      (List.range (createdIds log).length).map (· + 1) := by
    rw [h.numbers]
    refine List.map_congr_left fun i hi => ?_
    have hlt := List.mem_range.mp hi
    omega
  have hnodup : ((createdIds log).map (·.sequence)).Nodup := by
    rw [hsequence]
    exact List.nodup_range.map fun a b hab => Nat.succ.inj hab
  exact (List.Nodup.of_map _ hnodup).map fun a b hab => CommandId.text_inj hab

end Book

/-! ## 4. The code keeps the book -/

theorem updateFirst_last {α : Type} {p : α → Bool} {xs : List α} {y : α} (f : α → α)
    (hxs : ∀ x ∈ xs, p x = false) (hy : p y = true) :
    updateFirst p f (xs ++ [y]) = some (f y, xs ++ [f y]) := by
  induction xs with
  | nil => simp [updateFirst, hy]
  | cons x xs ih =>
    have hx : p x = false := hxs x List.mem_cons_self
    have hrest := ih fun z hz => hxs z (List.mem_cons_of_mem _ hz)
    simp [updateFirst, hx, hrest]

namespace TerminalShellIntegration

/-- The store, the active id and its line are those of the book. -/
structure Keeps (s : TerminalShellIntegration) (book : Book) : Prop where
  marks : s.marks = book.marks
  active : s.state.activeCommandId = book.active.map (·.commandId)
  start : s.state.activeStartLine = book.active.map (·.startLine)
  next : s.nextCommandSequence = book.next

variable {s : TerminalShellIntegration} {book : Book}

section

variable (h : s.Keeps book)

include h

theorem Keeps.find (hsound : book.Sound)
    (hactive : book.active = some mark) (f : TerminalCommandMark → TerminalCommandMark) :
    updateFirst (·.isOpenWith mark.commandId) f s.marks = some (f mark, book.done ++ [f mark]) := by
  have hopen : mark.isClosed = false := hsound.running mark hactive
  rw [h.marks, Book.marks, hactive]
  refine updateFirst_last f (fun other hother => ?_) ?_
  · simp [TerminalCommandMark.isOpenWith, hsound.closed other hother]
  · simp [TerminalCommandMark.isOpenWith, hopen]

theorem Keeps.closeActiveMarkBefore_eq (hsound : book.Sound) (now line : Nat)
    (closedBy : TerminalCommandMarkClosedBy) (exitCode : Option Int) :
    s.closeActiveMarkBefore now line closedBy exitCode =
      (book.active.map fun mark => mark.closeAt (max (line - 1) mark.startLine) now closedBy exitCode,
        { s with
          marks := book.done ++ (book.active.map fun mark =>
            mark.closeAt (max (line - 1) mark.startLine) now closedBy exitCode).toList
          state := { s.state with activeCommandId := none, activeStartLine := none } }) := by
  have hid := h.active
  have hstart := h.start
  have hmarks := h.marks
  unfold closeActiveMarkBefore
  cases hactive : book.active with
  | none =>
    rw [hactive] at hid hstart
    simp only [Book.marks, hactive, Option.toList_none, List.append_nil] at hmarks
    simp only [hid, Option.map_none, Option.toList_none, List.append_nil, ← hmarks]
    rw [← hid.trans (Option.map_none _), ← hstart.trans (Option.map_none _)]
  | some mark =>
    rw [hactive] at hid hstart
    simp only [hid, hstart, Option.map_some, Option.some_or, Option.getD_some]
    rw [h.find hsound hactive]
    simp

/-- What a reset does: the open mark, if there is one, is closed, and all marks are forgotten. -/
theorem Keeps.reset_events (hsound : book.Sound) (now : Nat) :
    (s.resetCommandMarksForCoordinateEpoch now).1 =
      (book.active.map (·.closeByReset now)).toList.map .closed ++ [.reset] := by
  unfold resetCommandMarksForCoordinateEpoch
  cases hactive : book.active with
  | none => simp [h.active, hactive]
  | some mark => simp [h.active, hactive, h.find hsound hactive]

theorem Keeps.same {s' : TerminalShellIntegration} (hmarks : s'.marks = s.marks)
    (hactive : s'.state.activeCommandId = s.state.activeCommandId)
    (hstart : s'.state.activeStartLine = s.state.activeStartLine)
    (hnext : s'.nextCommandSequence = s.nextCommandSequence) : s'.Keeps book :=
  ⟨hmarks.trans h.marks, hactive.trans h.active, hstart.trans h.start, hnext.trans h.next⟩

theorem Keeps.observe (now : Readings) (event : ShellIntegrationEvent) :
    (s.observe now event).Keeps book :=
  h.same rfl rfl rfl rfl

theorem Keeps.noteCommandText (event : ShellIntegrationEvent) :
    (s.noteCommandText event).Keeps book := by
  unfold TerminalShellIntegration.noteCommandText
  split
  · exact h.same rfl rfl rfl rfl
  · exact h

end

theorem closes_closeAt (mark : TerminalCommandMark) (line now : Nat)
    (closedBy : TerminalCommandMarkClosedBy) (exitCode : Option Int) :
    Book.Closes mark (mark.closeAt (max line mark.startLine) now closedBy exitCode) :=
  ⟨rfl, rfl, rfl, rfl, _, rfl, Nat.le_max_right _ _⟩

theorem closes_closeByReset (mark : TerminalCommandMark) (now : Nat) :
    Book.Closes mark (mark.closeByReset now) :=
  ⟨rfl, rfl, rfl, rfl, _, rfl, Nat.le_refl _⟩

theorem Keeps.close (h : s.Keeps book) (hsound : book.Sound) (now line : Nat)
    (closedBy : TerminalCommandMarkClosedBy) (exitCode : Option Int) :
    ∃ book', Book.Step book
        ((s.closeActiveMarkBefore now line closedBy exitCode).1.toList.map .closed) book' ∧
      (s.closeActiveMarkBefore now line closedBy exitCode).2.Keeps book' := by
  rw [h.closeActiveMarkBefore_eq hsound]
  cases hactive : book.active with
  | none =>
    refine ⟨book, .quiet, ?_, ?_, ?_, h.next⟩
    · simp [Book.marks, hactive]
    · simp [hactive]
    · simp [hactive]
  | some mark =>
    refine ⟨_, .close mark _ hactive (closes_closeAt mark (line - 1) now closedBy exitCode), ?_⟩
    exact ⟨by simp [Book.marks], rfl, rfl, h.next⟩

theorem createShellIntegratedMark_marks (s : TerminalShellIntegration) (now : Nat)
    (command : Option Str) (startLine commandLine : Nat) :
    (s.createShellIntegratedMark now command startLine commandLine).2.marks =
      s.marks.drop (s.marks.length + 1 - maxMarks) ++
        [(s.createShellIntegratedMark now command startLine commandLine).1] := by
  have hmax : maxMarks = 2000 := rfl
  simp only [createShellIntegratedMark, List.length_append, List.length_singleton]
  split
  · rw [List.drop_append_of_le_length (by omega)]
  · rw [show s.marks.length + 1 - maxMarks = 0 by omega, List.drop_zero]

variable {T : Type} [Term T]

section

variable (h : s.Keeps book) (hsound : book.Sound) (now : Readings) (term : T)
  (event : ShellIntegrationEvent)

include h hsound now term event

theorem Keeps.promptStart : ∃ book', Book.Step book (s.handlePromptStart now term event).1 book' ∧
      (s.handlePromptStart now term event).2.Keeps book' := by
  obtain ⟨book', hstep, hkeeps⟩ :=
    h.close hsound now.closing (promptBlockStartLine term event.line) .nextCommand none
  exact ⟨book', hstep, hkeeps.same rfl rfl rfl rfl⟩

theorem Keeps.commandStart (previous : ShellIntegrationLifecycleState) :
    ∃ book', Book.Step book (s.handleCommandStart now term event previous).1 book' ∧
      (s.handleCommandStart now term event previous).2.Keeps book' := by
  obtain ⟨book', hstep, hkeeps⟩ :=
    h.close hsound now.closing (promptBlockStartLine term event.line) .nextCommand none
  exact ⟨book', hstep, hkeeps.same rfl rfl rfl rfl⟩

theorem Keeps.commandEnd : ∃ book', Book.Step book (s.handleCommandEnd now term event).1 book' ∧
      (s.handleCommandEnd now term event).2.Keeps book' :=
  h.close hsound now.closing (promptBlockStartLine term event.line) .shellIntegration event.exitCode

end

section

variable (h : s.Keeps book)

include h

theorem Keeps.create (hactive : book.active = none) (now : Readings) (term : T)
    (event : ShellIntegrationEvent) :
    ∃ mark : TerminalCommandMark, mark.commandId = ⟨now.creating, min (book.next + 1) u64Max⟩ ∧
      mark.isClosed = false ∧ mark.Lined ∧
      (s.handleOutputStart now term event).1 = [.created mark] ∧
      (s.handleOutputStart now term event).2.Keeps
        ⟨book.done.drop (book.done.length + 1 - maxMarks), some mark,
          min (book.next + 1) u64Max⟩ := by
  have hnote := h.noteCommandText event
  have hquiet : (s.noteCommandText event).state.activeCommandId.isSome = false := by
    simp [hnote.active, hactive]
  have hmarks := hnote.marks
  simp only [Book.marks, hactive, Option.toList_none, List.append_nil] at hmarks
  unfold handleOutputStart
  rw [if_neg (by simp [hquiet])]
  refine ⟨_, ?_, ?_, ?_, rfl, ?_, rfl, rfl, ?_⟩
  · simp [createShellIntegratedMark, hnote.next]
  · simp [createShellIntegratedMark]
  · exact ⟨Nat.le_max_right _ _, fun hclosed => absurd hclosed (by simp [createShellIntegratedMark])⟩
  · rw [createShellIntegratedMark_marks, hmarks]
    simp only [Book.marks, Option.toList_some]
  · exact congrArg (fun n => min (n + 1) u64Max) hnote.next

theorem Keeps.outputStart (now : Readings) (term : T) (event : ShellIntegrationEvent) :
    ∃ book', Book.Step book (s.handleOutputStart now term event).1 book' ∧
      (s.handleOutputStart now term event).2.Keeps book' := by
  cases hactive : book.active with
  | none =>
    obtain ⟨mark, hid, hopen, hlined, hevents, hkeeps⟩ := h.create hactive now term event
    rw [hevents]
    refine ⟨_, .create mark _ hactive hopen hlined (by rw [hid]) ?_, hkeeps⟩
    omega
  | some mark =>
    have hnote := h.noteCommandText event
    unfold handleOutputStart
    rw [if_pos (by simp [hnote.active, hactive])]
    exact ⟨book, .quiet, hnote⟩

theorem Keeps.shellEvent (hsound : book.Sound) (now : Readings) (term : T)
    (event : ShellIntegrationEvent) :
    ∃ book', Book.Step book (s.handleShellEvent now term event).1 book' ∧
      (s.handleShellEvent now term event).2.Keeps book' := by
  have hobserved := h.observe now event
  unfold handleShellEvent
  cases event.kind with
  | promptStart => exact hobserved.promptStart hsound now term event
  | commandStart => exact hobserved.commandStart hsound now term event _
  | outputStart => exact hobserved.outputStart now term event
  | commandEnd => exact hobserved.commandEnd hsound now term event

theorem Keeps.reset (hsound : book.Sound) (now : Nat) :
    ∃ book', Book.Step book (s.resetCommandMarksForCoordinateEpoch now).1 book' ∧
      (s.resetCommandMarksForCoordinateEpoch now).2.Keeps book' := by
  rw [h.reset_events hsound]
  cases hactive : book.active with
  | none => exact ⟨_, .reset hactive, rfl, rfl, rfl, h.next⟩
  | some mark =>
    exact ⟨_, .closeAndReset mark _ hactive (closes_closeByReset mark now), rfl, rfl, rfl, h.next⟩

end

end TerminalShellIntegration

/-! ## 5. Runs -/

/-- What reaches the marks of a terminal. -/
inductive MarkAction (T : Type) where
  | shellEvent (now : Readings) (term : T) (event : ShellIntegrationEvent)
  | gridReflow (now : Nat)
  | savedHistoryClear (now : Nat)

namespace TerminalShellIntegration

variable {T : Type} [Term T]

def takeAction (s : TerminalShellIntegration) :
    MarkAction T → List TerminalCommandMarkEvent × TerminalShellIntegration
  | .shellEvent now term event => s.handleShellEvent now term event
  | .gridReflow now => s.resetCommandMarksForGridReflow now
  | .savedHistoryClear now => s.resetCommandMarksForSavedHistoryClear now

/-- The notifications of a run, and the state it leaves. -/
def takeActions (s : TerminalShellIntegration) :
    List (MarkAction T) → List TerminalCommandMarkEvent × TerminalShellIntegration
  | [] => ([], s)
  | action :: rest =>
    let (events, s) := s.takeAction action
    let (later, s) := s.takeActions rest
    (events ++ later, s)

variable {book : Book} {s : TerminalShellIntegration}

theorem Keeps.takeAction (h : s.Keeps book) (hsound : book.Sound) (action : MarkAction T) :
    ∃ book', Book.Step book (s.takeAction action).1 book' ∧ (s.takeAction action).2.Keeps book' := by
  cases action with
  | shellEvent now term event => exact h.shellEvent hsound now term event
  | gridReflow now => exact h.reset hsound now
  | savedHistoryClear now => exact h.reset hsound now

theorem Keeps.takeActions (actions : List (MarkAction T)) {log : List TerminalCommandMarkEvent}
    (h : s.Keeps book) (hwritten : book.Written log) :
    ∃ book', (s.takeActions actions).2.Keeps book' ∧
      book'.Written (log ++ (s.takeActions actions).1) := by
  induction actions generalizing s book log with
  | nil => exact ⟨book, h, by simpa [TerminalShellIntegration.takeActions] using hwritten⟩
  | cons action rest ih =>
    obtain ⟨middle, hstep, hmiddle⟩ := h.takeAction hwritten.sound action
    obtain ⟨book', hkeeps, hlog⟩ := ih hmiddle (hwritten.step hstep)
    refine ⟨book', hkeeps, ?_⟩
    rw [List.append_assoc] at hlog
    exact hlog

theorem keeps_default : ({} : TerminalShellIntegration).Keeps ⟨[], none, 0⟩ := ⟨rfl, rfl, rfl, rfl⟩

/-- What holds of the marks and of the notifications that went out. -/
structure MarksKept (log : List TerminalCommandMarkEvent) (s : TerminalShellIntegration) : Prop where
  onlyLastOpen : ∀ mark ∈ s.marks.dropLast, mark.isClosed = true
  active : s.state.activeCommandId =
    (s.marks.getLast?.filter fun mark => !mark.isClosed).map (·.commandId)
  few : s.marks.length ≤ 2000
  alternate : turns none log = some s.state.activeCommandId
  lines : ∀ mark ∈ s.marks, mark.Lined
  notifiedLines : ∀ mark, .created mark ∈ log ∨ .closed mark ∈ log → mark.Lined
  unique : (createdIds log).length < 2 ^ 64 →
    ((createdIds log).map (·.text)).Nodup ∧ (s.marks.map (·.commandId.text)).Nodup

theorem Keeps.marksKept {log : List TerminalCommandMarkEvent} (h : s.Keeps book)
    (hwritten : book.Written log) : MarksKept log s := by
  have hsound := hwritten.sound
  refine ⟨?_, ?_, ?_, ?_, ?_, hwritten.notified, fun hroom => ?_⟩
  · intro mark hmark
    rw [h.marks] at hmark
    cases hactive : book.active with
    | none =>
      simp only [Book.marks, hactive, Option.toList_none, List.append_nil] at hmark
      exact hsound.closed mark (List.dropLast_subset _ hmark)
    | some last =>
      simp only [Book.marks, hactive, Option.toList_some, List.dropLast_concat] at hmark
      exact hsound.closed mark hmark
  · rw [h.active, h.marks]
    cases hactive : book.active with
    | none =>
      simp only [Book.marks, hactive, Option.toList_none, List.append_nil]
      cases hlast : book.done.getLast? with
      | none => rfl
      | some last =>
        have hclosed := hsound.closed last (List.mem_of_getLast? hlast)
        simp [Option.filter, hclosed]
    | some last =>
      have hopen := hsound.running last hactive
      simp [Book.marks, hactive, Option.filter, hopen]
  · rw [h.marks]
    exact hsound.few
  · rw [h.active]
    exact hwritten.turns
  · rw [h.marks]
    exact hsound.lined
  · have hids := hwritten.unique (Nat.le_sub_one_of_lt hroom)
    refine ⟨hids, ?_⟩
    have hkept := hwritten.kept.map (·.text)
    rw [← h.marks, List.map_map] at hkept
    exact hids.sublist hkept

/-- **The marks are kept in every run** of shell events and resets, in any order. -/
theorem marks_kept (actions : List (MarkAction T)) :
    MarksKept (({} : TerminalShellIntegration).takeActions actions).1
      (({} : TerminalShellIntegration).takeActions actions).2 := by
  obtain ⟨book, hkeeps, hwritten⟩ := keeps_default.takeActions actions Book.written_empty
  exact hkeeps.marksKept hwritten

/-! ## 6. The limit of the sequence number -/

theorem takeActions_append (s : TerminalShellIntegration) (actions later : List (MarkAction T)) :
    (s.takeActions (actions ++ later)).2 = ((s.takeActions actions).2.takeActions later).2 := by
  induction actions generalizing s with
  | nil => rfl
  | cons action rest ih => exact ih _

/-- A terminal without lines. -/
instance blankTerminal : Term Unit where
  advance _ _ := ()
  cursor _ := (0, 0)
  totalLines _ := 0
  screenLines _ := 0
  columns _ := 0
  row _ _ := []

/-- A clock that stands still. -/
def stopped : Readings := ⟨0, 0, 0, 0, 0, 0⟩

def plainEvent (kind : ShellIntegrationEventKind) : ShellIntegrationEvent :=
  ⟨kind, .osc133, 0, 0, [], [], none, none⟩

/-- A command starts its output, and ends. -/
def oneCommand : List (MarkAction Unit) :=
  [.shellEvent stopped () (plainEvent .outputStart), .shellEvent stopped () (plainEvent .commandEnd)]

/-- So many commands, one after another. -/
def commandsInARow (n : Nat) : List (MarkAction Unit) := (List.replicate n oneCommand).flatten

theorem Keeps.endCommand {done : List TerminalCommandMark} {next : Nat}
    (h : s.Keeps ⟨done, some mark, next⟩) (hsound : Book.Sound ⟨done, some mark, next⟩)
    (now : Readings) (term : T) (event : ShellIntegrationEvent) :
    ∃ closed : TerminalCommandMark, closed.commandId = mark.commandId ∧
      (s.handleCommandEnd now term event).2.Keeps ⟨done ++ [closed], none, next⟩ ∧
      Book.Sound ⟨done ++ [closed], none, next⟩ := by
  have hcloses := closes_closeAt mark (promptBlockStartLine term event.line - 1) now.closing
    .shellIntegration event.exitCode
  refine ⟨_, hcloses.commandId, ?_, hsound.step (.close mark _ rfl hcloses)⟩
  show (closeActiveMarkBefore _ _ _ _ _).2.Keeps _
  rw [h.closeActiveMarkBefore_eq hsound]
  exact ⟨by simp [Book.marks], rfl, rfl, h.next⟩

theorem Keeps.oneCommand (h : s.Keeps book) (hsound : book.Sound) (hactive : book.active = none) :
    ∃ mark : TerminalCommandMark, mark.commandId = ⟨0, min (book.next + 1) u64Max⟩ ∧
      (s.takeActions oneCommand).2.Keeps ⟨book.done.drop (book.done.length + 1 - maxMarks) ++ [mark],
        none, min (book.next + 1) u64Max⟩ ∧
      Book.Sound ⟨book.done.drop (book.done.length + 1 - maxMarks) ++ [mark],
        none, min (book.next + 1) u64Max⟩ := by
  have hobserved := h.observe stopped (plainEvent .outputStart)
  obtain ⟨mark, hid, hopen, hlined, -, hcreated⟩ :=
    hobserved.create hactive stopped () (plainEvent .outputStart)
  have hroom : book.done.length < maxMarks + (book.done.length + 1 - maxMarks) := by
    omega
  have hmiddle := hsound.step (.create mark _ hactive hopen hlined (by rw [hid]) hroom)
  have hended := hcreated.observe stopped (plainEvent .commandEnd)
  obtain ⟨closed, hclosed, hkeeps, hafter⟩ :=
    hended.endCommand hmiddle stopped () (plainEvent .commandEnd)
  exact ⟨closed, hclosed.trans hid, hkeeps, hafter⟩

theorem commandsInARow_succ (n : Nat) : commandsInARow
    (n + 1) = commandsInARow n ++ oneCommand := by
  simp [commandsInARow, List.replicate_succ']

theorem keeps_commandsInARow (n : Nat) :
    ∃ book : Book, (({} : TerminalShellIntegration).takeActions (commandsInARow n)).2.Keeps book ∧
      book.Sound ∧ book.active = none ∧ book.next = min n u64Max := by
  induction n with
  | zero => exact ⟨_, keeps_default, Book.written_empty.sound, rfl, by simp⟩
  | succ n ih =>
    obtain ⟨book, hkeeps, hsound, hactive, hnext⟩ := ih
    obtain ⟨mark, -, hafter, hsound'⟩ := hkeeps.oneCommand hsound hactive
    refine ⟨_, ?_, hsound', rfl, ?_⟩
    · rw [commandsInARow_succ, takeActions_append]
      exact hafter
    · show min (book.next + 1) u64Max = min (n + 1) u64Max
      omega

theorem ids_repeat_after {n : Nat} (hn : u64Max ≤ n) :
    ¬ ((({} : TerminalShellIntegration).takeActions (commandsInARow (n + 1 + 1))).2.marks.map
      (·.commandId.text)).Nodup := by
  obtain ⟨book, hkeeps, hsound, hactive, hnext⟩ := keeps_commandsInARow n
  obtain ⟨first, hfirst, hkeeps, hsound⟩ := hkeeps.oneCommand hsound hactive
  obtain ⟨second, hsecond, hkeeps, -⟩ := hkeeps.oneCommand hsound rfl
  have hfew := hsound.few
  have hmax : maxMarks = 2000 := rfl
  have hsame : second.commandId = first.commandId := by
    rw [hfirst, hsecond]
    congr 1
    show min (min (book.next + 1) u64Max + 1) u64Max = min (book.next + 1) u64Max
    omega
  rw [commandsInARow_succ, commandsInARow_succ, takeActions_append, takeActions_append, hkeeps.marks]
  simp only [Book.marks, Option.toList_none, List.append_nil, List.length_append,
    List.length_singleton] at hfew ⊢
  -- room is made for the second mark at the front, so that the first one stays
  rw [List.drop_append_of_le_length (by omega)]
  simp [hsame, List.nodup_append]

/-- **At the limit of the sequence number ids repeat**: the last two of `2 ^ 64 + 1` commands, in one
    millisecond, are marked with one id. -/
theorem saturated_ids_repeat :
    ¬ ((({} : TerminalShellIntegration).takeActions (commandsInARow (2 ^ 64 + 1))).2.marks.map
      (·.commandId.text)).Nodup := by
  have hsum : 2 ^ 64 + 1 = u64Max + 1 + 1 := by decide
  rw [hsum]
  exact ids_repeat_after (Nat.le_refl u64Max)

end TerminalShellIntegration

end Hapcli.Terminal
