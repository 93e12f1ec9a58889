/-
  Subject:   Recordings of a terminal (`hapcli-terminal-recording`).

  A recorder writes an asciicast, which is parsed for the replay. `serde_json` and the numbers in
  `f64` are the `CastCodec` that both are given; a time is in nanoseconds.

  * **`parse_stop`** -- what is parsed of what a recorder has written;
  * **`recording_replays_iff`** -- when a recording replays what was there.
-/
import Hapcli.Rust.Utf8Chunks

namespace Hapcli.Terminal

open Hapcli.Rust

/-! ## 1. JSON -/

/-- `serde_json::Value`; a number is its literal. -/
inductive CastJson
  | null
  | bool (b : Bool)
  | number (literal : Str)
  | string (s : Str)
  | array (items : List CastJson)
  | object (fields : List (Str × CastJson))

/-- What the recordings use of `serde_json` and of the numbers `φ` of `f64`. -/
structure CastCodec (φ : Type) where
  /-- `to_string`. -/
  toText : CastJson → Str
  /-- `from_str`. -/
  fromStr : Str → Except Str CastJson
  /-- The number of a literal. -/
  number : Str → Option φ
  zero : φ
  add : φ → φ → φ
  /-- The literal of `json!(seconds(duration))`. -/
  seconds : Nat → Str
  /-- `format!("{:.6}", seconds(duration))`. -/
  fixedSeconds : Nat → Str

variable {φ : Type}

namespace CastJson

/-- `get` of a key. -/
def get (value : CastJson) (key : String) : Option CastJson :=
  match value with
  | .object fields => fields.lookup key.toList
  | _ => none

def asU64 : CastJson → Option Nat
  | .number literal => parseU64 literal
  | _ => none

def asF64 (codec : CastCodec φ) : CastJson → Option φ
  | .number literal => codec.number literal
  | _ => none

def asStr : CastJson → Option Str
  | .string s => some s
  | _ => none

def asArray : CastJson → Option (List CastJson)
  | .array items => some items
  | _ => none

end CastJson

/-! ## 2. Reading a recording -/

inductive AsciicastEventKind
  | output
  | input
  | resize
  deriving DecidableEq

namespace AsciicastEventKind

def fromChar (kind : Char) : AsciicastEventKind :=
  if kind = 'i' then .input else if kind = 'r' then .resize else .output

def asChar : AsciicastEventKind → Char
  | .output => 'o'
  | .input => 'i'
  | .resize => 'r'

theorem fromChar_asChar (kind : AsciicastEventKind) : fromChar kind.asChar = kind := by
  cases kind <;> rfl

end AsciicastEventKind

structure AsciicastEvent (φ : Type) where
  time : φ
  kind : AsciicastEventKind
  data : Str

structure AsciicastRecording (φ : Type) where
  fileName : Str
  width : Nat
  height : Nat
  duration : φ
  events : List (AsciicastEvent φ)

namespace AsciicastRecording

variable (codec : CastCodec φ)

/-- The event of a line, if it is one. -/
def lineEvent (value : CastJson) : Option (AsciicastEvent φ) := do
  let array ← value.asArray
  let time ← array.head? >>= CastJson.asF64 codec
  let kind := ((array[1]? >>= CastJson.asStr >>= List.head?).map AsciicastEventKind.fromChar).getD
    .output
  let data := (array[2]? >>= CastJson.asStr).getD []
  some { time, kind, data }

/-- The loop over the lines of version 2. -/
def parseLines : List Str → Except Str (List (AsciicastEvent φ))
  | [] => .ok []
  | line :: lines => do
      let value ← codec.fromStr line
      let events ← parseLines lines
      pure ((lineEvent codec value).toList ++ events)

/-- The loop over the output of version 1. -/
def parseStdout (time : φ) : List CastJson → List (AsciicastEvent φ)
  | [] => []
  | item :: items =>
    match item.asArray with
    | none => parseStdout time items
    | some array =>
      let time := codec.add time ((array.head? >>= CastJson.asF64 codec).getD codec.zero)
      { time, kind := .output, data := (array[1]? >>= CastJson.asStr).getD [] } ::
        parseStdout time items

def parse (fileName content : Str) : Except Str (AsciicastRecording φ) :=
  match lines content with
  | [] => .error "empty cast file".toList
  | headerLine :: lines => do
      let header ← codec.fromStr headerLine
      let version := (header.get "version" >>= CastJson.asU64).getD 1
      let width := (header.get "width" >>= CastJson.asU64).getD 80
      let height := (header.get "height" >>= CastJson.asU64).getD 24
      let events ←
        if version = 2 then parseLines codec lines
        else
          match header.get "stdout" >>= CastJson.asArray with
          | some stdout => .ok (parseStdout codec codec.zero stdout)
          | none => .ok []
      let duration := (header.get "duration" >>= CastJson.asF64 codec).getD
        ((events.getLast?.map (·.time)).getD codec.zero)
      pure { fileName, width, height, duration, events }

end AsciicastRecording

def parseCastResize (value : Str) : Option (Nat × Nat) := do
  let (cols, rows) ← splitOnce value ['x']
  some (← parseUnsigned u64Max cols, ← parseUnsigned u64Max rows)

/-! ## 3. Recording -/

inductive TerminalRecordingState
  | idle
  | recording
  | paused
  deriving DecidableEq

structure TerminalRecordingTheme where
  fg : Str
  bg : Str
  palette : Str

structure TerminalRecordingOptions where
  title : Option Str
  captureInput : Bool
  theme : Option TerminalRecordingTheme

structure RecordingEvent where
  time : Nat
  kind : AsciicastEventKind
  data : Str

/-- `DEFAULT_MERGE_THRESHOLD`: 16 ms. -/
def defaultMergeThreshold : Nat := 16000000

/-- `merge_output_events` with `last` pushed and to be added to. -/
def mergeFrom (mergeThreshold : Nat) (last : RecordingEvent) :
    List RecordingEvent → List RecordingEvent
  | [] => [last]
  | event :: events =>
    if last.kind = .output ∧ event.kind = .output ∧ event.time - last.time < mergeThreshold then
      mergeFrom mergeThreshold { last with data := last.data ++ event.data } events
    else last :: mergeFrom mergeThreshold event events

def mergeOutputEvents (events : List RecordingEvent) (mergeThreshold : Nat) : List RecordingEvent :=
  match events with
  | [] => []
  | event :: events => mergeFrom mergeThreshold event events

/-- `format!("{cols}x{rows}")`. -/
def resizeData (cols rows : UInt64) : Str := numToString cols.toNat ++ 'x' :: numToString rows.toNat

/-- `TerminalRecorder`; `startedAt` is in seconds since the epoch. -/
structure TerminalRecorder where
  state : TerminalRecordingState
  cols : UInt64
  rows : UInt64
  startedAt : Nat
  startedAtInstant : Nat
  pausedAt : Option Nat
  pausedDuration : Nat
  events : List RecordingEvent
  options : TerminalRecordingOptions

namespace TerminalRecorder

def start (cols rows : UInt64) (options : TerminalRecordingOptions) (startedAt now : Nat) :
    TerminalRecorder :=
  { state := .recording, cols, rows, startedAt, startedAtInstant := now, pausedAt := none
    pausedDuration := 0, events := [], options }

/-- `elapsed`, by the clock at the call. -/
def elapsed (recorder : TerminalRecorder) (now : Nat) : Nat :=
  let elapsed := now - recorder.startedAtInstant
  let elapsed :=
    match recorder.pausedAt with
    | some pausedAt => elapsed - (now - pausedAt)
    | none => elapsed
  elapsed - recorder.pausedDuration

variable (recorder : TerminalRecorder)

def pause (now : Nat) : TerminalRecorder :=
  if recorder.state ≠ .recording then recorder
  else { recorder with pausedAt := some now, state := .paused }

def resume (now : Nat) : TerminalRecorder :=
  if recorder.state ≠ .paused then recorder
  else
    match recorder.pausedAt with
    | some pausedAt =>
      { recorder with pausedAt := none
                      pausedDuration := recorder.pausedDuration + (now - pausedAt)
                      state := .recording }
    | none => { recorder with state := .recording }

/-- The event is pushed. -/
def push (now : Nat) (kind : AsciicastEventKind) (data : Str) : TerminalRecorder :=
  { recorder with events := recorder.events ++ [{ time := recorder.elapsed now, kind, data }] }

def recordOutput (now : Nat) (bytes : List UInt8) : TerminalRecorder :=
  if recorder.state ≠ .recording ∨ bytes = [] then recorder
  else recorder.push now .output (fromUtf8Lossy bytes)

def recordInput (now : Nat) (data : Str) : TerminalRecorder :=
  if recorder.state ≠ .recording ∨ recorder.options.captureInput = false ∨ data = [] then recorder
  else recorder.push now .input data

def recordResize (now : Nat) (cols rows : UInt64) : TerminalRecorder :=
  let recorder := { recorder with cols, rows }
  if recorder.state ≠ .recording then recorder
  else recorder.push now .resize (resizeData cols rows)

/-- The header that `stop` writes. -/
def header (codec : CastCodec φ) (recorder : TerminalRecorder) (duration : Nat) : CastJson :=
  .object ([("version".toList, .number "2".toList),
      ("width".toList, .number (numToString recorder.cols.toNat)),
      ("height".toList, .number (numToString recorder.rows.toNat)),
      ("timestamp".toList, .number (numToString recorder.startedAt)),
      ("duration".toList, .number (codec.seconds duration)),
      ("env".toList, .object [("TERM".toList, .string "xterm-256color".toList)])] ++
    (match recorder.options.title.filter (· ≠ []) with
      | some title => [("title".toList, .string title)]
      | none => []) ++
    match recorder.options.theme with
      | some theme =>
        [("theme".toList, .object [("fg".toList, .string theme.fg), ("bg".toList, .string theme.bg),
          ("palette".toList, .string theme.palette)])]
      | none => [])

/-- The line of an event. -/
def eventLine (codec : CastCodec φ) (event : RecordingEvent) : Str :=
  '[' :: codec.fixedSeconds event.time ++ ",\"".toList ++ [event.kind.asChar] ++ "\",".toList ++
    codec.toText (.string event.data) ++ "]".toList

/-- The recorder that `stop` writes. -/
def stopped (now : Nat) : TerminalRecorder :=
  if recorder.state = .paused then recorder.resume now else recorder

/-- `stop`: the text of the recording. -/
def stop (codec : CastCodec φ) (recorder : TerminalRecorder) (now : Nat) : Str :=
  let recorder := recorder.stopped now
  let events := mergeOutputEvents recorder.events defaultMergeThreshold
  codec.toText (recorder.header codec (recorder.elapsed now)) ++ '\n' ::
    events.flatMap fun event => eventLine codec event ++ ['\n']

end TerminalRecorder

inductive RecorderCall
  | recordOutput (bytes : List UInt8)
  | recordInput (data : Str)
  | recordResize (cols rows : UInt64)
  | pause
  | resume
  deriving DecidableEq

namespace TerminalRecorder

def apply (recorder : TerminalRecorder) : Nat × RecorderCall → TerminalRecorder
  | (now, .recordOutput bytes) => recorder.recordOutput now bytes
  | (now, .recordInput data) => recorder.recordInput now data
  | (now, .recordResize cols rows) => recorder.recordResize now cols rows
  | (now, .pause) => recorder.pause now
  | (now, .resume) => recorder.resume now

def run (recorder : TerminalRecorder) (calls : List (Nat × RecorderCall)) : TerminalRecorder :=
  calls.foldl apply recorder

end TerminalRecorder

/-! ## 4. What was there to be recorded -/

/-- What happened while a recorder was running. -/
inductive Heard
  | output (bytes : List UInt8)
  | input (data : Str)
  | resize (cols rows : UInt64)

/-- Whether it is running after a call. -/
def RecorderCall.runs (running : Bool) : RecorderCall → Bool
  | .pause => false
  | .resume => true
  | _ => running

/-- What it is to record of a call. -/
def RecorderCall.hears (captureInput running : Bool) : RecorderCall → List Heard
  | .recordOutput bytes => if running ∧ bytes ≠ [] then [.output bytes] else []
  | .recordInput data => if running ∧ captureInput ∧ data ≠ [] then [.input data] else []
  | .recordResize cols rows => if running then [.resize cols rows] else []
  | .pause | .resume => []

/-- What it is to record of calls. -/
def heard (captureInput running : Bool) : List (Nat × RecorderCall) → List Heard
  | [] => []
  | (_, call) :: calls =>
    call.hears captureInput running ++ heard captureInput (call.runs running) calls

/-- The chunks of output. -/
def outputChunks (items : List Heard) : List (List UInt8) :=
  items.filterMap fun
    | .output bytes => some bytes
    | _ => none

/-- The sizes that the terminal was given. -/
def resizes (items : List Heard) : List (UInt64 × UInt64) :=
  items.filterMap fun
    | .resize cols rows => some (cols, rows)
    | _ => none

/-- A terminal: its size, and the one it had when the recorder was last running. -/
structure Screen where
  running : Bool
  size : UInt64 × UInt64
  inForce : UInt64 × UInt64

namespace Screen

def step (screen : Screen) : RecorderCall → Screen
  | .recordResize cols rows =>
    { screen with size := (cols, rows)
                  inForce := if screen.running then (cols, rows) else screen.inForce }
  | .pause => { screen with running := false }
  | .resume => { screen with running := true, inForce := screen.size }
  | _ => screen

/-- The size that comes into force at a call. -/
def newSize (screen : Screen) : RecorderCall → List (UInt64 × UInt64)
  | .recordResize cols rows => if screen.running then [(cols, rows)] else []
  | .resume => if screen.size = screen.inForce then [] else [screen.size]
  | _ => []

/-- At a call that resumes, the size is the one that was last in force. -/
def Kept (screen : Screen) (call : RecorderCall) : Prop :=
  call = .resume → screen.size = screen.inForce

instance (screen : Screen) (call : RecorderCall) : Decidable (screen.Kept call) :=
  inferInstanceAs (Decidable (call = .resume → screen.size = screen.inForce))

end Screen

/-- The sizes that come into force while the recorder is running. -/
def newSizes (screen : Screen) : List (Nat × RecorderCall) → List (UInt64 × UInt64)
  | [] => []
  | (_, call) :: calls => screen.newSize call ++ newSizes (screen.step call) calls

/-- The terminal has one size at each pause and at the end of it. -/
def SizesKept (screen : Screen) : List (Nat × RecorderCall) → Prop
  | [] => True
  | (_, call) :: calls => screen.Kept call ∧ SizesKept (screen.step call) calls

instance decidableSizesKept :
    (screen : Screen) → (calls : List (Nat × RecorderCall)) → Decidable (SizesKept screen calls)
  | _, [] => isTrue trivial
  | screen, (_, call) :: calls =>
    have : Decidable (SizesKept (screen.step call) calls) := decidableSizesKept _ calls
    inferInstanceAs (Decidable (screen.Kept call ∧ SizesKept (screen.step call) calls))

/-- The size of the terminal at the end. -/
def finalSize (size : UInt64 × UInt64) : List (Nat × RecorderCall) → UInt64 × UInt64
  | [] => size
  | (_, .recordResize cols rows) :: calls => finalSize (cols, rows) calls
  | _ :: calls => finalSize size calls

variable (size : UInt64 × UInt64)

/-- The terminal when a recorder starts. -/
def Screen.start : Screen := ⟨true, size, size⟩

/-- The sizes of a session while its recorder was running. -/
def sessionSizes (calls : List (Nat × RecorderCall)) : List (Nat × Nat) :=
  (size :: newSizes (Screen.start size) calls).map fun size => (size.1.toNat, size.2.toNat)

/-! ## 5. What a recorder has recorded -/

/-- What an event says, but for its time. -/
abbrev Said := AsciicastEventKind × Str

/-- An event of the recorder without its time. -/
def RecordingEvent.said (event : RecordingEvent) : Said := (event.kind, event.data)

/-- The event that is recorded of what was heard. -/
def Heard.said : Heard → Said
  | .output bytes => (.output, fromUtf8Lossy bytes)
  | .input data => (.input, data)
  | .resize cols rows => (.resize, resizeData cols rows)

theorem finalSize_cons (call : Nat × RecorderCall) (calls : List (Nat × RecorderCall)) :
    finalSize size (call :: calls) = finalSize (finalSize size [call]) calls := by
  obtain ⟨now, call⟩ := call
  cases call <;> rfl

/-- The recorder runs as it is said to, and has the size of the terminal. -/
structure Follows (recorder : TerminalRecorder) (captureInput running : Bool)
    (size : UInt64 × UInt64) : Prop where
  state : recorder.state = if running then .recording else .paused
  size : (recorder.cols, recorder.rows) = size
  captureInput : recorder.options.captureInput = captureInput

variable {captureInput : Bool}

section Recorded

variable {recorder : TerminalRecorder} {running : Bool} {size : UInt64 × UInt64}
  (h : Follows recorder captureInput running size)

include h

theorem Follows.recording_iff : recorder.state = .recording ↔ running = true := by
  rw [h.state]
  cases running <;> decide

theorem Follows.paused_iff : recorder.state = .paused ↔ running = false := by
  rw [h.state]
  cases running <;> decide

theorem Follows.push (now : Nat) (kind : AsciicastEventKind) (data : Str) :
    Follows (recorder.push now kind data) captureInput running size ∧
      (recorder.push now kind data).events.map (·.said) =
        recorder.events.map (·.said) ++ [(kind, data)] :=
  ⟨⟨h.state, h.size, h.captureInput⟩, List.map_append⟩

theorem Follows.recordOutput (now : Nat) (bytes : List UInt8) :
    Follows (recorder.recordOutput now bytes) captureInput running size ∧
      (recorder.recordOutput now bytes).events.map (·.said) = recorder.events.map (·.said) ++
        ((RecorderCall.recordOutput bytes).hears captureInput running).map Heard.said := by
  unfold TerminalRecorder.recordOutput RecorderCall.hears
  dsimp only
  by_cases hrecord : running = true ∧ bytes ≠ []
  · rw [if_pos hrecord, if_neg (by rw [h.recording_iff.mpr hrecord.1]; simpa using hrecord.2)]
    exact h.push now _ _
  · have hnot : recorder.state ≠ .recording ∨ bytes = [] := by
      by_contra hno
      rw [not_or, not_not] at hno
      exact hrecord ⟨h.recording_iff.mp hno.1, hno.2⟩
    rw [if_neg hrecord, if_pos hnot]
    exact ⟨h, (List.append_nil _).symm⟩

theorem Follows.recordInput (now : Nat) (data : Str) :
    Follows (recorder.recordInput now data) captureInput running size ∧
      (recorder.recordInput now data).events.map (·.said) = recorder.events.map (·.said) ++
        ((RecorderCall.recordInput data).hears captureInput running).map Heard.said := by
  unfold TerminalRecorder.recordInput RecorderCall.hears
  dsimp only
  by_cases hrecord : running = true ∧ captureInput = true ∧ data ≠ []
  · have hon : ¬ (recorder.state ≠ .recording ∨ recorder.options.captureInput = false ∨ data = []) := by
      rw [h.recording_iff.mpr hrecord.1, h.captureInput, hrecord.2.1]
      simpa using hrecord.2.2
    rw [if_pos hrecord, if_neg hon]
    exact h.push now _ _
  · have hnot : recorder.state ≠ .recording ∨ recorder.options.captureInput = false ∨ data = [] := by
      by_contra hno
      rw [not_or, not_or, not_not, h.captureInput, Bool.not_eq_false] at hno
      exact hrecord ⟨h.recording_iff.mp hno.1, hno.2.1, hno.2.2⟩
    rw [if_neg hrecord, if_pos hnot]
    exact ⟨h, (List.append_nil _).symm⟩

theorem Follows.recordResize (now : Nat) (cols rows : UInt64) :
    Follows (recorder.recordResize now cols rows) captureInput running (cols, rows) ∧
      (recorder.recordResize now cols rows).events.map (·.said) = recorder.events.map (·.said) ++
        ((RecorderCall.recordResize cols rows).hears captureInput running).map Heard.said := by
  have hsized : Follows { recorder with cols, rows } captureInput running (cols, rows) :=
    ⟨h.state, rfl, h.captureInput⟩
  unfold TerminalRecorder.recordResize RecorderCall.hears
  dsimp only
  by_cases hrecord : running = true
  · rw [if_pos hrecord, if_neg (not_not.mpr (h.recording_iff.mpr hrecord))]
    exact hsized.push now _ _
  · rw [if_neg hrecord, if_pos (mt h.recording_iff.mp hrecord)]
    exact ⟨hsized, (List.append_nil _).symm⟩

theorem Follows.apply (call : Nat × RecorderCall) :
    Follows (recorder.apply call) captureInput (call.2.runs running) (finalSize size [call]) ∧
      (recorder.apply call).events.map (·.said) =
        recorder.events.map (·.said) ++ (call.2.hears captureInput running).map Heard.said := by
  obtain ⟨now, call⟩ := call
  cases call with
  | recordOutput bytes => exact h.recordOutput now bytes
  | recordInput data => exact h.recordInput now data
  | recordResize cols rows => exact h.recordResize now cols rows
  | pause =>
    show Follows (recorder.pause now) _ false size ∧ _ = _ ++ []
    rw [List.append_nil]
    show _ ∧ (recorder.pause now).events.map _ = _
    unfold TerminalRecorder.pause
    split
    · next hnot =>
        have hpaused : running = false :=
          Bool.eq_false_iff.mpr fun hrunning => hnot (h.recording_iff.mpr hrunning)
        subst hpaused
        exact ⟨h, rfl⟩
    · exact ⟨⟨rfl, h.size, h.captureInput⟩, rfl⟩
  | resume =>
    show Follows (recorder.resume now) _ true size ∧ _ = _ ++ []
    rw [List.append_nil]
    show _ ∧ (recorder.resume now).events.map _ = _
    unfold TerminalRecorder.resume
    split
    · next hnot =>
        have hrunning : running = true :=
          (Bool.not_eq_false _).mp fun hpaused => hnot (h.paused_iff.mpr hpaused)
        subst hrunning
        exact ⟨h, rfl⟩
    · split <;> exact ⟨⟨rfl, h.size, h.captureInput⟩, rfl⟩

theorem Follows.run (calls : List (Nat × RecorderCall)) :
    ((recorder.run calls).cols, (recorder.run calls).rows) = finalSize size calls ∧
      (recorder.run calls).events.map (·.said) =
        recorder.events.map (·.said) ++ (heard captureInput running calls).map Heard.said := by
  induction calls generalizing recorder running size with
  | nil => exact ⟨h.size, (List.append_nil _).symm⟩
  | cons call calls ih =>
    obtain ⟨hnext, hevents⟩ := h.apply call
    obtain ⟨hsize, hrun⟩ := ih hnext
    refine ⟨hsize.trans (finalSize_cons size call calls).symm, ?_⟩
    show ((recorder.apply call).run calls).events.map _ = _
    rw [hrun, hevents, heard, List.map_append, List.append_assoc]

omit h in
theorem stopped_kept (recorder : TerminalRecorder) (now : Nat) :
    (recorder.stopped now).events = recorder.events ∧ (recorder.stopped now).cols = recorder.cols ∧
      (recorder.stopped now).rows = recorder.rows := by
  unfold TerminalRecorder.stopped TerminalRecorder.resume
  split
  · split
    · exact ⟨rfl, rfl, rfl⟩
    · split <;> exact ⟨rfl, rfl, rfl⟩
  · exact ⟨rfl, rfl, rfl⟩

end Recorded

/-! ## 6. Merged output -/

/-- The output of events, one after the other. -/
def outputText (said : List Said) : Str :=
  said.flatMap fun event => if event.1 = .output then event.2 else []

/-- The events that are not output, and (`none`) output between them. -/
def order (said : List Said) : List (Option Said) :=
  said.foldr (fun event rest =>
    if event.1 = .output then (if rest.head? = some none then rest else none :: rest)
    else some event :: rest) []

/-- The events that are not output. -/
def others (said : List Said) : List Said := said.filter (·.1 ≠ .output)

section Merge

theorem order_cons (event : Said) (said : List Said) :
    order (event :: said) =
      if event.1 = .output then (if (order said).head? = some none then order said
        else none :: order said)
      else some event :: order said := rfl

theorem join_outputs (last event : Said) (said : List Said) (hlast : last.1 = .output)
    (hevent : event.1 = .output) :
    outputText ((last.1, last.2 ++ event.2) :: said) = outputText (last :: event :: said) ∧
      order ((last.1, last.2 ++ event.2) :: said) = order (last :: event :: said) ∧
      others ((last.1, last.2 ++ event.2) :: said) = others (last :: event :: said) := by
  refine ⟨?_, ?_, ?_⟩
  · simp only [outputText, List.flatMap_cons, hlast, hevent, if_true, List.append_assoc]
  · have hhead : (order (event :: said)).head? = some none := by
      rw [order_cons, if_pos hevent]
      split
      · assumption
      · rfl
    rw [order_cons last, if_pos hlast, if_pos hhead, order_cons, order_cons, if_pos hlast,
      if_pos hevent]
  · simp only [others, List.filter_cons, hlast, hevent, ne_eq, not_true_eq_false, decide_false,
      Bool.false_eq_true, if_false]

theorem mergeFrom_kept (mergeThreshold : Nat) (last : RecordingEvent)
    (events : List RecordingEvent) :
    outputText ((mergeFrom mergeThreshold last events).map (·.said)) =
        outputText ((last :: events).map (·.said)) ∧
      order ((mergeFrom mergeThreshold last events).map (·.said)) =
        order ((last :: events).map (·.said)) ∧
      others ((mergeFrom mergeThreshold last events).map (·.said)) =
        others ((last :: events).map (·.said)) := by
  induction events generalizing last with
  | nil => exact ⟨rfl, rfl, rfl⟩
  | cons event events ih =>
    rw [mergeFrom]
    split
    · next hmerge =>
        obtain ⟨houtput, horder, hothers⟩ := ih { last with data := last.data ++ event.data }
        obtain ⟨hjoined, hjoined', hjoined''⟩ := join_outputs last.said
          event.said (events.map (·.said)) hmerge.1 hmerge.2.1
        exact ⟨houtput.trans hjoined, horder.trans hjoined', hothers.trans hjoined''⟩
    · obtain ⟨houtput, horder, hothers⟩ := ih event
      refine ⟨?_, ?_, ?_⟩
      · exact congrArg (_ ++ ·) houtput
      · rw [List.map_cons, order_cons, horder]
        rfl
      · simp only [others, List.map_cons, List.filter_cons] at hothers ⊢
        rw [hothers]

theorem mergeOutputEvents_kept (events : List RecordingEvent) (mergeThreshold : Nat) :
    outputText ((mergeOutputEvents events mergeThreshold).map (·.said)) =
        outputText (events.map (·.said)) ∧
      order ((mergeOutputEvents events mergeThreshold).map (·.said)) = order (events.map (·.said)) ∧
      others ((mergeOutputEvents events mergeThreshold).map (·.said)) =
        others (events.map (·.said)) := by
  cases events with
  | nil => exact ⟨rfl, rfl, rfl⟩
  | cons event events => exact mergeFrom_kept mergeThreshold event events

end Merge

/-! ## 7. Reading what was written -/

section Reading

variable {codec : CastCodec φ}

theorem lines_written {texts : List Str} (h : ∀ text ∈ texts, '\n' ∉ text)
    (hreturn : ∀ text ∈ texts, text.getLast? ≠ some '\r') :
    lines (texts.flatMap fun text => text ++ ['\n']) = texts := by
  have hpieces : (texts.flatMap fun text => text ++ ['\n']).splitOnP (· == '\n') = texts ++ [[]] := by
    clear hreturn
    induction texts with
    | nil => rfl
    | cons text texts ih =>
      have htext : ∀ c ∈ text, (c == '\n') = false := by
        intro c hc
        refine beq_eq_false_iff_ne.mpr fun heq => h text List.mem_cons_self ?_
        exact heq ▸ hc
      rw [List.flatMap_cons, List.append_assoc, List.singleton_append,
        List.splitOnP_append_cons_of_forall_mem htext '\n' rfl,
        ih fun other hother => h other (List.mem_cons_of_mem _ hother), List.cons_append]
  have hstrip : texts.map stripCarriageReturn = texts := by
    refine (List.map_congr_left fun text htext => ?_).trans (List.map_id texts)
    rw [stripCarriageReturn, if_neg (hreturn text htext), id]
  unfold lines
  dsimp only
  rw [hpieces, List.dropLast_concat, List.getLastD_concat, if_pos rfl, hstrip, List.append_nil]

/-- What is used of `serde_json` at a recording: what it writes it reads back, on one line. -/
structure Inverts (codec : CastCodec φ) (header : CastJson) (events : List RecordingEvent) : Prop where
  headerRead : codec.fromStr (codec.toText header) = .ok header
  headerLine : '\n' ∉ codec.toText header ∧ (codec.toText header).getLast? ≠ some '\r'
  event : ∀ event ∈ events, codec.fromStr (TerminalRecorder.eventLine codec event) =
    .ok (.array [.number (codec.fixedSeconds event.time), .string [event.kind.asChar],
      .string event.data])
  eventLine : ∀ event ∈ events, '\n' ∉ TerminalRecorder.eventLine codec event
  number : ∀ event ∈ events, (codec.number (codec.fixedSeconds event.time)).isSome = true

/-- An event that is read, without its time. -/
def AsciicastEvent.said (event : AsciicastEvent φ) : Said := (event.kind, event.data)

theorem parseLines_written {events : List RecordingEvent}
    (hevent : ∀ event ∈ events, codec.fromStr (TerminalRecorder.eventLine codec event) =
      .ok (.array [.number (codec.fixedSeconds event.time), .string [event.kind.asChar],
        .string event.data]))
    (hnumber : ∀ event ∈ events, (codec.number (codec.fixedSeconds event.time)).isSome = true) :
    ∃ read, AsciicastRecording.parseLines codec (events.map (TerminalRecorder.eventLine codec)) =
      .ok read ∧ read.map AsciicastEvent.said = events.map (·.said) := by
  induction events with
  | nil => exact ⟨[], rfl, rfl⟩
  | cons event events ih =>
    obtain ⟨read, hread, hsaid⟩ := ih
      (fun other hother => hevent other (List.mem_cons_of_mem _ hother))
      (fun other hother => hnumber other (List.mem_cons_of_mem _ hother))
    obtain ⟨time, htime⟩ := Option.isSome_iff_exists.mp (hnumber event List.mem_cons_self)
    have hline : AsciicastRecording.lineEvent codec (.array
        [.number (codec.fixedSeconds event.time), .string [event.kind.asChar],
          .string event.data]) = some { time, kind := event.kind, data := event.data } := by
      show (codec.number (codec.fixedSeconds event.time)).bind _ = _
      rw [htime]
      show some (AsciicastEvent.mk time (AsciicastEventKind.fromChar event.kind.asChar) event.data) = _
      rw [AsciicastEventKind.fromChar_asChar]
    refine ⟨{ time, kind := event.kind, data := event.data } :: read, ?_, ?_⟩
    · rw [List.map_cons, AsciicastRecording.parseLines, hevent event List.mem_cons_self]
      rw [hread]
      show Except.ok ((AsciicastRecording.lineEvent codec _).toList ++ read) = _
      rw [hline]
      rfl
    · rw [List.map_cons, hsaid]
      rfl

theorem parseU64_numToString (n : UInt64) : parseU64 (numToString n.toNat) = some n.toNat :=
  parseUnsigned_numToString (Nat.le_of_lt_succ n.toNat_lt)

/-- What a recorder has written is read back: its size, and the merged events. -/
theorem parse_stop (fileName : Str) (recorder : TerminalRecorder) (now : Nat)
    (h : Inverts codec ((recorder.stopped now).header codec ((recorder.stopped now).elapsed now))
      (mergeOutputEvents recorder.events defaultMergeThreshold)) :
    ∃ recording, AsciicastRecording.parse codec fileName (recorder.stop codec now) = .ok recording ∧
      recording.width = recorder.cols.toNat ∧ recording.height = recorder.rows.toNat ∧
      recording.events.map AsciicastEvent.said =
        (mergeOutputEvents recorder.events defaultMergeThreshold).map (·.said) := by
  obtain ⟨hevents, hcols, hrows⟩ := stopped_kept recorder now
  generalize hheader : (recorder.stopped now).header codec ((recorder.stopped now).elapsed now) =
    header at h
  generalize hmerged : mergeOutputEvents recorder.events defaultMergeThreshold = merged at h ⊢
  have htext : recorder.stop codec now = (codec.toText header ::
      merged.map (TerminalRecorder.eventLine codec)).flatMap fun text => text ++ ['\n'] := by
    unfold TerminalRecorder.stop
    dsimp only
    rw [hheader, hevents, hmerged, List.flatMap_cons, List.append_assoc, List.singleton_append,
      List.flatMap_map]
  have hlines : lines (recorder.stop codec now) =
      codec.toText header :: merged.map (TerminalRecorder.eventLine codec) := by
    rw [htext]
    refine lines_written (fun text htext => ?_) (fun text htext => ?_)
    · rcases List.mem_cons.mp htext with rfl | htext
      · exact h.headerLine.1
      · obtain ⟨event, hevent, rfl⟩ := List.mem_map.mp htext
        exact h.eventLine event hevent
    · rcases List.mem_cons.mp htext with rfl | htext
      · exact h.headerLine.2
      · obtain ⟨event, hevent, rfl⟩ := List.mem_map.mp htext
        unfold TerminalRecorder.eventLine
        rw [show "]".toList = [']'] from rfl, List.getLast?_concat]
        decide
  obtain ⟨read, hread, hsaid⟩ := parseLines_written h.event h.number
  have hfields : header.get "version" >>= CastJson.asU64 = some 2 ∧
      header.get "width" >>= CastJson.asU64 = some recorder.cols.toNat ∧
      header.get "height" >>= CastJson.asU64 = some recorder.rows.toNat := by
    rw [← hcols, ← hrows, ← hheader]
    refine ⟨?_, ?_, ?_⟩
    · rfl
    · exact parseU64_numToString _
    · exact parseU64_numToString _
  refine ⟨{ fileName, width := recorder.cols.toNat, height := recorder.rows.toNat
            duration := (header.get "duration" >>= CastJson.asF64 codec).getD
              ((read.getLast?.map (·.time)).getD codec.zero)
            events := read }, ?_, rfl, rfl, hsaid⟩
  have hbind : ∀ {α β : Type} (a : α) (f : α → Except Str β), (Except.ok a >>= f) = f a :=
    fun _ _ => rfl
  unfold AsciicastRecording.parse
  rw [hlines]
  dsimp only
  rw [h.headerRead, hbind, hfields.1, hfields.2.1, hfields.2.2, Option.getD_some, Option.getD_some,
    Option.getD_some, if_pos rfl, hread, hbind]
  rfl

end Reading

/-! ## 8. What a recording replays -/

/-- The size of an event that is a resize. -/
def saidSize (event : Said) : Option (Nat × Nat) :=
  if event.1 = .resize then parseCastResize event.2 else none

/-- The sizes of events that are resizes. -/
def saidSizes (said : List Said) : List (Nat × Nat) := said.filterMap saidSize

/-- The sizes that a replay passes through. -/
def AsciicastRecording.sizes {φ : Type} (recording : AsciicastRecording φ) : List (Nat × Nat) :=
  (recording.width, recording.height) :: saidSizes (recording.events.map AsciicastEvent.said)

/-- A size in numbers. -/
def inNumbers : Nat × Nat := (size.1.toNat, size.2.toNat)

/-- The recording replays what was there: the output, all in order, the size at the start, and the
    sizes of the session. -/
structure Replays {φ : Type} (recording : AsciicastRecording φ) (size : UInt64 × UInt64)
    (captureInput : Bool) (calls : List (Nat × RecorderCall)) : Prop where
  output : asBytes (outputText (recording.events.map AsciicastEvent.said)) =
    (outputChunks (heard captureInput true calls)).flatten
  order : order (recording.events.map AsciicastEvent.said) =
    order ((heard captureInput true calls).map Heard.said)
  header : (recording.width, recording.height) = inNumbers size
  sizes : recording.sizes = sessionSizes size calls

section Iff

variable {screen : Screen}

theorem outputText_heard (items : List Heard) :
    outputText (items.map Heard.said) = ((outputChunks items).map fromUtf8Lossy).flatten := by
  induction items with
  | nil => rfl
  | cons item items ih =>
    show _ ++ outputText (items.map Heard.said) = _
    rw [ih]
    cases item <;> rfl

theorem parseCastResize_resizeData (cols rows : UInt64) :
    parseCastResize (resizeData cols rows) = some (cols.toNat, rows.toNat) := by
  have hx : 'x' ∉ numToString cols.toNat := fun hx => absurd (isDigit_of_mem_numToString hx) (by decide)
  unfold parseCastResize resizeData
  rw [splitOnce_front hx]
  show (parseU64 (numToString cols.toNat)).bind _ = _
  rw [parseU64_numToString]
  show (parseU64 (numToString rows.toNat)).bind _ = _
  rw [parseU64_numToString]
  rfl

theorem saidSizes_heard (items : List Heard) :
    saidSizes (items.map Heard.said) = (resizes items).map inNumbers := by
  induction items with
  | nil => rfl
  | cons item items ih =>
    cases item with
    | output bytes => exact ih
    | input data => exact ih
    | resize cols rows =>
      have hsize : saidSize (Heard.resize cols rows).said = some (cols.toNat, rows.toNat) :=
        parseCastResize_resizeData cols rows
      rw [List.map_cons, saidSizes, List.filterMap_cons_some hsize]
      exact congrArg (_ :: ·) ih

theorem saidSizes_others (said : List Said) : saidSizes (others said) = saidSizes said := by
  induction said with
  | nil => rfl
  | cons event said ih =>
    unfold saidSizes others at ih ⊢
    by_cases hout : event.1 = .output
    · have hnone : saidSize event = none := by
        rw [saidSize, hout]
        rfl
      rw [List.filter_cons_of_neg (by simpa using hout), ih, List.filterMap_cons_none hnone]
    · rw [List.filter_cons_of_pos (by simpa using hout), List.filterMap_cons, List.filterMap_cons, ih]

theorem resizes_append (front back : List Heard) :
    resizes (front ++ back) = resizes front ++ resizes back :=
  List.filterMap_append

/-- While the recorder runs the size of the terminal is in force. -/
def Screen.Shown (screen : Screen) : Prop := screen.running = true → screen.size = screen.inForce

theorem Screen.Shown.step (h : screen.Shown) (call : RecorderCall) :
    (screen.step call).Shown ∧ (screen.step call).running = call.runs screen.running := by
  cases call with
  | recordOutput bytes => exact ⟨h, rfl⟩
  | recordInput data => exact ⟨h, rfl⟩
  | recordResize cols rows =>
    refine ⟨fun hrunning => ?_, rfl⟩
    have hrunning' : screen.running = true := hrunning
    show (cols, rows) = if screen.running then (cols, rows) else screen.inForce
    rw [if_pos hrunning']
  | pause => exact ⟨fun hrunning => (Bool.false_ne_true hrunning).elim, rfl⟩
  | resume => exact ⟨fun _ => rfl, rfl⟩

theorem newSize_eq (screen : Screen) (captureInput : Bool) (call : RecorderCall) :
    (screen.Kept call → screen.newSize call = resizes (call.hears captureInput screen.running)) ∧
    (¬ screen.Kept call → (screen.newSize call).length =
      (resizes (call.hears captureInput screen.running)).length + 1) := by
  cases call with
  | recordOutput bytes =>
    refine ⟨fun _ => ?_, fun hno => absurd (fun hcall => by cases hcall) hno⟩
    unfold RecorderCall.hears
    dsimp only
    split <;> rfl
  | recordInput data =>
    refine ⟨fun _ => ?_, fun hno => absurd (fun hcall => by cases hcall) hno⟩
    unfold RecorderCall.hears
    dsimp only
    split <;> rfl
  | recordResize cols rows =>
    refine ⟨fun _ => ?_, fun hno => absurd (fun hcall => by cases hcall) hno⟩
    unfold Screen.newSize RecorderCall.hears
    dsimp only
    split <;> rfl
  | pause => exact ⟨fun _ => rfl, fun hno => absurd (fun hcall => by cases hcall) hno⟩
  | resume =>
    refine ⟨fun hkept => ?_, fun hno => ?_⟩
    · show (if screen.size = screen.inForce then _ else _) = _
      rw [if_pos (hkept rfl)]
      rfl
    · show (if screen.size = screen.inForce then [] else [screen.size]).length = _
      rw [if_neg (fun heq => hno fun _ => heq)]
      rfl

theorem resizes_le (h : screen.Shown) (captureInput : Bool) (calls : List (Nat × RecorderCall)) :
    (resizes (heard captureInput screen.running calls)).length ≤ (newSizes screen calls).length := by
  induction calls generalizing screen with
  | nil => exact Nat.le_refl _
  | cons call calls ih =>
    obtain ⟨hshown, hruns⟩ := h.step call.2
    have hrest := ih hshown
    obtain ⟨hkept, hnot⟩ := newSize_eq screen captureInput call.2
    rw [heard, resizes_append, newSizes, List.length_append, List.length_append, ← hruns]
    by_cases hk : screen.Kept call.2
    · rw [hkept hk]
      omega
    · have := hnot hk
      omega

theorem newSizes_eq_iff (h : screen.Shown) (captureInput : Bool)
    (calls : List (Nat × RecorderCall)) :
    resizes (heard captureInput screen.running calls) = newSizes screen calls ↔
      SizesKept screen calls := by
  induction calls generalizing screen with
  | nil => exact iff_of_true rfl trivial
  | cons call calls ih =>
    obtain ⟨hshown, hruns⟩ := h.step call.2
    obtain ⟨hkept, hnot⟩ := newSize_eq screen captureInput call.2
    rw [heard, resizes_append, newSizes, SizesKept, ← hruns]
    by_cases hk : screen.Kept call.2
    · rw [hkept hk, List.append_right_inj, ih hshown]
      exact ⟨fun hrest => ⟨hk, hrest⟩, fun hboth => hboth.2⟩
    · refine iff_of_false (fun heq => ?_) (fun hboth => hk hboth.1)
      have hlength := congrArg List.length heq
      have hrest := resizes_le hshown captureInput calls
      have := hnot hk
      rw [List.length_append, List.length_append] at hlength
      omega

theorem inNumbers_injective : Function.Injective inNumbers := by
  intro size size' h
  obtain ⟨hcols, hrows⟩ := Prod.mk.inj h
  exact Prod.ext (UInt64.toNat_inj.mp hcols) (UInt64.toNat_inj.mp hrows)

end Iff

/-- A recorder after calls. -/
def TerminalRecorder.after (cols rows : UInt64) (options : TerminalRecordingOptions)
    (startedAt now : Nat) (calls : List (Nat × RecorderCall)) : TerminalRecorder :=
  (TerminalRecorder.start cols rows options startedAt now).run calls

/-- What a recorder writes is read back by the codec. -/
def TerminalRecorder.Readable {φ : Type} (codec : CastCodec φ) (recorder : TerminalRecorder)
    (later : Nat) : Prop :=
  Inverts codec ((recorder.stopped later).header codec ((recorder.stopped later).elapsed later))
    (mergeOutputEvents recorder.events defaultMergeThreshold)

/-- **A recording replays what was there just if** output starts at characters, and the terminal has
    at the end the size it had at the start and kept it over each pause. -/
theorem recording_replays_iff {φ : Type} (codec : CastCodec φ) (fileName : Str) (cols rows : UInt64)
    (options : TerminalRecordingOptions) (startedAt now : Nat) (calls : List (Nat × RecorderCall))
    (later : Nat)
    (hcodec : (TerminalRecorder.after cols rows options startedAt now calls).Readable codec later)
    (htext : ∃ text, (outputChunks (heard options.captureInput true calls)).flatten = asBytes text) :
    (∃ recording, AsciicastRecording.parse codec fileName
        ((TerminalRecorder.after cols rows options startedAt now calls).stop codec later) =
          .ok recording ∧
      Replays recording (cols, rows) options.captureInput calls) ↔
    (∀ chunk ∈ outputChunks (heard options.captureInput true calls), StartsCharacter chunk) ∧
      finalSize (cols, rows) calls = (cols, rows) ∧ SizesKept (Screen.start (cols, rows)) calls := by
  obtain ⟨text, htext⟩ := htext
  have hfollows : Follows (TerminalRecorder.start cols rows options startedAt now)
      options.captureInput true (cols, rows) := ⟨rfl, rfl, rfl⟩
  obtain ⟨hsize, hevents⟩ := hfollows.run calls
  change ((TerminalRecorder.after cols rows options startedAt now calls).cols,
    (TerminalRecorder.after cols rows options startedAt now calls).rows) = _ at hsize
  change (TerminalRecorder.after cols rows options startedAt now calls).events.map _ = _ at hevents
  generalize TerminalRecorder.after cols rows options startedAt now calls = recorder at *
  obtain ⟨recording, hparse, hwidth, hheight, hsaid⟩ := parse_stop fileName recorder later hcodec
  obtain ⟨houtput, horder, hothers⟩ :=
    mergeOutputEvents_kept recorder.events defaultMergeThreshold
  rw [← hsaid, hevents] at houtput horder hothers
  change _ = outputText ((heard options.captureInput true calls).map Heard.said) at houtput
  have hbytes : asBytes (outputText (recording.events.map AsciicastEvent.said)) =
      (outputChunks (heard options.captureInput true calls)).flatten ↔
        ∀ chunk ∈ outputChunks (heard options.captureInput true calls), StartsCharacter chunk := by
    rw [← lossy_chunks_iff htext, houtput, outputText_heard, htext]
    refine ⟨fun heq => ?_, fun heq => congrArg asBytes heq⟩
    rw [← fromUtf8Lossy_asBytes text, ← heq, fromUtf8Lossy_asBytes]
  have hheader : (recording.width, recording.height) = inNumbers (cols, rows) ↔
      finalSize (cols, rows) calls = (cols, rows) := by
    rw [hwidth, hheight, ← hsize]
    exact (inNumbers_injective).eq_iff (a := (recorder.cols, recorder.rows))
  have hresizes : saidSizes (recording.events.map AsciicastEvent.said) =
      (resizes (heard options.captureInput true calls)).map inNumbers := by
    rw [← saidSizes_others, hothers, saidSizes_others]
    exact saidSizes_heard _
  have hsizes : (recording.width, recording.height) = inNumbers (cols, rows) →
      (recording.sizes = sessionSizes (cols, rows) calls ↔
        SizesKept (Screen.start (cols, rows)) calls) := by
    intro hstart
    have hshown : (Screen.start (cols, rows)).Shown := fun _ => rfl
    rw [← newSizes_eq_iff hshown options.captureInput]
    unfold AsciicastRecording.sizes sessionSizes
    rw [hstart, hresizes, List.map_cons]
    show inNumbers (cols, rows) :: _ = inNumbers (cols, rows) :: List.map inNumbers _ ↔ _
    rw [List.cons_inj_right, List.map_inj_right fun _ _ heq => inNumbers_injective heq]
    rfl
  constructor
  · intro ⟨other, hother, hreplays⟩
    obtain rfl := Except.ok.inj (hparse.symm.trans hother)
    exact ⟨hbytes.mp hreplays.output, hheader.mp hreplays.header,
      (hsizes hreplays.header).mp hreplays.sizes⟩
  · intro ⟨hstarts, hfinal, hkept⟩
    have hstart := hheader.mpr hfinal
    exact ⟨recording, hparse, hbytes.mpr hstarts, horder, hstart, (hsizes hstart).mpr hkept⟩

/-! ## 9. Two recordings -/

mutual

/-- A value as it is written where no character is escaped. -/
def CastJson.plainText : CastJson → Str
  | .null => "null".toList
  | .bool b => (if b then "true" else "false").toList
  | .number literal => literal
  | .string s => '"' :: s ++ ['"']
  | .array items => '[' :: plainItems items ++ [']']
  | .object fields => '{' :: plainFields fields ++ ['}']

def plainItems : List CastJson → Str
  | [] => []
  | [item] => item.plainText
  | item :: items => item.plainText ++ ',' :: plainItems items

def plainFields : List (Str × CastJson) → Str
  | [] => []
  | [(key, value)] => '"' :: key ++ "\":".toList ++ value.plainText
  | (key, value) :: fields => '"' :: key ++ "\":".toList ++ value.plainText ++ ',' :: plainFields fields

end

/-- A codec for these values, and times of whole seconds. -/
def plainCodec (values : List CastJson) : CastCodec Str where
  toText := CastJson.plainText
  fromStr text :=
    match values.find? (·.plainText = text) with
    | some value => .ok value
    | none => .error "expected value".toList
  number := some
  zero := "0".toList
  add time time' := time ++ '+' :: time'
  seconds duration := numToString (duration / 1000000000) ++ ".0".toList
  fixedSeconds duration := numToString (duration / 1000000000) ++ ".000000".toList

def plainOptions : TerminalRecordingOptions := ⟨none, false, none⟩

/-- The header of a recording of no length. -/
def plainHeader (width height : String) : CastJson :=
  .object [("version".toList, .number "2".toList), ("width".toList, .number width.toList),
    ("height".toList, .number height.toList), ("timestamp".toList, .number "0".toList),
    ("duration".toList, .number "0.0".toList),
    ("env".toList, .object [("TERM".toList, .string "xterm-256color".toList)])]

/-- The recording of a terminal that was made larger. -/
def resizedCodec : CastCodec Str :=
  plainCodec [plainHeader "100" "30",
    .array [.number "0.000000".toList, .string ['r'], .string "100x30".toList]]

theorem resized_readable :
    (TerminalRecorder.after 80 24 plainOptions 0 0 [(0, .recordResize 100 30)]).Readable
      resizedCodec 0 where
  headerRead := by rfl
  headerLine := by decide
  event event hevent := by
    obtain rfl := List.mem_singleton.mp hevent
    rfl
  eventLine event hevent := by
    obtain rfl := List.mem_singleton.mp hevent
    decide
  number event hevent := rfl

/-- **Made larger, it is replayed as if it had been larger from the start.** -/
theorem resized_recording_not_replayed :
    (TerminalRecorder.after 80 24 plainOptions 0 0 [(0, .recordResize 100 30)]).Readable
      resizedCodec 0 ∧
    (outputChunks (heard false true [(0, .recordResize 100 30)])).flatten = asBytes [] ∧
    ¬ ∃ recording, AsciicastRecording.parse resizedCodec []
        ((TerminalRecorder.after 80 24 plainOptions 0 0 [(0, .recordResize 100 30)]).stop
          resizedCodec 0) = .ok recording ∧
      Replays recording (80, 24) false [(0, .recordResize 100 30)] := by
  refine ⟨resized_readable, rfl, fun ⟨recording, hparse, hreplays⟩ => ?_⟩
  obtain ⟨read, hread, hwidth, -⟩ := parse_stop [] _ 0 resized_readable
  obtain rfl := Except.ok.inj (hread.symm.trans hparse)
  have hheader := congrArg Prod.fst hreplays.header
  rw [hwidth] at hheader
  have hnumbers : (100 : Nat) = 80 := hheader
  exact absurd hnumbers (by decide)

/-- Two chunks of one word, a pause, and a size that is changed and changed back. -/
def wordCalls : List (Nat × RecorderCall) :=
  [(0, .recordOutput [0x68, 0xc3, 0xa9]), (0, .recordOutput [0x21]), (0, .pause),
    (0, .recordResize 100 30), (0, .recordResize 80 24), (0, .resume)]

def wordCodec : CastCodec Str :=
  plainCodec [plainHeader "80" "24",
    .array [.number "0.000000".toList, .string ['o'], .string "hé!".toList]]

theorem word_readable :
    (TerminalRecorder.after 80 24 plainOptions 0 0 wordCalls).Readable wordCodec 0 where
  headerRead := by rfl
  headerLine := by decide
  event event hevent := by
    obtain rfl := List.mem_singleton.mp hevent
    rfl
  eventLine event hevent := by
    obtain rfl := List.mem_singleton.mp hevent
    decide
  number event hevent := rfl

theorem word_replayed :
    ∃ recording, AsciicastRecording.parse wordCodec []
        ((TerminalRecorder.after 80 24 plainOptions 0 0 wordCalls).stop wordCodec 0) =
          .ok recording ∧ Replays recording (80, 24) false wordCalls :=
  (recording_replays_iff wordCodec [] 80 24 plainOptions 0 0 wordCalls 0 word_readable
    ⟨"hé!".toList, by decide⟩).mpr
    ⟨by decide +kernel, rfl, by decide⟩

end Hapcli.Terminal
