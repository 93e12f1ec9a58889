/-
  Subject:   What the payload of an OSC sequence says (`shell_integration.rs`,
             `editor_integration.rs`): working directories, the marks of a shell's prompt and
             commands, and the messages of an editor.

  All of it is pure; `ShellFilter.lean` decides which payload is looked at, and when.
-/
import Hapcli.Rust.Text

namespace Hapcli.Terminal

open Hapcli.Rust

/-! ## 1. Texts -/

/-- `str::strip_prefix`. -/
def stripFront (front s : Str) : Option Str :=
  if front.isPrefixOf s then some (s.drop front.length) else none

/-- `char::is_control`. -/
def isControl (c : Char) : Bool := c.toNat < 0x20 || (0x7f ≤ c.toNat && c.toNat ≤ 0x9f)

/-- `char::to_digit(16)` of a byte. -/
def hexDigit (byte : UInt8) : Option UInt8 :=
  if 0x30 ≤ byte && byte ≤ 0x39 then some (byte - 0x30)
  else if 0x61 ≤ byte && byte ≤ 0x66 then some (byte - 0x61 + 10)
  else if 0x41 ≤ byte && byte ≤ 0x46 then some (byte - 0x41 + 10)
  else none

/-- The loop of `percent_decode`. -/
def percentBytes : List UInt8 → Option (List UInt8)
  | [] => some []
  | byte :: rest =>
    if byte = 0x25 then
      match rest with
      | high :: low :: rest => do
          let high ← hexDigit high
          let low ← hexDigit low
          let decoded ← percentBytes rest
          return ((high <<< 4) ||| low) :: decoded
      | _ => none
    else do
      let decoded ← percentBytes rest
      return byte :: decoded

def percentDecode (raw : Str) : Option Str :=
  if '%' ∉ raw then some raw
  else do
    let bytes ← percentBytes (asBytes raw)
    (fromUtf8 bytes).toOption

/-- `str::parse::<i32>`. -/
def parseI32 : Str → Option Int
  | '-' :: digits => (parseDigits (2 ^ 31) digits).map fun n => -(n : Int)
  | s => (parseUnsigned (2 ^ 31 - 1) s).map Int.ofNat

/-! ## 2. Working directories -/

def isAbsoluteRemoteCwd (path : Str) : Bool :=
  path.head? == some '/' ||
    match asBytes path with
    | drive :: colon :: slash :: _ =>
      ((0x41 ≤ drive && drive ≤ 0x5a) || (0x61 ≤ drive && drive ≤ 0x7a)) && colon == 0x3a &&
        (slash == 0x2f || slash == 0x5c)
    | _ => false

/-- A host that may stand in an answer: not empty, at most 255 bytes, without control characters. -/
def plainHost (host : Str) : Bool :=
  host ≠ [] && decide ((asBytes host).length ≤ 255) && !host.any isControl

/-- The extra slash before a drive letter is dropped. -/
def nativeDrive (cwd : Str) : Str :=
  match cwd with
  | '/' :: drive :: ':' :: slash :: rest =>
    if drive.isAlpha && (slash == '/' || slash == '\\') then drive :: ':' :: slash :: rest else cwd
  | _ => cwd

/-- The `file://` form of `parse_cwd_payload`. -/
def parseFileUri (rest : Str) : Option (Str × Option Str) := do
  let (encodedHost, path) ←
    if rest.head? = some '/' then some (none, rest)
    else do
      let slash ← findStr rest ['/']
      let host := rest.take slash
      some (if host = [] then none else some host, rest.drop slash)
  let cwd := nativeDrive (← percentDecode path)
  if !isAbsoluteRemoteCwd cwd || cwd.any isControl then none
  else match encodedHost with
    | some encodedHost => do
        let host ← percentDecode encodedHost
        if plainHost host then some (cwd, some host) else none
    | none => some (cwd, none)

variable (data : Str)

def parseCwdPayload : Option (Str × Option Str) :=
  match stripFront "file://".toList data with
  | some rest => parseFileUri rest
  | none => do
      let cwd ← percentDecode data
      if cwd = [] then none else some (cwd, none)

def splitSequence : Str × List Str :=
  match data.splitOnP (· == ';') with
  | sequence :: args => (sequence, args)
  | [] => ([], [])

def parseOsc7Cwd : Option (Str × Option Str) := parseCwdPayload data

def parseOsc633Cwd : Option (Str × Option Str) :=
  let (sequence, args) := splitSequence data
  if sequence ≠ ['P'] then none
  else args.findSome? fun arg => (stripFront "Cwd=".toList arg).bind parseCwdPayload

def parseOsc1337Cwd : Option (Str × Option Str) :=
  (stripFront "CurrentDir=".toList data).bind parseCwdPayload

def parseKeyValueFields : List (Str × Str) :=
  (data.splitOnP (· == ';')).filterMap fun field => splitOnce field ['=']

def parseHapcliRemoteMetadata : Option (Str × Option Str) := do
  let fields := parseKeyValueFields data
  let version ← fields.lookup ['v']
  if version ≠ ['2'] then none
  else
    let cwd ← (fields.lookup "cwd".toList).bind percentDecode
    if !isAbsoluteRemoteCwd cwd || cwd.any isControl then none
    else some (cwd, ((fields.lookup "host".toList).bind percentDecode).filter plainHost)

/-! ## 3. Shell integration -/

def maxCommandTextLength : Nat := 4096

inductive ShellIntegrationSource where
  | osc133
  | osc633
  deriving DecidableEq

inductive ShellIntegrationEventKind where
  | promptStart
  | commandStart
  | outputStart
  | commandEnd
  deriving DecidableEq

structure ShellIntegrationEvent where
  kind : ShellIntegrationEventKind
  source : ShellIntegrationSource
  line : Nat
  col : Nat
  sequence : Str
  raw : Str
  command : Option Str
  exitCode : Option Int
  deriving DecidableEq

def sanitizeShellIntegrationCommandText (raw : Str) : Option Str :=
  if raw = [] ∨ maxCommandTextLength * 4 < (asBytes raw).length then none
  else do
    let value ← percentDecode raw
    let kept := value.filter fun ch =>
      !(decide (ch.toNat ≤ 0x08) || ch.toNat == 0x0b || ch.toNat == 0x0c ||
        (decide (0x0e ≤ ch.toNat) && decide (ch.toNat ≤ 0x1f)) || ch.toNat == 0x7f)
    let value := trim kept
    if value ≠ [] ∧ (asBytes value).length ≤ maxCommandTextLength then some value else none

def parseExitCode (args : List Str) : Option Int := args.findSome? fun part => parseI32 (trim part)

/-- The kind of an event, by its source and its letter. -/
def eventKind (source : ShellIntegrationSource) (sequence : Str) : Option ShellIntegrationEventKind :=
  if sequence = ['A'] then some .promptStart
  else if sequence = ['B'] then some .commandStart
  else if sequence = ['C'] then some .outputStart
  else if sequence = ['E'] ∧ source = .osc633 then some .outputStart
  else if sequence = ['D'] then some .commandEnd
  else none

/-- The command an event carries: percent-encoded after a `C`, in the arguments of an `E`. -/
def eventCommand (source : ShellIntegrationSource) (sequence : Str) (args : List Str) : Option Str :=
  if source = .osc133 ∧ sequence = ['C'] then
    (args.findSome? (stripFront "cmdline_url=".toList)).bind sanitizeShellIntegrationCommandText
  else if source = .osc633 ∧ sequence = ['E'] then
    sanitizeShellIntegrationCommandText (args.intersperse [';']).flatten
  else none

def parseShellIntegrationEvent (source : ShellIntegrationSource) (data : Str) (position : Nat × Nat) :
    Option ShellIntegrationEvent := do
  let (sequence, args) := splitSequence data
  let kind ← eventKind source sequence
  return {
    kind
    source
    line := position.1
    col := position.2
    sequence
    raw := data
    command := eventCommand source sequence args
    exitCode := if kind = .commandEnd then parseExitCode args else none }

/-! ## 4. Editors -/

def editorClipboardTextLimit : Nat := 64 * 1024
def editorProtocolFieldLimit : Nat := 12
def editorProtocolPayloadLimit : Nat := editorClipboardTextLimit * 3 + 1024

inductive TerminalEditorApplication where
  | vim
  | neovim
  | emacs
  deriving DecidableEq

inductive TerminalEditorMode where
  | normal
  | insert
  | replace
  | visual
  | select
  | emacs
  deriving DecidableEq

inductive TerminalEditorSelection where
  | none
  | character
  | line
  | block
  | region
  deriving DecidableEq

structure TerminalEditorCapabilities where
  mouse : Bool := false
  clipboard : Bool := false
  edit : Bool := false
  deriving DecidableEq

structure TerminalEditorIntegrationEvent where
  application : TerminalEditorApplication
  mode : TerminalEditorMode
  selection : TerminalEditorSelection
  capabilities : TerminalEditorCapabilities
  active : Bool
  deriving DecidableEq

inductive TerminalEditorClipboardOperation where
  | copy
  | cut
  deriving DecidableEq

structure TerminalEditorClipboardEvent where
  application : TerminalEditorApplication
  operation : TerminalEditorClipboardOperation
  text : Str
  deriving DecidableEq

inductive TerminalEditorProtocolMessage where
  | state (event : TerminalEditorIntegrationEvent)
  | clipboard (event : TerminalEditorClipboardEvent)
  deriving DecidableEq

/-- `parse_editor_protocol_fields`: every field has a key and a value, and no key comes twice. -/
def parseEditorProtocolFields (payload : Str) : Option (List (Str × Str)) :=
  (payload.splitOnP (· == ';')).foldlM (fun fields field => do
    let (key, value) ← splitOnce field ['=']
    if key = [] ∨ editorProtocolFieldLimit ≤ fields.length ∨ fields.any (·.1 == key) then none
    else some (fields ++ [(key, value)])) []

variable (value : Str)

def editorApplication : Option TerminalEditorApplication :=
  [("vim".toList, .vim), ("nvim".toList, .neovim), ("emacs".toList, .emacs)].lookup value

def editorMode : Option TerminalEditorMode :=
  [("normal".toList, .normal), ("insert".toList, .insert), ("replace".toList, .replace),
    ("visual".toList, .visual), ("select".toList, .select), ("emacs".toList, .emacs)].lookup value

def editorSelection : Option TerminalEditorSelection :=
  [("none".toList, .none), ("char".toList, .character), ("line".toList, .line),
    ("block".toList, .block), ("region".toList, .region)].lookup value

def editorActive : Option Bool := [(['0'], false), (['1'], true)].lookup value

def editorOperation : Option TerminalEditorClipboardOperation :=
  [("copy".toList, .copy), ("cut".toList, .cut)].lookup value

def editorCapabilities : Option TerminalEditorCapabilities :=
  ((value.splitOnP (· == ',')).filter (· ≠ [])).foldlM (fun capabilities capability =>
    if capability = "mouse".toList then some { capabilities with mouse := true }
    else if capability = "clipboard".toList then some { capabilities with clipboard := true }
    else if capability = "edit".toList then some { capabilities with edit := true }
    else none) {}

/-- No field but those of the schema; no key comes twice, so a field's value is the one that is
    looked up. -/
def onlyFields (names : List Str) (fields : List (Str × Str)) : Bool :=
  fields.all fun field => names.contains field.1

def parseEditorIntegrationEvent (fields : List (Str × Str)) : Option TerminalEditorIntegrationEvent :=
  if !onlyFields (["v", "kind", "app", "mode", "selection", "caps", "active"].map String.toList)
      fields then none
  else do
    let application ← (fields.lookup "app".toList).bind editorApplication
    let mode ← (fields.lookup "mode".toList).bind editorMode
    let selection ← (fields.lookup "selection".toList).bind editorSelection
    let capabilities ← match fields.lookup "caps".toList with
      | some value => editorCapabilities value
      | none => some {}
    let active ← (fields.lookup "active".toList).bind editorActive
    return { application, mode, selection, capabilities, active }

/-- `percent_decode_editor_text`: three bytes for every byte of the text. -/
def percentTriples : List UInt8 → Option (List UInt8)
  | [] => some []
  | byte :: high :: low :: rest =>
    if byte ≠ 0x25 then none
    else do
      let high ← hexDigit high
      let low ← hexDigit low
      let decoded ← percentTriples rest
      return ((high <<< 4) ||| low) :: decoded
  | _ => none

def percentDecodeEditorText : Option Str :=
  if editorClipboardTextLimit * 3 < (asBytes value).length then none
  else do
    let decoded ← percentTriples (asBytes value)
    (fromUtf8 decoded).toOption

def parseEditorClipboardEvent (fields : List (Str × Str)) : Option TerminalEditorClipboardEvent :=
  if !onlyFields (["v", "kind", "app", "op", "data"].map String.toList) fields then none
  else do
    let application ← (fields.lookup "app".toList).bind editorApplication
    let operation ← (fields.lookup "op".toList).bind editorOperation
    let text ← (fields.lookup "data".toList).bind percentDecodeEditorText
    return { application, operation, text }

def parseEditorProtocolMessage (payload : Str) : Option TerminalEditorProtocolMessage := do
  let fields ← parseEditorProtocolFields payload
  let version ← fields.lookup ['v']
  let kind ← fields.lookup "kind".toList
  if version ≠ ['3'] then none
  else if kind = "editor-state".toList then
    (parseEditorIntegrationEvent fields).map .state
  else if kind = "editor-clipboard".toList then
    (parseEditorClipboardEvent fields).map .clipboard
  else none

end Hapcli.Terminal
