/-
  Subject:   The channel of an SCP transfer (`scp/channel.rs`): what is sent over it, the bytes that
             are read from it, control records, and its end.

  A transfer is a program whose operations are the requests to the connection, to the local files and
  to the transfer's control; the answers are arbitrary. Pauses for a speed limit and the reports of
  progress tell nothing back and are left out.

  * **`uses_readResponse`**, `uses_finish` -- reading asks for nothing but messages.
-/
import Hapcli.Process.Trial
import Hapcli.Sftp.ScpPaths

namespace Hapcli.Sftp

open Hapcli.Process Hapcli.Rust Proc

/-! ## 1. Operations -/

/-- The lines an upload sends to describe what follows. -/
inductive ControlRecord where
  | file (size : Nat) (name : Str)
  | directory (name : Str)
  | endDirectory
  deriving DecidableEq

/-- The text of such a line. -/
def ControlRecord.line : ControlRecord → Str
  | .file size name => "C0644 ".toList ++ numToString size ++ ' ' :: name
  | .directory name => "D0755 0 ".toList ++ name
  | .endDirectory => ['E']

/-- What is handed to the channel: a control line, bytes of a file, or the zero byte that
    acknowledges or ends. -/
inductive Sent where
  | control (record : ControlRecord)
  | data (bytes : List UInt8)
  | status
  deriving DecidableEq

/-- `ChannelMsg`, as far as it is told apart. -/
inductive ChannelMsg where
  | data (bytes : List UInt8)
  | extendedData (bytes : List UInt8) (ext : Nat)
  | exitStatus (status : Nat)
  | eof
  | close
  | other
  deriving DecidableEq

/-- `Metadata`, as far as it is looked at. -/
structure Metadata where
  isFile : Bool
  isDir : Bool
  isSymlink : Bool
  len : Nat
  deriving DecidableEq

/-- The operations of a transfer. -/
inductive ScpOp where
  | checkControl
  -- the connection: a channel, the remote command behind it, or a remote command alone
  | openExecChannel
  | exec (command : Str)
  | send (message : Sent)
  | sendEof
  | wait
  | waitInTime
  | closeChannel
  | execExit0 (command : Str)
  -- the local files
  | symlinkMetadata (path : Str)
  | directoryTotalSize (path : Str)
  | openFile (path : Str)
  | read
  | readDir (path : Str)
  | nextEntry (path : Str)
  | createDirAll (path : Str)
  | createDir (path : Str)
  | createFile (path : Str)
  | write (bytes : List UInt8)
  | flush
  | syncAll
  | tryExists (path : Str)
  | rename (source destination : Str)
  | removeDirAll (path : Str)
  deriving DecidableEq

/-- What they answer: errors as texts; a message, or `none` where the channel is gone or the time
    ran out; bytes of a file, none at its end; the path of an entry, `none` after the last. -/
def ScpOp.Ans : ScpOp → Type
  | .checkControl | .openExecChannel => Except ScpError Unit
  | .directoryTotalSize _ => Except ScpError Nat
  | .wait => Option ChannelMsg
  | .waitInTime => Option (Option ChannelMsg)
  | .closeChannel => Unit
  | .execExit0 _ => Bool
  | .symlinkMetadata _ => Except Str Metadata
  | .read => Except Str (List UInt8)
  | .nextEntry _ => Except Str (Option Str)
  | .tryExists _ => Except Str Bool
  | .exec _ | .send _ | .sendEof | .openFile _ | .readDir _ | .createDirAll _
  | .createDir _ | .createFile _ | .write _ | .flush | .syncAll | .rename _ _ | .removeDirAll _ =>
    Except Str Unit

abbrev ScpProc (α : Type) := Proc ScpOp ScpOp.Ans ScpError α

/-- What has happened in a transfer. -/
abbrev ScpHist := Hist ScpOp ScpOp.Ans

/-- `.map_err(SftpError::IoError)?`. -/
def io {α : Type} (answer : Except Str α) : ScpProc α :=
  ofExcept (answer.mapError .ioError)

def checkControl : ScpProc Unit := act .checkControl fun answer => ofExcept answer

def runRequiredExec (command operation : Str) : ScpProc Unit :=
  act (.execExit0 command) fun (exit0 : Bool) =>
    if exit0 = true then ret ()
    else fail (.channelError
      ("Remote command failed while attempting to ".toList ++ operation))

def shellQuote (value : Str) : Str :=
  '\'' :: value.flatMap (fun c => if c = '\'' then "'\\''".toList else [c]) ++ ['\'']

/-- `u64::saturating_add`. -/
def saturatingAdd (a b : Nat) : Nat := min (a + b) u64Max

structure ScpTransferResult where
  bytes : Nat
  items : Nat
  deriving DecidableEq

/-- `SCP_MAX_DIRECTORY_DEPTH`, `SCP_MAX_DIRECTORY_ENTRIES`. -/
def scpMaxDirectoryDepth : Nat := 128

def scpMaxDirectoryEntries : Nat := 1_000_000

def ensureEntryLimit (items : Nat) : Except ScpError Unit :=
  if scpMaxDirectoryEntries < items then
    .error (.protocolError "SCP directory entry limit exceeded".toList)
  else .ok ()

/-- One item more, within the limit. -/
def countItem (progress : ScpTransferResult) : Except ScpError ScpTransferResult := do
  let items := saturatingAdd progress.items 1
  ensureEntryLimit items
  return { progress with items }

/-! ## 2. Sending -/

/-- `SCP_MAX_CONTROL_LINE_BYTES`, `SCP_MAX_STDERR_BYTES`. -/
def scpMaxControlLineBytes : Nat := 16 * 1024

def scpMaxStderrBytes : Nat := 64 * 1024

/-- `ScpChannel`, without the channel itself. -/
structure ScpChannel where
  buffered : List UInt8
  stderr : List UInt8
  exitStatus : Option Nat
  closed : Bool
  deriving DecidableEq

def openScpChannel (command : Str) : ScpProc ScpChannel :=
  act .openExecChannel fun channel => do
    ofExcept channel
    act (.exec command) fun answer => do
      ofExcept (answer.mapError fun error =>
        .channelError ("Failed to start remote SCP: ".toList ++ error))
      ret ⟨[], [], none, false⟩

def sendData (message : Sent) : ScpProc Unit :=
  act (.send message) fun answer =>
    ofExcept (answer.mapError fun error =>
      .channelError ("Failed to write SCP data: ".toList ++ error))

def sendAck : ScpProc Unit := sendData .status

def sendControlLine (record : ControlRecord) : ScpProc Unit :=
  if scpMaxControlLineBytes < (asBytes record.line).length ∨
      record.line.any (· ∈ ['\n', '\r', '\x00']) = true then
    fail (.protocolError "Invalid SCP control line".toList)
  else sendData (.control record)

def sendEof : ScpProc Unit :=
  act .sendEof fun answer =>
    ofExcept (answer.mapError fun error =>
      .channelError ("Failed to finish SCP input: ".toList ++ error))

/-! ## 3. Reading -/

def appendBounded (target data : List UInt8) (limit : Nat) : List UInt8 :=
  target ++ data.take (min data.length (limit - target.length))

variable (channel : ScpChannel)

def receiveMessage : ScpProc ScpChannel :=
  act .wait fun
    | some (.data bytes) => ret { channel with buffered := channel.buffered ++ bytes }
    | some (.extendedData bytes 1) =>
      ret { channel with stderr := appendBounded channel.stderr bytes scpMaxStderrBytes }
    | some (.exitStatus status) => ret { channel with exitStatus := some status }
    | some .eof => ret channel
    | some .close | none => fail (.protocolError
        "Remote SCP closed the channel before completing the protocol".toList)
    | some (.extendedData _ _) | some .other => ret channel

def ensureBuffered : ScpChannel → ScpProc ScpChannel :=
  loop fun channel =>
    if channel.buffered = [] then do
      let channel ← receiveMessage channel
      ret (.again channel)
    else ret (.done channel)

def readByte : ScpProc (UInt8 × ScpChannel) := do
  let channel ← ensureBuffered channel
  match channel.buffered with
  | byte :: buffered => ret (byte, { channel with buffered })
  -- `ensure_buffered` leaves something in the buffer
  | [] => fail (.protocolError [])

/-- `take_control_line`: the line and what is behind it, `none` where it is not there yet. -/
def takeControlLine (buffer : List UInt8) : Except ScpError (Option (Str × List UInt8)) :=
  match buffer.findIdx? (· == 10) with
  | none =>
    if scpMaxControlLineBytes < buffer.length then
      .error (.protocolError "SCP control line exceeds the safety limit".toList)
    else .ok none
  | some index =>
    if scpMaxControlLineBytes < index then
      .error (.protocolError "SCP control line exceeds the safety limit".toList)
    else
      match fromUtf8 (buffer.take index) with
      | .ok line => .ok (some (line, buffer.drop (index + 1)))
      | .error _ => .error (.protocolError "SCP control line is not valid UTF-8".toList)

def readLine : ScpChannel → ScpProc (Str × ScpChannel) :=
  loop fun channel => do
    match ← ofExcept (takeControlLine channel.buffered) with
    | some (line, buffered) => ret (.done (line, { channel with buffered }))
    | none =>
      let channel ← receiveMessage channel
      ret (.again channel)

def readResponse : ScpProc ScpChannel := do
  let (byte, channel) ← readByte channel
  if byte = 0 then ret channel
  else if byte = 1 ∨ byte = 2 then do
    let (message, _) ← readLine channel
    fail (.protocolError ("Remote SCP rejected the transfer: ".toList ++ message))
  else
    fail (.protocolError
      ("Remote SCP sent invalid response byte ".toList ++ numToString byte.toNat))

/-- A turn of the loop that waits for the channel's end. -/
def drainTurn : ScpProc (Turn ScpChannel ScpChannel) :=
  if channel.closed then ret (.done channel)
  else
    act .waitInTime fun
      | none => fail (.channelError "Remote SCP exit timed out".toList)
      | some (some (.extendedData bytes 1)) =>
        ret (.again { channel with stderr := appendBounded channel.stderr bytes scpMaxStderrBytes })
      | some (some (.exitStatus status)) => ret (.again { channel with exitStatus := some status })
      | some (some .close) | some none => ret (.again { channel with closed := true })
      | some (some _) => ret (.again channel)

/-- How `{:?}` writes an exit status. -/
def debugStatus : Option Nat → Str
  | none => "None".toList
  | some status => "Some(".toList ++ numToString status ++ [')']

def finish : ScpProc Unit := do
  let channel ← loop drainTurn channel
  act ScpOp.closeChannel fun _ => ret ()
  if channel.exitStatus = some 0 then ret ()
  else
    let stderr := trim (fromUtf8Lossy channel.stderr)
    fail (.channelError ("Remote SCP exited with status ".toList ++ debugStatus channel.exitStatus ++
      if stderr = [] then [] else ": ".toList ++ stderr))

/-! ## 4. Records -/

inductive ScpRecord where
  | file (mode size : Nat) (name : Str)
  | directory (mode : Nat) (name : Str)
  | endDirectory
  | times
  deriving DecidableEq

/-- `u32::from_str_radix(mode, 8)`, of octal digits. -/
def octal (mode : Str) : Nat := mode.foldl (fun value c => 8 * value + (c.toNat - 48)) 0

/-- `splitn(3, ' ')`: the mode, the size and the name. -/
def recordFields (line : Str) : Str × Option Str × Option Str :=
  match splitOnce line [' '] with
  | none => (line, none, none)
  | some (mode, rest) =>
    match splitOnce rest [' '] with
    | none => (mode, some rest, none)
    | some (size, name) => (mode, some size, some name)

def parseFileOrDirectoryRecord (debug : Str → Str) (kind : UInt8) (line : Str) :
    Except ScpError ScpRecord :=
  let mode := (recordFields line).1
  if mode.length ≠ 4 ∨ mode.any (fun c => c < '0' ∨ '7' < c) = true then
    .error (.protocolError "Invalid SCP mode".toList)
  else
    match (recordFields line).2.1 with
    | none => .error (.protocolError "Missing SCP size".toList)
    | some size =>
      match parseU64 size with
      | none => .error (.protocolError "Invalid SCP size".toList)
      | some size =>
        match (recordFields line).2.2 with
        | none => .error (.protocolError "Missing SCP file name".toList)
        | some name => do
            validateReceivedName debug name
            if kind = 67 then .ok (.file (octal mode) size name)
            else if kind = 68 ∧ size = 0 then .ok (.directory (octal mode) name)
            else if kind = 68 then
              .error (.protocolError "SCP directory record has a non-zero size".toList)
            else .error (.protocolError "Unknown SCP record type".toList)

def splitAsciiWhitespace (s : Str) : List Str :=
  (s.splitOnP (· ∈ [' ', '\t', '\n', '\x0c', '\r'])).filter (· ≠ [])

def validateTimeRecord (line : Str) : Except ScpError Unit :=
  if (splitAsciiWhitespace line).length ≠ 4 ∨
      (splitAsciiWhitespace line).any (fun field => (parseU64 field).isNone) = true then
    .error (.protocolError "Malformed SCP time record".toList)
  else .ok ()

/-- What is made of the line of a record of this kind. -/
def parseRecord (debug : Str → Str) (kind : UInt8) (line : Str) : Except ScpError ScpRecord :=
  if kind = 1 ∨ kind = 2 then
    .error (.protocolError ("Remote SCP reported an error: ".toList ++ line))
  else if kind = 67 ∨ kind = 68 then parseFileOrDirectoryRecord debug kind line
  else if kind = 69 then
    if line ≠ [] then .error (.protocolError "Malformed SCP end-directory record".toList)
    else .ok .endDirectory
  else do
    validateTimeRecord line
    .ok .times

def readNextRecord (debug : Str → Str) (channel : ScpChannel) : ScpProc (ScpRecord × ScpChannel) := do
  let (kind, channel) ← readByte channel
  if kind ∈ ([1, 2, 67, 68, 69, 84] : List UInt8) then do
    let (line, channel) ← readLine channel
    let record ← ofExcept (parseRecord debug kind line)
    ret (record, channel)
  else
    fail (.protocolError ("Remote SCP sent unknown control record ".toList ++ numToString kind.toNat))

/-! ## 5. Reading asks for messages only -/

/-- Messages of the channel, and its end. -/
def Waits : ScpOp → Prop
  | .wait | .waitInTime | .closeChannel => True
  | _ => False

variable (channel : ScpChannel)

theorem uses_receiveMessage : Uses Waits (receiveMessage channel) := by
  refine uses_act trivial fun answer => ?_
  split <;> first | exact uses_ret _ | exact uses_fail _

theorem uses_readByte : Uses Waits (readByte channel) := by
  refine uses_bind (uses_loop (fun channel => ?_) channel) fun channel => ?_
  · split
    · exact uses_bind (uses_receiveMessage channel) fun _ => uses_ret _
    · exact uses_ret _
  · split
    · exact uses_ret _
    · exact uses_fail _

theorem uses_readLine : Uses Waits (readLine channel) := by
  refine uses_loop (fun channel => uses_bind (uses_ofExcept _) fun taken => ?_) channel
  split
  · exact uses_ret _
  · exact uses_bind (uses_receiveMessage channel) fun _ => uses_ret _

theorem uses_readResponse : Uses Waits (readResponse channel) := by
  refine uses_bind (uses_readByte channel) fun (byte, channel) => ?_
  dsimp only
  split
  · exact uses_ret _
  · split
    · exact uses_bind (uses_readLine channel) fun _ => uses_fail _
    · exact uses_fail _

theorem uses_finish : Uses Waits (finish channel) := by
  refine uses_bind (uses_loop (fun channel => ?_) channel) fun channel =>
    uses_bind (uses_act trivial fun _ => uses_ret _) fun _ => ?_
  · unfold drainTurn
    split
    · exact uses_ret _
    · refine uses_act trivial fun answer => ?_
      split <;> first | exact uses_ret _ | exact uses_fail _
  · split
    · exact uses_ret _
    · exact uses_fail _

end Hapcli.Sftp
