/-
  Subject:   `TrzszTransfer` (`transfer.rs`): lines, integers, strings and data on the wire, the
             sending and the receiving of files; the escaping of binary data (`escape.rs`).

  zlib, base64 and MD5 come from other crates: they are the `Codec` every function is given. The
  progress bar is told about each stage and tells nothing back; it is left out.
-/
import Hapcli.Trzsz.Buffer

namespace Hapcli.Trzsz

open Hapcli.Process Hapcli.Rust Proc

/-! ## 1. Configuration -/

/-- A JSON value, as far as a configuration is read: a number is a `u64` or another one. -/
inductive Json where
  | null
  | bool (b : Bool)
  | u64 (n : Nat)
  | otherNumber
  | str (s : Str)
  | arr (items : List Json)
  | obj (fields : List (Str × Json))

namespace Json

/-- `value[key]`. -/
def get (key : Str) : Json → Json
  | .obj fields => (fields.lookup key).getD .null
  | _ => .null

def asU64 : Json → Option Nat
  | .u64 n => some n
  | _ => none

def asStr : Json → Option Str
  | .str s => some s
  | _ => none

def asArray : Json → Option (List Json)
  | .arr items => some items
  | _ => none

/-- `value == Value::Bool(true)`. -/
def isTrue : Json → Bool
  | .bool b => b
  | _ => false

end Json

/-- `EscapeCode`: a byte and the two that stand for it. -/
structure EscapeCode where
  byte : UInt8
  first : UInt8
  second : UInt8
  deriving DecidableEq

/-- One entry of `escape_chars_to_codes`. -/
def escapeCode (escapeChar : List Str) : Option EscapeCode := do
  let byte ← (asBytes (← escapeChar.head?)).head?
  match asBytes (← escapeChar[1]?) with
  | first :: second :: _ => some ⟨byte, first, second⟩
  | _ => none

def escapeCharsToCodes (escapeChars : List (List Str)) : List EscapeCode :=
  escapeChars.filterMap escapeCode

def escapeData (data : List UInt8) (codes : List EscapeCode) : List UInt8 :=
  data.flatMap fun value =>
    match codes.find? (·.byte == value) with
    | some code => [code.first, code.second]
    | none => [value]

def unescapeData (codes : List EscapeCode) : List UInt8 → List UInt8
  | [] => []
  | [value] => [value]
  | value :: next :: data =>
    match codes.find? fun code => value == code.first && next == code.second with
    | some code => code.byte :: unescapeData codes data
    | none => value :: unescapeData codes (next :: data)

/-- `TrzszTransfer`, what it does not change while files are sent or received. -/
structure TrzszTransfer where
  isWindowsShell : Bool := false
  maxDataChunkSize : Nat := 10 * 1024 * 1024
  remoteIsWindows : Bool := false
  tmuxOutputJunk : Bool := false
  transferConfig : Json := .obj []
  stopped : Bool := false

namespace TrzszTransfer

variable (transfer : TrzszTransfer)

/-- `protocol_newline`, which `set_remote_platform` sets together with `remote_is_windows`. -/
def protocolNewline : Str := if transfer.remoteIsWindows then ['!', '\n'] else ['\n']

def configBool (key : Str) : Bool := (transfer.transferConfig.get key).isTrue

def configU64 (key : Str) : Option Nat := (transfer.transferConfig.get key).asU64

def configEscapeCodes : List EscapeCode :=
  match (transfer.transferConfig.get "escape_chars".toList).asArray with
  | none => []
  | some values => escapeCharsToCodes
      ((values.filterMap Json.asArray).map fun items => items.filterMap Json.asStr)

end TrzszTransfer

/-! ## 2. Lines -/

/-- zlib, base64 and MD5. -/
structure Codec where
  compress : List UInt8 → List UInt8
  decompress : List UInt8 → Except Str (List UInt8)
  base64Encode : List UInt8 → Str
  base64Decode : Str → Except Str (List UInt8)
  md5 : List UInt8 → Vector UInt8 16

namespace Codec

def encodeBuffer (codec : Codec) (buffer : List UInt8) : Str :=
  codec.base64Encode (codec.compress buffer)

def decodeBuffer (codec : Codec) (buffer : Str) : Except TrzszError (List UInt8) :=
  match codec.base64Decode buffer with
  | .error text => .error (.invalidState text)
  | .ok bytes =>
    match codec.decompress bytes with
    | .error text => .error (.io text)
    | .ok output => .ok output

end Codec

/-- The turns of `strip_tmux_status_line`; every turn shortens the text, so its length is turns
    enough. -/
def stripTmuxTurns : Nat → Str → Str
  | 0, buffer => buffer
  | turns + 1, buffer =>
    match findStr buffer ['\x1b', 'P', '='] with
    | none => buffer
    | some beginIndex =>
      let afterBegin := buffer.drop (beginIndex + 3)
      match findStr afterBegin ['\x1b', 'P', '='] with
      | none => buffer.take beginIndex
      | some midIndex =>
        let afterMid := afterBegin.drop (midIndex + 3)
        match findStr afterMid ['\x1b', '\\'] with
        | none => buffer.take beginIndex
        | some endIndex =>
          stripTmuxTurns turns (buffer.take beginIndex ++ afterMid.drop (endIndex + 2))

def stripTmuxStatusLine (buffer : Str) : Str := stripTmuxTurns (buffer.length + 1) buffer

/-- What precedes a message on its line is cut off: all before the last `#TYPE:`, or before the
    last `#`. -/
def cutJunk (expectType line : Str) : Str :=
  match rfindStr line ('#' :: expectType ++ [':']) with
  | some index => line.drop index
  | none =>
    match rfindStr line ['#'] with
    | some index => line.drop index
    | none => line

/-- The text of a message, without its line end. -/
def message (kind buffer : Str) : Str := '#' :: kind ++ ':' :: buffer

/-- A turn of the loop of `recv_line` that joins lines broken by a carriage return. -/
def joinLinesTurn (line : Str) : TrzszProc (Turn Str Str) :=
  if line.getLast? = some '\r' then do
    let next ← readLine
    ret (.again (line.dropLast ++ next))
  else ret (.done line)

section Messages

variable (transfer : TrzszTransfer) (codec : Codec)

def sendLine (kind buffer : Str) : TrzszProc Unit :=
  IoProc.writeAll (asBytes (message kind buffer ++ transfer.protocolNewline))

def recvLine (expectType : Str) (mayHaveJunk : Bool) : TrzszProc Str :=
  if transfer.stopped then invalidState "Stopped".toList
  else if transfer.isWindowsShell || transfer.remoteIsWindows then do
    let line ← readLineOnWindows
    ret (cutJunk expectType line)
  else do
    let line ← readLine
    if transfer.tmuxOutputJunk || mayHaveJunk then do
      let line ← loop joinLinesTurn line
      ret (stripTmuxStatusLine (cutJunk expectType line))
    else ret line

/-- What `recv_check` makes of a line; a slice that does not start at a character panics. -/
def checkLine (expectType line : Str) : TrzszProc Str :=
  match line.findIdx? (· == ':') with
  | none => invalidState ("Missing colon in trzsz line: ".toList ++ line)
  | some separatorIndex =>
    if separatorIndex < 1 then invalidState ("Invalid trzsz line: ".toList ++ line)
    else if line.head?.any (·.utf8Size > 1) then fail .panic
    else
      let kind := (line.take separatorIndex).drop 1
      let buffer := line.drop (separatorIndex + 1)
      if kind ≠ expectType then invalidState (kind ++ ": ".toList ++ buffer)
      else ret buffer

def recvCheck (expectType : Str) (mayHaveJunk : Bool) : TrzszProc Str := do
  let line ← recvLine transfer expectType mayHaveJunk
  checkLine expectType line

def sendInteger (kind : Str) (value : Nat) : TrzszProc Unit :=
  sendLine transfer kind (numToString value)

/-- `parse` on what an integer message carries. -/
def parseInteger (text : Str) : TrzszProc Nat :=
  match parseU64 text with
  | some n => ret n
  | none => invalidState ("Invalid integer: ".toList ++ parseErrorText u64Max text)

def recvInteger (kind : Str) (mayHaveJunk : Bool) : TrzszProc Nat := do
  let text ← recvCheck transfer kind mayHaveJunk
  parseInteger text

def checkInteger (expect : Nat) : TrzszProc Unit := do
  let result ← recvInteger transfer "SUCC".toList false
  if result ≠ expect then
    invalidState ("Integer check [".toList ++ numToString result ++ "] <> [".toList ++
      numToString expect ++ "]".toList)
  else ret ()

def sendBinary (kind : Str) (buffer : List UInt8) : TrzszProc Unit :=
  sendLine transfer kind (codec.encodeBuffer buffer)

def recvBinary (kind : Str) (mayHaveJunk : Bool) : TrzszProc (List UInt8) := do
  let text ← recvCheck transfer kind mayHaveJunk
  check (codec.decodeBuffer text)

def checkBinary (expect : List UInt8) : TrzszProc Unit := do
  let result ← recvBinary transfer codec "SUCC".toList false
  if result ≠ expect then invalidState "Binary check failed".toList else ret ()

def sendString (kind value : Str) : TrzszProc Unit :=
  sendLine transfer kind (codec.encodeBuffer (asBytes value))

/-- The text of a string message. -/
def decodeText (decoded : List UInt8) : TrzszProc Str :=
  match fromUtf8 decoded with
  | .ok text => ret text
  | .error error => invalidState error

def recvString (kind : Str) (mayHaveJunk : Bool) : TrzszProc Str := do
  let text ← recvCheck transfer kind mayHaveJunk
  let decoded ← check (codec.decodeBuffer text)
  decodeText decoded

def sendData (data : List UInt8) (binary : Bool) (escapeCodes : List EscapeCode) : TrzszProc Unit :=
  if ¬ binary then sendBinary transfer codec "DATA".toList data
  else do
    sendLine transfer "DATA".toList (numToString (escapeData data escapeCodes).length)
    IoProc.writeAll (escapeData data escapeCodes)

def recvData (binary : Bool) (escapeCodes : List EscapeCode) : TrzszProc (List UInt8) :=
  if ¬ binary then recvBinary transfer codec "DATA".toList false
  else do
    let size ← recvInteger transfer "DATA".toList false
    let escaped ← readBinary size
    ret (unescapeData escapeCodes escaped)

end Messages

/-! ## 3. Sending files -/

class TrzszFileReader (R : Type) where
  pathId : R → Nat
  relPath : R → List Str
  isDir : R → Bool
  size : R → Nat
  readFile : R → Nat → Except TrzszError (List UInt8) × R

open TrzszFileReader

/-- A character in a JSON string. -/
def jsonChar (c : Char) : Str :=
  if c = '"' then ['\\', '"']
  else if c = '\\' then ['\\', '\\']
  else if c = '\x08' then ['\\', 'b']
  else if c = '\t' then ['\\', 't']
  else if c = '\n' then ['\\', 'n']
  else if c = '\x0c' then ['\\', 'f']
  else if c = '\r' then ['\\', 'r']
  else if c.toNat < 0x20 then
    "\\u00".toList ++ [Nat.digitChar (c.toNat / 16), Nat.digitChar (c.toNat % 16)]
  else [c]

/-- A JSON string. -/
def jsonString (s : Str) : Str := '"' :: s.flatMap jsonChar ++ ['"']

/-- The object `send_file_name` sends in directory mode, its keys in this order. -/
def nameObject (pathId : Nat) (relPath : List Str) (isDir : Bool) : Str :=
  "\x7b\"path_id\":".toList ++ numToString pathId ++ ",\"path_name\":[".toList ++
    ((relPath.map jsonString).intersperse [',']).flatten ++ "],\"is_dir\":".toList ++
    (if isDir then "true".toList else "false".toList) ++ "\x7d".toList

section Send

variable {R : Type} [TrzszFileReader R] (transfer : TrzszTransfer) (codec : Codec)

def sendFileNum (num : Nat) : TrzszProc Unit := do
  sendInteger transfer "NUM".toList num
  checkInteger transfer num

/-- The name a file is announced under. -/
def announcedName (file : R) (directory : Bool) (fileName : Str) : Str :=
  if directory then nameObject (pathId file) (relPath file) (isDir file) else fileName

def sendFileName (file : R) (directory : Bool) : TrzszProc Str :=
  match (relPath file).getLast? with
  | none => fail (.error (.invalidPath "empty trzsz rel path".toList))
  | some fileName => do
      sendString transfer codec "NAME".toList (announcedName file directory fileName)
      recvString transfer codec "SUCC".toList false

def sendFileSize (size : Nat) : TrzszProc Unit := do
  sendInteger transfer "SIZE".toList size
  checkInteger transfer size

/-- The variables of the loop of `send_file_data`; `consumed` is what the MD5 context was fed. -/
structure SendState (R : Type) where
  file : R
  step : Nat := 0
  bufferSize : Nat := 1024
  consumed : List UInt8 := []

/-- The size of the next read. -/
def nextBufferSize (bufferSize maxBufferSize dataLen chunkTime : Nat) : Nat :=
  if dataLen = bufferSize ∧ chunkTime < 500 ∧ bufferSize < maxBufferSize then
    min (bufferSize * 2) maxBufferSize
  else if chunkTime ≥ 2000 ∧ bufferSize > 1024 then 1024
  else bufferSize

/-- `begin_time.elapsed()`. -/
def elapsed (index step : Nat) : TrzszProc Nat :=
  .act (.call (.elapsed index step)) fun milliseconds => ret milliseconds

/-- A turn of the loop of `send_file_data`. -/
def sendDataTurn (index size : Nat) (binary : Bool) (escapeCodes : List EscapeCode)
    (maxBufferSize : Nat) (state : SendState R) :
    TrzszProc (Turn (SendState R) (Vector UInt8 16)) :=
  if state.step < size then do
    let result := readFile state.file state.bufferSize
    let data ← check result.1
    if data = [] then
      invalidState ("Unexpected EOF while reading ".toList ++
        ((relPath state.file).intersperse ['/']).flatten)
    else do
      sendData transfer codec data binary escapeCodes
      checkInteger transfer data.length
      let chunkTime ← elapsed index state.step
      ret (.again
        { file := result.2, step := state.step + data.length,
          bufferSize := nextBufferSize state.bufferSize maxBufferSize data.length chunkTime,
          consumed := state.consumed ++ data })
  else ret (.done (codec.md5 state.consumed))

def sendFileData (index : Nat) (file : R) (size : Nat) (binary : Bool)
    (escapeCodes : List EscapeCode) (maxBufferSize : Nat) : TrzszProc (Vector UInt8 16) :=
  loop (sendDataTurn transfer codec index size binary escapeCodes maxBufferSize) { file }

def sendFileMd5 (digest : Vector UInt8 16) : TrzszProc Unit := do
  sendBinary transfer codec "MD5".toList digest.toList
  checkBinary transfer codec digest.toList

/-- `names.push(name)`, unless it is there already. -/
def pushName (names : List Str) (name : Str) : List Str :=
  if name ∈ names then names else names ++ [name]

/-- The loop of `send_files`. -/
def sendEach (binary directory : Bool) (escapeCodes : List EscapeCode) (maxBufferSize : Nat) :
    Nat → List Str → List R → TrzszProc (List Str)
  | _, remoteNames, [] => ret remoteNames
  | index, remoteNames, file :: files => do
      let remoteName ← sendFileName transfer codec file directory
      if isDir file then
        sendEach binary directory escapeCodes maxBufferSize (index + 1)
          (pushName remoteNames remoteName) files
      else do
        sendFileSize transfer (size file)
        let digest ← sendFileData transfer codec index file (size file) binary escapeCodes maxBufferSize
        sendFileMd5 transfer codec digest
        sendEach binary directory escapeCodes maxBufferSize (index + 1)
          (pushName remoteNames remoteName) files

def sendFiles (files : List R) : TrzszProc (List Str) := do
  let maxBufferSize :=
    min ((transfer.configU64 "bufsize".toList).getD transfer.maxDataChunkSize)
      transfer.maxDataChunkSize
  sendFileNum transfer files.length
  sendEach transfer codec (transfer.configBool "binary".toList)
    (transfer.configBool "directory".toList) transfer.configEscapeCodes maxBufferSize 0 [] files

end Send

/-! ## 4. Receiving files -/

section Receive

variable (transfer : TrzszTransfer) (codec : Codec)

/-- A method of a writer, its error passed on (`?`). -/
def writerCall (index : Nat) (op : WriterOp) : TrzszProc Unit :=
  .act (.call (.writer index op)) fun answer => check answer

def recvFileNum : TrzszProc Nat := do
  let num ← recvInteger transfer "NUM".toList false
  sendInteger transfer "SUCC".toList num
  ret num

/-- `open_save_file(..)?`. -/
def openSaveFile (index : Nat) (fileName : Str) (directory overwrite : Bool) : TrzszProc SaveFile :=
  .act (.call (.openSaveFile index fileName directory overwrite)) fun answer => check answer

def recvFileName (index : Nat) (directory overwrite : Bool) : TrzszProc SaveFile := do
  let fileName ← recvString transfer codec "NAME".toList false
  let file ← openSaveFile index fileName directory overwrite
  sendString transfer codec "SUCC".toList file.localName
  ret file

def recvFileSize : TrzszProc Nat := do
  let size ← recvInteger transfer "SIZE".toList false
  sendInteger transfer "SUCC".toList size
  ret size

/-- A turn of the loop of `recv_file_data`; the state is what was received. -/
def recvDataTurn (index size : Nat) (binary : Bool) (escapeCodes : List EscapeCode)
    (received : List UInt8) : TrzszProc (Turn (List UInt8) (Vector UInt8 16)) :=
  if received.length < size then do
    let data ← recvData transfer codec binary escapeCodes
    writerCall index (.writeFile data)
    sendInteger transfer "SUCC".toList data.length
    ret (.again (received ++ data))
  else ret (.done (codec.md5 received))

def recvFileData (index size : Nat) (binary : Bool) (escapeCodes : List EscapeCode) :
    TrzszProc (Vector UInt8 16) :=
  loop (recvDataTurn transfer codec index size binary escapeCodes) []

def recvFileMd5 (digest : Vector UInt8 16) : TrzszProc Unit := do
  let expectedDigest ← recvBinary transfer codec "MD5".toList false
  if digest.toList ≠ expectedDigest then invalidState "Check MD5 failed".toList
  else sendBinary transfer codec "SUCC".toList digest.toList

/-- `file.close_file()`. -/
def closeFile (index : Nat) : TrzszProc Unit :=
  .act (.call (.closeFile index)) fun _ => ret ()

/-- `let _ = file.abort_file()`. -/
def abortFile (index : Nat) : TrzszProc Unit :=
  .act (.call (.writer index .abortFile)) fun _ => ret ()

/-- What `recv_files` does with the outcome of `recv_file_data`. -/
def settleFile (index : Nat) : Except Failure (Vector UInt8 16) → TrzszProc Unit
  | .ok digest => do
      closeFile index
      recvFileMd5 transfer codec digest
      writerCall index .finishFile
  | .error (.error error) => do
      abortFile index
      fail (.error error)
  | .error .panic => fail .panic

/-- The loop of `recv_files` over the announced number of files. -/
def recvEach (binary directory overwrite : Bool) (escapeCodes : List EscapeCode) :
    Nat → Nat → List Str → TrzszProc (List Str)
  | _, 0, localNames => ret localNames
  | index, count + 1, localNames => do
      let file ← recvFileName transfer codec index directory overwrite
      if file.isDir then
        recvEach binary directory overwrite escapeCodes (index + 1) count
          (pushName localNames file.localName)
      else do
        let size ← recvFileSize transfer
        let outcome ← (recvFileData transfer codec index size binary escapeCodes).attempt
        settleFile transfer codec index outcome
        recvEach binary directory overwrite escapeCodes (index + 1) count
          (pushName localNames file.localName)

/-- The loop of `recv_files` over the created files. -/
def commitEach : List Nat → TrzszProc Unit
  | [] => ret ()
  | index :: files => do
      writerCall index .commitFile
      commitEach files

def recvFiles : TrzszProc (List Str) := do
  let num ← recvFileNum transfer
  let localNames ← recvEach transfer codec (transfer.configBool "binary".toList)
    (transfer.configBool "directory".toList) false transfer.configEscapeCodes 0 num []
  commitEach (List.range num)
  ret localNames

end Receive

end Hapcli.Trzsz
