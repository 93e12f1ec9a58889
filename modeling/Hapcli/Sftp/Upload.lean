/-
  Subject:   Resumable uploads (`session/transfers.rs`): `upload_with_resume`, with
             `upload_file_resume_inner`, `upload_file_inner`, `replace_remote_file` and
             `should_retry_upload_without_temporary_file`.

  An attempt is a task that may fail or be dropped at every await. The two files on the server and
  the stored progress outlive it. An await that changes nothing and stands next to another one is
  left out; a piece that is read is as small as the pieces that are sent.
-/
import Hapcli.Lib.AsyncAction
import Hapcli.Sftp.Progress

namespace Hapcli.Sftp

open Hapcli.Rust
open Hapcli.Lib
open Hapcli.Lib.AsyncAction

/-! ## 1. Errors, files, paths -/

/-- `SftpError`, as far as an upload meets it. -/
inductive SftpError where
  | permissionDenied (path : Str)
  | fileNotFound (path : Str)
  | directoryNotFound (path : Str)
  | ioError (message : Str)
  | channelError (message : Str)
  | protocolError (message : Str)
  | invalidPath (message : Str)
  | transferCancelled
  | transferInterrupted (reason : Str)
  | storageError (message : Str)
  deriving DecidableEq

/-- `to_string`. -/
def SftpError.toStr : SftpError → Str
  | .permissionDenied path => "Permission denied: ".toList ++ path
  | .fileNotFound path => "File not found: ".toList ++ path
  | .directoryNotFound path => "Directory not found: ".toList ++ path
  | .ioError message => "IO error: ".toList ++ message
  | .channelError message => "Channel error: ".toList ++ message
  | .protocolError message => "Protocol error: ".toList ++ message
  | .invalidPath message => "Invalid path: ".toList ++ message
  | .transferCancelled => "Transfer cancelled".toList
  | .transferInterrupted reason => "Transfer interrupted: ".toList ++ reason
  | .storageError message => "Storage error: ".toList ++ message

/-- `Path::components` on Unix: whether the path is absolute, and its parts. A `.` counts only at
    the front of a relative path. -/
def pathComponents (path : Str) : Bool × List Str :=
  let named := fun part : Str => part ≠ [] && part ≠ ['.']
  match path.splitOn '/' with
  | ['.'] :: parts => (false, ['.'] :: parts.filter named)
  | parts => (path.head? == some '/', parts.filter named)

/-- A file after `data` was written at `offset`; what was not there before reads as zeros. -/
def writeAt (bytes : List UInt8) (offset : Nat) (data : List UInt8) : List UInt8 :=
  bytes.take offset ++ List.replicate (offset - bytes.length) 0 ++ data ++
    bytes.drop (offset + data.length)

/-- What outlives an attempt: the files under `{canonical_remote}.oxide-part` and under
    `canonical_remote`, and the stored progress. -/
structure UploadWorld where
  part : Option (List UInt8)
  destination : Option (List UInt8)
  tables : RedbTables

/-- The arguments of `upload_with_resume` and the session's id, the bytes of the local file, and the
    reading of the clock. -/
structure Upload where
  transferId : Str
  localPath : Str
  content : List UInt8
  sessionId : Str
  now : Nat
  deriving DecidableEq

abbrev UploadAction (α : Type) := AsyncAction UploadWorld SftpError α

namespace Upload

variable (codec : RmpSerde) (canonicalRemote : Str)

def tempRemote : Str := canonicalRemote ++ ".oxide-part".toList

/-! ## 2. Requests -/

/-- An await that changes neither the files nor the stored progress: a look, or the opening or
    closing of a handle. -/
def look : UploadAction Nat := await fun n w => .ok (n, w)

/-- A transaction of the progress store. -/
def transact (message : Str) (transaction : RedbTables → Option RedbTables) : UploadAction Unit :=
  await fun _ w =>
    match transaction w.tables with
    | none => .error (.storageError message)
    | some tables => .ok ((), { w with tables := tables })

/-- `progress_store.save`. -/
def save (progress : StoredTransferProgress) : UploadAction Unit :=
  transact
    (if (codec.toVecNamed progress).isNone then "Failed to serialize progress".toList
      else "Failed to deserialize previous progress".toList)
    (·.saveSync codec progress)

/-- `progress_store.delete`. -/
def deleteProgress (id : Str) : UploadAction Unit :=
  transact "Failed to deserialize progress".toList fun tables =>
    (tables.load codec id).map (tables.deleteRows id)

/-- `progress_store.load`. -/
def loadProgress (id : Str) : UploadAction (Option StoredTransferProgress) :=
  await fun _ w =>
    match w.tables.load codec id with
    | none => .error (.storageError "Failed to deserialize progress".toList)
    | some found => .ok (found, w)

/-- `progress_store.list_incomplete`. -/
def listIncomplete (sessionId : Str) : UploadAction (List StoredTransferProgress) :=
  await fun _ w =>
    match w.tables.listIncomplete codec sessionId with
    | none => .error (.storageError "Failed to deserialize indexed progress".toList)
    | some listed => .ok (listed, w)

/-- `stat` of the part: its size, which is 0 where the server does not tell it. -/
def statPart : UploadAction Nat :=
  await fun told w =>
    match w.part with
    | none => .error (.fileNotFound (tempRemote canonicalRemote))
    | some bytes => .ok (if told = 0 then 0 else bytes.length, w)

/-- `delete` of the part. -/
def deletePart : UploadAction Unit :=
  await fun _ w =>
    match w.part with
    | none => .error (.fileNotFound (tempRemote canonicalRemote))
    | some _ => .ok ((), { w with part := none })

/-- The part is opened with `WRITE` alone. -/
def openPart : UploadAction Unit :=
  await fun _ w =>
    match w.part with
    | none => .error (.fileNotFound (tempRemote canonicalRemote))
    | some _ => .ok ((), w)

/-- The part is opened with `CREATE | TRUNCATE | WRITE`. -/
def createPart : UploadAction Unit := await fun _ w => .ok ((), { w with part := some [] })

/-- A piece is written into the part. -/
def writePart (offset : Nat) (data : List UInt8) : UploadAction Unit :=
  await fun _ w => .ok ((), { w with part := w.part.map fun bytes => writeAt bytes offset data })

/-- The destination is opened with `CREATE | TRUNCATE | WRITE`. -/
def createDestination : UploadAction Unit :=
  await fun _ w => .ok ((), { w with destination := some [] })

/-- A piece is written into the destination. -/
def writeDestination (offset : Nat) (data : List UInt8) : UploadAction Unit :=
  await fun _ w =>
    .ok ((), { w with destination := w.destination.map fun bytes => writeAt bytes offset data })

/-- `remove_file` of the destination. -/
def removeDestination : UploadAction Unit :=
  await fun _ w =>
    match w.destination with
    | none => .error (.fileNotFound canonicalRemote)
    | some _ => .ok ((), { w with destination := none })

/-- `rename` of the part to the destination. -/
def renamePart : UploadAction Unit :=
  await fun _ w =>
    match w.part with
    | none => .error (.fileNotFound canonicalRemote)
    | some bytes => .ok ((), { w with part := none, destination := some bytes })

/-- `replace_remote_file` from the part to the destination. -/
def replaceRemoteFile : UploadAction Unit := do
  match ← outcome (removeDestination canonicalRemote) with
  | .ok () | .error (.fileNotFound _) => renamePart canonicalRemote
  | .error error => fail error

/-! ## 3. The loop -/

/-- The loop over what is left of the local file. The fuel is the number of bytes left. -/
def sendChunks (write : Nat → List UInt8 → UploadAction Unit) (report : Nat → UploadAction Unit) :
    Nat → List UInt8 → Nat → UploadAction Nat
  | _, [], transferred => do
      let _ ← look
      let _ ← look
      pure transferred
  | 0, _ :: _, _ => throw .dropped
  | fuel + 1, byte :: rest, transferred => do
      let _ ← look
      let read ← look
      -- a read gives at least one byte before the end of the file
      let chunk := (byte :: rest).take (max 1 read)
      write transferred chunk
      report (transferred + chunk.length)
      sendChunks write report fuel ((byte :: rest).drop chunk.length) (transferred + chunk.length)

variable (upload : Upload)

/-- The progress is stored when the clock says so. -/
def report (progress : StoredTransferProgress) (transferred : Nat) : UploadAction Unit := do
  let due ← look
  if due = 0 then pure () else save codec (progress.updateProgress upload.now transferred)

/-- The part is opened for an offset. -/
def openAt (offset : Nat) : UploadAction Unit :=
  if 0 < offset then openPart canonicalRemote else createPart

def uploadFileResumeInner (offset : Nat) (progress : StoredTransferProgress) :
    UploadAction Nat := do
  let _ ← look
  openAt canonicalRemote offset
  let transferred ← sendChunks writePart (upload.report codec progress) upload.content.length
    (upload.content.drop offset) offset
  let _ ← look
  save codec (progress.markCompleted upload.now)
  pure transferred

/-- `upload_file_inner`, straight to the destination. -/
def uploadFileInner : UploadAction Unit := do
  let _ ← look
  createDestination
  let _ ← sendChunks writeDestination (fun _ => pure ()) upload.content.length upload.content 0
  let _ ← look
  pure ()

/-! ## 4. An attempt -/

def shouldRetryUploadWithoutTemporaryFile (error : SftpError) (transferredBytes : Nat) : Bool :=
  transferredBytes = 0 && error = .permissionDenied (tempRemote canonicalRemote)

/-- Whether a row is about this file and this destination. -/
def isOf (progress : StoredTransferProgress) : Bool :=
  progress.transferType = .upload &&
    pathComponents progress.sourcePath = pathComponents upload.localPath &&
    pathComponents progress.destinationPath = pathComponents canonicalRemote

/-- The part goes where the stored progress has another size than the file. -/
def discardOther : Option StoredTransferProgress → UploadAction Unit
  | none => pure ()
  | some progress =>
    if progress.totalBytes = upload.content.length then pure ()
    else do
      deleteProgress codec progress.transferId
      let _ ← outcome (deletePart canonicalRemote)
      pure ()

/-- `upload_with_resume` up to the size of the part. -/
def findPart : UploadAction (Option Nat) := do
  let _ ← look
  let _ ← look
  let listed ← listIncomplete codec upload.sessionId
  upload.discardOther codec canonicalRemote (listed.find? (upload.isOf canonicalRemote))
  match ← outcome (statPart canonicalRemote) with
  | .ok size => pure (some size)
  | .error _ => pure none

/-- `StoredTransferProgress::new` with the offset. -/
def storedProgress (offset : Nat) : StoredTransferProgress where
  transferId := upload.transferId
  transferType := .upload
  protocol := .sftp
  strategy := .file
  sourcePath := upload.localPath
  destinationPath := canonicalRemote
  transferredBytes := offset
  totalBytes := upload.content.length
  status := .active
  lastUpdated := upload.now
  sessionId := upload.sessionId
  error := none

/-- The part is the file: it only has to be renamed. -/
def finish (transferred : Nat) : UploadAction Nat := do
  replaceRemoteFile canonicalRemote
  deleteProgress codec upload.transferId
  pure transferred

/-- What is made of an error of `upload_file_resume_inner`. -/
def recover (offset : Nat) (error : SftpError) : UploadAction Nat :=
  if shouldRetryUploadWithoutTemporaryFile canonicalRemote error offset then do
    let _ ← outcome (deletePart canonicalRemote)
    deleteProgress codec upload.transferId
    upload.uploadFileInner
    pure upload.content.length
  else if error = .transferCancelled then do
    let _ ← outcome (deletePart canonicalRemote)
    deleteProgress codec upload.transferId
    fail error
  else do
    match ← outcome (loadProgress codec upload.transferId) with
    | .ok (some progress) =>
      let _ ← outcome (save codec (progress.markFailed upload.now error.toStr))
      fail error
    | _ => fail error

/-- The upload from an offset on. -/
def sendFrom (offset : Nat) : UploadAction Nat := do
  save codec (upload.storedProgress canonicalRemote offset)
  match ← outcome (upload.uploadFileResumeInner codec canonicalRemote offset
    (upload.storedProgress canonicalRemote offset)) with
  | .ok transferred => upload.finish codec canonicalRemote transferred
  | .error error => upload.recover codec canonicalRemote offset error

/-- `upload_with_resume` from the size of the part on. -/
def resume : Option Nat → UploadAction Nat
  | some size =>
    if upload.content.length ≤ size then
      upload.finish codec canonicalRemote upload.content.length
    else upload.sendFrom codec canonicalRemote size
  | none => upload.sendFrom codec canonicalRemote 0

def uploadWithResume : UploadAction Nat := do
  let found ← upload.findPart codec canonicalRemote
  upload.resume codec canonicalRemote found

end Upload

end Hapcli.Sftp
