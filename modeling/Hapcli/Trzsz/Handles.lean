/-
  Subject:   The handles of running transfers (`TrzszState` in `lib.rs`): who owns them, how long
             they live.

  * `OwnerState`, `UploadHandle`, `DownloadHandle`, `TrzszStateInner` -- what the lock guards;
  * `registerUploadHandle`, `readUploadChunk`, `closeUploadHandle`, `registerDownloadHandle`,
    `writeDownloadChunk`, `finishDownloadHandle`, `abortDownloadHandle` -- handles;
  * `cleanupOwner`, `collectExpiredCleanup` -- what is taken away, and the files that go with it;
  * `TrzszState` -- the methods;
  * `Access`, `TrzszState.run` -- runs.

  Every method takes the lock anew for the purge of what has expired and for its own work (only
  `abort_download_handle` does not purge), so in a run the two stand apart and other threads come
  between them. What a method does under one lock is a function of `TrzszStateInner`, which gives
  the program that works on the files with it. Identifiers that are drawn and times that are read
  are arguments; a time counts nanoseconds.
-/
import Hapcli.Rust.Maps
import Hapcli.Trzsz.PathGuard

namespace Hapcli.Trzsz

open Hapcli.Process Hapcli.Rust Proc

/-! ## 1. What the lock guards -/

def maxHandlesPerOwner : Nat := 256

def defaultHandleTtl : Nat := 15 * 60 * 10 ^ 9

structure OwnerState where
  authorizedUploadPaths : HashSet PathBuf := ∅
  preparedDownloadRoot : Option PathBuf := none
  uploadHandles : HashSet Str := ∅
  downloadHandles : HashSet Str := ∅
  downloadDirectories : HashSet PathBuf := ∅
  touchedAt : Nat

def OwnerState.new (now : Nat) : OwnerState where
  touchedAt := now

structure UploadHandle where
  ownerId : Str
  size : Nat
  file : File
  touchedAt : Nat
  deriving DecidableEq

structure DownloadHandle where
  ownerId : Str
  rootPath : PathBuf
  finalPath : PathBuf
  tempPath : PathBuf
  overwrite : Bool
  file : File
  touchedAt : Nat
  deriving DecidableEq

structure TrzszUploadHandleDto where
  handleId : Str
  size : Nat
  deriving DecidableEq

structure TrzszDownloadOpenDto where
  writerId : Str
  localName : Str
  displayName : Str
  tempPath : Str
  finalPath : Str
  deriving DecidableEq

structure TrzszOwnerCleanupDto where
  ownerId : Str
  uploadHandles : Nat
  downloadHandles : Nat
  cleanupErrors : Nat
  deriving DecidableEq

structure CleanupPlan where
  tempPaths : List PathBuf := []
  directoryPaths : List PathBuf := []

/-- The paths that a call fails on are counted. -/
def countErrors (call : PathBuf → FileProc (Except IoError Unit)) :
    List PathBuf → Nat → FileProc Nat
  | [], errors => ret errors
  | path :: paths, errors => do
      match ← call path with
      | .ok _ => countErrors call paths errors
      | .error _ => countErrors call paths (errors + 1)

def CleanupPlan.execute (cleanup : CleanupPlan) : FileProc Nat := do
  let errors ← countErrors removeFile cleanup.tempPaths 0
  countErrors removeDir (cleanup.directoryPaths.mergeSort removedBefore) errors

/-- The times that are read in a purge: at its beginning, and when it releases a handle. -/
structure Instants where
  now : Nat
  released : Str → Nat

/-- `now.duration_since(touched_at) >= ttl`. -/
def isExpired (ttl now touchedAt : Nat) : Bool := ttl ≤ now - touchedAt

structure TrzszStateInner where
  owners : Map Str OwnerState := ∅
  uploadHandles : Map Str UploadHandle := ∅
  downloadHandles : Map Str DownloadHandle := ∅

namespace TrzszStateInner

variable (inner : TrzszStateInner)

/-! ## 2. Owners -/

variable (ownerId : Str)

/-- The owner that `owners.entry(..).or_insert_with(..)` finds or makes. -/
def ownerEntry (now : Nat) : OwnerState :=
  (inner.owners.lookup ownerId).getD (.new now)

/-- What is written to an owner. -/
def putOwner (owner : OwnerState) : TrzszStateInner :=
  { inner with owners := inner.owners.insert ownerId owner }

/-- `if let Some(owner) = inner.owners.get_mut(owner_id)`. -/
def modifyOwner (f : OwnerState → OwnerState) : TrzszStateInner :=
  { inner with owners := inner.owners.modify ownerId f }

/-- `owner.touched_at = now`, if there is the owner. -/
def touchOwner (now : Nat) : TrzszStateInner :=
  inner.modifyOwner ownerId fun owner => { owner with touchedAt := now }

def setAuthorizedUploadPaths (paths : HashSet PathBuf) (now : Nat) : TrzszStateInner :=
  inner.putOwner ownerId { inner.ownerEntry ownerId now with
    authorizedUploadPaths := paths
    touchedAt := now }

def isUploadPathAuthorized (path : PathBuf) (now : Nat) : TrzszStateInner × Bool :=
  match inner.owners.lookup ownerId with
  | none => (inner, false)
  | some owner => (inner.touchOwner ownerId now, path ∈ owner.authorizedUploadPaths.keys)

/-- `prepare_download_root`; the path that is returned is the one given. -/
def prepareDownloadRoot (rootPath : PathBuf) (now : Nat) : TrzszStateInner × Str :=
  (inner.putOwner ownerId { inner.ownerEntry ownerId now with
      preparedDownloadRoot := some rootPath
      touchedAt := now },
    display rootPath)

def preparedDownloadRoot (ownerId : Str) (now : Nat) : TrzszStateInner × Option PathBuf :=
  match inner.owners.lookup ownerId with
  | none => (inner, none)
  | some owner => (inner.touchOwner ownerId now, owner.preparedDownloadRoot)

def registerDownloadDirectory (directoryPath : PathBuf) (now : Nat) : TrzszStateInner :=
  let owner := inner.ownerEntry ownerId now
  inner.putOwner ownerId { owner with
    downloadDirectories := owner.downloadDirectories.insert directoryPath ()
    touchedAt := now }

def commitDownloadDirectory (directoryPath : PathBuf) (now : Nat) : TrzszStateInner :=
  inner.modifyOwner ownerId fun owner => { owner with
    downloadDirectories := owner.downloadDirectories.erase directoryPath
    touchedAt := now }

/-! ## 3. Uploads -/

variable (ownerId handleId : Str)

def releaseUploadHandle (now : Nat) : TrzszStateInner :=
  inner.modifyOwner ownerId fun owner => { owner with
    uploadHandles := owner.uploadHandles.erase handleId
    touchedAt := now }

def registerUploadHandle (file : File) (size now : Nat) :
    TrzszStateInner × FileProc TrzszUploadHandleDto :=
  let owner := inner.ownerEntry ownerId now
  if maxHandlesPerOwner ≤ owner.uploadHandles.keys.length then
    (inner.putOwner ownerId owner,
      fail (.invalidState ("Too many active upload handles for owner: ".toList ++ ownerId)))
  else
    ({ inner.putOwner ownerId { owner with
          uploadHandles := owner.uploadHandles.insert handleId ()
          touchedAt := now } with
        uploadHandles := inner.uploadHandles.insert handleId
          { ownerId, size, file, touchedAt := now } },
      ret { handleId, size })

def readUploadChunk (offset length now : Nat) : TrzszStateInner × FileProc (List UInt8) :=
  let touched := inner.touchOwner ownerId now
  match touched.uploadHandles.lookup handleId with
  | none => (touched, fail (.handleNotFound handleId))
  | some handle =>
    if handle.ownerId ≠ ownerId then (touched, fail .handleOwnerMismatch)
    else if handle.size < offset then (touched, fail (.invalidOffset offset handle.size))
    else
      ({ touched with
          uploadHandles := touched.uploadHandles.insert handleId
            { handle with touchedAt := now } },
        do
          seek handle.file offset
          let bytes ← readInto handle.file length
          ret (bytes.take length))

def closeUploadHandle (now : Nat) : TrzszStateInner × FileProc Unit :=
  match inner.uploadHandles.lookup handleId with
  | none => (inner, fail (.handleNotFound handleId))
  | some handle =>
    let removed := { inner with uploadHandles := inner.uploadHandles.erase handleId }
    if handle.ownerId ≠ ownerId then
      ({ removed with uploadHandles := removed.uploadHandles.insert handleId handle },
        fail .handleOwnerMismatch)
    else (removed.releaseUploadHandle ownerId handleId now, ret ())

/-! ## 4. Downloads -/

def releaseDownloadHandle (now : Nat) : TrzszStateInner :=
  inner.modifyOwner ownerId fun owner => { owner with
    downloadHandles := owner.downloadHandles.erase handleId
    touchedAt := now }

def registerDownloadHandle (ownerId writerId localName displayName : Str)
    (rootPath finalPath tempPath : PathBuf) (overwrite : Bool) (file : File) (now : Nat) :
    TrzszStateInner × FileProc TrzszDownloadOpenDto :=
  let owner := inner.ownerEntry ownerId now
  if maxHandlesPerOwner ≤ owner.downloadHandles.keys.length then
    (inner.putOwner ownerId owner,
      fail (.invalidState ("Too many active download handles for owner: ".toList ++ ownerId)))
  else
    ({ inner.putOwner ownerId { owner with
          downloadHandles := owner.downloadHandles.insert writerId ()
          touchedAt := now } with
        downloadHandles := inner.downloadHandles.insert writerId
          { ownerId, rootPath, finalPath, tempPath, overwrite, file, touchedAt := now } },
      ret {
        writerId, localName, displayName
        tempPath := display tempPath
        finalPath := display finalPath })

variable (ownerId writerId : Str)

def writeDownloadChunk (data : List UInt8) (now : Nat) : TrzszStateInner × FileProc Unit :=
  let touched := inner.touchOwner ownerId now
  match touched.downloadHandles.lookup writerId with
  | none => (touched, fail (.handleNotFound writerId))
  | some handle =>
    if handle.ownerId ≠ ownerId then (touched, fail .handleOwnerMismatch)
    else
      ({ touched with
          downloadHandles := touched.downloadHandles.insert writerId
            { handle with touchedAt := now } },
        writeAll handle.file data)

/-- A download is taken out of the table and from its owner (`finish_download_handle` and
    `abort_download_handle` alike); `settle` is what is done with its file. -/
def takeDownloadHandle (now : Nat)
    (settle : DownloadHandle → FileProc Unit) : TrzszStateInner × FileProc Unit :=
  match inner.downloadHandles.lookup writerId with
  | none => (inner, fail (.handleNotFound writerId))
  | some handle =>
    let removed := { inner with downloadHandles := inner.downloadHandles.erase writerId }
    if handle.ownerId ≠ ownerId then
      ({ removed with downloadHandles := removed.downloadHandles.insert writerId handle },
        fail .handleOwnerMismatch)
    else (removed.releaseDownloadHandle ownerId writerId now, settle handle)

/-- What is in the way of a finished download is removed, if it may be replaced. -/
def clearFinalPath (handle : DownloadHandle) : FileProc Unit := do
  match ← symlinkMetadata handle.finalPath with
  | .error _ => ret ()
  | .ok .symlink => fail (.symlinkNotAllowed (display handle.finalPath))
  | .ok .dir =>
    fail (.invalidPath ("Cannot replace existing directory: ".toList ++
      display handle.finalPath))
  | .ok .file =>
    if handle.overwrite = false then fail (.alreadyExists (display handle.finalPath))
    else do
      let removed ← removeFile handle.finalPath
      orFail removed

/-- The closure of `finish_download_handle`. -/
def moveIntoPlace (handle : DownloadHandle) : FileProc Unit := do
  flush handle.file
  syncAll handle.file
  validateDownloadTargetPath handle.rootPath handle.finalPath
  clearFinalPath handle
  rename handle.tempPath handle.finalPath

def finishDownloadHandle (now : Nat) : TrzszStateInner × FileProc Unit :=
  inner.takeDownloadHandle ownerId writerId now fun handle => do
    match ← (moveIntoPlace handle).attempt with
    | .ok _ => ret ()
    | .error error =>
      let _ ← removeFile handle.tempPath
      fail error

def abortDownloadHandle (now : Nat) : TrzszStateInner × FileProc Unit :=
  inner.takeDownloadHandle ownerId writerId now fun handle => do
    let _ ← removeFile handle.tempPath
    ret ()

/-! ## 5. What is taken away -/

/-- `if let Some(handle) = inner.download_handles.remove(..)`: the temporary file is remembered. -/
def takeTemp (state : Map Str DownloadHandle × List PathBuf) (handleId : Str) :
    Map Str DownloadHandle × List PathBuf :=
  (state.1.erase handleId,
    match state.1.lookup handleId with
    | none => state.2
    | some handle => state.2 ++ [handle.tempPath])

def cleanupOwner : TrzszStateInner × FileProc TrzszOwnerCleanupDto :=
  match inner.owners.lookup ownerId with
  | none => (inner, ret { ownerId, uploadHandles := 0, downloadHandles := 0, cleanupErrors := 0 })
  | some owner =>
    let downloads := owner.downloadHandles.keys.foldl takeTemp (inner.downloadHandles, [])
    let cleanup : CleanupPlan :=
      { tempPaths := downloads.2, directoryPaths := owner.downloadDirectories.keys }
    ({ owners := inner.owners.erase ownerId
       uploadHandles := inner.uploadHandles.eraseAll owner.uploadHandles.keys
       downloadHandles := downloads.1 },
      do
        let cleanupErrors ← cleanup.execute
        ret {
          ownerId
          uploadHandles := owner.uploadHandles.keys.length
          downloadHandles := owner.downloadHandles.keys.length
          cleanupErrors })

def expiredUploads (ttl now : Nat) : List (Str × Str) :=
  (inner.uploadHandles.entries.filter fun e => isExpired ttl now e.2.touchedAt).map
    fun e => (e.1, e.2.ownerId)

def expiredDownloads (ttl now : Nat) : List (Str × Str) :=
  (inner.downloadHandles.entries.filter fun e => isExpired ttl now e.2.touchedAt).map
    fun e => (e.1, e.2.ownerId)

def expiredOwners (ttl now : Nat) : List Str :=
  (inner.owners.entries.filter fun e => e.2.uploadHandles.keys.isEmpty &&
    e.2.downloadHandles.keys.isEmpty && isExpired ttl now e.2.touchedAt).map (·.1)

/-- The first loop of `collect_expired_cleanup`. -/
def expireUpload (released : Str → Nat) (inner : TrzszStateInner) (expired : Str × Str) :
    TrzszStateInner :=
  let removed := { inner with uploadHandles := inner.uploadHandles.erase expired.1 }
  removed.releaseUploadHandle expired.2 expired.1 (released expired.1)

/-- The second loop. -/
def expireDownload (released : Str → Nat) (state : TrzszStateInner × CleanupPlan)
    (expired : Str × Str) : TrzszStateInner × CleanupPlan :=
  let taken := takeTemp (state.1.downloadHandles, state.2.tempPaths) expired.1
  let removed := { state.1 with downloadHandles := taken.1 }
  (removed.releaseDownloadHandle expired.2 expired.1 (released expired.1),
    { state.2 with tempPaths := taken.2 })

/-- The third loop. -/
def expireOwner (state : TrzszStateInner × CleanupPlan) (ownerId : Str) :
    TrzszStateInner × CleanupPlan :=
  match state.1.owners.lookup ownerId with
  | none => state
  | some owner =>
    ({ state.1 with owners := state.1.owners.erase ownerId },
      { state.2 with
        directoryPaths := state.2.directoryPaths ++ owner.downloadDirectories.keys })

def collectExpiredCleanup (ttl : Nat) (instants : Instants) : TrzszStateInner × CleanupPlan :=
  let withoutUploads := (inner.expiredUploads ttl instants.now).foldl
    (expireUpload instants.released) inner
  let withoutDownloads := (withoutUploads.expiredDownloads ttl instants.now).foldl
    (expireDownload instants.released) (withoutUploads, {})
  (withoutDownloads.1.expiredOwners ttl instants.now).foldl expireOwner withoutDownloads

end TrzszStateInner

/-! ## 6. Methods -/

structure TrzszState where
  inner : TrzszStateInner := {}
  handleTtl : Nat

namespace TrzszState

def withTtl (handleTtl : Nat) : TrzszState := { handleTtl }

def new : TrzszState := withTtl defaultHandleTtl

variable (state : TrzszState)

def purgeExpired (instants : Instants) : TrzszState × FileProc Unit :=
  let (inner, cleanup) := state.inner.collectExpiredCleanup state.handleTtl instants
  ({ state with inner }, do
    let _ ← cleanup.execute
    ret ())

/-- A method that purges first and does its work under a second lock. -/
def afterPurge {α : Type} (instants : Instants)
    (work : TrzszStateInner → TrzszStateInner × FileProc α) : TrzszState × FileProc α :=
  let (purged, cleanup) := state.purgeExpired instants
  let (inner, program) := work purged.inner
  ({ purged with inner }, do
    cleanup
    program)

/-- A method that works on no file. -/
def answering {α : Type} (work : TrzszStateInner → TrzszStateInner × α) (inner : TrzszStateInner) :
    TrzszStateInner × FileProc α :=
  ((work inner).1, ret (work inner).2)

section Methods

variable (instants : Instants) (ownerId handleId : Str) (now : Nat)

def setAuthorizedUploadPaths (paths : HashSet PathBuf) : TrzszState × FileProc Unit :=
  state.afterPurge instants
    (answering fun inner => (inner.setAuthorizedUploadPaths ownerId paths now, ()))

def isUploadPathAuthorized (path : PathBuf) : TrzszState × FileProc Bool :=
  state.afterPurge instants (answering (·.isUploadPathAuthorized ownerId path now))

def registerUploadHandle (file : File) (size : Nat) : TrzszState × FileProc TrzszUploadHandleDto :=
  state.afterPurge instants (·.registerUploadHandle ownerId handleId file size now)

def readUploadChunk (offset length : Nat) : TrzszState × FileProc (List UInt8) :=
  state.afterPurge instants (·.readUploadChunk ownerId handleId offset length now)

def closeUploadHandle : TrzszState × FileProc Unit :=
  state.afterPurge instants (·.closeUploadHandle ownerId handleId now)

def prepareDownloadRoot (rootPath : PathBuf) : TrzszState × FileProc Str :=
  state.afterPurge instants (answering (·.prepareDownloadRoot ownerId rootPath now))

def preparedDownloadRoot : TrzszState × FileProc (Option PathBuf) :=
  state.afterPurge instants (answering (·.preparedDownloadRoot ownerId now))

def registerDownloadHandle (localName displayName : Str) (rootPath finalPath tempPath : PathBuf)
    (overwrite : Bool) (file : File) : TrzszState × FileProc TrzszDownloadOpenDto :=
  state.afterPurge instants (·.registerDownloadHandle ownerId handleId localName displayName
    rootPath finalPath tempPath overwrite file now)

def registerDownloadDirectory (directoryPath : PathBuf) : TrzszState × FileProc Unit :=
  state.afterPurge instants
    (answering fun inner => (inner.registerDownloadDirectory ownerId directoryPath now, ()))

def commitDownloadDirectory (directoryPath : PathBuf) : TrzszState × FileProc Unit :=
  state.afterPurge instants
    (answering fun inner => (inner.commitDownloadDirectory ownerId directoryPath now, ()))

def writeDownloadChunk (data : List UInt8) : TrzszState × FileProc Unit :=
  state.afterPurge instants (·.writeDownloadChunk ownerId handleId data now)

def finishDownloadHandle : TrzszState × FileProc Unit :=
  state.afterPurge instants (·.finishDownloadHandle ownerId handleId now)

def abortDownloadHandle : TrzszState × FileProc Unit :=
  let (inner, program) := state.inner.abortDownloadHandle ownerId handleId now
  ({ state with inner }, program)

def cleanupOwner : TrzszState × FileProc TrzszOwnerCleanupDto :=
  state.afterPurge instants (·.cleanupOwner ownerId)

end Methods

end TrzszState

/-! ## 7. Runs -/

/-- What is done under one lock. -/
inductive Access where
  | purgeExpired (instants : Instants)
  | setAuthorizedUploadPaths (ownerId : Str) (paths : HashSet PathBuf) (now : Nat)
  | isUploadPathAuthorized (ownerId : Str) (path : PathBuf) (now : Nat)
  | registerUploadHandle (ownerId handleId : Str) (file : File) (size now : Nat)
  | readUploadChunk (ownerId handleId : Str) (offset length now : Nat)
  | closeUploadHandle (ownerId handleId : Str) (now : Nat)
  | prepareDownloadRoot (ownerId : Str) (rootPath : PathBuf) (now : Nat)
  | preparedDownloadRoot (ownerId : Str) (now : Nat)
  | registerDownloadHandle (ownerId writerId localName displayName : Str)
      (rootPath finalPath tempPath : PathBuf) (overwrite : Bool) (file : File) (now : Nat)
  | registerDownloadDirectory (ownerId : Str) (directoryPath : PathBuf) (now : Nat)
  | commitDownloadDirectory (ownerId : Str) (directoryPath : PathBuf) (now : Nat)
  | writeDownloadChunk (ownerId writerId : Str) (data : List UInt8) (now : Nat)
  | finishDownloadHandle (ownerId writerId : Str) (now : Nat)
  | abortDownloadHandle (ownerId writerId : Str) (now : Nat)
  | cleanupOwner (ownerId : Str)

/-- The identifiers that are drawn for it. -/
def Access.uuids : Access → List Str
  | .registerUploadHandle _ handleId .. => [handleId]
  | .registerDownloadHandle _ writerId .. => [writerId]
  | _ => []

/-- An access. -/
def TrzszStateInner.access (inner : TrzszStateInner) (ttl : Nat) : Access → TrzszStateInner
  | .purgeExpired instants => (inner.collectExpiredCleanup ttl instants).1
  | .setAuthorizedUploadPaths ownerId paths now => inner.setAuthorizedUploadPaths ownerId paths now
  | .isUploadPathAuthorized ownerId path now => (inner.isUploadPathAuthorized ownerId path now).1
  | .registerUploadHandle ownerId handleId file size now =>
    (inner.registerUploadHandle ownerId handleId file size now).1
  | .readUploadChunk ownerId handleId offset length now =>
    (inner.readUploadChunk ownerId handleId offset length now).1
  | .closeUploadHandle ownerId handleId now => (inner.closeUploadHandle ownerId handleId now).1
  | .prepareDownloadRoot ownerId rootPath now => (inner.prepareDownloadRoot ownerId rootPath now).1
  | .preparedDownloadRoot ownerId now => (inner.preparedDownloadRoot ownerId now).1
  | .registerDownloadHandle ownerId writerId localName displayName rootPath finalPath tempPath
      overwrite file now =>
      (inner.registerDownloadHandle ownerId writerId localName displayName rootPath finalPath
        tempPath overwrite file now).1
  | .registerDownloadDirectory ownerId directoryPath now =>
    inner.registerDownloadDirectory ownerId directoryPath now
  | .commitDownloadDirectory ownerId directoryPath now =>
    inner.commitDownloadDirectory ownerId directoryPath now
  | .writeDownloadChunk ownerId writerId data now =>
    (inner.writeDownloadChunk ownerId writerId data now).1
  | .finishDownloadHandle ownerId writerId now =>
    (inner.finishDownloadHandle ownerId writerId now).1
  | .abortDownloadHandle ownerId writerId now => (inner.abortDownloadHandle ownerId writerId now).1
  | .cleanupOwner ownerId => (inner.cleanupOwner ownerId).1

namespace TrzszState

/-- A step of a run; which thread takes it does not matter. -/
def step (state : TrzszState) (access : Access) : TrzszState :=
  { state with inner := state.inner.access state.handleTtl access }

/-- A run. -/
def run (state : TrzszState) (accesses : List Access) : TrzszState := accesses.foldl step state

theorem afterPurge_eq {α : Type} (state : TrzszState) (instants : Instants)
    (work : TrzszStateInner → TrzszStateInner × FileProc α) :
    state.afterPurge instants work =
      ({ (state.purgeExpired instants).1 with
          inner := (work (state.purgeExpired instants).1.inner).1 },
        (state.purgeExpired instants).2.bind fun _ =>
          (work (state.purgeExpired instants).1.inner).2) := rfl

/-- **A method takes two steps of a run: the purge, and the access it is for.** -/
theorem afterPurge_run {α : Type} {state : TrzszState} {instants : Instants}
    {work : TrzszStateInner → TrzszStateInner × FileProc α} {access : Access}
    (hwork : ∀ inner, (work inner).1 = inner.access state.handleTtl access) :
    (state.afterPurge instants work).1 = state.run [.purgeExpired instants, access] := by
  rw [afterPurge_eq, hwork]
  rfl

end TrzszState

end Hapcli.Trzsz
