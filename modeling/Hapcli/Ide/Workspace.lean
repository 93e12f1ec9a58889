/-
  Subject:   The editor's workspace (`hapcli-ide-core`: `model.rs`, `workspace.rs`): tabs, buffers, the
             index of the open locations, and the operations on them.

  * `EditorBuffer`, `EditorTab`, `IdeWorkspace` -- the state; the file tree is left out, no operation
    here reads it;
  * `openFile`, `replaceBufferText`, `renameTabsUnder`, `closeCleanTabsUnder` -- files;
  * `markSaved`, `completeSaveAtRevision`, `saveTabWith`, `reloadCleanBuffer` -- saving and loading;
  * `requestCloseTab`, `resolveDirtyClose`, `completeDirtyCloseAfterSave`,
    `completeDirtyCloseAfterSaveAtRevision` -- closing;
  * `snapshot`, `restoreSnapshot` -- what is exported and brought back.

  An operation that returns an error leaves the workspace as it is.
-/
import Hapcli.Ide.Locations
import Hapcli.Rust.Maps

namespace Hapcli.Ide

open Hapcli.Rust IdeLocation

/-! ## 1. Tabs and buffers -/

/-- `EditorTabId`, a UUID: the number of the identifier among those that were generated. -/
abbrev EditorTabId := Nat

/-- `CloseRequestId`, likewise. -/
abbrev CloseRequestId := Nat

/-- `ProjectId`, likewise. -/
abbrev ProjectId := Nat

structure SavedFileVersion where
  sizeBytes : Option Nat := none
  modifiedMillis : Option Int := none
  etag : Option Str := none
  deriving DecidableEq

structure EditorBuffer where
  location : IdeLocation
  text : Str
  savedText : Str
  version : SavedFileVersion
  revision : Nat
  savedRevision : Nat
  deriving DecidableEq

def EditorBuffer.new (location : IdeLocation) (text : Str) (version : SavedFileVersion) :
    EditorBuffer :=
  { location, text, savedText := text, version, revision := 0, savedRevision := 0 }

def EditorBuffer.isDirty (buffer : EditorBuffer) : Bool :=
  buffer.revision ≠ buffer.savedRevision ∨ buffer.text ≠ buffer.savedText

structure EditorTab where
  id : EditorTabId
  location : IdeLocation
  title : Str
  isPinned : Bool
  deriving DecidableEq

/-- `ProjectState`, `ProjectSnapshot`. -/
structure ProjectState where
  id : ProjectId
  root : IdeLocation
  title : Str
  generation : Nat
  deriving DecidableEq

structure DirtyCloseRequest where
  id : CloseRequestId
  tabId : EditorTabId
  title : Str
  location : IdeLocation
  deriving DecidableEq

inductive DirtyCloseDecision where
  | save
  | discard
  | cancel
  deriving DecidableEq

structure BufferSnapshot extends EditorBuffer where
  tabId : EditorTabId
  deriving DecidableEq

structure WorkspaceSnapshot where
  project : ProjectState
  tabs : List EditorTab
  activeTab : Option EditorTabId
  buffers : List BufferSnapshot
  deriving DecidableEq

inductive OpenFileOutcome where
  | opened (id : EditorTabId)
  | reused (id : EditorTabId)
  deriving DecidableEq

inductive WorkspaceError where
  | noProject
  | unknownTab
  | unknownCloseRequest
  | dirtyTabs (titles : Str)
  | locationAlreadyOpen
  deriving DecidableEq

/-- `SaveError`, with the text of a file-system error. -/
inductive SaveError where
  | unknownTab
  | file (error : Str)
  deriving DecidableEq

/-- `ReloadError`, with the text of a file-system error. -/
inductive ReloadError where
  | dirtyBuffer
  | unknownTab
  | file (error : Str)
  deriving DecidableEq

inductive RestoreSkipReason where
  | projectWasClosedByUser
  | differentProjectOpen
  | existingDirtyBuffers
  deriving DecidableEq

inductive RestoreSnapshotResult where
  | restored (tabCount : Nat)
  | skipped (reason : RestoreSkipReason)
  deriving DecidableEq

structure IdeWorkspace where
  project : Option ProjectState := none
  tabs : List EditorTab := []
  buffers : Map EditorTabId EditorBuffer := ∅
  tabByLocation : Map Str EditorTabId := ∅
  activeTab : Option EditorTabId := none
  pendingClose : Option DirtyCloseRequest := none
  closedProjectKeys : HashSet Str := ∅
  generation : Nat := 0
  deriving DecidableEq

/-- What an operation returns: a value and the workspace after it, or an error. -/
abbrev Outcome (α : Type) := Except WorkspaceError (α × IdeWorkspace)

/-- `if let Some(item) = list.iter_mut().find(..)`: the first item there is is changed. -/
def modifyFirst {α : Type} (p : α → Bool) (f : α → α) : List α → List α
  | [] => []
  | a :: rest => if p a then f a :: rest else a :: modifyFirst p f rest

namespace IdeWorkspace

variable (w : IdeWorkspace)

/-- The ids of the open tabs. -/
def ids : List EditorTabId := w.tabs.map (·.id)

variable (id : EditorTabId)

/-- `tabs.iter().find(|tab| tab.id == tab_id)`. -/
def findTab : Option EditorTab := w.tabs.find? (·.id = id)

/-- `buffers.get(tab_id).is_some_and(EditorBuffer::is_dirty)`. -/
def isDirtyTab : Bool := (w.buffers.lookup id).any (·.isDirty)

def hasDirtyBuffers : Bool := w.buffers.entries.any (·.2.isDirty)

def ensureProject : Except WorkspaceError Unit :=
  if w.project.isSome then .ok () else .error .noProject

/-- Every tab, buffer and request gone. -/
def cleared : IdeWorkspace :=
  { w with
    tabs := []
    buffers := ∅
    tabByLocation := ∅
    activeTab := none
    pendingClose := none }

/-! ## 2. Projects and tabs -/

def openProject (newId : ProjectId) (root : IdeLocation) (title : Str) : IdeWorkspace :=
  { w.cleared with
    generation := w.generation + 1
    closedProjectKeys := w.closedProjectKeys.erase root.stableKey
    project := some ⟨newId, root, title, w.generation + 1⟩ }

def closeProject : IdeWorkspace :=
  { w.cleared with
    project := none
    closedProjectKeys :=
      match w.project with
      | some project => w.closedProjectKeys.insert project.root.stableKey ()
      | none => w.closedProjectKeys }

def setActiveTab : Outcome Unit :=
  if id ∈ w.ids then .ok ((), { w with activeTab := some id }) else .error .unknownTab

def toggleTabPin : Outcome Bool :=
  match w.findTab id with
  | none => .error .unknownTab
  | some tab =>
    .ok (!tab.isPinned, { w with
      tabs := modifyFirst (·.id = id) (fun tab => { tab with isPinned := !tab.isPinned }) w.tabs })

/-- A tab taken out and put back at another place. -/
def moveTab (tab : EditorTab) (origin target : Nat) : IdeWorkspace :=
  { w with tabs := (w.tabs.eraseIdx origin).insertIdx target tab }

def moveTabBefore (id beforeId : EditorTabId) : Outcome Unit :=
  match w.ensureProject with
  | .error error => .error error
  | .ok _ =>
    if id = beforeId then .ok ((), w)
    else
      match w.tabs.findIdx? (·.id = id), w.tabs.findIdx? (·.id = beforeId) with
      | some origin, some target =>
        match w.tabs[origin]? with
        | some tab =>
          .ok ((), w.moveTab tab origin (if origin < target then target - 1 else target))
        | none => .ok ((), w)
      | _, _ => .error .unknownTab

def moveTabToIndex (targetIndex : Nat) : Outcome Unit :=
  match w.ensureProject with
  | .error error => .error error
  | .ok _ =>
    match w.tabs.findIdx? (·.id = id) with
    | none => .error .unknownTab
    | some origin =>
      let targetIndex := min targetIndex (w.tabs.length - 1)
      if origin = targetIndex then .ok ((), w)
      else
        match w.tabs[origin]? with
        | some tab =>
          .ok ((), w.moveTab tab origin (min targetIndex (w.tabs.eraseIdx origin).length))
        | none => .ok ((), w)

def closeTabNow : IdeWorkspace :=
  let tabs := w.tabs.filter (·.id ≠ id)
  { w with
    buffers := w.buffers.erase id
    tabByLocation :=
      match w.buffers.lookup id with
      | some buffer => w.tabByLocation.erase buffer.location.stableKey
      | none => w.tabByLocation
    tabs
    activeTab := if w.activeTab = some id then tabs.getLast?.map (·.id) else w.activeTab }

/-! ## 3. Files -/

def openFile (newId : EditorTabId) (location : IdeLocation) (text : Str)
    (version : SavedFileVersion) : Outcome OpenFileOutcome :=
  match w.ensureProject with
  | .error error => .error error
  | .ok _ =>
    match w.tabByLocation.lookup location.stableKey with
    | some id => .ok (.reused id, { w with activeTab := some id })
    | none =>
      .ok (.opened newId, { w with
        tabs := w.tabs ++ [⟨newId, location, location.displayName, false⟩]
        buffers := w.buffers.insert newId (.new location text version)
        tabByLocation := w.tabByLocation.insert location.stableKey newId
        activeTab := some newId })

def replaceBufferText (text : Str) : Outcome Unit :=
  match w.buffers.lookup id with
  | none => .error .unknownTab
  | some buffer =>
    if buffer.text = text then .ok ((), w)
    else
      .ok ((), { w with
        buffers := w.buffers.insert id { buffer with text, revision := buffer.revision + 1 } })

def affectedTabsUnder (location : IdeLocation) : List EditorTabId :=
  (w.tabs.filter fun tab => locationIsUnder tab.location location).map (·.id)

def closeCleanTabsUnder (location : IdeLocation) : Outcome (List EditorTabId) :=
  let affected := w.affectedTabsUnder location
  let dirtyTitles := affected.filterMap fun id =>
    if w.isDirtyTab id then (w.findTab id).map (·.title) else none
  if dirtyTitles ≠ [] then .error (.dirtyTabs (List.intercalate [','] dirtyTitles))
  else .ok (affected, affected.reverse.foldl closeTabNow w)

/-- The tabs a rename moves, and where to. -/
def remappedTabs (old new : IdeLocation) : List (EditorTabId × IdeLocation) :=
  (w.affectedTabsUnder old).filterMap fun id =>
    (w.findTab id).bind fun tab =>
      (remapLocationUnder tab.location old new).map fun location => (id, location)

/-- Some other tab is open at the place a tab is to be moved to. -/
def renameBlocked (old new : IdeLocation) : Bool :=
  (w.remappedTabs old new).any fun (id, location) =>
    match w.tabByLocation.lookup location.stableKey with
    | some existing => existing ≠ id ∧ existing ∉ w.affectedTabsUnder old
    | none => false

/-- One tab is moved. -/
def retarget (moved : EditorTabId × IdeLocation) : IdeWorkspace :=
  let index :=
    match w.buffers.lookup moved.1 with
    | some buffer => w.tabByLocation.erase buffer.location.stableKey
    | none => w.tabByLocation
  { w with
    tabByLocation := index.insert moved.2.stableKey moved.1
    tabs := modifyFirst (·.id = moved.1)
      (fun tab => { tab with location := moved.2, title := moved.2.displayName }) w.tabs
    buffers := w.buffers.modify moved.1 fun buffer => { buffer with location := moved.2 } }

def renameTabsUnder (old new : IdeLocation) : Outcome (List EditorTabId) :=
  let affected := w.affectedTabsUnder old
  if affected = [] then .ok ([], w)
  else if w.renameBlocked old new then .error .locationAlreadyOpen
  else .ok (affected, (w.remappedTabs old new).foldl retarget w)

/-! ## 4. Saving and loading -/

def markSaved (version : SavedFileVersion) : Outcome Unit :=
  match w.buffers.lookup id with
  | none => .error .unknownTab
  | some buffer =>
    .ok ((), { w with
      buffers := w.buffers.insert id
        { buffer with savedText := buffer.text, version, savedRevision := buffer.revision } })

def completeSaveAtRevision (savedText : Str) (savedRevision : Nat)
    (version : SavedFileVersion) : Outcome Bool :=
  match w.buffers.lookup id with
  | none => .error .unknownTab
  | some buffer =>
    let saved := { buffer with savedText, savedRevision, version }
    .ok (!saved.isDirty, { w with buffers := w.buffers.insert id saved })

/-- `save_tab_with`, given what comes of the write. -/
def saveTabWith (written : Except Str SavedFileVersion) :
    Except SaveError (SavedFileVersion × IdeWorkspace) :=
  match w.buffers.lookup id with
  | none => .error .unknownTab
  | some buffer =>
    match written with
    | .error error => .error (.file error)
    | .ok version =>
      match w.completeSaveAtRevision id buffer.text buffer.revision version with
      | .error _ => .error .unknownTab
      | .ok (_, w') => .ok (version, w')

def reloadCleanBuffer (text : Str) (version : SavedFileVersion) : Except ReloadError IdeWorkspace :=
  match w.buffers.lookup id with
  | none => .ok w
  | some buffer =>
    if buffer.isDirty then .error .dirtyBuffer
    else
      .ok { w with
        buffers := w.buffers.insert id
          { buffer with
            text, savedText := text, version
            revision := buffer.revision + 1
            savedRevision := buffer.revision + 1 } }

/-- `reload_tab_with`, given what is read. -/
def reloadTabWith (data : Except Str (Str × SavedFileVersion)) : Except ReloadError IdeWorkspace :=
  match w.buffers.lookup id with
  | none => .error .unknownTab
  | some buffer =>
    if buffer.isDirty then .error .dirtyBuffer
    else
      match data with
      | .error error => .error (.file error)
      | .ok (text, version) => w.reloadCleanBuffer id text version

/-! ## 5. Closing -/

def requestCloseTab (newId : CloseRequestId) (id : EditorTabId) :
    Outcome (Option DirtyCloseRequest) :=
  match w.findTab id, w.buffers.lookup id with
  | some tab, some buffer =>
    if !buffer.isDirty then .ok (none, w.closeTabNow id)
    else
      let request := ⟨newId, id, tab.title, tab.location⟩
      .ok (some request, { w with pendingClose := some request })
  | _, _ => .error .unknownTab

def requestCloseAllTabs (newId : CloseRequestId) : Outcome (Option DirtyCloseRequest) :=
  match w.tabs.find? fun tab => w.isDirtyTab tab.id with
  | some tab => w.requestCloseTab newId tab.id
  | none => .ok (none, w.cleared)

variable (requestId : CloseRequestId)

/-- The pending request, if it is this one. -/
def pendingRequest : Option DirtyCloseRequest :=
  w.pendingClose.filter (·.id = requestId)

def resolveDirtyClose (decision : DirtyCloseDecision) : Outcome (Option DirtyCloseRequest) :=
  match w.pendingRequest requestId with
  | none => .error .unknownCloseRequest
  | some request =>
    match decision with
    | .save => .ok (some request, w)
    | .discard => .ok (none, { w with pendingClose := none }.closeTabNow request.tabId)
    | .cancel => .ok (none, { w with pendingClose := none })

def completeDirtyCloseAfterSave (version : SavedFileVersion) : Outcome Unit :=
  match w.pendingRequest requestId with
  | none => .error .unknownCloseRequest
  | some request =>
    match w.markSaved request.tabId version with
    | .error error => .error error
    | .ok (_, w') => .ok ((), { w' with pendingClose := none }.closeTabNow request.tabId)

def completeDirtyCloseAfterSaveAtRevision (savedText : Str)
    (savedRevision : Nat) (version : SavedFileVersion) : Outcome Bool :=
  match w.pendingRequest requestId with
  | none => .error .unknownCloseRequest
  | some request =>
    match w.completeSaveAtRevision request.tabId savedText savedRevision version with
    | .error error => .error error
    | .ok (isClean, w') =>
      let w' := { w' with pendingClose := none }
      .ok (isClean, if isClean then w'.closeTabNow request.tabId else w')

/-! ## 6. Snapshots -/

/-- The buffer of a tab, as it is exported. -/
def exportBuffer (tab : EditorTab) : Option BufferSnapshot :=
  (w.buffers.lookup tab.id).map fun buffer => { buffer with tabId := tab.id }

def snapshot : Except WorkspaceError WorkspaceSnapshot :=
  match w.project with
  | none => .error .noProject
  | some project => .ok ⟨project, w.tabs, w.activeTab, w.tabs.filterMap w.exportBuffer⟩

/-- Why a snapshot is not restored. -/
def restoreSkip (snapshot : WorkspaceSnapshot) : Option RestoreSkipReason :=
  let projectKey := snapshot.project.root.stableKey
  if projectKey ∈ w.closedProjectKeys then some .projectWasClosedByUser
  else
    match w.project with
    | none => none
    | some project =>
      if project.root.stableKey ≠ projectKey then some .differentProjectOpen
      else if w.hasDirtyBuffers then some .existingDirtyBuffers
      else none

def restoreSnapshot (snapshot : WorkspaceSnapshot) : RestoreSnapshotResult × IdeWorkspace :=
  match w.restoreSkip snapshot with
  | some reason => (.skipped reason, w)
  | none =>
    (.restored snapshot.tabs.length, { w with
      project := some snapshot.project
      tabs := snapshot.tabs
      buffers := Map.insertAll ∅
        (snapshot.buffers.map fun buffer => (buffer.tabId, buffer.toEditorBuffer))
      tabByLocation := Map.insertAll ∅
        (snapshot.buffers.map fun buffer => (buffer.location.stableKey, buffer.tabId))
      activeTab := snapshot.activeTab
      pendingClose := none })

end IdeWorkspace

end Hapcli.Ide
