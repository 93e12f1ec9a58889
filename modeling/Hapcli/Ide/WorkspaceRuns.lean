/-
  Subject:   Workspaces over whole runs: edits, saves in flight, closes that wait for a save, renames,
             snapshots that are exported and restored.

  * **`sound_iff_fits`** -- every run: it is sound throughout exactly when each step fits.
-/
import Hapcli.Ide.WorkspaceSteps
import Hapcli.Lib.Runs

namespace Hapcli.Ide

open Hapcli.Rust Hapcli.Lib Hapcli.Lib.InverseIndex Function IdeWorkspace

/-! ## 1. Sessions -/

/-- A save in flight: the text and the revision of the tab when it was started, and the close request
    that waits for it. -/
structure PendingSave where
  tabId : EditorTabId
  text : Str
  revision : Nat
  request : Option CloseRequestId
  deriving DecidableEq

/-- A workspace with its saves in flight. `disk` is the text of each tab last loaded or written,
    `lost` whether a buffer with another text was closed without the user's asking. -/
structure Session where
  workspace : IdeWorkspace := {}
  disk : EditorTabId → Str := fun _ => []
  saves : List PendingSave := []
  lost : Bool := false

/-- An exported snapshot, and the texts last loaded or written when it was. -/
structure Export where
  snapshot : WorkspaceSnapshot
  disk : EditorTabId → Str

/-- What can happen to a workspace. A save is named by its place among those in flight, a snapshot by
    its place among those exported. -/
inductive WorkspaceAction where
  | openProject (root : IdeLocation) (title : Str)
  | closeProject
  | setActiveTab (id : EditorTabId)
  | toggleTabPin (id : EditorTabId)
  | moveTabBefore (id before : EditorTabId)
  | moveTabToIndex (id : EditorTabId) (target : Nat)
  | openFile (location : IdeLocation) (text : Str) (version : SavedFileVersion)
  | replaceBufferText (id : EditorTabId) (text : Str)
  | closeCleanTabsUnder (location : IdeLocation)
  | renameTabsUnder (old new : IdeLocation)
  | startSave (id : EditorTabId)
  | startCloseSave (requestId : CloseRequestId)
  | failSave (save : Nat)
  /-- `complete_save_at_revision`. -/
  | completeSave (save : Nat) (version : SavedFileVersion)
  /-- `mark_saved`. -/
  | completeMarked (save : Nat) (version : SavedFileVersion)
  /-- `complete_dirty_close_after_save_at_revision`. -/
  | completeClose (save : Nat) (version : SavedFileVersion)
  /-- `complete_dirty_close_after_save`. -/
  | completeCloseMarked (save : Nat) (version : SavedFileVersion)
  | saveTabWith (id : EditorTabId) (written : Except Str SavedFileVersion)
  | reloadCleanBuffer (id : EditorTabId) (text : Str) (version : SavedFileVersion)
  | reloadTabWith (id : EditorTabId) (data : Except Str (Str × SavedFileVersion))
  | requestCloseTab (id : EditorTabId)
  | requestCloseAllTabs
  | resolveDirtyClose (requestId : CloseRequestId) (decision : DirtyCloseDecision)
  | exportSnapshot
  | restoreSnapshot (snapshot : Nat)

/-- The workspace after an operation, the same one after an error. -/
def resultOr {ε α : Type} (w : IdeWorkspace) : Except ε (α × IdeWorkspace) → IdeWorkspace
  | .ok (_, w') => w'
  | .error _ => w

/-- A buffer is closed that has another text than the one last loaded or written. -/
def loses (w w' : IdeWorkspace) (disk : EditorTabId → Str) : Bool :=
  w.buffers.entries.any fun entry =>
    entry.2.text ≠ disk entry.1 ∧ w'.buffers.lookup entry.1 = none

namespace Session

variable (s : Session)

/-- The session with another workspace and other texts last loaded or written. -/
def goTo (w : IdeWorkspace) (disk : EditorTabId → Str) : Session :=
  { s with workspace := w, disk, lost := s.lost || loses s.workspace w disk }

/-- The same, where the user asked for it. -/
def goOnRequest (w : IdeWorkspace) : Session := { s with workspace := w }

/-- The session without one of the saves in flight. -/
def drop (save : Nat) : Session := { s with saves := s.saves.eraseIdx save }

/-- A save that has been written completes: the operation is told of it. -/
def complete {α : Type} (s : Session) (save : Nat) (written : PendingSave) (result : Outcome α) :
    Session :=
  (s.drop save).goTo (resultOr s.workspace result) (update s.disk written.tabId written.text)

/-- A save is started. -/
def start (id : EditorTabId) (request : Option CloseRequestId) : Option Session :=
  (s.workspace.buffers.lookup id).map fun buffer =>
    { s with saves := s.saves ++ [⟨id, buffer.text, buffer.revision, request⟩] }

/-- What is last loaded after `open_file`. -/
def diskOpened (text : Str) : Outcome OpenFileOutcome → EditorTabId → Str
  | .ok (.opened id, _) => update s.disk id text
  | _ => s.disk

/-- One action, with a new identifier and the snapshots exported so far. -/
def step (newId : Nat) (exported : List Export) (action : WorkspaceAction) : Option Session :=
  let w := s.workspace
  match action with
  | .openProject root title => some (s.goOnRequest (w.openProject newId root title))
  | .closeProject => some (s.goOnRequest w.closeProject)
  | .setActiveTab id => some (s.goTo (resultOr w (w.setActiveTab id)) s.disk)
  | .toggleTabPin id => some (s.goTo (resultOr w (w.toggleTabPin id)) s.disk)
  | .moveTabBefore id before => some (s.goTo (resultOr w (w.moveTabBefore id before)) s.disk)
  | .moveTabToIndex id target => some (s.goTo (resultOr w (w.moveTabToIndex id target)) s.disk)
  | .openFile location text version =>
    let result := w.openFile newId location text version
    some (s.goTo (resultOr w result) (s.diskOpened text result))
  | .replaceBufferText id text => some (s.goTo (resultOr w (w.replaceBufferText id text)) s.disk)
  | .closeCleanTabsUnder location =>
    some (s.goTo (resultOr w (w.closeCleanTabsUnder location)) s.disk)
  | .renameTabsUnder old new => some (s.goTo (resultOr w (w.renameTabsUnder old new)) s.disk)
  | .startSave id => s.start id none
  | .startCloseSave requestId =>
    (w.pendingRequest requestId).bind fun request => s.start request.tabId (some requestId)
  | .failSave save => some (s.drop save)
  | .completeSave save version =>
    s.saves[save]?.map fun written =>
      s.complete save written
        (w.completeSaveAtRevision written.tabId written.text written.revision version)
  | .completeMarked save version =>
    s.saves[save]?.map fun written =>
      s.complete save written (w.markSaved written.tabId version)
  | .completeClose save version =>
    s.saves[save]?.bind fun written =>
      written.request.map fun requestId =>
        s.complete save written (w.completeDirtyCloseAfterSaveAtRevision requestId written.text
          written.revision version)
  | .completeCloseMarked save version =>
    s.saves[save]?.bind fun written =>
      written.request.map fun requestId =>
        s.complete save written (w.completeDirtyCloseAfterSave requestId version)
  | .saveTabWith id written =>
    match w.buffers.lookup id, w.saveTabWith id written with
    | some buffer, .ok (_, w') => some (s.goTo w' (update s.disk id buffer.text))
    | _, _ => some s
  | .reloadCleanBuffer id text version =>
    match w.reloadCleanBuffer id text version with
    | .ok w' => some (s.goTo w' (update s.disk id text))
    | .error _ => some s
  | .reloadTabWith id data =>
    match data, w.reloadTabWith id data with
    | .ok (text, _), .ok w' => some (s.goTo w' (update s.disk id text))
    | _, _ => some s
  | .requestCloseTab id => some (s.goTo (resultOr w (w.requestCloseTab newId id)) s.disk)
  | .requestCloseAllTabs => some (s.goTo (resultOr w (w.requestCloseAllTabs newId)) s.disk)
  | .resolveDirtyClose requestId .discard =>
    some (s.goOnRequest (resultOr w (w.resolveDirtyClose requestId .discard)))
  | .resolveDirtyClose requestId decision =>
    some (s.goTo (resultOr w (w.resolveDirtyClose requestId decision)) s.disk)
  | .exportSnapshot => some s
  | .restoreSnapshot snapshot =>
    exported[snapshot]?.map fun saved =>
      let w' := (w.restoreSnapshot saved.snapshot).2
      if (w.restoreSkip saved.snapshot).isSome then s
      else s.goTo w' fun id => if id ∈ w'.ids then saved.disk id else s.disk id

/-- What an action exports. -/
def exports : WorkspaceAction → Option Export
  | .exportSnapshot =>
    match s.workspace.snapshot with
    | .ok snapshot => some ⟨snapshot, s.disk⟩
    | .error _ => none
  | _ => none

/-- **The session is sound**: a consistent workspace, clean buffers with the text last loaded or
    written, and none with another text closed but by a discard or by opening or closing the
    project. -/
structure Sound : Prop where
  consistent : s.workspace.Consistent
  clean : s.workspace.CleanIn s.disk
  kept : s.lost = false

/-- **What is asked of a step.** -/
def Fits : WorkspaceAction → Prop
  -- no tab is moved to the key that a later one has or is moved to
  | .renameTabsUnder old new =>
    s.workspace.renameBlocked old new = false → (s.workspace.renameMoves old new).Pairwise Clear
  -- the buffer still holds what was written
  | .completeMarked save _ => ∀ written ∈ s.saves[save]?,
      ∀ buffer ∈ s.workspace.buffers.lookup written.tabId, buffer.text = written.text
  | .completeCloseMarked save _ => ∀ written ∈ s.saves[save]?, ∀ requestId ∈ written.request,
      ∀ buffer ∈ s.workspace.buffers.lookup written.tabId,
        (s.workspace.pendingRequest requestId).isSome ∨ buffer.isDirty = false →
          buffer.text = written.text
  -- where the close is no longer asked for, it does if it is clean
  | .completeClose save _ => ∀ written ∈ s.saves[save]?, ∀ requestId ∈ written.request,
      ∀ buffer ∈ s.workspace.buffers.lookup written.tabId,
        s.workspace.pendingRequest requestId = none → buffer.isDirty = false →
          buffer.text = written.text
  -- an edit that leads back to the saved revision and text leads back to what was written
  | .replaceBufferText id text => ∀ buffer ∈ s.workspace.buffers.lookup id,
      buffer.text ≠ text → buffer.revision + 1 = buffer.savedRevision → text = buffer.savedText →
        text = s.disk id
  | _ => True

end Session

/-! ## 2. Several workspaces -/

/-- Workspaces, the snapshots exported from them, and the number of identifiers generated. -/
structure System where
  sessions : Nat → Session := fun _ => {}
  exported : List Export := []
  drawn : Nat := 0

/-- One action in one of the workspaces. -/
def System.next (sys : System) (action : Nat × WorkspaceAction) : Option System :=
  ((sys.sessions action.1).step sys.drawn sys.exported action.2).map fun s' =>
    { sessions := update sys.sessions action.1 s'
      exported := sys.exported ++ ((sys.sessions action.1).exports action.2).toList
      drawn := sys.drawn + 1 }

/-- All workspaces are sound. -/
def System.Sound (sys : System) : Prop := ∀ n, (sys.sessions n).Sound

/-- The step fits in its workspace. -/
def System.Fits (sys : System) (action : Nat × WorkspaceAction) : Prop :=
  (sys.sessions action.1).Fits action.2

/-! ## 3. One step -/

/-- What is known of the identifiers, the requests and the saves of a sound session. -/
structure Session.Tidy (drawn : Nat) (s : Session) : Prop where
  noProject : s.workspace.project = none → s.workspace.tabs = []
  tabs : ∀ id ∈ s.workspace.ids, id < drawn
  pending : ∀ request, s.workspace.pendingClose = some request → request.id < drawn
  saves : ∀ save ∈ s.saves, ∀ requestId, save.request = some requestId → requestId < drawn
  /-- A close that waits for a save is that of the saved tab. -/
  asked : ∀ save ∈ s.saves, ∀ requestId, save.request = some requestId →
    ∀ request, s.workspace.pendingClose = some request → request.id = requestId →
      request.tabId = save.tabId

/-- A snapshot that a sound workspace exported. -/
def Export.Good (drawn : Nat) (e : Export) : Prop :=
  ∃ source : IdeWorkspace, source.Consistent ∧ source.CleanIn e.disk ∧
    source.snapshot = .ok e.snapshot ∧ ∀ id ∈ source.ids, id < drawn

variable {α : Type} {result : Outcome α}

variable {s' : Session} {w : IdeWorkspace} {disk : EditorTabId → Str} {drawn : Nat}

section Steps

variable {s : Session} {w' : IdeWorkspace} {newId : Nat}

theorem loses_eq_false_iff : loses w w' disk = false ↔
    ∀ id buffer, w.buffers.lookup id = some buffer → w'.buffers.lookup id = none →
      buffer.text = disk id := by
  unfold loses
  rw [List.any_eq_false]
  constructor
  · intro h id buffer hlookup hnone
    have := h ⟨id, buffer⟩ (AList.mem_lookup_iff.mp hlookup)
    simpa [hnone] using this
  · rintro h ⟨id, buffer⟩ hmem
    have := h id buffer (AList.mem_lookup_iff.mpr hmem)
    simp only [decide_eq_true_eq, not_and]
    exact fun hne hnone => hne (this hnone)

theorem gentle_resultOr {ε : Type} {result : Except ε (α × IdeWorkspace)} (h : w.Consistent)
    (hclean : (∃ error, result = .error error) → w.CleanIn disk)
    (hok : ∀ r, result = .ok r → Gentle newId w r.2 disk) :
    Gentle newId w (resultOr w result) disk := by
  cases result with
  | error error => exact h.refl (hclean ⟨error, rfl⟩)
  | ok r => exact hok r rfl

/-- A step of the session in which the workspace takes a gentle one. -/
structure Session.Quiet (newId : Nat) (s s' : Session) : Prop where
  gentle : Gentle newId s.workspace s'.workspace s'.disk
  saves : s'.saves ⊆ s.saves
  lost : s'.lost = (s.lost || loses s.workspace s'.workspace s'.disk)

theorem quiet_goTo (h : Gentle newId s.workspace w disk) : s.Quiet newId (s.goTo w disk) :=
  ⟨h, fun _ hsave => hsave, rfl⟩

theorem quiet_complete {save : Nat} {written : PendingSave}
    (h : Gentle newId s.workspace (resultOr s.workspace result)
      (update s.disk written.tabId written.text)) :
    s.Quiet newId (s.complete save written result) :=
  ⟨h, List.eraseIdx_subset, rfl⟩

theorem Session.Quiet.keeps (h : s.Quiet drawn s') (hs : s.Sound) (ht : s.Tidy drawn) :
    s'.Sound ∧ s'.Tidy (drawn + 1) := by
  obtain ⟨hgentle, hsaves, hlost⟩ := h
  refine ⟨⟨hgentle.consistent, hgentle.clean, ?_⟩, fun hnone => ?_, fun id hid => ?_,
    fun request hrequest => ?_, fun save hsave requestId hid => ?_,
    fun save hsave requestId hid request hrequest heq => ?_⟩
  · rw [hlost, hs.kept, Bool.false_or]
    exact loses_eq_false_iff.mpr hgentle.kept
  · have hids : s.workspace.ids = [] := by
      rw [ids, ht.noProject (hgentle.project.symm.trans hnone)]
      rfl
    have hempty := hids ▸ hgentle.ids
    exact List.map_eq_nil_iff.mp (List.subset_nil.mp hempty)
  · exact Nat.lt_succ_of_lt (ht.tabs id (hgentle.ids hid))
  · rcases hgentle.pending request hrequest with hold | hnew
    · exact Nat.lt_succ_of_lt (ht.pending request hold)
    · exact hnew ▸ Nat.lt_succ_self drawn
  · exact Nat.lt_succ_of_lt (ht.saves save (hsaves hsave) requestId hid)
  · rcases hgentle.pending request hrequest with hold | hnew
    · exact ht.asked save (hsaves hsave) requestId hid request hold heq
    · -- a new request has no save yet
      have hlt := ht.saves save (hsaves hsave) requestId hid
      rw [← heq, hnew] at hlt
      exact absurd hlt (Nat.lt_irrefl drawn)

theorem keeps_self (hs : s.Sound) (ht : s.Tidy drawn) : s.Sound ∧ s.Tidy (drawn + 1) :=
  ⟨hs, ht.noProject, fun id hid => Nat.lt_succ_of_lt (ht.tabs id hid),
    fun request hrequest => Nat.lt_succ_of_lt (ht.pending request hrequest),
    fun save hsave requestId hid => Nat.lt_succ_of_lt (ht.saves save hsave requestId hid), ht.asked⟩

theorem keeps_of_resolved (hs : s.Sound) (ht : s.Tidy drawn) (hconsistent : w.Consistent)
    (hclean : w.CleanIn s.disk) (hids : w.ids ⊆ s.workspace.ids)
    (hproject : w.project = none → w.tabs = []) (hpending : w.pendingClose = none) :
    (s.goOnRequest w).Sound ∧ (s.goOnRequest w).Tidy (drawn + 1) := by
  refine ⟨⟨hconsistent, hclean, hs.kept⟩, hproject, fun id hid => ?_, fun request hrequest => ?_,
    fun save hsave requestId hid => ?_, fun save _ requestId _ request hrequest _ => ?_⟩
  · exact Nat.lt_succ_of_lt (ht.tabs id (hids hid))
  · cases hpending.symm.trans hrequest
  · exact Nat.lt_succ_of_lt (ht.saves save hsave requestId hid)
  · cases hpending.symm.trans hrequest

end Steps

/-! ## 4. Steps that fit -/

variable {saved : Export}

section Fitting

variable {s : Session} {exported : List Export}

variable {id : EditorTabId} {requestId : CloseRequestId} {text : Str}

theorem clean_update_of_none (hclean : w.CleanIn disk) (hnone : w.buffers.lookup id = none) :
    w.CleanIn (update disk id text) := by
  intro id' buffer hlookup hdirty
  have hne : id' ≠ id := fun heq => by rw [heq, hnone] at hlookup; cases hlookup
  rw [update_of_ne hne]
  exact hclean id' buffer hlookup hdirty

theorem clean_update_of_fits (hclean : w.CleanIn disk)
    (hfits : ∀ buffer ∈ w.buffers.lookup id, buffer.isDirty = false → buffer.text = text) :
    w.CleanIn (update disk id text) := by
  intro id' buffer hlookup hdirty
  by_cases heq : id' = id
  · rw [heq, update_self]
    exact hfits buffer (heq ▸ hlookup) hdirty
  · rw [update_of_ne heq]
    exact hclean id' buffer hlookup hdirty

theorem Session.Tidy.tab_of_request (ht : s.Tidy drawn) {save : PendingSave}
    (hsave : save ∈ s.saves) (hid : save.request = some requestId) {request : DirtyCloseRequest}
    (hrequest : s.workspace.pendingRequest requestId = some request) :
    request.tabId = save.tabId := by
  obtain ⟨hpending, heq⟩ := Option.filter_eq_some_iff.mp hrequest
  exact ht.asked save hsave requestId hid request hpending (of_decide_eq_true heq)

section

variable (hs : s.Sound) (ht : s.Tidy drawn)

include hs ht

theorem completeClose_gentle {written : PendingSave} (hsave : written ∈ s.saves)
    (hid : written.request = some requestId) {version : SavedFileVersion}
    (hfits : ∀ buffer ∈ s.workspace.buffers.lookup written.tabId,
      s.workspace.pendingRequest requestId = none → buffer.isDirty = false →
        buffer.text = written.text) :
    Gentle drawn s.workspace
      (resultOr s.workspace (s.workspace.completeDirtyCloseAfterSaveAtRevision requestId written.text
        written.revision version)) (update s.disk written.tabId written.text) := by
  cases hrequest : s.workspace.pendingRequest requestId with
  | none =>
    have herror : s.workspace.completeDirtyCloseAfterSaveAtRevision requestId written.text
        written.revision version = .error .unknownCloseRequest := by
      rw [completeDirtyCloseAfterSaveAtRevision, hrequest]
    rw [herror]
    exact hs.consistent.refl (clean_update_of_fits hs.clean fun buffer hlookup =>
      hfits buffer hlookup hrequest)
  | some request =>
    have htab := ht.tab_of_request hsave hid hrequest
    refine gentle_resultOr hs.consistent (fun ⟨error, herror⟩ => ?_) fun r hr => ?_
    · refine clean_update_of_none hs.clean ?_
      rw [completeDirtyCloseAfterSaveAtRevision, hrequest] at herror
      cases hsaved : s.workspace.completeSaveAtRevision request.tabId written.text
          written.revision version with
      | error error' => exact htab ▸ completeSaveAtRevision_error hsaved
      | ok saved => simp only [hsaved] at herror; cases herror
    · rw [← htab]
      exact completeDirtyCloseAtRevision_gentle hs.consistent hs.clean hrequest hr

theorem completeCloseMarked_gentle {written : PendingSave} (hsave : written ∈ s.saves)
    (hid : written.request = some requestId) {version : SavedFileVersion}
    (hfits : ∀ buffer ∈ s.workspace.buffers.lookup written.tabId,
      (s.workspace.pendingRequest requestId).isSome ∨ buffer.isDirty = false →
        buffer.text = written.text) :
    Gentle drawn s.workspace
      (resultOr s.workspace (s.workspace.completeDirtyCloseAfterSave requestId version))
      (update s.disk written.tabId written.text) := by
  cases hrequest : s.workspace.pendingRequest requestId with
  | none =>
    have herror : s.workspace.completeDirtyCloseAfterSave requestId version =
        .error .unknownCloseRequest := by
      rw [completeDirtyCloseAfterSave, hrequest]
    rw [herror]
    exact hs.consistent.refl (clean_update_of_fits hs.clean fun buffer hlookup hdirty =>
      hfits buffer hlookup (.inr hdirty))
  | some request =>
    have htab := ht.tab_of_request hsave hid hrequest
    rw [hrequest] at hfits
    cases hlookup : s.workspace.buffers.lookup request.tabId with
    | none =>
      have herror : s.workspace.completeDirtyCloseAfterSave requestId version =
          .error .unknownTab := by
        rw [completeDirtyCloseAfterSave, hrequest]
        simp only [markSaved, hlookup]
      rw [herror]
      exact hs.consistent.refl (clean_update_of_none hs.clean (htab ▸ hlookup))
    | some buffer =>
      have htext := hfits buffer (htab ▸ hlookup) (.inl rfl)
      rw [← htab, ← htext]
      refine gentle_resultOr hs.consistent (fun ⟨error, herror⟩ => ?_) fun r hr =>
        completeDirtyClose_gentle hs.consistent hs.clean hrequest hlookup hr
      rw [completeDirtyCloseAfterSave, hrequest] at herror
      simp only [markSaved_ok version hlookup] at herror
      cases herror

theorem restore_keeps (hgood : saved.Good drawn)
    (hskip : (s.workspace.restoreSkip saved.snapshot).isSome = false) :
    let w' := (s.workspace.restoreSnapshot saved.snapshot).2
    let s' := s.goTo w' fun id => if id ∈ w'.ids then saved.disk id else s.disk id
    s'.Sound ∧ s'.Tidy (drawn + 1) := by
  intro w' s'
  obtain ⟨source, hsource, hclean, hsnapshot, hdrawn⟩ := hgood
  rcases restoreSnapshot_cases (w := s.workspace) hsource hsnapshot with
    hskipped | ⟨hnone, hconsistent, hids, hlookup, hproject, hpending⟩
  · cases hskip.symm.trans hskipped
  · refine ⟨⟨hconsistent, fun id buffer hfound hdirty => ?_, ?_⟩, fun hno => ?_, fun id hid => ?_,
      fun request hrequest => ?_, fun save hsave requestId hid => ?_,
      fun save _ requestId _ request hrequest _ => ?_⟩
    · show buffer.text = if id ∈ w'.ids then saved.disk id else s.disk id
      rw [if_pos (hconsistent.open_of_lookup hfound)]
      exact hclean id buffer (hlookup id ▸ hfound) hdirty
    · show (s.lost || loses s.workspace w' _) = false
      rw [hs.kept, Bool.false_or, loses_eq_false_iff]
      intro id buffer hold hgone
      have hnot : id ∉ w'.ids := fun hid => by
        obtain ⟨found, hfound⟩ := (hconsistent.buffers id).mp hid
        rw [hgone] at hfound
        cases hfound
      rw [if_neg hnot]
      cases hopen : s.workspace.project with
      | none =>
        have hmem := hs.consistent.open_of_lookup hold
        rw [ids, ht.noProject hopen] at hmem
        cases hmem
      | some project =>
        exact hs.clean id buffer hold
          (clean_of_restored hnone (Option.isSome_iff_exists.mpr ⟨project, hopen⟩) hold)
    · have hsome := (snapshot_ok hsnapshot).1
      cases hsome.symm.trans (hproject.symm.trans hno)
    · exact Nat.lt_succ_of_lt (hdrawn id (hids ▸ hid))
    · cases hpending.symm.trans hrequest
    · exact Nat.lt_succ_of_lt (ht.saves save hsave requestId hid)
    · cases hpending.symm.trans hrequest

theorem operation_keeps (hok : ∀ r, result = .ok r → Gentle drawn s.workspace r.2 s.disk) :
    (s.goTo (resultOr s.workspace result) s.disk).Sound ∧
      (s.goTo (resultOr s.workspace result) s.disk).Tidy (drawn + 1) :=
  (quiet_goTo (gentle_resultOr hs.consistent (fun _ => hs.clean) hok)).keeps hs ht

end

variable {version : SavedFileVersion} {written : PendingSave}

section

variable (hs : s.Sound)

include hs

theorem opened_keeps (ht : s.Tidy drawn) {location : IdeLocation}
    (hproject : s.workspace.project.isSome = true)
    (hfree : s.workspace.tabByLocation.lookup location.stableKey = none) :
    let s' := s.goTo (s.workspace.opened drawn location text version) (update s.disk drawn text)
    s'.Sound ∧ s'.Tidy (drawn + 1) := by
  have hnew : drawn ∉ s.workspace.ids := fun hid => Nat.lt_irrefl drawn (ht.tabs drawn hid)
  refine ⟨⟨hs.consistent.opened hnew hfree, hs.clean.opened, ?_⟩, fun hno => ?_, fun id hid => ?_,
    fun request hrequest => Nat.lt_succ_of_lt (ht.pending request hrequest),
    fun save hsave requestId hid => Nat.lt_succ_of_lt (ht.saves save hsave requestId hid), ht.asked⟩
  · show (s.lost || loses s.workspace (s.workspace.opened drawn location text version) _) = false
    rw [hs.kept, Bool.false_or, loses_eq_false_iff]
    intro id buffer hold hgone
    rw [lookup_opened] at hgone
    split_ifs at hgone
    cases hold.symm.trans hgone
  · obtain ⟨project, hsome⟩ := Option.isSome_iff_exists.mp hproject
    cases hsome.symm.trans hno
  · have hmem : id ∈ s.workspace.ids ++ [drawn] := ids_opened ▸ hid
    rcases List.mem_append.mp hmem with hold | hnew
    · exact Nat.lt_succ_of_lt (ht.tabs id hold)
    · exact List.mem_singleton.mp hnew ▸ Nat.lt_succ_self drawn

theorem openFile_keeps (ht : s.Tidy drawn) (location : IdeLocation) (text : Str)
    (version : SavedFileVersion) : let result := s.workspace.openFile drawn location text version
    let s' := s.goTo (resultOr s.workspace result) (s.diskOpened text result)
    s'.Sound ∧ s'.Tidy (drawn + 1) := by
  intro result s'
  have hs' : s' = s.goTo (resultOr s.workspace result) (s.diskOpened text result) := rfl
  cases hresult : result with
  | error error =>
    rw [hs', hresult]
    exact (quiet_goTo (hs.consistent.refl hs.clean)).keeps hs ht
  | ok r =>
    rcases openFile_cases hresult with ⟨id, hfound, rfl⟩ | ⟨hfree, hproject, rfl⟩
    · rw [hs', hresult]
      exact (quiet_goTo (reused_gentle hs.consistent hs.clean hfound)).keeps hs ht
    · rw [hs', hresult]
      exact opened_keeps hs ht hproject hfree

theorem start_keeps (ht : s.Tidy drawn) {request : Option CloseRequestId}
    (hpending : ∀ requestId ∈ request, ∃ pending, s.workspace.pendingClose = some pending ∧
      pending.id = requestId ∧ pending.tabId = id) (hstart :
    s.start id request = some s') : s'.Sound ∧ s'.Tidy (drawn + 1) := by
  obtain ⟨buffer, -, rfl⟩ := Option.map_eq_some_iff.mp hstart
  refine ⟨⟨hs.consistent, hs.clean, hs.kept⟩, ht.noProject,
    fun id hid => Nat.lt_succ_of_lt (ht.tabs id hid),
    fun request hrequest => Nat.lt_succ_of_lt (ht.pending request hrequest),
    fun save hsave requestId hid => ?_, fun save hsave requestId hid request' hrequest heq => ?_⟩
  · rcases List.mem_append.mp hsave with hold | hnew
    · exact Nat.lt_succ_of_lt (ht.saves save hold requestId hid)
    · cases List.mem_singleton.mp hnew
      obtain ⟨pending, hsome, rfl, -⟩ := hpending requestId hid
      exact Nat.lt_succ_of_lt (ht.pending pending hsome)
  · rcases List.mem_append.mp hsave with hold | hnew
    · exact ht.asked save hold requestId hid request' hrequest heq
    · cases List.mem_singleton.mp hnew
      obtain ⟨pending, hsome, -, htab⟩ := hpending requestId hid
      cases hsome.symm.trans hrequest
      exact htab

theorem completeSave_gentle (written : PendingSave) (version : SavedFileVersion) :
    Gentle drawn s.workspace
      (resultOr s.workspace (s.workspace.completeSaveAtRevision written.tabId written.text
        written.revision version)) (update s.disk written.tabId written.text) := by
  refine gentle_resultOr hs.consistent (fun ⟨error, herror⟩ => ?_) fun r hr =>
    completeSaveAtRevision_gentle hs.consistent hs.clean hr
  exact clean_update_of_none hs.clean (completeSaveAtRevision_error herror)

theorem completeMarked_gentle
    (hfits : ∀ buffer ∈ s.workspace.buffers.lookup written.tabId, buffer.text = written.text) :
    Gentle drawn s.workspace (resultOr s.workspace (s.workspace.markSaved written.tabId version))
      (update s.disk written.tabId written.text) := by
  cases hlookup : s.workspace.buffers.lookup written.tabId with
  | none =>
    have herror : s.workspace.markSaved written.tabId version = .error .unknownTab := by
      rw [markSaved, hlookup]
    rw [herror]
    exact hs.consistent.refl (clean_update_of_none hs.clean hlookup)
  | some buffer =>
    refine gentle_resultOr hs.consistent (fun ⟨error, herror⟩ => ?_) fun r hr => ?_
    · cases (markSaved_ok version hlookup).symm.trans herror
    · rw [← hfits buffer hlookup]
      exact markSaved_gentle hs.consistent hs.clean hlookup hr

/-- A rename in which no tab is moved to the key that a later one has or is moved to. -/
theorem rename_gentle {old new : IdeLocation} (hfits : s.workspace.renameBlocked old new = false →
      (s.workspace.renameMoves old new).Pairwise Clear)
    {r : List EditorTabId × IdeWorkspace} (hok : s.workspace.renameTabsUnder old new = .ok r) :
    Gentle drawn s.workspace r.2 s.disk := by
  refine renameTabsUnder_gentle hs.consistent hs.clean hok ?_
  rw [renameTabsUnder_consistent_iff hs.consistent hok]
  rcases (renameTabsUnder_ok hok).2 with hnone | hfree
  · rw [renameMoves, remappedTabs, hnone]
    exact List.Pairwise.nil
  · exact hfits hfree

theorem resolve_keeps {decision : DirtyCloseDecision} (ht : s.Tidy drawn)
    (hstep : s.step drawn exported (.resolveDirtyClose requestId decision) = some s') :
    s'.Sound ∧ s'.Tidy (drawn + 1) := by
  cases hrequest : s.workspace.pendingRequest requestId with
  | none =>
    have herror : s.workspace.resolveDirtyClose requestId decision = .error .unknownCloseRequest := by
      rw [resolveDirtyClose, hrequest]
    cases decision with
    | discard =>
      cases hstep
      rw [herror]
      exact keeps_self hs ht
    | save | cancel =>
      cases hstep
      refine operation_keeps hs ht fun r hr => ?_
      cases herror.symm.trans hr
  | some request =>
    cases decision with
    | save =>
      cases hstep
      refine operation_keeps hs ht fun r hr => ?_
      rw [resolveDirtyClose, hrequest] at hr
      cases hr
      exact hs.consistent.refl hs.clean
    | cancel =>
      cases hstep
      refine operation_keeps hs ht fun r hr => ?_
      rw [resolveDirtyClose, hrequest] at hr
      cases hr
      exact noRequest_gentle hs.consistent hs.clean
    | discard =>
      cases hstep
      have hok : s.workspace.resolveDirtyClose requestId .discard = .ok (none,
          { s.workspace with pendingClose := none }.closeTabNow request.tabId) := by
        rw [resolveDirtyClose, hrequest]
      rw [hok]
      refine keeps_of_resolved hs ht ((hs.consistent.pending none).closeTabNow _)
        (CleanIn.closeTabNow hs.clean _) (fun id hid => (mem_ids_closeTabNow.mp hid).1)
        (fun hno => ?_) rfl
      show s.workspace.tabs.filter (·.id ≠ request.tabId) = []
      rw [ht.noProject hno]
      rfl

theorem step_keeps {action : WorkspaceAction} (ht : s.Tidy drawn)
    (hexported : ∀ saved ∈ exported, saved.Good drawn) (hfits : s.Fits action)
    (hstep : s.step drawn exported action = some s') : s'.Sound ∧ s'.Tidy (drawn + 1) := by
  cases action with
  | openProject root title =>
    cases hstep
    exact keeps_of_resolved hs ht (cleared_consistent (s.workspace.openProject drawn root title))
      (cleared_clean (s.workspace.openProject drawn root title) _) (List.nil_subset _)
      (fun hno => nomatch hno) rfl
  | closeProject =>
    cases hstep
    exact keeps_of_resolved hs ht (cleared_consistent s.workspace.closeProject)
      (cleared_clean s.workspace.closeProject _) (List.nil_subset _) (fun _ => rfl) rfl
  | setActiveTab id =>
    cases hstep
    exact operation_keeps hs ht fun r => setActiveTab_gentle hs.consistent hs.clean
  | toggleTabPin id =>
    cases hstep
    exact operation_keeps hs ht fun r => toggleTabPin_gentle hs.consistent hs.clean
  | moveTabBefore id before =>
    cases hstep
    exact operation_keeps hs ht fun r => moveTabBefore_gentle hs.consistent hs.clean
  | moveTabToIndex id target =>
    cases hstep
    exact operation_keeps hs ht fun r => moveTabToIndex_gentle hs.consistent hs.clean
  | openFile location text version =>
    cases hstep
    exact openFile_keeps hs ht location text version
  | replaceBufferText id text =>
    cases hstep
    refine operation_keeps hs ht fun r hr => ?_
    cases hlookup : s.workspace.buffers.lookup id with
    | none => rw [replaceBufferText, hlookup] at hr; cases hr
    | some buffer =>
      exact replaceBufferText_gentle hs.consistent hs.clean hlookup (hfits buffer hlookup) hr
  | closeCleanTabsUnder location =>
    cases hstep
    exact operation_keeps hs ht fun r => closeCleanTabsUnder_gentle hs.consistent hs.clean
  | renameTabsUnder old new =>
    cases hstep
    exact operation_keeps hs ht fun r => rename_gentle hs hfits
  | startSave id =>
    exact start_keeps hs ht (fun requestId hid => by cases hid) hstep
  | startCloseSave requestId =>
    obtain ⟨request, hrequest, hstart⟩ := Option.bind_eq_some_iff.mp hstep
    obtain ⟨hpending, heq⟩ := Option.filter_eq_some_iff.mp hrequest
    refine start_keeps hs ht (fun requestId' hid => ?_) hstart
    cases hid
    exact ⟨request, hpending, of_decide_eq_true heq, rfl⟩
  | failSave save =>
    cases hstep
    have hquiet : s.Quiet drawn ((s.drop save).goTo s.workspace s.disk) :=
      ⟨hs.consistent.refl hs.clean, List.eraseIdx_subset, rfl⟩
    obtain ⟨hsound, htidy⟩ := hquiet.keeps hs ht
    exact ⟨⟨hs.consistent, hs.clean, hs.kept⟩, ⟨htidy.noProject, htidy.tabs, htidy.pending, htidy.saves, htidy.asked⟩⟩
  | completeSave save version =>
    obtain ⟨written, hwritten, rfl⟩ := Option.map_eq_some_iff.mp hstep
    exact (quiet_complete (completeSave_gentle hs written version)).keeps hs ht
  | completeMarked save version =>
    obtain ⟨written, hwritten, rfl⟩ := Option.map_eq_some_iff.mp hstep
    exact (quiet_complete (completeMarked_gentle hs (hfits written hwritten))).keeps hs ht
  | completeClose save version =>
    obtain ⟨written, hwritten, hstep⟩ := Option.bind_eq_some_iff.mp hstep
    obtain ⟨requestId, hid, rfl⟩ := Option.map_eq_some_iff.mp hstep
    have hsave := List.mem_of_getElem? hwritten
    exact (quiet_complete (completeClose_gentle hs ht hsave hid
      (hfits written hwritten requestId hid))).keeps hs ht
  | completeCloseMarked save version =>
    obtain ⟨written, hwritten, hstep⟩ := Option.bind_eq_some_iff.mp hstep
    obtain ⟨requestId, hid, rfl⟩ := Option.map_eq_some_iff.mp hstep
    have hsave := List.mem_of_getElem? hwritten
    exact (quiet_complete (completeCloseMarked_gentle hs ht hsave hid
      (hfits written hwritten requestId hid))).keeps hs ht
  | saveTabWith id written =>
    unfold Session.step at hstep
    dsimp only at hstep
    split at hstep
    · next buffer version w' hlookup hok =>
        cases hstep
        exact (quiet_goTo (saveTabWith_gentle hs.consistent hs.clean hlookup hok)).keeps hs ht
    · cases hstep
      exact keeps_self hs ht
  | reloadCleanBuffer id text version =>
    unfold Session.step at hstep
    dsimp only at hstep
    split at hstep
    · next w' hok =>
        cases hstep
        exact (quiet_goTo (reloadCleanBuffer_gentle hs.consistent hs.clean hok)).keeps hs ht
    · cases hstep
      exact keeps_self hs ht
  | reloadTabWith id data =>
    unfold Session.step at hstep
    dsimp only at hstep
    split at hstep
    · next text version w' hok =>
        cases hstep
        obtain ⟨text', version', heq, hok⟩ := reloadTabWith_ok hok
        cases heq
        exact (quiet_goTo (reloadCleanBuffer_gentle hs.consistent hs.clean hok)).keeps hs ht
    · cases hstep
      exact keeps_self hs ht
  | requestCloseTab id =>
    cases hstep
    exact operation_keeps hs ht fun r => requestCloseTab_gentle hs.consistent hs.clean
  | requestCloseAllTabs =>
    cases hstep
    exact operation_keeps hs ht fun r => requestCloseAllTabs_gentle hs.consistent hs.clean
  | resolveDirtyClose requestId decision =>
    exact resolve_keeps hs ht hstep
  | exportSnapshot =>
    cases hstep
    exact keeps_self hs ht
  | restoreSnapshot snapshot =>
    obtain ⟨saved, hsaved, rfl⟩ := Option.map_eq_some_iff.mp hstep
    have hgood := hexported saved (List.mem_of_getElem? hsaved)
    split_ifs with hskip
    · exact keeps_self hs ht
    · exact restore_keeps hs ht hgood (Bool.not_eq_true _ ▸ hskip)

end

/-- What a save leaves clean that reaches an operation which returns an error. -/
theorem text_of_clean_update (hclean : w.CleanIn (update disk id text)) {buffer : EditorBuffer}
    (hlookup : w.buffers.lookup id = some buffer) (hdirty : buffer.isDirty = false) :
    buffer.text = text :=
  (hclean id buffer hlookup hdirty).trans (update_self id text disk)

theorem fits_of_sound {action : WorkspaceAction} (hs : s.Sound) (ht : s.Tidy drawn)
    (hstep : s.step drawn exported action = some s') (hs' : s'.Sound) : s.Fits action := by
  cases action with
  | renameTabsUnder old new =>
    intro hfree
    cases hstep
    by_cases hnone : s.workspace.affectedTabsUnder old = []
    · rw [renameMoves, remappedTabs, hnone]
      exact List.Pairwise.nil
    · have hok : s.workspace.renameTabsUnder old new = .ok (s.workspace.affectedTabsUnder old,
          (s.workspace.remappedTabs old new).foldl retarget s.workspace) := by
        unfold renameTabsUnder
        rw [if_neg hnone, if_neg (Bool.eq_false_iff.mp hfree)]
      have hconsistent := hs'.consistent
      rw [hok] at hconsistent
      exact (renameTabsUnder_consistent_iff hs.consistent hok).mp hconsistent
  | completeMarked save version =>
    intro written hwritten buffer hlookup
    obtain ⟨written', hwritten', rfl⟩ := Option.map_eq_some_iff.mp hstep
    cases hwritten.symm.trans hwritten'
    have hclean := hs'.clean
    simp only [Session.complete, Session.goTo, markSaved_ok version hlookup, resultOr] at hclean
    have hmarked : (s.workspace.buffers.insert written.tabId { buffer with
        savedText := buffer.text, version, savedRevision := buffer.revision }).lookup
          written.tabId = some { buffer with
            savedText := buffer.text, version, savedRevision := buffer.revision } := by
      rw [lookup_insert_buffer, if_pos rfl]
    exact (hclean written.tabId _ hmarked (isDirty_eq_false.mpr ⟨rfl, rfl⟩)).trans
      (update_self _ _ _)
  | completeClose save version =>
    intro written hwritten requestId hid buffer hlookup hrequest hdirty
    obtain ⟨written', hwritten', hstep⟩ := Option.bind_eq_some_iff.mp hstep
    obtain ⟨requestId', hid', rfl⟩ := Option.map_eq_some_iff.mp hstep
    cases hwritten.symm.trans hwritten'
    cases hid.symm.trans hid'
    have hclean := hs'.clean
    simp only [Session.complete, Session.goTo, completeDirtyCloseAfterSaveAtRevision, hrequest,
      resultOr] at hclean
    exact text_of_clean_update hclean hlookup hdirty
  | completeCloseMarked save version =>
    intro written hwritten requestId hid buffer hlookup hwhen
    obtain ⟨written', hwritten', hstep⟩ := Option.bind_eq_some_iff.mp hstep
    obtain ⟨requestId', hid', rfl⟩ := Option.map_eq_some_iff.mp hstep
    cases hwritten.symm.trans hwritten'
    cases hid.symm.trans hid'
    cases hrequest : s.workspace.pendingRequest requestId with
    | none =>
      have hclean := hs'.clean
      simp only [Session.complete, Session.goTo, completeDirtyCloseAfterSave, hrequest,
        resultOr] at hclean
      rw [hrequest] at hwhen
      exact text_of_clean_update hclean hlookup (hwhen.resolve_left Bool.false_ne_true)
    | some request =>
      have htab := ht.tab_of_request (List.mem_of_getElem? hwritten) hid hrequest
      obtain ⟨r, hr⟩ : ∃ r, s.workspace.completeDirtyCloseAfterSave requestId version = .ok r := by
        rw [completeDirtyCloseAfterSave, hrequest]
        simp only [markSaved_ok version (htab ▸ hlookup), Except.ok.injEq, exists_eq']
      have hlost := (Bool.or_eq_false_iff.mp hs'.kept).2
      rw [hr] at hlost
      have hgone := lookup_completeDirtyClose hrequest hr
      rw [htab] at hgone
      exact (loses_eq_false_iff.mp hlost written.tabId buffer hlookup hgone).trans
        (update_self _ _ _)
  | replaceBufferText id text =>
    intro buffer hlookup hne hrevision htext
    cases hstep
    have hok : s.workspace.replaceBufferText id text = .ok ((), { s.workspace with
        buffers := s.workspace.buffers.insert id
          { buffer with text, revision := buffer.revision + 1 } }) := by
      rw [IdeWorkspace.replaceBufferText, hlookup]
      exact if_neg hne
    have hclean := hs'.clean
    simp only [Session.goTo, hok, resultOr] at hclean
    refine hclean id { buffer with text, revision := buffer.revision + 1 } ?_ ?_
    · rw [lookup_insert_buffer, if_pos rfl]
    · exact isDirty_eq_false.mpr ⟨hrevision, htext⟩
  | _ => exact trivial

end Fitting

/-! ## 5. Runs -/

section Runs

variable {s : Session} {action : WorkspaceAction}

theorem Export.Good.succ (h : saved.Good drawn) : saved.Good (drawn + 1) := by
  obtain ⟨source, hsource, hclean, hsnapshot, hdrawn⟩ := h
  exact ⟨source, hsource, hclean, hsnapshot, fun id hid => Nat.lt_succ_of_lt (hdrawn id hid)⟩

theorem exports_good (hs : s.Sound) (ht : s.Tidy drawn)
    (h : s.exports action = some saved) : saved.Good drawn := by
  cases action with
  | exportSnapshot =>
    unfold Session.exports at h
    dsimp only at h
    split at h
    · next snapshot hsnapshot =>
        cases h
        exact ⟨s.workspace, hs.consistent, hs.clean, hsnapshot, ht.tabs⟩
    · cases h
  | _ => cases h

/-- What is known of the workspaces of a sound system, and of what they exported. -/
structure System.Tidy (sys : System) : Prop where
  sessions : ∀ n, (sys.sessions n).Tidy sys.drawn
  exported : ∀ saved ∈ sys.exported, saved.Good sys.drawn

variable {sys sys' : System} {a : Nat × WorkspaceAction}

theorem next_cases (hnext : sys.next a = some sys') :
    ∃ s', (sys.sessions a.1).step sys.drawn sys.exported a.2 = some s' ∧
      sys'.sessions = update sys.sessions a.1 s' ∧
      sys'.exported = sys.exported ++ ((sys.sessions a.1).exports a.2).toList ∧
      sys'.drawn = sys.drawn + 1 := by
  obtain ⟨s', hs', rfl⟩ := Option.map_eq_some_iff.mp hnext
  exact ⟨s', hs', rfl, rfl, rfl⟩

theorem next_sound_iff (ht : sys.Tidy) (hs : sys.Sound) (hnext : sys.next a = some sys') :
    sys'.Sound ↔ sys.Fits a := by
  obtain ⟨s', hstep, hsessions, -⟩ := next_cases hnext
  constructor
  · intro hsound
    have hs' := hsound a.1
    rw [hsessions, update_self] at hs'
    exact fits_of_sound (hs a.1) (ht.sessions a.1) hstep hs'
  · intro hfits n
    rw [hsessions]
    by_cases heq : n = a.1
    · rw [heq, update_self]
      exact (step_keeps (hs a.1) (ht.sessions a.1) ht.exported hfits hstep).1
    · rw [update_of_ne heq]
      exact hs n

theorem next_tidy (ht : sys.Tidy) (hs : sys.Sound) (hs' : sys'.Sound)
    (hnext : sys.next a = some sys') : sys'.Tidy := by
  have hfits := (next_sound_iff ht hs hnext).mp hs'
  obtain ⟨s', hstep, hsessions, hexported, hdrawn⟩ := next_cases hnext
  refine ⟨fun n => ?_, fun saved hsaved => ?_⟩
  · rw [hsessions, hdrawn]
    by_cases heq : n = a.1
    · rw [heq, update_self]
      exact (step_keeps (hs a.1) (ht.sessions a.1) ht.exported hfits hstep).2
    · rw [update_of_ne heq]
      exact (keeps_self (hs n) (ht.sessions n)).2
  · rw [hexported] at hsaved
    rw [hdrawn]
    rcases List.mem_append.mp hsaved with hold | hnew
    · exact (ht.exported saved hold).succ
    · exact (exports_good (hs a.1) (ht.sessions a.1) (Option.mem_toList.mp hnew)).succ

theorem start_sound : System.Sound {} := fun _ =>
  ⟨cleared_consistent {}, cleared_clean {} _, rfl⟩

theorem start_tidy : System.Tidy {} where
  sessions _ := ⟨fun _ => rfl, fun _ hid => absurd hid List.not_mem_nil,
    fun _ hrequest => (by cases hrequest), fun _ hsave => absurd hsave List.not_mem_nil,
    fun _ hsave => absurd hsave List.not_mem_nil⟩
  exported _ hsaved := absurd hsaved List.not_mem_nil

/-- **Every run of workspaces is sound throughout exactly when each of its steps fits.** -/
theorem sound_iff_fits (actions : List (Nat × WorkspaceAction)) :
    Runs.Throughout System.next System.Sound {} actions ↔
      Runs.Meets System.next System.Fits {} actions :=
  Runs.throughout_iff_meets_between (Q := fun _ _ => True)
    (fun hnext _ ht hs hs' => next_tidy ht hs hs' hnext)
    (fun hnext _ ht hs => next_sound_iff ht hs hnext)
    (Runs.meets_of_forall fun _ _ => trivial) start_tidy start_sound

/-- A text typed while the one before it is written for a close: the buffer is closed with it. -/
def typedWhileClosing : List (Nat × WorkspaceAction) :=
  let file := IdeLocation.remoteFile "n".toList "/x".toList
  [(0, .openProject (.remoteFile "n".toList "/".toList) "n".toList),
    (0, .openFile file "old".toList {}),
    (0, .replaceBufferText 1 "saved".toList),
    (0, .requestCloseTab 1),
    (0, .startCloseSave 3),
    (0, .replaceBufferText 1 "typed".toList),
    (0, .completeCloseMarked 0 {})]

/-- A folder renamed while a file is open at the place that another file below it moves to. -/
def renamedOnto : List (Nat × WorkspaceAction) :=
  [(0, .openProject (.remoteFile "n".toList "/".toList) "n".toList),
    (0, .openFile (.remoteFile "n".toList "/a/x".toList) [] {}),
    (0, .openFile (.remoteFile "n".toList "/a/b/x".toList) [] {}),
    (0, .renameTabsUnder (.remoteFile "n".toList "/a".toList) (.remoteFile "n".toList "/a/b".toList))]

/-- Neither run is sound: the one loses the text, in the other the index does not find a tab. -/
theorem not_sound : ¬ Runs.Throughout System.next System.Sound {} typedWhileClosing ∧
    ¬ Runs.Throughout System.next System.Sound {} renamedOnto := by
  constructor
  · intro hall
    have hend : (Runs.run System.next {} typedWhileClosing).map (fun sys => (sys.sessions 0).lost) =
        some true := by decide
    obtain ⟨sys, hrun, hlost⟩ := Option.map_eq_some_iff.mp hend
    have hsound := Runs.throughout_iff.mp hall typedWhileClosing [] sys (List.append_nil _).symm hrun
    cases (hsound 0).kept.symm.trans hlost
  · intro hall
    have hend : (Runs.run System.next {} renamedOnto).map (fun sys =>
        ((sys.sessions 0).workspace.keyOf 1,
          (sys.sessions 0).workspace.tabByLocation.lookup "remote:n:/a/b/x".toList)) =
        some (some "remote:n:/a/b/x".toList, none) := by decide
    obtain ⟨sys, hrun, hboth⟩ := Option.map_eq_some_iff.mp hend
    obtain ⟨hkey, hindex⟩ := Prod.mk.inj hboth
    have hsound := Runs.throughout_iff.mp hall renamedOnto [] sys (List.append_nil _).symm hrun
    have hfound := ((hsound 0).consistent.index _ _).mpr hkey
    cases hindex.symm.trans hfound

end Runs

end Hapcli.Ide
