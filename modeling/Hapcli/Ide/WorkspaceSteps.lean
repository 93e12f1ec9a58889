/-
  Subject:   What each operation of the workspace does to its indexes and to the texts in its buffers.

  * **`renameTabsUnder_consistent_iff`** -- the renames that keep the workspace consistent.
-/
import Hapcli.Ide.Workspace
import Hapcli.Lib.InverseIndex

namespace Hapcli.Ide

open Hapcli.Rust Hapcli.Lib.InverseIndex IdeLocation Function

namespace IdeWorkspace

/-! ## 1. What is kept -/

/-- The key of the buffer of a tab. -/
def keyOf (w : IdeWorkspace) (id : EditorTabId) : Option Str :=
  (w.buffers.lookup id).map (·.location.stableKey)

/-- **The workspace is consistent.** -/
structure Consistent (w : IdeWorkspace) : Prop where
  /-- The tabs are distinct. -/
  tabIds : w.ids.Nodup
  /-- There are buffers for exactly the open tabs. -/
  buffers : ∀ id, id ∈ w.ids ↔ ∃ buffer, w.buffers.lookup id = some buffer
  /-- The buffer of a tab is at the tab's location. -/
  locations : ∀ tab ∈ w.tabs, ∀ buffer, w.buffers.lookup tab.id = some buffer →
    buffer.location = tab.location
  /-- The index finds a tab under a key exactly where its buffer has that key. -/
  index : Inverse w.tabByLocation.lookup w.keyOf
  /-- The active tab is open. -/
  active : ∀ id, w.activeTab = some id → id ∈ w.ids

/-- **A buffer that is reported clean holds the text last loaded or written.** -/
def CleanIn (w : IdeWorkspace) (disk : EditorTabId → Str) : Prop :=
  ∀ id buffer, w.buffers.lookup id = some buffer → buffer.isDirty = false → buffer.text = disk id

/-- A step that keeps the workspace consistent and the clean buffers clean, closes no other buffer,
    opens no tab, and makes no request but one with the new id. -/
structure Gentle (newId : CloseRequestId) (w w' : IdeWorkspace) (disk : EditorTabId → Str) :
    Prop where
  consistent : w'.Consistent
  clean : w'.CleanIn disk
  kept : ∀ id buffer, w.buffers.lookup id = some buffer → w'.buffers.lookup id = none →
    buffer.text = disk id
  project : w'.project = w.project
  ids : w'.ids ⊆ w.ids
  pending : ∀ request, w'.pendingClose = some request →
    w.pendingClose = some request ∨ request.id = newId

variable {newId : CloseRequestId} {w w' : IdeWorkspace} {disk : EditorTabId → Str} {id : EditorTabId}
  {buffer buffer' : EditorBuffer}

section Basics

theorem Consistent.open_of_lookup (h : w.Consistent) (hlookup : w.buffers.lookup id = some buffer) :
    id ∈ w.ids :=
  (h.buffers id).mpr ⟨buffer, hlookup⟩

theorem isDirty_eq_false : buffer.isDirty = false ↔
    buffer.revision = buffer.savedRevision ∧ buffer.text = buffer.savedText := by
  unfold EditorBuffer.isDirty
  rw [decide_eq_false_iff_not, not_or, not_not, not_not]

theorem hasDirtyBuffers_eq_false : w.hasDirtyBuffers = false ↔
    ∀ id buffer, w.buffers.lookup id = some buffer → buffer.isDirty = false := by
  unfold hasDirtyBuffers
  rw [List.any_eq_false]
  constructor
  · intro h id buffer hlookup
    have := h ⟨id, buffer⟩ (AList.mem_lookup_iff.mp hlookup)
    simpa using this
  · rintro h ⟨id, buffer⟩ hmem
    have := h id buffer (AList.mem_lookup_iff.mpr hmem)
    simp [this]

theorem isDirtyTab_eq_false (h : w.isDirtyTab id = false)
    (hlookup : w.buffers.lookup id = some buffer) : buffer.isDirty = false := by
  unfold isDirtyTab at h
  rwa [hlookup] at h

theorem Consistent.refl (h : w.Consistent) (hclean : w.CleanIn disk) : Gentle newId w w disk where
  consistent := h
  clean := hclean
  kept _ _ hlookup hnone := by rw [hlookup] at hnone; cases hnone
  project := rfl
  ids := fun _ hid => hid
  pending _ hrequest := .inl hrequest

end Basics

/-! ## 2. Tabs -/

variable {tab : EditorTab}

section Tabs

/-- The ids and locations of the tabs. -/
def places (tabs : List EditorTab) : List (EditorTabId × IdeLocation) :=
  tabs.map fun tab => (tab.id, tab.location)

theorem ids_eq_places : w.ids = (places w.tabs).map Prod.fst := by
  rw [ids, places, List.map_map]
  rfl

/-- The tabs in another order, the active tab another, the pending request another. -/
theorem gentle_of_places (h : w.Consistent) (hclean : w.CleanIn disk)
    (hplaces : (places w'.tabs).Perm (places w.tabs)) (hbuffers : w'.buffers = w.buffers)
    (hindex : w'.tabByLocation = w.tabByLocation) (hproject : w'.project = w.project)
    (hactive : ∀ id, w'.activeTab = some id → id ∈ w.ids)
    (hpending : ∀ request, w'.pendingClose = some request →
      w.pendingClose = some request ∨ request.id = newId) : Gentle newId w w' disk := by
  have hids : w'.ids.Perm w.ids := by
    rw [ids_eq_places, ids_eq_places]
    exact hplaces.map Prod.fst
  refine ⟨⟨hids.nodup_iff.mpr h.tabIds, fun id => ?_, fun tab htab buffer hlookup => ?_, ?_,
    fun id hid => hids.mem_iff.mpr (hactive id hid)⟩, ?_, fun id buffer hlookup hnone => ?_, hproject,
    hids.subset, hpending⟩
  · rw [hids.mem_iff, hbuffers]
    exact h.buffers id
  · have hmem : (tab.id, tab.location) ∈ places w.tabs :=
      hplaces.subset (List.mem_map.mpr ⟨tab, htab, rfl⟩)
    obtain ⟨old, hold, heq⟩ := List.mem_map.mp hmem
    obtain ⟨hid, hlocation⟩ := Prod.mk.inj heq
    rw [hbuffers, ← hid] at hlookup
    rw [← hlocation]
    exact h.locations old hold buffer hlookup
  · have hkey : w'.keyOf = w.keyOf := by
      funext id
      rw [keyOf, keyOf, hbuffers]
    rw [hindex, hkey]
    exact h.index
  · intro id buffer hlookup
    rw [hbuffers] at hlookup
    exact hclean id buffer hlookup
  · rw [hbuffers, hlookup] at hnone
    cases hnone

theorem places_modifyFirst {p : EditorTab → Bool} {f : EditorTab → EditorTab}
    (tabs : List EditorTab) (hf : ∀ tab, (f tab).id = tab.id ∧ (f tab).location = tab.location) :
    places (modifyFirst p f tabs) = places tabs := by
  induction tabs with
  | nil => rfl
  | cons tab rest ih =>
    rw [modifyFirst]
    split_ifs
    · simp only [places, List.map_cons, hf tab]
    · exact congrArg ((tab.id, tab.location) :: ·) ih

variable {r : Unit × IdeWorkspace} {target : Nat}

variable {origin : Nat}

theorem moveTab_perm (htab : w.tabs[origin]? = some tab)
    (htarget : target ≤ (w.tabs.eraseIdx origin).length) :
    (w.moveTab tab origin target).tabs.Perm w.tabs := by
  obtain ⟨hlt, rfl⟩ := List.getElem?_eq_some_iff.mp htab
  exact (List.perm_insertIdx _ _ htarget).trans (List.getElem_cons_eraseIdx_perm hlt)

section

variable (h : w.Consistent) (hclean : w.CleanIn disk)

include h hclean

theorem setActiveTab_gentle (hok : w.setActiveTab id = .ok r) : Gentle newId w r.2 disk := by
  unfold setActiveTab at hok
  split_ifs at hok with hmem
  cases hok
  refine gentle_of_places h hclean (List.Perm.refl _) rfl rfl rfl (fun id' hid' => ?_) fun _ => .inl
  cases hid'
  exact hmem

theorem toggleTabPin_gentle {r : Bool × IdeWorkspace} (hok : w.toggleTabPin id = .ok r) :
    Gentle newId w r.2 disk := by
  unfold toggleTabPin at hok
  cases hfind : w.findTab id with
  | none => rw [hfind] at hok; cases hok
  | some tab =>
    rw [hfind] at hok
    cases hok
    refine gentle_of_places h hclean ?_ rfl rfl rfl h.active fun _ => .inl
    exact List.Perm.of_eq (places_modifyFirst _ fun _ => ⟨rfl, rfl⟩)

theorem moveTab_gentle (htab : w.tabs[origin]? = some tab)
    (htarget : target ≤ (w.tabs.eraseIdx origin).length) :
    Gentle newId w (w.moveTab tab origin target) disk :=
  gentle_of_places h hclean ((moveTab_perm htab htarget).map _) rfl rfl rfl h.active fun _ => .inl

theorem moveTabBefore_gentle {before : EditorTabId} (hok : w.moveTabBefore id before = .ok r) :
    Gentle newId w r.2 disk := by
  unfold moveTabBefore at hok
  cases hproject : w.ensureProject with
  | error error => rw [hproject] at hok; cases hok
  | ok _ =>
    simp only [hproject] at hok
    split_ifs at hok
    · cases hok
      exact h.refl hclean
    · split at hok
      · next origin target horigin htarget =>
          obtain ⟨hlt, -⟩ := List.findIdx?_eq_some_iff_getElem.mp horigin
          obtain ⟨hlt', -⟩ := List.findIdx?_eq_some_iff_getElem.mp htarget
          rw [List.getElem?_eq_getElem hlt] at hok
          cases hok
          refine moveTab_gentle h hclean (List.getElem?_eq_getElem hlt) ?_
          rw [List.length_eraseIdx_of_lt hlt]
          split_ifs <;> omega
      · cases hok

theorem moveTabToIndex_gentle (hok : w.moveTabToIndex id target = .ok r) :
    Gentle newId w r.2 disk := by
  unfold moveTabToIndex at hok
  cases hproject : w.ensureProject with
  | error error => rw [hproject] at hok; cases hok
  | ok _ =>
    simp only [hproject] at hok
    cases horigin : w.tabs.findIdx? (·.id = id) with
    | none => rw [horigin] at hok; cases hok
    | some origin =>
      obtain ⟨hlt, -⟩ := List.findIdx?_eq_some_iff_getElem.mp horigin
      simp only [horigin, List.getElem?_eq_getElem hlt] at hok
      split_ifs at hok
      · cases hok
        exact h.refl hclean
      · cases hok
        exact moveTab_gentle h hclean (List.getElem?_eq_getElem hlt) (Nat.min_le_right _ _)

end

end Tabs

/-! ## 3. Buffers -/

variable {text : Str} {version : SavedFileVersion} {revision : Nat}

section Buffers

variable {disk' : EditorTabId → Str}

theorem lookup_insert_buffer (id' : EditorTabId) :
    (w.buffers.insert id buffer').lookup id' =
      if id' = id then some buffer' else w.buffers.lookup id' :=
  Map.lookup_insert_eq _ _ _ _

section

variable (h : w.Consistent) (hclean : w.CleanIn disk) (hlookup : w.buffers.lookup id = some buffer)

include h hclean hlookup

theorem gentle_of_insert (hlocation : buffer'.location = buffer.location)
    (hdisk : ∀ id', id' ≠ id → disk' id' = disk id')
    (hclean' : buffer'.isDirty = false → buffer'.text = disk' id) :
    Gentle newId w { w with buffers := w.buffers.insert id buffer' } disk' := by
  have hkey : IdeWorkspace.keyOf { w with buffers := w.buffers.insert id buffer' } = w.keyOf := by
    funext id'
    show ((w.buffers.insert id buffer').lookup id').map _ = _
    rw [lookup_insert_buffer]
    split_ifs with heq
    · rw [heq, keyOf, hlookup, Option.map_some, Option.map_some, hlocation]
    · rfl
  refine ⟨⟨h.tabIds, fun id' => ?_, fun tab htab found hfound => ?_, hkey ▸ h.index, h.active⟩,
    fun id' found hfound hfoundClean => ?_, fun id' found hfound hnone => ?_, rfl, fun _ hid => hid,
    fun _ => .inl⟩
  · show id' ∈ w.ids ↔ ∃ found, (w.buffers.insert id buffer').lookup id' = some found
    rw [h.buffers id', lookup_insert_buffer]
    split_ifs with heq
    · rw [heq]
      exact iff_of_true ⟨buffer, hlookup⟩ ⟨buffer', rfl⟩
    · exact Iff.rfl
  · dsimp only at hfound
    rw [lookup_insert_buffer] at hfound
    split_ifs at hfound with heq
    · cases hfound
      rw [hlocation]
      exact h.locations tab htab buffer (heq ▸ hlookup)
    · exact h.locations tab htab found hfound
  · dsimp only at hfound
    rw [lookup_insert_buffer] at hfound
    split_ifs at hfound with heq
    · cases hfound
      exact heq ▸ hclean' hfoundClean
    · rw [hdisk id' heq]
      exact hclean id' found hfound hfoundClean
  · dsimp only at hnone
    rw [lookup_insert_buffer] at hnone
    split_ifs at hnone
    rw [hfound] at hnone
    cases hnone

theorem replaceBufferText_gentle {r : Unit × IdeWorkspace}
    (hfits : buffer.text ≠ text → buffer.revision + 1 = buffer.savedRevision →
      text = buffer.savedText → text = disk id) (hok :
    w.replaceBufferText id text = .ok r) : Gentle newId w r.2 disk := by
  unfold replaceBufferText at hok
  simp only [hlookup] at hok
  split_ifs at hok with hsame
  · cases hok
    exact h.refl hclean
  · cases hok
    refine gentle_of_insert h hclean hlookup rfl (fun _ _ => rfl) fun hdirty => ?_
    obtain ⟨hrevision, htext⟩ := (isDirty_eq_false).mp hdirty
    exact hfits hsame hrevision htext

end

variable {r : Unit × IdeWorkspace}

theorem completeSaveAtRevision_gentle {r : Bool × IdeWorkspace} (h : w.Consistent)
    (hclean : w.CleanIn disk) (hok : w.completeSaveAtRevision id text revision version = .ok r) :
    Gentle newId w r.2 (update disk id text) := by
  unfold completeSaveAtRevision at hok
  cases hlookup : w.buffers.lookup id with
  | none => rw [hlookup] at hok; cases hok
  | some buffer =>
    rw [hlookup] at hok
    cases hok
    refine gentle_of_insert h hclean hlookup rfl (fun id' hne => update_of_ne hne _ _) fun hdirty => ?_
    rw [update_self]
    exact ((isDirty_eq_false).mp hdirty).2

theorem completeSaveAtRevision_error {error : WorkspaceError}
    (h : w.completeSaveAtRevision id text revision version = .error error) :
    w.buffers.lookup id = none := by
  unfold completeSaveAtRevision at h
  cases hlookup : w.buffers.lookup id with
  | none => rfl
  | some buffer => rw [hlookup] at h; cases h

section

variable (h : w.Consistent) (hclean : w.CleanIn disk) (hlookup : w.buffers.lookup id = some buffer)

include h hclean hlookup

theorem saveTabWith_gentle {written : Except Str SavedFileVersion}
 {r : SavedFileVersion × IdeWorkspace} (hok : w.saveTabWith id written = .ok r) :
    Gentle newId w r.2 (update disk id buffer.text) := by
  unfold saveTabWith at hok
  rw [hlookup] at hok
  cases written with
  | error error => cases hok
  | ok version =>
    cases hsave : w.completeSaveAtRevision id buffer.text buffer.revision version with
    | error error => simp only [hsave] at hok; cases hok
    | ok saved =>
      simp only [hsave] at hok
      cases hok
      exact completeSaveAtRevision_gentle h hclean hsave

/-- A save that completes with whatever the buffer holds is gentle where that is what was
    written. -/
theorem markSaved_gentle (hok : w.markSaved id version = .ok r) :
    Gentle newId w r.2 (update disk id buffer.text) := by
  unfold markSaved at hok
  rw [hlookup] at hok
  cases hok
  refine gentle_of_insert h hclean hlookup rfl (fun id' hne => update_of_ne hne _ _) fun _ => ?_
  rw [update_self]

end

theorem markSaved_ok (version : SavedFileVersion) (hlookup : w.buffers.lookup id = some buffer) :
    w.markSaved id version = .ok ((), { w with
      buffers := w.buffers.insert id
        { buffer with savedText := buffer.text, version, savedRevision := buffer.revision } }) := by
  unfold markSaved
  rw [hlookup]

theorem reloadCleanBuffer_gentle (h : w.Consistent) (hclean : w.CleanIn disk)
    (hok : w.reloadCleanBuffer id text version = .ok w') :
    Gentle newId w w' (update disk id text) := by
  unfold reloadCleanBuffer at hok
  cases hlookup : w.buffers.lookup id with
  | none =>
    rw [hlookup] at hok
    cases hok
    refine h.refl fun id' buffer hfound => ?_
    have hne : id' ≠ id := fun heq => by rw [heq, hlookup] at hfound; cases hfound
    rw [update_of_ne hne]
    exact hclean id' buffer hfound
  | some buffer =>
    rw [hlookup] at hok
    dsimp only at hok
    split_ifs at hok
    cases hok
    refine gentle_of_insert h hclean hlookup rfl (fun id' hne => update_of_ne hne _ _) fun _ => ?_
    rw [update_self]

theorem reloadTabWith_ok {data : Except Str (Str × SavedFileVersion)}
    (hok : w.reloadTabWith id data = .ok w') :
    ∃ text version, data = .ok (text, version) ∧ w.reloadCleanBuffer id text version = .ok w' := by
  unfold reloadTabWith at hok
  cases hlookup : w.buffers.lookup id with
  | none => rw [hlookup] at hok; cases hok
  | some buffer =>
    rw [hlookup] at hok
    dsimp only at hok
    split_ifs at hok
    rcases data with error | ⟨text, version⟩
    · cases hok
    · exact ⟨text, version, rfl, hok⟩

end Buffers

/-! ## 4. Closing -/

section Closing

theorem lookup_closeTabNow (id' : EditorTabId) :
    (w.closeTabNow id).buffers.lookup id' = if id' = id then none else w.buffers.lookup id' :=
  Map.lookup_erase_eq _ _ _

theorem mem_ids_closeTabNow {id' : EditorTabId} :
    id' ∈ (w.closeTabNow id).ids ↔ id' ∈ w.ids ∧ id' ≠ id := by
  simp only [ids, closeTabNow, List.mem_map, List.mem_filter, decide_eq_true_eq]
  constructor
  · rintro ⟨tab, ⟨htab, hne⟩, rfl⟩
    exact ⟨⟨tab, htab, rfl⟩, hne⟩
  · rintro ⟨⟨tab, htab, rfl⟩, hne⟩
    exact ⟨tab, ⟨htab, hne⟩, rfl⟩

theorem Consistent.closeTabNow (h : w.Consistent) (id : EditorTabId) :
    (w.closeTabNow id).Consistent := by
  refine ⟨h.tabIds.sublist (List.filter_sublist.map _), fun id' => ?_, fun tab htab found hfound => ?_,
    ?_, fun id' hid' => ?_⟩
  · rw [mem_ids_closeTabNow, lookup_closeTabNow, h.buffers id']
    split_ifs with heq
    · simp [heq]
    · simp [heq]
  · rw [lookup_closeTabNow] at hfound
    split_ifs at hfound
    exact h.locations tab (List.mem_of_mem_filter htab) found hfound
  · have hkey : (w.closeTabNow id).keyOf = update w.keyOf id none := by
      funext id'
      rw [keyOf, lookup_closeTabNow, update_apply]
      split_ifs
      · rfl
      · rfl
    rw [hkey]
    cases hlookup : w.buffers.lookup id with
    | none =>
      have hnone : update w.keyOf id none = w.keyOf := by
        rw [update_eq_self_iff, keyOf, hlookup]
        rfl
      simp only [IdeWorkspace.closeTabNow, hlookup, hnone]
      exact h.index
    | some buffer =>
      have hindex : (w.tabByLocation.erase buffer.location.stableKey).lookup =
          update w.tabByLocation.lookup buffer.location.stableKey none := by
        funext key
        rw [Map.lookup_erase_eq, update_apply]
      simp only [IdeWorkspace.closeTabNow, hlookup, hindex]
      exact h.index.leave (by rw [keyOf, hlookup, Option.map_some])
  · simp only [IdeWorkspace.closeTabNow] at hid'
    split_ifs at hid' with hactive
    · obtain ⟨tab, htab, rfl⟩ := Option.map_eq_some_iff.mp hid'
      exact List.mem_map_of_mem (List.mem_of_getLast? htab)
    · refine (mem_ids_closeTabNow).mpr ⟨h.active id' hid', fun heq => hactive ?_⟩
      rw [hid', heq]

theorem CleanIn.closeTabNow (hclean : w.CleanIn disk) (id : EditorTabId) :
    (w.closeTabNow id).CleanIn disk := by
  intro id' found hfound hdirty
  rw [lookup_closeTabNow] at hfound
  split_ifs at hfound
  exact hclean id' found hfound hdirty

/-- Closing a tab whose buffer has the text last loaded or written is gentle. -/
theorem closeTabNow_gentle (h : w.Consistent) (hclean : w.CleanIn disk)
    (hsaved : ∀ buffer, w.buffers.lookup id = some buffer → buffer.text = disk id) :
    Gentle newId w (w.closeTabNow id) disk where
  consistent := h.closeTabNow id
  clean := hclean.closeTabNow id
  kept id' buffer hlookup hnone := by
    rw [lookup_closeTabNow] at hnone
    split_ifs at hnone with heq
    · exact heq ▸ hsaved buffer (heq ▸ hlookup)
    · rw [hlookup] at hnone
      cases hnone
  project := rfl
  ids _ hid := ((mem_ids_closeTabNow).mp hid).1
  pending _ := .inl

theorem Consistent.pending (h : w.Consistent) (request : Option DirtyCloseRequest) :
    IdeWorkspace.Consistent { w with pendingClose := request } :=
  ⟨h.tabIds, h.buffers, h.locations, h.index, h.active⟩

variable {r : Option DirtyCloseRequest × IdeWorkspace}

theorem requestCloseTab_gentle (h : w.Consistent) (hclean : w.CleanIn disk)
    (hok : w.requestCloseTab newId id = .ok r) : Gentle newId w r.2 disk := by
  unfold requestCloseTab at hok
  cases hfind : w.findTab id with
  | none => simp only [hfind] at hok; cases hok
  | some tab =>
    cases hlookup : w.buffers.lookup id with
    | none => simp only [hfind, hlookup] at hok; cases hok
    | some buffer =>
      simp only [hfind, hlookup] at hok
      split_ifs at hok with hdirty
      · cases hok
        refine closeTabNow_gentle h hclean fun found hfound => ?_
        cases hlookup.symm.trans hfound
        exact hclean id buffer hlookup ((Bool.not_eq_true' _).mp hdirty)
      · cases hok
        refine gentle_of_places h hclean (List.Perm.refl _) rfl rfl rfl h.active
          fun request hrequest => .inr ?_
        cases hrequest
        rfl

theorem cleared_consistent (w : IdeWorkspace) : w.cleared.Consistent where
  tabIds := List.nodup_nil
  buffers _ := iff_of_false List.not_mem_nil fun ⟨_, h⟩ => by cases h
  locations _ htab := absurd htab List.not_mem_nil
  index _ _ := iff_of_false (fun h => by cases h) fun h => by cases h
  active _ h := by cases h

theorem cleared_clean (w : IdeWorkspace) (disk : EditorTabId → Str) : w.cleared.CleanIn disk :=
  fun _ _ h => by cases h

theorem cleared_gentle (hsaved : ∀ id buffer, w.buffers.lookup id = some buffer →
    buffer.text = disk id) : Gentle newId w w.cleared disk where
  consistent := cleared_consistent w
  clean := cleared_clean w disk
  kept id buffer hlookup _ := hsaved id buffer hlookup
  project := rfl
  ids := List.nil_subset _
  pending _ h := by cases h

theorem requestCloseAllTabs_gentle (h : w.Consistent)
    (hclean : w.CleanIn disk) (hok : w.requestCloseAllTabs newId = .ok r) :
    Gentle newId w r.2 disk := by
  unfold requestCloseAllTabs at hok
  cases hfind : w.tabs.find? fun tab => w.isDirtyTab tab.id with
  | some tab =>
    rw [hfind] at hok
    exact requestCloseTab_gentle h hclean hok
  | none =>
    rw [hfind] at hok
    cases hok
    refine cleared_gentle fun id buffer hlookup => hclean id buffer hlookup ?_
    obtain ⟨tab, htab, rfl⟩ := List.mem_map.mp (h.open_of_lookup hlookup)
    exact isDirtyTab_eq_false (by simpa using List.find?_eq_none.mp hfind tab htab) hlookup

theorem Gentle.trans {w'' : IdeWorkspace} (h : Gentle newId w w' disk)
    (h' : Gentle newId w' w'' disk)
    (hkept : ∀ id buffer buffer', w.buffers.lookup id = some buffer →
      w'.buffers.lookup id = some buffer' → buffer'.text = buffer.text) : Gentle newId w w'' disk where
  consistent := h'.consistent
  clean := h'.clean
  kept id buffer hlookup hnone := by
    cases hmid : w'.buffers.lookup id with
    | none => exact h.kept id buffer hlookup hmid
    | some buffer' =>
      rw [← hkept id buffer buffer' hlookup hmid]
      exact h'.kept id buffer' hmid hnone
  project := h'.project.trans h.project
  ids := List.Subset.trans h'.ids h.ids
  pending request hrequest := (h'.pending request hrequest).elim (h.pending request) .inr

theorem closeTabs_gentle (h : w.Consistent) (hclean : w.CleanIn disk) {closed : List EditorTabId}
    (hdirty : ∀ id ∈ closed, w.isDirtyTab id = false) :
    Gentle newId w (closed.foldl closeTabNow w) disk := by
  induction closed generalizing w with
  | nil => exact h.refl hclean
  | cons id rest ih =>
    have hfirst : Gentle newId w (w.closeTabNow id) disk :=
      closeTabNow_gentle h hclean fun buffer hlookup =>
        hclean id buffer hlookup (isDirtyTab_eq_false (hdirty id List.mem_cons_self) hlookup)
    refine hfirst.trans (ih hfirst.consistent hfirst.clean fun id' hid' => ?_) ?_
    · unfold isDirtyTab
      rw [lookup_closeTabNow]
      split_ifs
      · rfl
      · exact hdirty id' (List.mem_cons_of_mem _ hid')
    · intro id' buffer buffer' hlookup hlookup'
      rw [lookup_closeTabNow] at hlookup'
      split_ifs at hlookup'
      rw [Option.some.inj (hlookup.symm.trans hlookup')]

theorem closeCleanTabsUnder_gentle {location : IdeLocation} {r : List EditorTabId × IdeWorkspace}
    (h : w.Consistent) (hclean : w.CleanIn disk) (hok : w.closeCleanTabsUnder location = .ok r) :
    Gentle newId w r.2 disk := by
  unfold closeCleanTabsUnder at hok
  dsimp only at hok
  split_ifs at hok with htitles
  cases hok
  refine closeTabs_gentle h hclean fun id hid => ?_
  rw [List.mem_reverse] at hid
  by_contra hdirty
  rw [Bool.not_eq_false] at hdirty
  obtain ⟨tab, htab, rfl⟩ := List.mem_map.mp hid
  have hfound : (w.findTab tab.id).isSome := by
    rw [findTab, List.find?_isSome]
    exact ⟨tab, List.mem_of_mem_filter htab, by simp⟩
  obtain ⟨found, hfound⟩ := Option.isSome_iff_exists.mp hfound
  have := List.filterMap_eq_nil_iff.mp (not_not.mp htitles) tab.id hid
  rw [if_pos hdirty, hfound] at this
  cases this

end Closing

/-! ## 5. Closing after a save -/

section DirtyClose

variable {requestId : CloseRequestId} {request : DirtyCloseRequest}

variable {r : Bool × IdeWorkspace}

theorem texts_completeSave (hok : w.completeSaveAtRevision id text revision version = .ok r)
    {id' : EditorTabId} (hlookup : w.buffers.lookup id' = some buffer)
    (hlookup' : r.2.buffers.lookup id' = some buffer') : buffer'.text = buffer.text := by
  unfold completeSaveAtRevision at hok
  cases hfound : w.buffers.lookup id with
  | none => rw [hfound] at hok; cases hok
  | some found =>
    rw [hfound] at hok
    cases hok
    dsimp only at hlookup'
    rw [lookup_insert_buffer] at hlookup'
    split_ifs at hlookup' with heq
    · cases hlookup'
      rw [heq, hfound] at hlookup
      cases hlookup
      rfl
    · rw [hlookup] at hlookup'
      cases hlookup'
      rfl

/-- What `complete_save_at_revision` returns is whether the buffer is clean then. -/
theorem completeSave_isClean
    (hok : w.completeSaveAtRevision id text revision version = .ok (true, w')) :
    ∀ buffer, w'.buffers.lookup id = some buffer → buffer.isDirty = false := by
  unfold completeSaveAtRevision at hok
  cases hfound : w.buffers.lookup id with
  | none => rw [hfound] at hok; cases hok
  | some found =>
    rw [hfound] at hok
    dsimp only at hok
    obtain ⟨hdirty, rfl⟩ := Prod.mk.inj (Except.ok.inj hok)
    intro buffer hlookup
    dsimp only at hlookup
    rw [lookup_insert_buffer, if_pos rfl] at hlookup
    cases hlookup
    exact (Bool.not_eq_true' _).mp hdirty

theorem noRequest_gentle (h : w.Consistent) (hclean : w.CleanIn disk) :
    Gentle newId w { w with pendingClose := none } disk :=
  gentle_of_places h hclean (List.Perm.refl _) rfl rfl rfl h.active fun _ h => by cases h

section

variable (h : w.Consistent) (hclean : w.CleanIn disk)
  (hrequest : w.pendingRequest requestId = some request)

include h hclean hrequest

theorem completeDirtyCloseAtRevision_gentle
    (hok : w.completeDirtyCloseAfterSaveAtRevision requestId text revision version = .ok r) :
    Gentle newId w r.2 (update disk request.tabId text) := by
  unfold completeDirtyCloseAfterSaveAtRevision at hok
  rw [hrequest] at hok
  cases hsave : w.completeSaveAtRevision request.tabId text revision version with
  | error error => simp only [hsave] at hok; cases hok
  | ok saved =>
    obtain ⟨isClean, w'⟩ := saved
    have hsaved : Gentle newId w w' (update disk request.tabId text) :=
      completeSaveAtRevision_gentle h hclean hsave
    have hresolved : Gentle newId w' _ _ := noRequest_gentle hsaved.consistent hsaved.clean
    simp only [hsave] at hok
    cases hok
    have hboth := hsaved.trans hresolved fun id buffer buffer' hlookup hlookup' =>
      texts_completeSave hsave hlookup hlookup'
    cases isClean with
    | false => exact hboth
    | true =>
      rw [if_pos rfl]
      refine hboth.trans (closeTabNow_gentle hresolved.consistent hresolved.clean
        fun buffer hlookup => ?_) fun id buffer buffer' hlookup hlookup' =>
          texts_completeSave hsave hlookup hlookup'
      exact hsaved.clean _ _ hlookup (completeSave_isClean hsave buffer hlookup)

/-- A close that takes whatever the buffer holds for saved is gentle where that was written. -/
theorem completeDirtyClose_gentle {r : Unit × IdeWorkspace}
    (hlookup : w.buffers.lookup request.tabId = some buffer)
    (hok : w.completeDirtyCloseAfterSave requestId version = .ok r) :
    Gentle newId w r.2 (update disk request.tabId buffer.text) := by
  unfold completeDirtyCloseAfterSave at hok
  have hmarked : Gentle newId w _ _ :=
    markSaved_gentle h hclean hlookup (markSaved_ok version hlookup)
  have hresolved : Gentle newId _ _ _ := noRequest_gentle hmarked.consistent hmarked.clean
  rw [hrequest] at hok
  simp only [markSaved_ok version hlookup] at hok
  cases hok
  have htexts : ∀ id old new, w.buffers.lookup id = some old →
      (w.buffers.insert request.tabId { buffer with
        savedText := buffer.text, version, savedRevision := buffer.revision }).lookup id =
          some new → new.text = old.text := by
    intro id old new hold hnew
    rw [lookup_insert_buffer] at hnew
    split_ifs at hnew with heq
    · cases hnew
      rw [heq, hlookup] at hold
      cases hold
      rfl
    · rw [hold] at hnew
      cases hnew
      rfl
  refine (hmarked.trans hresolved htexts).trans (closeTabNow_gentle hresolved.consistent
    hresolved.clean fun new hnew => ?_) htexts
  rw [update_self]
  exact htexts _ _ _ hlookup hnew

end

theorem lookup_completeDirtyClose {r : Unit × IdeWorkspace}
    (hrequest : w.pendingRequest requestId = some request)
    (hok : w.completeDirtyCloseAfterSave requestId version = .ok r) :
    r.2.buffers.lookup request.tabId = none := by
  unfold completeDirtyCloseAfterSave at hok
  rw [hrequest] at hok
  cases hmarked : w.markSaved request.tabId version with
  | error error => simp only [hmarked] at hok; cases hok
  | ok marked =>
    simp only [hmarked] at hok
    cases hok
    rw [lookup_closeTabNow, if_pos rfl]

end DirtyClose

/-! ## 6. Opening -/

variable {location : IdeLocation}

section Opening

variable {newId : EditorTabId}

/-- The workspace with one more tab. -/
def opened (w : IdeWorkspace) (newId : EditorTabId) (location : IdeLocation) (text : Str)
    (version : SavedFileVersion) : IdeWorkspace :=
  { w with
    tabs := w.tabs ++ [⟨newId, location, location.displayName, false⟩]
    buffers := w.buffers.insert newId (.new location text version)
    tabByLocation := w.tabByLocation.insert location.stableKey newId
    activeTab := some newId }

theorem openFile_cases {r : OpenFileOutcome × IdeWorkspace}
    (hok : w.openFile newId location text version = .ok r) :
    (∃ id, w.tabByLocation.lookup location.stableKey = some id ∧
      r = (.reused id, { w with activeTab := some id })) ∨
    w.tabByLocation.lookup location.stableKey = none ∧ w.project.isSome = true ∧
      r = (.opened newId, w.opened newId location text version) := by
  unfold openFile ensureProject at hok
  split_ifs at hok with hproject
  · dsimp only at hok
    cases hlookup : w.tabByLocation.lookup location.stableKey with
    | some id =>
      rw [hlookup] at hok
      cases hok
      exact .inl ⟨id, rfl, rfl⟩
    | none =>
      rw [hlookup] at hok
      cases hok
      exact .inr ⟨rfl, hproject, rfl⟩

theorem lookup_opened (id : EditorTabId) :
    (w.opened newId location text version).buffers.lookup id =
      if id = newId then some (.new location text version) else w.buffers.lookup id :=
  Map.lookup_insert_eq _ _ _ _

theorem ids_opened : (w.opened newId location text version).ids = w.ids ++ [newId] := by
  simp [ids, opened]

theorem Consistent.opened (h : w.Consistent) (hnew : newId ∉ w.ids)
    (hfree : w.tabByLocation.lookup location.stableKey = none) :
    (w.opened newId location text version).Consistent := by
  have hnone : w.buffers.lookup newId = none := by
    cases hlookup : w.buffers.lookup newId with
    | none => rfl
    | some buffer => exact absurd (h.open_of_lookup hlookup) hnew
  refine ⟨?_, fun id => ?_, fun tab htab buffer hlookup => ?_, ?_, fun id hid => ?_⟩
  · rw [ids_opened]
    exact List.concat_eq_append ▸ h.tabIds.concat hnew
  · rw [ids_opened, lookup_opened, List.mem_append, List.mem_singleton, h.buffers id]
    split_ifs with heq
    · simp [heq]
    · simp [heq]
  · rw [lookup_opened] at hlookup
    rcases List.mem_append.mp htab with htab | htab
    · have hmem : tab.id ∈ w.ids := List.mem_map_of_mem htab
      have hne : tab.id ≠ newId := fun heq => hnew (heq ▸ hmem)
      rw [if_neg hne] at hlookup
      exact h.locations tab htab buffer hlookup
    · rw [List.mem_singleton.mp htab] at hlookup ⊢
      rw [if_pos rfl] at hlookup
      cases hlookup
      rfl
  · have hindex : (w.opened newId location text version).tabByLocation.lookup =
        update w.tabByLocation.lookup location.stableKey (some newId) := by
      funext key
      rw [update_apply]
      exact Map.lookup_insert_eq _ _ _ _
    have hkey : (w.opened newId location text version).keyOf =
        update w.keyOf newId (some location.stableKey) := by
      funext id
      rw [keyOf, lookup_opened, update_apply]
      split_ifs
      · rfl
      · rfl
    rw [hindex, hkey]
    exact h.index.enter (by rw [keyOf, hnone, Option.map_none]) hfree
  · cases hid
    rw [ids_opened]
    exact List.mem_append_right _ (List.mem_singleton_self _)

theorem CleanIn.opened (hclean : w.CleanIn disk) :
    (w.opened newId location text version).CleanIn (update disk newId text) := by
  intro id buffer hlookup hdirty
  rw [lookup_opened] at hlookup
  split_ifs at hlookup with heq
  · cases hlookup
    rw [heq, update_self]
    rfl
  · rw [update_of_ne heq]
    exact hclean id buffer hlookup hdirty

theorem reused_gentle (h : w.Consistent) (hclean : w.CleanIn disk)
    (hlookup : w.tabByLocation.lookup location.stableKey = some id) :
    Gentle newId w { w with activeTab := some id } disk := by
  refine gentle_of_places h hclean (List.Perm.refl _) rfl rfl rfl (fun id' hid' => ?_) fun _ => .inl
  cases hid'
  have hkey := (h.index _ _).mp hlookup
  obtain ⟨buffer, hbuffer, -⟩ := Option.map_eq_some_iff.mp hkey
  exact h.open_of_lookup hbuffer

end Opening

/-! ## 7. Renaming -/

section Renaming

variable {old new : IdeLocation}

/-- The move of one tab, from the key of its buffer. -/
def moveOf (w : IdeWorkspace) (tab : EditorTabId × IdeLocation) : Move Str EditorTabId :=
  ⟨tab.1, (w.keyOf tab.1).getD [], tab.2.stableKey⟩

/-- The moves of a rename, in the order of the tabs. -/
def renameMoves (w : IdeWorkspace) (old new : IdeLocation) : List (Move Str EditorTabId) :=
  (w.remappedTabs old new).map w.moveOf

variable {f : EditorTab → EditorTab}

theorem ids_modifyFirst {p : EditorTab → Bool} (tabs : List EditorTab)
    (hf : ∀ tab, (f tab).id = tab.id) : (modifyFirst p f tabs).map (·.id) = tabs.map (·.id) := by
  induction tabs with
  | nil => rfl
  | cons tab rest ih =>
    rw [modifyFirst]
    split_ifs
    · simp only [List.map_cons, hf tab]
    · exact congrArg (tab.id :: ·) ih

theorem mem_modifyFirst {tabs : List EditorTab}
    (hnodup : (tabs.map (·.id)).Nodup) (h : tab ∈ modifyFirst (·.id = id) f tabs) :
    (∃ old ∈ tabs, old.id = id ∧ tab = f old) ∨ tab ∈ tabs ∧ tab.id ≠ id := by
  induction tabs with
  | nil => cases h
  | cons first rest ih =>
    rw [List.map_cons, List.nodup_cons] at hnodup
    rw [modifyFirst] at h
    split_ifs at h with heq
    · rw [decide_eq_true_eq] at heq
      rcases List.mem_cons.mp h with rfl | hmem
      · exact .inl ⟨first, List.mem_cons_self, heq, rfl⟩
      · refine .inr ⟨List.mem_cons_of_mem _ hmem, fun hsame => hnodup.1 ?_⟩
        rw [heq, ← hsame]
        exact List.mem_map_of_mem hmem
    · rw [decide_eq_true_eq] at heq
      rcases List.mem_cons.mp h with rfl | hmem
      · exact .inr ⟨List.mem_cons_self, heq⟩
      · rcases ih hnodup.2 hmem with ⟨old, hold, hid, rfl⟩ | ⟨hmem, hne⟩
        · exact .inl ⟨old, List.mem_cons_of_mem _ hold, hid, rfl⟩
        · exact .inr ⟨List.mem_cons_of_mem _ hmem, hne⟩

/-- What a rename keeps in any case: all but the index. -/
structure Aligned (w : IdeWorkspace) : Prop where
  tabIds : w.ids.Nodup
  buffers : ∀ id, id ∈ w.ids ↔ ∃ buffer, w.buffers.lookup id = some buffer
  locations : ∀ tab ∈ w.tabs, ∀ buffer, w.buffers.lookup tab.id = some buffer →
    buffer.location = tab.location
  active : ∀ id, w.activeTab = some id → id ∈ w.ids

theorem Consistent.aligned (h : w.Consistent) : w.Aligned :=
  ⟨h.tabIds, h.buffers, h.locations, h.active⟩

theorem Aligned.consistent_iff (h : w.Aligned) :
    w.Consistent ↔ Inverse w.tabByLocation.lookup w.keyOf :=
  ⟨fun hc => hc.index, fun hindex => ⟨h.tabIds, h.buffers, h.locations, hindex, h.active⟩⟩

section Retarget

theorem ids_retarget : (w.retarget (id, location)).ids = w.ids :=
  ids_modifyFirst _ fun _ => rfl

theorem lookup_retarget (hlookup : w.buffers.lookup id = some buffer) (id' : EditorTabId) :
    (w.retarget (id, location)).buffers.lookup id' =
      if id' = id then some { buffer with location } else w.buffers.lookup id' := by
  show (w.buffers.modify id _).lookup id' = _
  rw [Map.lookup_modify]
  split_ifs
  · rw [hlookup, Option.map_some]
  · rfl

theorem Aligned.retarget (h : w.Aligned) (hlookup : w.buffers.lookup id = some buffer) :
    (w.retarget (id, location)).Aligned := by
  refine ⟨by rw [ids_retarget]; exact h.tabIds, fun id' => ?_, fun tab htab found hfound => ?_,
    fun id' hid' => by rw [ids_retarget]; exact h.active id' hid'⟩
  · rw [ids_retarget, lookup_retarget hlookup, h.buffers id']
    split_ifs with heq
    · rw [heq]
      exact iff_of_true ⟨buffer, hlookup⟩ ⟨_, rfl⟩
    · exact Iff.rfl
  · rw [lookup_retarget hlookup] at hfound
    rcases mem_modifyFirst h.tabIds htab with ⟨old, -, hid, rfl⟩ | ⟨htab, hne⟩
    · rw [if_pos hid] at hfound
      cases hfound
      rfl
    · rw [if_neg hne] at hfound
      exact h.locations tab htab found hfound

theorem index_retarget (hlookup : w.buffers.lookup id = some buffer) :
    (w.retarget (id, location)).tabByLocation.lookup =
      moveIn w.tabByLocation.lookup (w.moveOf (id, location)) := by
  funext key
  have hold : (w.moveOf (id, location)).old = buffer.location.stableKey := by
    rw [moveOf, keyOf, hlookup]
    rfl
  rw [moveIn, hold, update_apply, update_apply]
  simp only [IdeWorkspace.retarget, hlookup, Map.lookup_insert_eq, Map.lookup_erase_eq]
  rfl

theorem keyOf_retarget (hlookup : w.buffers.lookup id = some buffer) :
    (w.retarget (id, location)).keyOf = rekey w.keyOf (w.moveOf (id, location)) := by
  funext id'
  rw [rekey, update_apply, keyOf, lookup_retarget hlookup]
  show _ = if id' = id then _ else _
  split_ifs
  · rfl
  · rfl

theorem CleanIn.retarget (hclean : w.CleanIn disk) (hlookup : w.buffers.lookup id = some buffer) :
    (w.retarget (id, location)).CleanIn disk := by
  intro id' found hfound hdirty
  rw [lookup_retarget hlookup] at hfound
  split_ifs at hfound with heq
  · cases hfound
    exact heq ▸ hclean id buffer hlookup hdirty
  · exact hclean id' found hfound hdirty

end Retarget

theorem retarget_foldl (h : w.Aligned) {tabs : List (EditorTabId × IdeLocation)}
    (hnodup : (tabs.map Prod.fst).Nodup) (hopen : ∀ tab ∈ tabs, tab.1 ∈ w.ids) :
    (tabs.foldl retarget w).Aligned ∧
      (∀ disk, w.CleanIn disk → (tabs.foldl retarget w).CleanIn disk) ∧
      (tabs.foldl retarget w).tabByLocation.lookup =
        moved w.tabByLocation.lookup (tabs.map w.moveOf) ∧
      (tabs.foldl retarget w).keyOf = rekeyed w.keyOf (tabs.map w.moveOf) ∧
      (tabs.foldl retarget w).ids = w.ids ∧ (tabs.foldl retarget w).project = w.project ∧
      (tabs.foldl retarget w).pendingClose = w.pendingClose := by
  induction tabs generalizing w with
  | nil => exact ⟨h, fun _ hclean => hclean, rfl, rfl, rfl, rfl, rfl⟩
  | cons tab rest ih =>
    obtain ⟨id, location⟩ := tab
    rw [List.map_cons, List.nodup_cons] at hnodup
    obtain ⟨buffer, hlookup⟩ := (h.buffers id).mp (hopen _ List.mem_cons_self)
    have hmoves : rest.map (w.retarget (id, location)).moveOf = rest.map w.moveOf := by
      refine List.map_congr_left fun other hother => ?_
      have hmem : other.1 ∈ rest.map Prod.fst := List.mem_map_of_mem hother
      have hne : other.1 ≠ id := fun heq => hnodup.1 (heq ▸ hmem)
      simp only [moveOf, keyOf, lookup_retarget hlookup, if_neg hne]
    obtain ⟨haligned, hclean', hindex, hkey, hids, hproject, hpending⟩ :=
      ih (h.retarget hlookup) hnodup.2 fun other hother =>
        ids_retarget ▸ hopen other (List.mem_cons_of_mem _ hother)
    rw [hmoves, index_retarget hlookup] at hindex
    rw [hmoves, keyOf_retarget hlookup] at hkey
    exact ⟨haligned, fun disk hclean => hclean' disk (hclean.retarget hlookup), hindex, hkey,
      hids.trans ids_retarget, hproject, hpending⟩

theorem affected_subset : w.affectedTabsUnder old ⊆ w.ids := fun id hid => by
  obtain ⟨tab, htab, rfl⟩ := List.mem_map.mp hid
  exact List.mem_map_of_mem (List.mem_of_mem_filter htab)

theorem fst_remappedTabs : ((w.remappedTabs old new).map Prod.fst).Sublist
    (w.affectedTabsUnder old) := by
  unfold remappedTabs
  induction w.affectedTabsUnder old with
  | nil => exact List.Sublist.refl _
  | cons id rest ih =>
    rw [List.filterMap_cons]
    split
    · exact ih.cons id
    · next moved hmoved =>
        obtain ⟨tab, -, hmoved⟩ := Option.bind_eq_some_iff.mp hmoved
        obtain ⟨location, -, rfl⟩ := Option.map_eq_some_iff.mp hmoved
        exact ih.cons_cons id

theorem findTab_of_mem (hnodup : w.ids.Nodup) (htab : tab ∈ w.tabs) :
    w.findTab tab.id = some tab := by
  have hsome : (w.findTab tab.id).isSome := List.find?_isSome.mpr ⟨tab, htab, by simp⟩
  obtain ⟨found, hfound⟩ := Option.isSome_iff_exists.mp hsome
  have hid : found.id = tab.id := by simpa using List.find?_some hfound
  rw [hfound, List.inj_on_of_nodup_map hnodup (List.mem_of_find?_eq_some hfound) htab hid]

variable {r : List EditorTabId × IdeWorkspace}

theorem mem_remappedTabs_iff (hnodup : w.ids.Nodup) :
    (id, location) ∈ w.remappedTabs old new ↔
      ∃ tab ∈ w.tabs, tab.id = id ∧ locationIsUnder tab.location old = true ∧
        remapLocationUnder tab.location old new = some location := by
  unfold remappedTabs affectedTabsUnder
  rw [List.mem_filterMap]
  constructor
  · rintro ⟨id', hid', hmoved⟩
    obtain ⟨tab, htab, rfl⟩ := List.mem_map.mp hid'
    obtain ⟨htab, hunder⟩ := List.mem_filter.mp htab
    rw [findTab_of_mem hnodup htab, Option.bind_some] at hmoved
    obtain ⟨location', hlocation, heq⟩ := Option.map_eq_some_iff.mp hmoved
    obtain ⟨rfl, rfl⟩ := Prod.mk.inj heq
    exact ⟨tab, htab, rfl, hunder, hlocation⟩
  · rintro ⟨tab, htab, rfl, hunder, hlocation⟩
    refine ⟨tab.id, List.mem_map_of_mem (List.mem_filter.mpr ⟨htab, hunder⟩), ?_⟩
    rw [findTab_of_mem hnodup htab, Option.bind_some, hlocation, Option.map_some]

theorem mem_remappedTabs (hnodup : w.ids.Nodup) {moved : EditorTabId × IdeLocation}
    (hmoved : moved ∈ w.remappedTabs old new) (hid : id ∈ w.affectedTabsUnder old) :
    ∃ location, (id, location) ∈ w.remappedTabs old new := by
  obtain ⟨tab, -, -, hunder, hlocation⟩ := (mem_remappedTabs_iff hnodup).mp hmoved
  have hplace : SamePlace old new :=
    (remap_isSome_iff hunder).mp (Option.isSome_iff_exists.mpr ⟨_, hlocation⟩)
  obtain ⟨tab', htab', rfl⟩ := List.mem_map.mp hid
  obtain ⟨htab', hunder'⟩ := List.mem_filter.mp htab'
  obtain ⟨location, hlocation'⟩ := Option.isSome_iff_exists.mp ((remap_isSome_iff hunder').mpr hplace)
  exact ⟨location, (mem_remappedTabs_iff hnodup).mpr ⟨tab', htab', rfl, hunder', hlocation'⟩⟩

/-- A rename that is not blocked moves no tab to the key of a tab it does not move. -/
theorem free_of_not_blocked (h : w.Consistent) (hfree : w.renameBlocked old new = false) :
    ∀ m ∈ w.renameMoves old new, ∀ id ∉ (w.renameMoves old new).map (·.thing),
      w.keyOf id ≠ some m.new := by
  intro m hm id hid hkey
  obtain ⟨moved, hmoved, rfl⟩ := List.mem_map.mp hm
  have hthings : (w.renameMoves old new).map (·.thing) = (w.remappedTabs old new).map Prod.fst := by
    rw [renameMoves, List.map_map]
    rfl
  rw [hthings] at hid
  have hfound := (h.index _ _).mpr hkey
  have hnot := List.any_eq_false.mp hfree moved hmoved
  have hlookup : w.tabByLocation.lookup moved.2.stableKey = some id := hfound
  simp only [hlookup, decide_eq_true_eq, not_and, not_not] at hnot
  have hne : id ≠ moved.1 := fun heq => hid (heq ▸ List.mem_map_of_mem hmoved)
  obtain ⟨location, hlocation⟩ := mem_remappedTabs h.tabIds hmoved (hnot hne)
  exact hid (List.mem_map.mpr ⟨_, hlocation, rfl⟩)

theorem renameTabsUnder_ok (hok : w.renameTabsUnder old new = .ok r) :
    r.2 = (w.remappedTabs old new).foldl retarget w ∧
      (w.affectedTabsUnder old = [] ∨ w.renameBlocked old new = false) := by
  unfold renameTabsUnder at hok
  dsimp only at hok
  split_ifs at hok with hnone hblocked
  · cases hok
    refine ⟨?_, .inl hnone⟩
    rw [remappedTabs, hnone]
    rfl
  · cases hok
    exact ⟨rfl, .inr (Bool.not_eq_true _ ▸ hblocked)⟩

theorem remappedTabs_open (h : w.Consistent) :
    ((w.remappedTabs old new).map Prod.fst).Nodup ∧
      ∀ moved ∈ w.remappedTabs old new, moved.1 ∈ w.ids :=
  ⟨(h.tabIds.sublist (List.filter_sublist.map _)).sublist fst_remappedTabs,
    fun _ hmoved => affected_subset ((fst_remappedTabs).subset (List.mem_map_of_mem hmoved))⟩

theorem renameTabsUnder_consistent_iff (h : w.Consistent)
    (hok : w.renameTabsUnder old new = .ok r) :
    r.2.Consistent ↔ (w.renameMoves old new).Pairwise Clear := by
  obtain ⟨hr, hfree⟩ := renameTabsUnder_ok hok
  obtain ⟨hnodup, hopen⟩ := @remappedTabs_open _ old new h
  obtain ⟨haligned, -, hindex, hkey, -⟩ := retarget_foldl h.aligned hnodup hopen
  have hthings : ((w.renameMoves old new).map (·.thing)).Nodup := by
    rw [renameMoves, List.map_map]
    exact hnodup
  have hold : ∀ m ∈ w.renameMoves old new, w.keyOf m.thing = some m.old := by
    intro m hm
    obtain ⟨moved, hmoved, rfl⟩ := List.mem_map.mp hm
    obtain ⟨buffer, hlookup⟩ := (h.buffers _).mp (hopen moved hmoved)
    simp only [moveOf, keyOf, hlookup, Option.map_some, Option.getD_some]
  have hfree' : ∀ m ∈ w.renameMoves old new, ∀ id ∉ (w.renameMoves old new).map (·.thing),
      w.keyOf id ≠ some m.new := by
    rcases hfree with hnone | hfree
    · have hempty : w.renameMoves old new = [] := by
        rw [renameMoves, remappedTabs, hnone]
        rfl
      rw [hempty]
      exact fun m hm => absurd hm List.not_mem_nil
    · exact free_of_not_blocked h hfree
  rw [hr, haligned.consistent_iff, hindex, hkey]
  exact inverse_moved_iff h.index hthings hold hfree'

theorem renameTabsUnder_gentle (h : w.Consistent) (hclean : w.CleanIn disk)
    (hok : w.renameTabsUnder old new = .ok r) (hconsistent : r.2.Consistent) :
    Gentle newId w r.2 disk := by
  obtain ⟨hr, -⟩ := renameTabsUnder_ok hok
  obtain ⟨hnodup, hopen⟩ := @remappedTabs_open _ old new h
  obtain ⟨haligned, hclean', -, -, hids, hproject, hpending⟩ := retarget_foldl h.aligned hnodup hopen
  rw [hr] at hconsistent ⊢
  refine ⟨hconsistent, hclean' disk hclean, fun id buffer hlookup hnone => ?_, hproject, ?_,
    fun request hrequest => .inl (hpending ▸ hrequest)⟩
  · obtain ⟨found, hfound⟩ := (haligned.buffers id).mp (hids ▸ h.open_of_lookup hlookup)
    rw [hnone] at hfound
    cases hfound
  · rw [hids]
    exact fun _ hid => hid

end Renaming

/-! ## 8. Restoring -/

section Restoring

variable {source : IdeWorkspace} {snapshot : WorkspaceSnapshot}

theorem snapshot_ok (h : source.snapshot = .ok snapshot) :
    source.project = some snapshot.project ∧ snapshot.tabs = source.tabs ∧
      snapshot.activeTab = source.activeTab ∧
      snapshot.buffers = source.tabs.filterMap source.exportBuffer := by
  unfold IdeWorkspace.snapshot at h
  cases hproject : source.project with
  | none => rw [hproject] at h; cases h
  | some project =>
    rw [hproject] at h
    cases h
    exact ⟨rfl, rfl, rfl, rfl⟩

section

variable (h : source.Consistent)

include h

theorem mem_exported : (∃ exported ∈ source.tabs.filterMap source.exportBuffer,
      exported.tabId = id ∧ exported.toEditorBuffer = buffer) ↔
      source.buffers.lookup id = some buffer := by
  constructor
  · rintro ⟨exported, hmem, rfl, rfl⟩
    obtain ⟨tab, -, hexported⟩ := List.mem_filterMap.mp hmem
    obtain ⟨buffer, hlookup, rfl⟩ := Option.map_eq_some_iff.mp hexported
    exact hlookup
  · intro hlookup
    obtain ⟨tab, htab, rfl⟩ := List.mem_map.mp (h.open_of_lookup hlookup)
    refine ⟨{ buffer with tabId := tab.id }, List.mem_filterMap.mpr ⟨tab, htab, ?_⟩, rfl, rfl⟩
    rw [exportBuffer, hlookup, Option.map_some]

theorem lookup_restored_buffers (id : EditorTabId) :
    (Map.insertAll ∅ ((source.tabs.filterMap source.exportBuffer).map fun buffer =>
      (buffer.tabId, buffer.toEditorBuffer))).lookup id = source.buffers.lookup id := by
  have hmem : ∀ {id buffer}, (id, buffer) ∈ (source.tabs.filterMap source.exportBuffer).map
      (fun buffer => (buffer.tabId, buffer.toEditorBuffer)) ↔
        source.buffers.lookup id = some buffer := by
    intro id buffer
    rw [← mem_exported h, List.mem_map]
    simp only [Prod.mk.injEq]
  refine Option.ext fun buffer => ?_
  rw [Map.lookup_insertAll_iff fun hfound hfound' =>
    Option.some.inj ((hmem.mp hfound').symm.trans (hmem.mp hfound)), hmem]
  exact or_iff_left fun hnone => by cases hnone.2

theorem lookup_restored_keys (key : Str) :
    (Map.insertAll ∅ ((source.tabs.filterMap source.exportBuffer).map fun buffer =>
      (buffer.location.stableKey, buffer.tabId))).lookup key = source.tabByLocation.lookup key := by
  have hmem : ∀ {key id}, (key, id) ∈ (source.tabs.filterMap source.exportBuffer).map
      (fun buffer => (buffer.location.stableKey, buffer.tabId)) ↔ source.keyOf id = some key := by
    intro key id
    rw [keyOf, Option.map_eq_some_iff, List.mem_map]
    constructor
    · rintro ⟨exported, hexported, heq⟩
      obtain ⟨rfl, rfl⟩ := Prod.mk.inj heq
      exact ⟨_, (mem_exported h).mp ⟨exported, hexported, rfl, rfl⟩, rfl⟩
    · rintro ⟨buffer, hlookup, rfl⟩
      obtain ⟨exported, hexported, rfl, rfl⟩ := (mem_exported h).mpr hlookup
      exact ⟨exported, hexported, rfl⟩
  refine Option.ext fun id => ?_
  rw [Map.lookup_insertAll_iff fun hfound hfound' =>
    h.index.inj (hmem.mp hfound') (hmem.mp hfound) |>.symm ▸ rfl, hmem, h.index key id]
  exact or_iff_left fun hnone => by cases hnone.2

/-- A snapshot of a consistent workspace brings its tabs, buffers and index back. -/
theorem restoreSnapshot_cases (hsnapshot : source.snapshot = .ok snapshot) :
    (w.restoreSkip snapshot).isSome = true ∨
    w.restoreSkip snapshot = none ∧ (w.restoreSnapshot snapshot).2.Consistent ∧
      (w.restoreSnapshot snapshot).2.ids = source.ids ∧
      (∀ id, (w.restoreSnapshot snapshot).2.buffers.lookup id = source.buffers.lookup id) ∧
      (w.restoreSnapshot snapshot).2.project = source.project ∧
      (w.restoreSnapshot snapshot).2.pendingClose = none := by
  unfold restoreSnapshot
  cases hskip : w.restoreSkip snapshot with
  | some reason => exact .inl rfl
  | none =>
    obtain ⟨hproject, htabs, hactive, hexported⟩ := snapshot_ok hsnapshot
    refine .inr ⟨rfl, ?_, ?_, fun id => ?_, hproject.symm, rfl⟩
    · dsimp only
      rw [htabs, hactive, hexported]
      refine ⟨h.tabIds, fun id => ?_, fun tab htab buffer hlookup => ?_, fun key id => ?_, h.active⟩
      · dsimp only
        rw [lookup_restored_buffers h]
        exact h.buffers id
      · dsimp only at hlookup
        rw [lookup_restored_buffers h] at hlookup
        exact h.locations tab htab buffer hlookup
      · dsimp only [keyOf]
        rw [lookup_restored_keys h, lookup_restored_buffers h]
        exact h.index key id
    · show snapshot.tabs.map (·.id) = source.ids
      rw [htabs, ids]
    · dsimp only
      rw [hexported]
      exact lookup_restored_buffers h id

end

theorem clean_of_restored (hskip : w.restoreSkip snapshot = none)
    (hproject : w.project.isSome = true) (hlookup : w.buffers.lookup id = some buffer) :
    buffer.isDirty = false := by
  unfold restoreSkip at hskip
  dsimp only at hskip
  obtain ⟨project, hsome⟩ := Option.isSome_iff_exists.mp hproject
  rw [hsome] at hskip
  dsimp only at hskip
  split_ifs at hskip with _ _ hdirty
  exact hasDirtyBuffers_eq_false.mp (Bool.not_eq_true _ ▸ hdirty) id buffer hlookup

end Restoring

end IdeWorkspace

end Hapcli.Ide
