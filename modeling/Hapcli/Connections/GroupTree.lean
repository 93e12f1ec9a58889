/-
  Subject:   The groups of session assets as a tree of paths.

  * `movedGroup`, **`movedGroup_injOn`** -- where a rename sends a path, and that it merges none;
  * `GroupsConsistent` -- no group twice, and every group an asset names is one of them;
    **`normalizeData_consistent`** -- from the first half `normalize` makes the whole;
  * `RenamesExactly`, **`renameGroupData_exact`**, `renameGroupData_consistent` -- what a rename does.
-/
import Hapcli.Connections.Runs

namespace Hapcli.Connections

open Hapcli.Lib Hapcli.Rust

/-! ## 1. Trimmed texts -/

theorem dropWhile_of_prefix {p : Char → Bool} {s t : Str} (h : t <+: s.dropWhile p) :
    t.dropWhile p = t := by
  cases t with
  | nil => rfl
  | cons c t =>
    obtain ⟨rest, hrest⟩ := h
    have hne : s.dropWhile p ≠ [] := by
      rw [← hrest]
      exact List.cons_ne_nil _ _
    have hhead : (s.dropWhile p).head hne = c := by
      simp only [← hrest, List.cons_append, List.head_cons]
    have hc : p c = false := by
      have hnot := List.head_dropWhile_not p hne
      rwa [hhead] at hnot
    rw [List.dropWhile_cons_of_neg (by simp [hc])]

theorem trim_trim (s : Str) : trim (trim s) = trim s := by
  have hback : ((s.dropWhile isWhitespace).reverse.dropWhile isWhitespace).reverse <+:
      s.dropWhile isWhitespace := by
    rw [← List.reverse_suffix, List.reverse_reverse]
    exact List.dropWhile_suffix _
  have hfront : (trim s).dropWhile isWhitespace = trim s := dropWhile_of_prefix hback
  show (((trim s).dropWhile isWhitespace).reverse.dropWhile isWhitespace).reverse = trim s
  rw [hfront]
  show (((((s.dropWhile isWhitespace).reverse.dropWhile isWhitespace).reverse).reverse).dropWhile
    isWhitespace).reverse = _
  rw [List.reverse_reverse, dropWhile_of_prefix (List.prefix_refl _)]
  rfl

namespace ConnectionStore

variable {group name newName oldName : Str} {groups : List Str}

theorem validateGroupName_idem (h : validateGroupName name = .ok group) :
    validateGroupName group = .ok group := by
  unfold validateGroupName at h
  split at h
  · cases h
  · split at h
    · cases h
    · next hempty hsegments =>
        cases h
        unfold validateGroupName
        rw [trim_trim, if_neg hempty, if_neg hsegments]

theorem normalizeOptionalGroupName_valid {group : Option Str}
    (h : normalizeOptionalGroupName group = .ok (some name)) :
    validateGroupName name = .ok name := by
  unfold normalizeOptionalGroupName at h
  split at h
  · cases h
  · split at h
    · cases h
    · next group _ _ =>
        cases hvalid : validateGroupName group with
        | error e =>
          rw [hvalid] at h
          cases h
        | ok valid =>
          rw [hvalid] at h
          cases h
          exact validateGroupName_idem hvalid

/-! ## 2. Paths -/

theorem groupPathIsWithin_iff {candidate : Str} :
    groupPathIsWithin candidate group = true ↔
      ∃ suffix, candidate = group ++ suffix ∧ (suffix = [] ∨ suffix.head? = some '/') := by
  simp only [groupPathIsWithin, Bool.or_eq_true, beq_iff_eq, Bool.and_eq_true,
    List.isPrefixOf_iff_prefix]
  constructor
  · rintro (rfl | ⟨⟨suffix, rfl⟩, hhead⟩)
    · exact ⟨[], by simp, .inl rfl⟩
    · rw [List.drop_left] at hhead
      exact ⟨suffix, rfl, .inr hhead⟩
  · rintro ⟨suffix, rfl, rfl | hhead⟩
    · exact .inl (by simp)
    · refine .inr ⟨⟨suffix, rfl⟩, ?_⟩
      rw [List.drop_left]
      exact hhead

/-- Where a rename sends a path: below the new group what was below the old, the rest nowhere. -/
def movedGroup (oldName newName group : Str) : Str :=
  (renameGroupPath group oldName newName).getD group

theorem movedGroup_within {suffix : Str}
    (h : groupPathIsWithin (oldName ++ suffix) oldName = true) :
    movedGroup oldName newName (oldName ++ suffix) = newName ++ suffix := by
  simp [movedGroup, renameGroupPath, h]

theorem movedGroup_outside (h : groupPathIsWithin group oldName = false) :
    movedGroup oldName newName group = group := by
  simp [movedGroup, renameGroupPath, h]

theorem movedGroup_self (name group : Str) : movedGroup name name group = group := by
  cases h : groupPathIsWithin group name with
  | false => exact movedGroup_outside h
  | true =>
    obtain ⟨suffix, rfl, -⟩ := (groupPathIsWithin_iff).mp h
    exact movedGroup_within h

/-- What `rename_group` asks of the groups: those at or below the new path are at or below the old
    one, and move away. -/
def DestinationFree (oldName newName : Str) (groups : List Str) : Prop :=
  ∀ group ∈ groups, groupPathIsWithin group newName = true → groupPathIsWithin group oldName = true

theorem movedGroup_injOn (h : DestinationFree oldName newName groups) :
    Set.InjOn (movedGroup oldName newName) {group | group ∈ groups} := by
  -- a moved path and one that stays cannot meet: the one that stays would be in the way
  have hapart : ∀ {g g'}, g' ∈ groups → groupPathIsWithin g oldName = true →
      groupPathIsWithin g' oldName = false →
      movedGroup oldName newName g ≠ movedGroup oldName newName g' := by
    intro g g' hg' hin hout heq
    obtain ⟨suffix, rfl, hsuffix⟩ := (groupPathIsWithin_iff).mp hin
    rw [movedGroup_within hin, movedGroup_outside hout] at heq
    have hnew : groupPathIsWithin g' newName = true :=
      (groupPathIsWithin_iff).mpr ⟨suffix, heq.symm, hsuffix⟩
    rw [h g' hg' hnew] at hout
    cases hout
  intro g hg g' hg' heq
  cases hin : groupPathIsWithin g oldName with
  | true =>
    cases hin' : groupPathIsWithin g' oldName with
    | true =>
      obtain ⟨suffix, rfl, -⟩ := (groupPathIsWithin_iff).mp hin
      obtain ⟨suffix', rfl, -⟩ := (groupPathIsWithin_iff).mp hin'
      rw [movedGroup_within hin, movedGroup_within hin'] at heq
      rw [List.append_cancel_left heq]
    | false => exact absurd heq (hapart hg' hin hin')
  | false =>
    cases hin' : groupPathIsWithin g' oldName with
    | true => exact absurd heq.symm (hapart hg hin' hin)
    | false => rwa [movedGroup_outside hin, movedGroup_outside hin'] at heq

/-! ## 3. Consistent groups -/

/-- No group twice, and every group an asset names is one of them. -/
structure GroupsConsistent (d : ConnectionStoreData) : Prop where
  nodup : d.groups.Nodup
  covers : ∀ group ∈ assetGroups d, group ∈ d.groups

theorem mem_pushGroup {g : Str} : g ∈ pushGroup groups group ↔ g ∈ groups ∨ g = group := by
  unfold pushGroup
  split
  · next hmem => exact ⟨.inl, fun h => h.elim id fun heq => heq ▸ hmem⟩
  · simp

theorem nodup_pushGroup (h : groups.Nodup) (group : Str) : (pushGroup groups group).Nodup := by
  unfold pushGroup
  split
  · exact h
  · next hnot => exact List.nodup_append.mpr ⟨h, List.nodup_singleton _, by
      rintro a ha b hb rfl
      exact hnot (List.mem_singleton.mp hb ▸ ha)⟩

theorem mem_foldl_pushGroup {names : List Str} {g : Str} :
    g ∈ names.foldl pushGroup groups ↔ g ∈ groups ∨ g ∈ names := by
  induction names generalizing groups with
  | nil => simp
  | cons name names ih => rw [List.foldl_cons, ih, mem_pushGroup, List.mem_cons, or_assoc]

theorem nodup_foldl_pushGroup (h : groups.Nodup) (names : List Str) :
    (names.foldl pushGroup groups).Nodup := by
  induction names generalizing groups with
  | nil => exact h
  | cons name names ih => exact ih (nodup_pushGroup h name)

theorem foldl_pushGroup_of_mem {names : List Str} (h : ∀ name ∈ names, name ∈ groups) :
    names.foldl pushGroup groups = groups := by
  induction names with
  | nil => rfl
  | cons name names ih =>
    have hname : pushGroup groups name = groups := if_pos (h name List.mem_cons_self)
    rw [List.foldl_cons, hname]
    exact ih fun name hname => h name (List.mem_cons_of_mem _ hname)

variable (io : Io)

variable {α : Type}

theorem filterMap_group_sorted (name : α → Str) (group : α → Option Str) (l : List α) :
    ((sortByLowercase io name l).filterMap group).Perm (l.filterMap group) :=
  (sortByLowercase_perm io name l).filterMap group

variable (now : Time)

theorem assetGroups_normalizeData (d : ConnectionStoreData) :
    (assetGroups (normalizeData io now d)).Perm (assetGroups d) := by
  have hconn : ((normalizeData io now d).connections.filterMap (·.group)).Perm
      (d.connections.filterMap (·.group)) := by
    have hperm := filterMap_group_sorted io (·.name) (·.group)
      (d.connections.map movePostConnectCommand)
    rwa [List.filterMap_map] at hperm
  have hserial : ((normalizeData io now d).serialProfiles.filterMap (·.group)).Perm
      (d.serialProfiles.filterMap (·.group)) := filterMap_group_sorted io _ _ _
  have htelnet : ((normalizeData io now d).telnetProfiles.filterMap (·.group)).Perm
      (d.telnetProfiles.filterMap (·.group)) := filterMap_group_sorted io _ _ _
  have hremote : ((normalizeData io now d).remoteDesktopProfiles.filterMap (·.group)).Perm
      (d.remoteDesktopProfiles.filterMap (·.group)) := filterMap_group_sorted io _ _ _
  exact hconn.append ((hserial.append htelnet).append hremote)

theorem destutter_sorted {d : ConnectionStoreData} (h : d.groups.Nodup) :
    ((sortByLowercase io (fun group => group) d.groups).destutter (· ≠ ·)) =
      sortByLowercase io (fun group => group) d.groups := by
  have hnodup : (sortByLowercase io (fun group => group) d.groups).Nodup :=
    (sortByLowercase_perm io _ _).nodup_iff.mpr h
  exact List.destutter_of_isChain _ _ (List.Pairwise.isChain hnodup)

theorem normalizeData_consistent {d : ConnectionStoreData} (h : d.groups.Nodup) :
    GroupsConsistent (normalizeData io now d) where
  nodup := by
    refine nodup_foldl_pushGroup ?_ _
    rw [destutter_sorted io h]
    exact (sortByLowercase_perm io _ _).nodup_iff.mpr h
  covers group hgroup :=
    (mem_foldl_pushGroup).mpr (.inr ((assetGroups_normalizeData io now d).mem_iff.mp hgroup))

theorem groups_normalizeData {d : ConnectionStoreData} (h : GroupsConsistent d) :
    (normalizeData io now d).groups.Perm d.groups := by
  have hsorted := sortByLowercase_perm io (fun group => group) d.groups
  show ((assetGroups d).foldl pushGroup _).Perm _
  rw [destutter_sorted io h.nodup, foldl_pushGroup_of_mem]
  · exact hsorted
  · exact fun group hgroup => hsorted.mem_iff.mpr (h.covers group hgroup)

/-! ## 4. Assets come and go -/

variable {d d' : ConnectionStoreData}

theorem GroupsConsistent.shrink (h : GroupsConsistent d) (hgroups : d'.groups = d.groups)
    (hassets : ∀ group ∈ assetGroups d', group ∈ assetGroups d) : GroupsConsistent d' where
  nodup := hgroups ▸ h.nodup
  covers group hgroup := hgroups ▸ h.covers group (hassets group hgroup)

theorem assetGroups_mono {p : Str → Prop}
    (hconn : ∀ group ∈ d.connections.filterMap (·.group), p group)
    (hserial : ∀ group ∈ d.serialProfiles.filterMap (·.group), p group)
    (htelnet : ∀ group ∈ d.telnetProfiles.filterMap (·.group), p group)
    (hremote : ∀ group ∈ d.remoteDesktopProfiles.filterMap (·.group), p group) :
    ∀ group ∈ assetGroups d, p group := by
  intro group hgroup
  simp only [assetGroups, List.mem_append] at hgroup
  rcases hgroup with hgroup | (hgroup | hgroup) | hgroup
  · exact hconn group hgroup
  · exact hserial group hgroup
  · exact htelnet group hgroup
  · exact hremote group hgroup

theorem mem_assetGroups_connections (h : group ∈ d.connections.filterMap (·.group)) :
    group ∈ assetGroups d :=
  List.mem_append_left _ h

theorem mem_assetGroups_serial (h : group ∈ d.serialProfiles.filterMap (·.group)) :
    group ∈ assetGroups d :=
  List.mem_append_right _ (List.mem_append_left _ (List.mem_append_left _ h))

theorem mem_assetGroups_telnet (h : group ∈ d.telnetProfiles.filterMap (·.group)) :
    group ∈ assetGroups d :=
  List.mem_append_right _ (List.mem_append_left _ (List.mem_append_right _ h))

theorem mem_assetGroups_remoteDesktop (h : group ∈ d.remoteDesktopProfiles.filterMap (·.group)) :
    group ∈ assetGroups d :=
  List.mem_append_right _ (List.mem_append_right _ h)

theorem mem_filterMap_sublist {group : α → Option Str} {l l' : List α}
    (h : l'.Sublist l) : ∀ g ∈ l'.filterMap group, g ∈ l.filterMap group :=
  fun _ hg => (h.filterMap group).subset hg

theorem modifyFirst_map {β : Type} {p : α → Bool} {f : α → α} {look : α → β}
    (h : ∀ a, look (f a) = look a) (l : List α) : (modifyFirst p f l).map look = l.map look := by
  induction l with
  | nil => rfl
  | cons a l ih =>
    simp only [modifyFirst]
    split
    · simp [h]
    · simp [ih]

theorem modifyFirst_filterMap {β : Type} {p : α → Bool} {f : α → α} {look : α → Option β}
    (h : ∀ a, look (f a) = look a) (l : List α) :
    (modifyFirst p f l).filterMap look = l.filterMap look := by
  have hmap := congrArg (List.filterMap id) (modifyFirst_map (p := p) h l)
  rwa [List.filterMap_map, List.filterMap_map] at hmap

theorem GroupsConsistent.add {connection : SavedConnection} (h : GroupsConsistent d)
    (hgroup : ∀ group, connection.group = some group → group ∈ d.groups) :
    GroupsConsistent (addConnection connection d) where
  nodup := h.nodup
  covers := by
    refine assetGroups_mono ?_ (fun g hg => h.covers g (mem_assetGroups_serial hg))
      (fun g hg => h.covers g (mem_assetGroups_telnet hg))
      fun g hg => h.covers g (mem_assetGroups_remoteDesktop hg)
    intro g hg
    obtain ⟨conn, hconn, hname⟩ := List.mem_filterMap.mp hg
    rcases List.mem_append.mp hconn with hconn | hconn
    · refine h.covers g (mem_assetGroups_connections ?_)
      exact List.mem_filterMap.mpr ⟨conn, List.mem_of_mem_filter hconn, hname⟩
    · rw [List.mem_singleton.mp hconn] at hname
      exact hgroup g hname

/-! ## 5. A rename -/

/-- **A rename moves what is at or below the old path, groups and assets, and nothing else.** -/
structure RenamesExactly (oldName newName : Str) (d d' : ConnectionStoreData) : Prop where
  groups : d'.groups.Perm (d.groups.map (movedGroup oldName newName))
  connections : (d'.connections.map fun a => (a.id, a.group)).Perm
    (d.connections.map fun a => (a.id, a.group.map (movedGroup oldName newName)))
  serialProfiles : (d'.serialProfiles.map fun a => (a.id, a.group)).Perm
    (d.serialProfiles.map fun a => (a.id, a.group.map (movedGroup oldName newName)))
  telnetProfiles : (d'.telnetProfiles.map fun a => (a.id, a.group)).Perm
    (d.telnetProfiles.map fun a => (a.id, a.group.map (movedGroup oldName newName)))
  remoteDesktopProfiles : (d'.remoteDesktopProfiles.map fun a => (a.id, a.group)).Perm
    (d.remoteDesktopProfiles.map fun a => (a.id, a.group.map (movedGroup oldName newName)))

theorem renamedGroup_cases (oldName newName : Str) (group : Option Str) :
    (renamedGroup oldName newName group = none ∧
        group.map (movedGroup oldName newName) = group) ∨
      ∃ renamed, renamedGroup oldName newName group = some renamed ∧
        group.map (movedGroup oldName newName) = some renamed := by
  cases group with
  | none => exact .inl ⟨rfl, rfl⟩
  | some group =>
    cases h : renameGroupPath group oldName newName with
    | none => exact .inl ⟨h, by simp [movedGroup, h]⟩
    | some renamed => exact .inr ⟨renamed, h, by simp [movedGroup, h]⟩

theorem renamedAssets {group : α → Option Str} {id : α → Str} (regroup : α → Str → α)
    (hid : ∀ a renamed, id (regroup a renamed) = id a)
    (hgroup : ∀ a renamed, group (regroup a renamed) = some renamed) (l : List α) :
    ((l.map fun a => match renamedGroup oldName newName (group a) with
        | some renamed => regroup a renamed
        | none => a).map fun a => (id a, group a)) =
      l.map fun a => (id a, (group a).map (movedGroup oldName newName)) := by
  rw [List.map_map]
  refine List.map_congr_left fun a _ => ?_
  rcases renamedGroup_cases oldName newName (group a) with ⟨hnone, hmap⟩ | ⟨renamed, hsome, hmap⟩
  · simp only [Function.comp_apply, hnone, hmap]
  · simp only [Function.comp_apply, hsome, hmap, hid, hgroup]

theorem renameGroupData_exact (oldName newName : Str) (d : ConnectionStoreData) :
    RenamesExactly oldName newName d (renameGroupData now oldName newName d) where
  groups := .refl _
  connections := .of_eq (renamedAssets
    (fun (conn : SavedConnection) renamed =>
      { conn with group := some renamed, updatedAt := some now })
    (fun _ _ => rfl) (fun _ _ => rfl) _)
  serialProfiles := .of_eq (renamedAssets
    (fun (profile : SerialProfile) renamed =>
      { profile with group := some renamed, updatedAt := now })
    (fun _ _ => rfl) (fun _ _ => rfl) _)
  telnetProfiles := .of_eq (renamedAssets
    (fun (profile : TelnetProfile) renamed =>
      { profile with group := some renamed, updatedAt := now })
    (fun _ _ => rfl) (fun _ _ => rfl) _)
  remoteDesktopProfiles := .of_eq (renamedAssets
    (fun (profile : RemoteDesktopProfile) renamed =>
      { profile with group := some renamed, updatedAt := now })
    (fun _ _ => rfl) (fun _ _ => rfl) _)

theorem RenamesExactly.normalize (h : RenamesExactly oldName newName d d')
    (hd' : GroupsConsistent d') :
    RenamesExactly oldName newName d (normalizeData io now d') where
  groups := (groups_normalizeData io now hd').trans h.groups
  connections :=
    ((normalizeData_tidied io now d').map_perm (f := fun a => (a.id, a.group)) fun _ => rfl).trans
      h.connections
  serialProfiles := ((sortByLowercase_perm io _ _).map _).trans h.serialProfiles
  telnetProfiles := ((sortByLowercase_perm io _ _).map _).trans h.telnetProfiles
  remoteDesktopProfiles := ((sortByLowercase_perm io _ _).map _).trans h.remoteDesktopProfiles

theorem mem_renamedAssets {group : α → Option Str} {id : α → Str}
    {l l' : List α} (h : (l'.map fun a => (id a, group a)).Perm
      (l.map fun a => (id a, (group a).map (movedGroup oldName newName)))) :
    ∀ g ∈ l'.filterMap group, ∃ g₀ ∈ l.filterMap group, g = movedGroup oldName newName g₀ := by
  intro g hg
  obtain ⟨a, ha, hname⟩ := List.mem_filterMap.mp hg
  have hpair : (id a, some g) ∈ l'.map fun a => (id a, group a) :=
    List.mem_map.mpr ⟨a, ha, by rw [hname]⟩
  obtain ⟨a₀, ha₀, heq⟩ := List.mem_map.mp (h.mem_iff.mp hpair)
  have hgroup : (group a₀).map (movedGroup oldName newName) = some g := congrArg Prod.snd heq
  obtain ⟨g₀, hg₀, hmoved⟩ := Option.map_eq_some_iff.mp hgroup
  exact ⟨g₀, List.mem_filterMap.mpr ⟨a₀, ha₀, hg₀⟩, hmoved.symm⟩

theorem renameGroupData_consistent (h : GroupsConsistent d)
    (hfree : DestinationFree oldName newName d.groups) :
    GroupsConsistent (renameGroupData now oldName newName d) where
  nodup := h.nodup.map_on fun _ hg _ hg' heq => movedGroup_injOn hfree hg hg' heq
  covers := by
    have hexact := renameGroupData_exact now oldName newName d
    have hmoved : ∀ {g}, (∃ g₀ ∈ assetGroups d, g = movedGroup oldName newName g₀) →
        g ∈ d.groups.map (movedGroup oldName newName) := by
      rintro g ⟨g₀, hg₀, rfl⟩
      exact List.mem_map_of_mem (h.covers g₀ hg₀)
    refine assetGroups_mono (fun g hg => hmoved ?_) (fun g hg => hmoved ?_)
      (fun g hg => hmoved ?_) fun g hg => hmoved ?_
    · obtain ⟨g₀, hg₀, heq⟩ := mem_renamedAssets hexact.connections g hg
      exact ⟨g₀, mem_assetGroups_connections hg₀, heq⟩
    · obtain ⟨g₀, hg₀, heq⟩ := mem_renamedAssets hexact.serialProfiles g hg
      exact ⟨g₀, mem_assetGroups_serial hg₀, heq⟩
    · obtain ⟨g₀, hg₀, heq⟩ := mem_renamedAssets hexact.telnetProfiles g hg
      exact ⟨g₀, mem_assetGroups_telnet hg₀, heq⟩
    · obtain ⟨g₀, hg₀, heq⟩ := mem_renamedAssets hexact.remoteDesktopProfiles g hg
      exact ⟨g₀, mem_assetGroups_remoteDesktop hg₀, heq⟩

/-! ## 6. A deletion -/

/-- No group and no asset at or below a path. -/
def ClearOf (name : Str) (d : ConnectionStoreData) : Prop :=
  ∀ group, group ∈ d.groups ∨ group ∈ assetGroups d → groupPathIsWithin group name = false

theorem mem_clearedAssets {group : α → Option Str} {ungroup : α → α}
    (hungroup : ∀ a, group (ungroup a) = none) {l : List α} :
    ∀ g ∈ (l.map fun a => if outOfGroup name (group a) then ungroup a else a).filterMap group,
      g ∈ l.filterMap group ∧ groupPathIsWithin g name = false := by
  intro g hg
  obtain ⟨a', ha', hname⟩ := List.mem_filterMap.mp hg
  obtain ⟨a, ha, rfl⟩ := List.mem_map.mp ha'
  by_cases hout : outOfGroup name (group a) = true
  · rw [if_pos hout, hungroup] at hname
    cases hname
  · rw [if_neg hout] at hname
    refine ⟨List.mem_filterMap.mpr ⟨a, ha, hname⟩, ?_⟩
    rw [hname] at hout
    exact Bool.eq_false_iff.mpr hout

theorem assetGroups_deleteGroupData {now : Time} :
    ∀ g ∈ assetGroups (deleteGroupData now name d),
      g ∈ assetGroups d ∧ groupPathIsWithin g name = false := by
  refine assetGroups_mono (fun g hg => ?_) (fun g hg => ?_) (fun g hg => ?_) fun g hg => ?_
  · obtain ⟨hmem, hout⟩ := mem_clearedAssets (fun _ => rfl) g hg
    exact ⟨mem_assetGroups_connections hmem, hout⟩
  · obtain ⟨hmem, hout⟩ := mem_clearedAssets (fun _ => rfl) g hg
    exact ⟨mem_assetGroups_serial hmem, hout⟩
  · obtain ⟨hmem, hout⟩ := mem_clearedAssets (fun _ => rfl) g hg
    exact ⟨mem_assetGroups_telnet hmem, hout⟩
  · obtain ⟨hmem, hout⟩ := mem_clearedAssets (fun _ => rfl) g hg
    exact ⟨mem_assetGroups_remoteDesktop hmem, hout⟩

theorem deleteGroupData_clearOf (name : Str) (d : ConnectionStoreData) :
    ClearOf name (deleteGroupData now name d) := by
  rintro g (hg | hg)
  · simpa using (List.mem_filter.mp hg).2
  · exact (assetGroups_deleteGroupData g hg).2

theorem deleteGroupData_consistent (name : Str) (h : GroupsConsistent d) :
    GroupsConsistent (deleteGroupData now name d) where
  nodup := h.nodup.filter _
  covers g hg := by
    obtain ⟨hmem, hout⟩ := assetGroups_deleteGroupData g hg
    exact List.mem_filter.mpr ⟨h.covers g hmem, by simp [hout]⟩

end ConnectionStore

end Hapcli.Connections
