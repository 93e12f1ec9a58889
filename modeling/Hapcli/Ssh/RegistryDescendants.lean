/-
  Subject:   `descendant_connection_infos`: the connections below one.

  The parent of a connection is set to anything, itself and the connections below it included, and
  the walk does not keep what it has met (`topology_depth_for` does).

  * **`lists_once_iff`** -- each of them is listed once just when the connection is not below
    itself.
-/
import Hapcli.Lib.Forest
import Hapcli.Ssh.RegistryCounts

namespace Hapcli.Ssh.SshConnectionRegistry

open Hapcli.Rust Hapcli.Lib

variable {registry : SshConnectionRegistry} {rootConnectionId : Str}

/-- The parent of a connection of the registry. -/
def parentLink (registry : SshConnectionRegistry) (connectionId : Str) : Option Str :=
  (registry.get connectionId).bind (·.parentConnectionId)

/-- The children, as the walk finds them. -/
def childrenOf (registry : SshConnectionRegistry) (parentId : Str) : List Str :=
  (registry.byKey.entries.filter (·.2.parentConnectionId = some parentId)).map (·.2.connectionId)

/-- **The walk returns, and lists every connection below the root once.** -/
def ListsOnce (registry : SshConnectionRegistry) (rootConnectionId : Str) : Prop :=
  ∃ fuel infos, registry.descendantConnectionInfos fuel rootConnectionId = some infos ∧
    (infos.map (·.connectionId)).Nodup ∧ ∀ id, id ∈ infos.map (·.connectionId) ↔
      (registry.get rootConnectionId).isSome = true ∧ id ≠ rootConnectionId ∧
        Above registry.parentLink rootConnectionId id

/-- A connection that is above its own parent. -/
def BelowItself (registry : SshConnectionRegistry) (connectionId : Str) : Prop :=
  ∃ parentId, registry.parentLink connectionId = some parentId ∧
    Above registry.parentLink connectionId parentId

section Consistent

variable (h : registry.Consistent)

include h

theorem Consistent.get_iff {id : Str} {entry : ConnectionEntry} :
    registry.get id = some entry ↔
      entry.connectionId = id ∧ registry.byKey.lookup entry.key = some entry := by
  constructor
  · intro hget
    obtain ⟨⟨key, entry⟩, hfind, rfl⟩ := Option.map_eq_some_iff.mp hget
    have hbyKey := (find_eq_some_iff.mp hfind).2
    exact ⟨h.find hfind, by rw [(h.key hbyKey).1, hbyKey]⟩
  · rintro ⟨rfl, hbyKey⟩
    exact get_eq_some_iff.mpr ⟨_, find_eq_some_iff.mpr ⟨(h.key hbyKey).2, hbyKey⟩⟩

theorem mem_childrenOf (parentId id : Str) :
    id ∈ registry.childrenOf parentId ↔ registry.parentLink id = some parentId := by
  simp only [childrenOf, List.mem_map, List.mem_filter, decide_eq_true_eq, parentLink,
    Option.bind_eq_some_iff, h.get_iff]
  constructor
  · rintro ⟨⟨key, entry⟩, ⟨hentry, hp⟩, rfl⟩
    have hlookup := Map.lookup_eq_some_iff.mpr hentry
    exact ⟨entry, ⟨rfl, by rw [(h.key hlookup).1, hlookup]⟩, hp⟩
  · rintro ⟨entry, ⟨rfl, hlookup⟩, hp⟩
    exact ⟨⟨entry.key, entry⟩, ⟨Map.lookup_eq_some_iff.mp hlookup, hp⟩, rfl⟩

theorem nodup_childrenOf (parentId : Str) : (registry.childrenOf parentId).Nodup := by
  have hkeys := List.nodupKeys_iff_pairwise.mp registry.byKey.nodupKeys
  refine List.pairwise_map.mpr ((hkeys.filter _).imp_of_mem fun {a b} ha hb hne hsame => hne ?_)
  have hkey : ∀ e ∈ registry.byKey.entries, registry.byId.lookup e.2.connectionId = some e.1 :=
    fun e he => (h.key (Map.lookup_eq_some_iff.mpr he)).2
  have hkeyA := hkey a (List.mem_filter.mp ha).1
  rw [hsame, hkey b (List.mem_filter.mp hb).1] at hkeyA
  exact (Option.some.inj hkeyA).symm

omit h in
theorem descendantsLoop_eq (registry : SshConnectionRegistry) (fuel : Nat) (stack met : List Str) :
    registry.descendantsLoop fuel stack ((met.filterMap registry.get).map (·.info)) =
      (stackWalk registry.childrenOf fuel stack met).map fun all =>
        (all.filterMap registry.get).map (·.info) := by
  induction fuel generalizing stack met with
  | zero => cases stack <;> rfl
  | succ fuel ih =>
    cases stack with
    | nil => rfl
    | cons parentId stack =>
      rw [descendantsLoop, stackWalk, ← ih, List.filterMap_append, List.map_append]
      rfl

theorem map_connectionId {ids : List Str} (hids : ∀ id ∈ ids, (registry.get id).isSome = true) :
    ((ids.filterMap registry.get).map (·.info)).map (·.connectionId) = ids := by
  induction ids with
  | nil => rfl
  | cons id ids ih =>
    rw [List.forall_mem_cons] at hids
    obtain ⟨entry, hentry⟩ := Option.isSome_iff_exists.mp hids.1
    rw [List.filterMap_cons_some hentry, List.map_cons, List.map_cons, ih hids.2]
    exact congrArg (· :: ids) (h.get_iff.mp hentry).1

/-- The walk lists what is below a connection once just when that is not below itself. -/
theorem Consistent.listsOnce_iff :
    registry.ListsOnce rootConnectionId ↔ ¬registry.BelowItself rootConnectionId := by
  have hget : ∀ id parentId, registry.parentLink id = some parentId →
      (registry.get id).isSome = true := by
    intro id parentId hp
    obtain ⟨entry, hentry, -⟩ := Option.bind_eq_some_iff.mp hp
    rw [hentry, Option.isSome_some]
  constructor
  · rintro ⟨fuel, infos, heq, -⟩ ⟨parentId, hp, hcycle⟩
    have hnone : stackWalk registry.childrenOf fuel [rootConnectionId] [] = none :=
      stackWalk_none (mem_childrenOf h) hp hcycle
        ⟨rootConnectionId, List.mem_singleton_self _, .refl⟩
    obtain ⟨entry, hentry⟩ := Option.isSome_iff_exists.mp (hget _ _ hp)
    rw [descendantConnectionInfos, hentry, Option.isNone_some, if_neg Bool.false_ne_true] at heq
    have hloop := registry.descendantsLoop_eq fuel [rootConnectionId] []
    rw [hnone] at hloop
    rw [show registry.descendantsLoop fuel [rootConnectionId] [] = none from hloop] at heq
    cases heq
  · intro hacyclic
    by_cases hroot : (registry.get rootConnectionId).isSome = true
    swap
    · have hnone := Option.not_isSome_iff_eq_none.mp hroot
      exact ⟨0, [], by simp [descendantConnectionInfos, hnone], List.nodup_nil, by simp [hroot]⟩
    have hmembers : ∀ id, Above registry.parentLink rootConnectionId id →
        id ∈ registry.byId.keys := by
      intro id habove
      have hsome : (registry.get id).isSome = true := by
        cases habove with
        | refl => exact hroot
        | step hp _ => exact hget _ _ hp
      obtain ⟨entry, hentry⟩ := Option.isSome_iff_exists.mp hsome
      obtain ⟨rfl, hlookup⟩ := h.get_iff.mp hentry
      exact Map.mem_keys_iff.mpr ⟨_, (h.key hlookup).2⟩
    have hstart : Walking registry.parentLink rootConnectionId [] [rootConnectionId] [] :=
      ⟨by simp, by simp, by simp [Above.refl], by simp, by simp⟩
    obtain ⟨all, heq, hnodup, hmem⟩ := hstart.returns (mem_childrenOf h) (nodup_childrenOf h)
      (fun p hp habove => hacyclic ⟨p, hp, habove⟩) hmembers (Nat.le_refl _)
    rw [List.nodup_cons] at hnodup
    have hmet : ∀ id, id ∈ all ↔
        id ≠ rootConnectionId ∧ Above registry.parentLink rootConnectionId id := by
      intro id
      rw [← hmem, List.mem_cons]
      constructor
      · intro hid
        exact ⟨fun hsame => hnodup.1 (hsame ▸ hid), .inr hid⟩
      · rintro ⟨hne, hid⟩
        exact hid.resolve_left hne
    have hall : ∀ id ∈ all, (registry.get id).isSome = true := by
      intro id hid
      obtain ⟨hne, habove⟩ := (hmet id).mp hid
      cases habove with
      | refl => exact absurd rfl hne
      | step hp _ => exact hget _ _ hp
    refine ⟨registry.byId.keys.length, (all.filterMap registry.get).map (·.info), ?_, ?_,
      fun id => ?_⟩
    · obtain ⟨entry, hentry⟩ := Option.isSome_iff_exists.mp hroot
      rw [descendantConnectionInfos, hentry, Option.isNone_some, if_neg Bool.false_ne_true]
      exact (registry.descendantsLoop_eq registry.byId.keys.length [rootConnectionId] []).trans
        (by rw [heq, Option.map_some])
    · rw [map_connectionId h hall]
      exact hnodup.2
    · rw [map_connectionId h hall, hmet]
      exact ⟨fun hid => ⟨hroot, hid⟩, And.right⟩

end Consistent

/-- **After every run, whatever parents were set.** -/
theorem lists_once_iff {parts : KeyParts} (hparts : parts.Digests) {operations : List Operation}
    (hfresh : FreshUuids (operations.flatMap Operation.uuids)) (config : ConnectionPoolConfig)
    (rootConnectionId : Str) :
    (run parts { config } operations).ListsOnce rootConnectionId ↔
      ¬(run parts { config } operations).BelowItself rootConnectionId :=
  (pooled_run hparts hfresh config).consistent.listsOnce_iff

/-- Key parts of which no two calls differ. -/
def constParts : KeyParts := ⟨fun _ => List.replicate 64 'a', fun _ => [], fun _ => []⟩

theorem digests_constParts : constParts.Digests := by
  refine fun bytes => ⟨List.length_replicate .., fun c hc => ?_⟩
  rw [List.eq_of_mem_replicate hc]
  decide

/-- Two connections, the second of which is given a parent. -/
def linkedRun (parentId : Str) : List Operation :=
  [.acquire {} (.terminal ['t']) "6b86b273-ff34-4ce1-9d6b-804eff5a3f57".toList,
    .acquireDedicated {} (.terminal ['u']) "d4735e3a-265e-46ee-a03f-59718b9b5d03".toList
      "4e074085-62be-4b8b-8c60-5ce3f2a8f5a1".toList,
    .setParentConnectionId "4e074085-62be-4b8b-8c60-5ce3f2a8f5a1".toList (some parentId)]

theorem freshUuids_linkedRun (parentId : Str) :
    FreshUuids ((linkedRun parentId).flatMap Operation.uuids) := by
  show FreshUuids ["6b86b273-ff34-4ce1-9d6b-804eff5a3f57".toList,
    "d4735e3a-265e-46ee-a03f-59718b9b5d03".toList, "4e074085-62be-4b8b-8c60-5ce3f2a8f5a1".toList]
  exact ⟨by decide, by decide⟩

set_option maxRecDepth 2000 in
/-- The first is the parent: below it one connection is listed. -/
theorem lists_once_iff_linked :
    (run constParts {} (linkedRun "6b86b273-ff34-4ce1-9d6b-804eff5a3f57".toList)).ListsOnce
      "6b86b273-ff34-4ce1-9d6b-804eff5a3f57".toList := by
  refine (lists_once_iff digests_constParts (freshUuids_linkedRun _) {} _).mpr ?_
  rintro ⟨parentId, hp, -⟩
  have hroot : parentLink
      (run constParts {} (linkedRun "6b86b273-ff34-4ce1-9d6b-804eff5a3f57".toList))
      "6b86b273-ff34-4ce1-9d6b-804eff5a3f57".toList = none := rfl
  exact nomatch hroot.symm.trans hp

set_option maxRecDepth 2000 in
/-- The second is its own parent: the walk below it does not return. -/
theorem self_link_never_returns :
    ¬(run constParts {} (linkedRun "4e074085-62be-4b8b-8c60-5ce3f2a8f5a1".toList)).ListsOnce
      "4e074085-62be-4b8b-8c60-5ce3f2a8f5a1".toList := by
  have h := (pooled_run digests_constParts
    (freshUuids_linkedRun "4e074085-62be-4b8b-8c60-5ce3f2a8f5a1".toList) {}).consistent
  exact fun hlists => h.listsOnce_iff.mp hlists ⟨_, rfl, .refl⟩

end Hapcli.Ssh.SshConnectionRegistry
