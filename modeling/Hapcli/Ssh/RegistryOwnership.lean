/-
  Subject:   The consumers that children hold on their jump hosts.

  A child keeps the identifier of its parent and the consumer it holds there in two fields.
  `set_parent_connection_ownership` writes both and forgets what stood there;
  `set_parent_connection_id` with a parent writes the first and leaves the second, which then is
  released on the wrong connection. A run must link its connections with care (`LinksWithCare`).

  * **`released_once_of_careful`** -- after a careful run each recorded consumer is released once,
    on its parent.
-/
import Hapcli.Ssh.RegistryCounts

namespace Hapcli.Ssh.SshConnectionRegistry

open Hapcli.Rust

variable {registry registry' registry'' : SshConnectionRegistry} {free : Str → Prop}

/-! ## 1. The ledger -/

/-- The consumers that a child recorded, with their parents. -/
def recordings (ledger : List OwnershipEvent) (childId : Str) : List (Str × ConnectionConsumer) :=
  ledger.filterMap fun
    | .recorded id parentId consumer => if id = childId then some (parentId, consumer) else none
    | .released .. => none

/-- The consumers that were released for a child, with the parents they were released on. -/
def releases (ledger : List OwnershipEvent) (childId : Str) : List (Str × ConnectionConsumer) :=
  ledger.filterMap fun
    | .recorded .. => none
    | .released id parentId consumer => if id = childId then some (parentId, consumer) else none

/-- What a child that is registered still holds. -/
def owed (registry : SshConnectionRegistry) (childId : Str) : List (Str × ConnectionConsumer) :=
  ((registry.get childId).bind (·.parentOwnership)).toList

theorem recordings_noteReleased (connectionId : Str)
    (ownership : Option (Str × ConnectionConsumer)) (childId : Str) :
    recordings (registry.noteReleased connectionId ownership).ledger childId =
      recordings registry.ledger childId := by
  cases ownership with
  | none => rfl
  | some pair => simp [noteReleased, recordings, List.filterMap_append]

theorem releases_noteReleased (connectionId : Str)
    (ownership : Option (Str × ConnectionConsumer)) (childId : Str) :
    releases (registry.noteReleased connectionId ownership).ledger childId =
      releases registry.ledger childId ++
        if connectionId = childId then ownership.toList else [] := by
  cases ownership with
  | none => simp [noteReleased]
  | some pair =>
    by_cases h : connectionId = childId
    · simp [noteReleased, releases, List.filterMap_append, h]
    · simp [noteReleased, releases, List.filterMap_append, h]

/-- The recordings of every child are its releases and what it still holds. -/
structure Balanced (registry : SshConnectionRegistry) : Prop where
  consistent : registry.Consistent
  paired : ∀ {connectionId entry}, registry.get connectionId = some entry →
    entry.parentConnectionConsumer.isSome → entry.parentConnectionId.isSome
  account : ∀ childId, recordings registry.ledger childId =
    releases registry.ledger childId ++ registry.owed childId

variable {entry : ConnectionEntry}

theorem owed_eq {childId : Str} (hget : registry.get childId = some entry) :
    registry.owed childId = entry.parentOwnership.toList := by
  rw [owed, hget, Option.bind_some]

theorem owed_eq_nil {childId : Str} (hget : registry.get childId = none) :
    registry.owed childId = [] := by
  rw [owed, hget, Option.bind_none, Option.toList_none]

theorem Quiet.owed (h : Quiet free registry registry') (childId : Str) :
    registry'.owed childId = registry.owed childId := by
  cases hafter : registry'.get childId with
  | none => rw [owed_eq_nil hafter, owed_eq_nil (h.get_eq_none hafter)]
  | some entry' =>
    obtain ⟨entry, hbefore, hstep⟩ := h.get_origin hafter
    rw [owed_eq hafter, owed_eq hbefore, hstep.parentOwnership]

theorem parentOwnership_eq_none_iff
    (h : entry.parentConnectionConsumer.isSome → entry.parentConnectionId.isSome) :
    entry.parentOwnership = none ↔ entry.parentConnectionConsumer = none := by
  unfold ConnectionEntry.parentOwnership
  cases hconsumer : entry.parentConnectionConsumer with
  | none => simp
  | some consumer =>
    obtain ⟨parentId, hparent⟩ := Option.isSome_iff_exists.mp (h (by rw [hconsumer]; rfl))
    simp [hparent]

namespace Balanced

theorem empty (config : ConnectionPoolConfig) : Balanced { config } where
  consistent := .empty config
  paired h := (nomatch h)
  account _ := rfl

theorem kept : Kept Balanced where
  quiet {registry registry'} hquiet h :=
    { consistent := h.consistent.quiet hquiet
      paired := fun hget => by
        obtain ⟨entry, hbefore, hstep⟩ := hquiet.get_origin hget
        rw [hstep.parentConnectionId, hstep.parentConnectionConsumer]
        exact h.paired hbefore
      account := fun childId => by
        rw [hquiet.ledger, hquiet.owed]
        exact h.account childId }
  unregister {registry registry' connectionId info ownership} hunregister h := by
    have hget := h.consistent.get_unregister hunregister
    obtain ⟨key, entry, hfind, -, rfl, -, -, hledger⟩ := unregister_spec hunregister
    have hbefore : registry.get connectionId = some entry := get_eq_some_iff.mpr ⟨key, hfind⟩
    refine ⟨h.consistent.unregister hunregister, fun {id found} hfound => ?_, fun childId => ?_⟩
    · rw [hget] at hfound
      split at hfound
      · cases hfound
      · exact h.paired hfound
    · rw [hledger, recordings_noteReleased, releases_noteReleased, h.account childId]
      by_cases hchild : connectionId = childId
      · subst hchild
        rw [if_pos rfl, owed_eq hbefore, owed_eq_nil (by rw [hget, if_pos rfl]), List.append_nil]
      · rw [if_neg hchild, List.append_nil, SshConnectionRegistry.owed, SshConnectionRegistry.owed,
          hget, if_neg (Ne.symm hchild)]

theorem insertEntry (h : Balanced registry) (hid : registry.byId.lookup entry.connectionId = none)
    (hkey : registry.byKey.lookup entry.key = none) (hcounted : entry.Counted)
    (hconsumer : entry.parentConnectionConsumer = none) :
    Balanced (registry.insertEntry entry) := by
  have hget := h.consistent.get_insertEntry hkey
  refine ⟨h.consistent.insertEntry hid hkey hcounted, fun {id found} hfound => ?_,
    fun childId => ?_⟩
  · rw [hget] at hfound
    split at hfound
    · cases hfound
      rw [hconsumer]
      exact fun hsome => absurd hsome (by decide)
    · exact h.paired hfound
  · show recordings registry.ledger childId = releases registry.ledger childId ++
      (registry.insertEntry entry).owed childId
    rw [h.account childId]
    by_cases hchild : childId = entry.connectionId
    · have hbefore : registry.get childId = none := by
        rw [hchild, SshConnectionRegistry.get, SshConnectionRegistry.find, hid]
        rfl
      have hafter : (registry.insertEntry entry).get childId = some entry := by
        rw [hget, if_pos hchild]
      rw [owed_eq_nil hbefore, owed_eq hafter, ConnectionEntry.parentOwnership, hconsumer]
      rfl
    · rw [SshConnectionRegistry.owed, SshConnectionRegistry.owed, hget, if_neg hchild]

theorem link (h : Balanced registry) {connectionId key : Str}
    (hfind : registry.find connectionId = some (key, entry)) (parentId : Option Str)
    (consumer : Option ConnectionConsumer)
    (hbyKey : registry'.byKey = (registry.put key (entry.linked parentId consumer)).byKey)
    (hbyId : registry'.byId = registry.byId) (hpaired : consumer.isSome → parentId.isSome)
    (hother : ∀ childId, childId ≠ connectionId →
      recordings registry'.ledger childId = recordings registry.ledger childId ∧
        releases registry'.ledger childId = releases registry.ledger childId)
    (haccount : recordings registry.ledger connectionId =
        releases registry.ledger connectionId ++ entry.parentOwnership.toList →
      recordings registry'.ledger connectionId = releases registry'.ledger connectionId ++
        (consumer.bind fun consumer => parentId.map fun parentId => (parentId, consumer)).toList) :
    Balanced registry' := by
  have hbefore : registry.get connectionId = some entry := get_eq_some_iff.mpr ⟨key, hfind⟩
  have hput := h.consistent.linked hfind parentId consumer
  have hget : ∀ id, registry'.get id =
      if id = connectionId then some (entry.linked parentId consumer)
      else registry.get id := fun id => by
    rw [get_congr hbyKey hbyId, h.consistent.get_put hfind]
  refine ⟨hput.congr hbyKey hbyId, fun {id found} hfound => ?_, fun childId => ?_⟩
  · rw [hget] at hfound
    split at hfound
    · cases hfound
      exact hpaired
    · exact h.paired hfound
  · by_cases hchild : childId = connectionId
    · subst hchild
      rw [owed_eq (by rw [hget, if_pos rfl])]
      refine haccount ?_
      rw [h.account childId, owed_eq hbefore]
    · rw [(hother childId hchild).1, (hother childId hchild).2, h.account childId,
        SshConnectionRegistry.owed, SshConnectionRegistry.owed, hget, if_neg hchild]

end Balanced

/-! ## 2. Runs that link with care -/

/-- No consumer that a child holds on a parent is overwritten, and none is taken to another
    parent. -/
def LinksWithCare (registry : SshConnectionRegistry) : Operation → Prop
  | .setParentConnectionId connectionId (some parentId) =>
    ∀ entry, registry.get connectionId = some entry →
      entry.parentConnectionConsumer = none ∨ entry.parentConnectionId = some parentId
  | .setParentConnectionOwnership connectionId parentConnectionId parentConsumer =>
    ∀ entry, registry.get connectionId = some entry →
      entry.parentConnectionConsumer = none ∨
        entry.parentConnectionId = some parentConnectionId ∧
          entry.parentConnectionConsumer = some parentConsumer
  | _ => True

variable {connectionId : Str}

theorem Balanced.setParentConnectionId (h : Balanced registry) {parentConnectionId : Option Str}
    (hcare : registry.LinksWithCare (.setParentConnectionId connectionId parentConnectionId)) :
    Balanced (registry.setParentConnectionId connectionId parentConnectionId).1 := by
  rcases registry.setParentConnectionId_cases connectionId parentConnectionId with
    heq | ⟨key, entry, hfind, ⟨parentId, rfl, heq⟩ | ⟨rfl, heq⟩⟩
  · rw [heq]
    exact h
  · have hget : registry.get connectionId = some entry := get_eq_some_iff.mpr ⟨key, hfind⟩
    rw [heq]
    refine h.link hfind (some parentId) entry.parentConnectionConsumer rfl rfl (fun _ => rfl)
      (fun _ _ => ⟨rfl, rfl⟩) fun haccount => haccount.trans ?_
    -- the consumer is not there, or the parent is the same
    unfold ConnectionEntry.parentOwnership
    rcases hcare entry hget with hconsumer | hparent
    · rw [hconsumer]
      rfl
    · rw [hparent]
      rfl
  · rw [heq]
    refine Balanced.kept.releaseOwnership ?_ entry.parentOwnership
    refine h.link hfind none none (noteReleased_byKey ..) (noteReleased_byId ..) (fun h => h) ?_ ?_
    · intro childId hchild
      rw [recordings_noteReleased, releases_noteReleased, if_neg (Ne.symm hchild)]
      exact ⟨rfl, List.append_nil _⟩
    · intro haccount
      rw [recordings_noteReleased, releases_noteReleased, if_pos rfl]
      show recordings registry.ledger connectionId =
        releases registry.ledger connectionId ++ _ ++ []
      rw [haccount, List.append_nil]

theorem Balanced.setParentConnectionOwnership (h : Balanced registry) {parentConnectionId : Str}
    {parentConsumer : ConnectionConsumer} (hcare : registry.LinksWithCare
      (.setParentConnectionOwnership connectionId parentConnectionId parentConsumer)) :
    Balanced (registry.setParentConnectionOwnership connectionId parentConnectionId
      parentConsumer).1 := by
  rcases registry.setParentConnectionOwnership_cases connectionId parentConnectionId
    parentConsumer with heq | ⟨key, entry, noted, hfind, hnoted, heq⟩
  · rw [heq]
    exact h
  · have hget : registry.get connectionId = some entry := get_eq_some_iff.mpr ⟨key, hfind⟩
    rw [heq]
    refine h.link hfind (some parentConnectionId) (some parentConsumer) rfl rfl (fun _ => rfl) ?_ ?_
    · intro childId hchild
      rw [hnoted]
      split
      · rw [List.append_nil]
        exact ⟨rfl, rfl⟩
      · simp [recordings, releases, List.filterMap_append, Ne.symm hchild]
    · intro haccount
      rw [hnoted]
      split
      · next hsame =>
          rw [List.append_nil, haccount, hsame]
          rfl
      · next hdiffers =>
          -- nothing was held: what was held would be the same
          have hnone : entry.parentOwnership = none := by
            rcases hcare entry hget with hconsumer | ⟨hparent, hconsumer⟩
            · exact (parentOwnership_eq_none_iff (h.paired hget)).mpr hconsumer
            · refine absurd ?_ hdiffers
              rw [ConnectionEntry.parentOwnership, hparent, hconsumer]
              rfl
          rw [hnone, Option.toList_none, List.append_nil] at haccount
          simp only [recordings, releases, List.filterMap_append] at haccount ⊢
          rw [haccount]
          simp

theorem Balanced.step {parts : KeyParts} (hparts : parts.Digests) {drawn : List Str}
    (hpooled : Pooled parts drawn registry) (h : Balanced registry) {operation : Operation}
    (hfresh : FreshUuids (drawn ++ operation.uuids)) (hcare : registry.LinksWithCare operation) :
    Balanced (registry.step parts operation) := by
  by_cases hlocal : operation.addsOrLinks = false
  · exact Balanced.kept.step parts h hlocal
  cases operation with
  | acquire config consumer uuid =>
    rcases registry.acquire_cases parts config consumer uuid with hstill | ⟨hkey, hstill⟩
    · exact Balanced.kept.still hstill h
    · have hid := hpooled.lookup_new (hfresh.notMem List.mem_cons_self)
      exact Balanced.kept.still hstill (h.insertEntry hid hkey ⟨rfl, List.nodup_nil⟩ rfl)
  | acquireDedicated config consumer poolUuid uuid =>
    have hid := hpooled.lookup_new (hfresh.notMem (List.mem_cons_of_mem _ List.mem_cons_self))
    exact h.insertEntry hid (hpooled.lookup_dedicatedKey hparts hfresh config)
      ⟨rfl, List.nodup_singleton consumer⟩ rfl
  | setParentConnectionId connectionId parentConnectionId => exact h.setParentConnectionId hcare
  | setParentConnectionOwnership connectionId parentConnectionId parentConsumer =>
    exact h.setParentConnectionOwnership hcare
  | _ => exact absurd rfl hlocal

/-! ## 3. What the releases of a call take away -/

/-- The consumers of a connection. -/
def consumersOf (registry : SshConnectionRegistry) (connectionId : Str) : List ConnectionConsumer :=
  ((registry.get connectionId).map (·.consumers)).getD []

/-- What a call enters as released is a consumer of that parent no longer. -/
def TakesAway (registry registry' : SshConnectionRegistry) : Prop :=
  ∃ noted, registry'.ledger = registry.ledger ++ noted ∧
    ∀ childId parentId consumer, OwnershipEvent.released childId parentId consumer ∈ noted →
      consumer ∉ registry'.consumersOf parentId

/-- So it is, and no connection gets a consumer. -/
structure Drops (registry registry' : SshConnectionRegistry) : Prop where
  consumers : ∀ id, registry'.consumersOf id ⊆ registry.consumersOf id
  takesAway : TakesAway registry registry'

theorem takesAway_of_ledger (h : registry'.ledger = registry.ledger) :
    TakesAway registry registry' :=
  ⟨[], by rw [h, List.append_nil], fun _ _ _ hmem => (nomatch hmem)⟩

theorem consumersOf_subset {id : Str} (h : registry'.get id = registry.get id) :
    registry'.consumersOf id ⊆ registry.consumersOf id := by
  rw [consumersOf, consumersOf, h]
  exact List.Subset.refl _

namespace Drops

theorem refl (registry : SshConnectionRegistry) : Drops registry registry :=
  ⟨fun _ => List.Subset.refl _, takesAway_of_ledger rfl⟩

theorem trans (h : Drops registry registry') (h' : Drops registry' registry'') :
    Drops registry registry'' := by
  refine ⟨fun id => List.Subset.trans (h'.consumers id) (h.consumers id), ?_⟩
  obtain ⟨noted, hledger, hgone⟩ := h.takesAway
  obtain ⟨noted', hledger', hgone'⟩ := h'.takesAway
  refine ⟨noted ++ noted', by rw [hledger', hledger, List.append_assoc], ?_⟩
  intro childId parentId consumer hmem
  rcases List.mem_append.mp hmem with hin | hin
  · exact fun hstays => hgone childId parentId consumer hin (h'.consumers parentId hstays)
  · exact hgone' childId parentId consumer hin

theorem congr (h : Drops registry registry') (hbyKey : registry''.byKey = registry'.byKey)
    (hbyId : registry''.byId = registry'.byId) (hledger : registry''.ledger = registry'.ledger) :
    Drops registry registry'' :=
  h.trans ⟨fun id => consumersOf_subset (get_congr hbyKey hbyId id),
    takesAway_of_ledger hledger⟩

theorem put (h : registry.Consistent) {key : Str} {entry' : ConnectionEntry}
    (hfind : registry.find connectionId = some (key, entry))
    (hconsumers : entry'.consumers ⊆ entry.consumers) :
    Drops registry (registry.put key entry') := by
  refine ⟨fun id => ?_, takesAway_of_ledger rfl⟩
  by_cases hid : id = connectionId
  · subst hid
    rw [consumersOf, consumersOf, h.get_put hfind, if_pos rfl,
      get_eq_some_iff.mpr ⟨key, hfind⟩]
    exact hconsumers
  · have hsame : (registry.put key entry').get id = registry.get id := by
      rw [h.get_put hfind, if_neg hid]
    exact consumersOf_subset hsame

end Drops

theorem kept_consistent : Kept Consistent where
  quiet hquiet h := h.quiet hquiet
  unregister hunregister h := h.unregister hunregister

theorem consumersOf_put (h : registry.Consistent) {key : Str}
    (hfind : registry.find connectionId = some (key, entry)) (entry' : ConnectionEntry) :
    (registry.put key entry').consumersOf connectionId = entry'.consumers := by
  rw [consumersOf, h.get_put hfind, if_pos rfl]
  rfl

theorem drops_dropConsumer (h : registry.Consistent) (connectionId : Str)
    (consumer : ConnectionConsumer) :
    Drops registry (registry.dropConsumer connectionId consumer).1 ∧
      consumer ∉ (registry.dropConsumer connectionId consumer).1.consumersOf connectionId := by
  unfold dropConsumer
  cases hfind : registry.find connectionId with
  | none =>
    refine ⟨.refl registry, ?_⟩
    rw [consumersOf, get, hfind]
    exact List.not_mem_nil
  | some found =>
    obtain ⟨key, entry⟩ := found
    have hgone : consumer ∉ entry.consumers.filter (· ≠ consumer) := fun hmem => by
      simpa using (List.mem_filter.mp hmem).2
    have hput : ∀ entry' : ConnectionEntry,
        entry'.consumers = entry.consumers.filter (· ≠ consumer) →
          Drops registry (registry.put key entry') ∧
            consumer ∉ (registry.put key entry').consumersOf connectionId := by
      intro entry' hconsumers
      refine ⟨.put h hfind (hconsumers ▸ List.filter_subset_self _), ?_⟩
      rw [consumersOf_put h hfind, hconsumers]
      exact hgone
    dsimp only
    split
    · split
      · exact hput _ rfl
      · split
        · exact hput _ rfl
        · obtain ⟨sleeping, heq⟩ :=
            registry.startIdleTimerForEntry_eq key (entry.dropConsumer consumer)
          obtain ⟨hdrops, hnot⟩ := hput (entry.dropConsumer consumer).toIdle rfl
          rw [heq]
          exact ⟨hdrops.congr rfl rfl rfl, hnot⟩
    · exact hput _ rfl

theorem drops_unregister (h : registry.Consistent) {info : ConnectionInfo}
    {ownership : Option (Str × ConnectionConsumer)}
    (hunregister : registry.unregister connectionId = some (registry', info, ownership)) :
    (∀ id, registry'.consumersOf id ⊆ registry.consumersOf id) ∧
      registry'.consumersOf connectionId = [] ∧
      registry'.ledger = (registry.noteReleased connectionId ownership).ledger := by
  have hget := h.get_unregister hunregister
  refine ⟨fun id => ?_, ?_, (unregister_spec hunregister).choose_spec.choose_spec.2.2.2.2.2⟩
  · by_cases hid : id = connectionId
    · rw [consumersOf, hget, if_pos hid]
      exact List.nil_subset _
    · have hsame : registry'.get id = registry.get id := by rw [hget, if_neg hid]
      exact consumersOf_subset hsame
  · rw [consumersOf, hget, if_pos rfl]
    rfl

theorem Drops.releaseNoted {pair : Str × ConnectionConsumer}
    (hconsumers : ∀ id, registry'.consumersOf id ⊆ registry.consumersOf id)
    (hledger : registry'.ledger = (registry.noteReleased connectionId (some pair)).ledger)
    (hdrops : Drops registry' registry'') (hgone : pair.2 ∉ registry''.consumersOf pair.1) :
    Drops registry registry'' := by
  refine ⟨fun id => List.Subset.trans (hdrops.consumers id) (hconsumers id), ?_⟩
  obtain ⟨noted, hnoted, hreleased⟩ := hdrops.takesAway
  refine ⟨.released connectionId pair.1 pair.2 :: noted, ?_, ?_⟩
  · rw [hnoted, hledger]
    exact List.append_assoc ..
  · intro childId parentId consumer hmem
    rcases List.mem_cons.mp hmem with heq | hin
    · cases heq
      exact hgone
    · exact hreleased childId parentId consumer hin

section

variable (h : registry.Consistent)

include h

theorem drops_release (connectionId : Str) (consumer : ConnectionConsumer) :
    Drops registry (registry.release connectionId consumer) ∧
      consumer ∉ (registry.release connectionId consumer).consumersOf connectionId := by
  induction hn : registry.byId.keys.length using Nat.strong_induction_on
    generalizing registry connectionId consumer with
  | _ n ih =>
    have hdropped := drops_dropConsumer h connectionId consumer
    have hconsistent := h.quiet (registry.quiet_dropConsumer connectionId consumer)
    have hbyId := registry.dropConsumer_byId connectionId consumer
    rw [release_eq]
    generalize registry.dropConsumer connectionId consumer = result
      at hdropped hconsistent hbyId ⊢
    obtain ⟨dropped, retired⟩ := result
    cases retired with
    | false => exact hdropped
    | true =>
      dsimp only at hdropped hconsistent hbyId ⊢
      obtain ⟨hdrops, hgone⟩ := hdropped
      unfold retireConnection
      rcases hunregister : dropped.unregister connectionId with _ | ⟨removed, info, ownership⟩
      · exact ⟨hdrops, hgone⟩
      · obtain ⟨hconsumers, hnil, hledger⟩ := drops_unregister hconsistent hunregister
        have hlength := unregister_length hunregister
        cases ownership with
        | none =>
          refine ⟨hdrops.trans ⟨hconsumers, takesAway_of_ledger hledger⟩, ?_⟩
          show consumer ∉ removed.consumersOf connectionId
          rw [hnil]
          exact List.not_mem_nil
        | some pair =>
          obtain ⟨hafter, hpair⟩ := ih _ (by rw [← hn, ← hbyId]; omega)
            (hconsistent.unregister hunregister) pair.1 pair.2 rfl
          refine ⟨hdrops.trans (.releaseNoted hconsumers hledger hafter hpair), ?_⟩
          intro hmem
          have := hafter.consumers connectionId hmem
          rw [hnil] at this
          exact List.not_mem_nil this

theorem drops_retireConnection (connectionId : Str) :
    Drops registry (registry.retireConnection connectionId).1 := by
  unfold retireConnection
  rcases hunregister : registry.unregister connectionId with _ | ⟨removed, info, ownership⟩
  · exact .refl registry
  · obtain ⟨hconsumers, -, hledger⟩ := drops_unregister h hunregister
    cases ownership with
    | none => exact ⟨hconsumers, takesAway_of_ledger hledger⟩
    | some pair =>
      obtain ⟨hafter, hpair⟩ := drops_release (h.unregister hunregister) pair.1 pair.2
      exact .releaseNoted hconsumers hledger hafter hpair

theorem drops_setPhysical (connectionId : Str) (physical : Option Nat) :
    Drops registry (registry.setPhysical connectionId physical) := by
  unfold setPhysical
  cases hfind : registry.find connectionId with
  | none => exact .refl registry
  | some found => exact .put h hfind (List.Subset.refl _)

theorem drops_startDisconnect (hstart : registry.startDisconnect connectionId = some registry') :
    Drops registry registry' := by
  unfold startDisconnect at hstart
  cases hfind : registry.find connectionId with
  | none => rw [hfind] at hstart; cases hstart
  | some found =>
    obtain ⟨key, entry⟩ := found
    rw [hfind] at hstart
    dsimp only at hstart
    split at hstart
    · cases hstart
    · cases hstart
      have hstill : Still registry (registry.put key entry.cancelIdleTimer) :=
        .put (find_eq_some_iff.mp hfind).2 (.cancelIdleTimer entry _)
      have hcancelled := h.quiet hstill
      have hput : Drops registry (registry.put key entry.cancelIdleTimer) :=
        .put h hfind (List.Subset.refl _)
      unfold releaseAncestor
      split
      · exact (hput.trans (drops_release hcancelled _ _).1).trans
          (drops_setPhysical ((kept_consistent).release hcancelled _ _) _ _)
      · exact hput.trans (drops_setPhysical hcancelled _ _)

theorem drops_finishDisconnect (connectionId : Str) :
    Drops registry (registry.finishDisconnect connectionId) := by
  have hmarked : Drops registry (registry.markState connectionId .disconnected).1 := by
    unfold markState
    cases hfind : registry.find connectionId with
    | none => exact .refl registry
    | some found => exact .put h hfind (List.Subset.refl _)
  have hconsistent := h.quiet (registry.quiet_markState connectionId .disconnected)
  refine Drops.trans ?_ (drops_retireConnection ?_ connectionId)
  · exact hmarked.congr rfl rfl rfl
  · exact hconsistent.congr rfl rfl

theorem takesAway_step (parts : KeyParts) (operation : Operation) :
    TakesAway registry (registry.step parts operation) := by
  by_cases hquiet : operation.isQuiet = true
  · exact takesAway_of_ledger (registry.quiet_step parts hquiet).ledger
  cases operation with
  | acquire config consumer uuid =>
    rcases registry.acquire_cases parts config consumer uuid with hstill | ⟨-, hstill⟩
    · exact takesAway_of_ledger hstill.ledger
    · exact takesAway_of_ledger hstill.ledger
  | acquireDedicated config consumer poolUuid uuid => exact takesAway_of_ledger rfl
  | release connectionId consumer => exact (drops_release h connectionId consumer).1.takesAway
  | retireConnection connectionId => exact (drops_retireConnection h connectionId).takesAway
  | setParentConnectionId connectionId parentConnectionId =>
    show TakesAway registry (registry.setParentConnectionId connectionId parentConnectionId).1
    rcases registry.setParentConnectionId_cases connectionId parentConnectionId with
      heq | ⟨key, entry, hfind, ⟨parentId, -, heq⟩ | ⟨-, heq⟩⟩
    · rw [heq]
      exact takesAway_of_ledger rfl
    · rw [heq]
      exact takesAway_of_ledger rfl
    · have hput := h.linked hfind none none
      have hdrops : Drops registry (registry.put key (entry.linked none none)) :=
        .put h hfind (List.Subset.refl _)
      rw [heq]
      cases entry.parentOwnership with
      | none => exact hdrops.takesAway
      | some pair =>
        let noted := (registry.put key (entry.linked none none)).noteReleased connectionId
          (some pair)
        have hnoted : noted.Consistent := hput.congr rfl rfl
        have hsame : ∀ id, noted.consumersOf id ⊆
            (registry.put key (entry.linked none none)).consumersOf id := fun id =>
          consumersOf_subset (get_congr rfl rfl id)
        obtain ⟨hafter, hpair⟩ := drops_release hnoted pair.1 pair.2
        exact (hdrops.trans (.releaseNoted hsame rfl hafter hpair)).takesAway
  | setParentConnectionOwnership connectionId parentConnectionId parentConsumer =>
    show TakesAway registry (registry.setParentConnectionOwnership connectionId
      parentConnectionId parentConsumer).1
    rcases registry.setParentConnectionOwnership_cases connectionId parentConnectionId
      parentConsumer with heq | ⟨key, entry, noted, hfind, hnoted, heq⟩
    · rw [heq]
      exact takesAway_of_ledger rfl
    · rw [heq]
      refine ⟨noted, rfl, fun childId parentId consumer hmem => ?_⟩
      rw [hnoted] at hmem
      split at hmem
      · cases hmem
      · cases List.mem_singleton.mp hmem
  | closeNext task =>
    show TakesAway registry (registry.closeNext task)
    unfold closeNext
    split
    · exact takesAway_of_ledger rfl
    · exact takesAway_of_ledger rfl
    · next connectionId rest hclosing =>
        cases hstart : registry.startDisconnect connectionId with
        | none => exact takesAway_of_ledger rfl
        | some registry' =>
          exact ((drops_startDisconnect h hstart).congr rfl rfl rfl).takesAway
    · next connectionId rest hclosing =>
        exact ((drops_finishDisconnect h connectionId).congr rfl rfl rfl).takesAway
  | _ => exact absurd rfl hquiet

end

/-! ## 4. Runs -/

/-- Each consumer that was recorded for a child is released once, on the parent it was recorded
    on: at the latest when the child is retired. -/
structure ReleasedOnce (registry : SshConnectionRegistry) : Prop where
  /-- a child that is not registered released all it recorded, one after the other -/
  retired : ∀ childId, registry.get childId = none →
    releases registry.ledger childId = recordings registry.ledger childId
  /-- one that is registered released all but what it still holds -/
  held : ∀ childId entry, registry.get childId = some entry →
    recordings registry.ledger childId =
      releases registry.ledger childId ++ entry.parentOwnership.toList

theorem Balanced.releasedOnce (h : Balanced registry) : registry.ReleasedOnce := by
  refine ⟨fun childId hget => ?_, fun childId entry hget => ?_⟩
  · rw [h.account childId, owed_eq_nil hget, List.append_nil]
  · rw [h.account childId, owed_eq hget]

theorem everyStep_append {parts : KeyParts}
    {condition : SshConnectionRegistry → Operation → Prop} {before after : List Operation} :
    EveryStep parts condition registry (before ++ after) →
      EveryStep parts condition registry before := by
  induction before generalizing registry with
  | nil => exact fun _ => trivial
  | cons operation rest ih => exact fun h => ⟨h.1, ih h.2⟩

/-- **In a run that links with care every consumer recorded for a child is released once, on its
    parent, by the time the child is retired.** -/
theorem released_once_of_careful {parts : KeyParts} (hparts : parts.Digests)
    {operations : List Operation} (hfresh : FreshUuids (operations.flatMap Operation.uuids))
    (config : ConnectionPoolConfig) (hcare : EveryStep parts LinksWithCare { config } operations) :
    (run parts { config } operations).ReleasedOnce ∧
      ∀ before operation after, operations = before ++ operation :: after →
        TakesAway (run parts { config } before) (run parts { config } (before ++ [operation])) := by
  have hrun : ∀ {operations : List Operation},
      FreshUuids (operations.flatMap Operation.uuids) →
        EveryStep parts LinksWithCare { config } operations →
          Balanced (run parts { config } operations) := fun hfresh hcare =>
    (run_rule hparts (fun hpooled hfresh hcare h => h.step hparts hpooled hfresh hcare)
      (Pooled.empty config) hfresh hcare (P := fun _ => Balanced) (Balanced.empty config)).2
  refine ⟨(hrun hfresh hcare).releasedOnce, ?_⟩
  rintro before operation after rfl
  rw [List.flatMap_append] at hfresh
  have hlast : run parts { config } (before ++ [operation]) =
      (run parts { config } before).step parts operation := List.foldl_append ..
  rw [hlast]
  exact takesAway_step (hrun hfresh.left (everyStep_append hcare)).consistent parts operation

/-- A jump host, a child and a third connection, in these runs. -/
def jumpHost : Str := "6b86b273-ff34-4ce1-9d6b-804eff5a3f57".toList

@[inherit_doc jumpHost] def child : Str := "d4735e3a-265e-46ee-a03f-59718b9b5d03".toList

@[inherit_doc jumpHost] def third : Str := "4e074085-62be-4b8b-8c60-5ce3f2a8f5a1".toList

/-- No key of these runs has a digest in it. -/
def sampleParts : KeyParts := ⟨fun _ => List.replicate 64 'a', fun _ => [], fun _ => []⟩

theorem sampleParts_digests : sampleParts.Digests := fun bytes =>
  ⟨List.length_replicate .., fun c hc => by rw [List.eq_of_mem_replicate hc]; decide⟩

/-- A child is linked to its jump host, loses its parent, is linked again and retired. -/
theorem released_once_of_careful_linked :
    (run sampleParts {}
      [.acquire { host := ['p'] } (.sftp ['s']) jumpHost,
        .acquire { host := ['c'] } (.sftp ['t']) child,
        .acquireConsumerForConnection jumpHost (.nodeRouter ['c']),
        .setParentConnectionOwnership child jumpHost (.nodeRouter ['c']),
        .setParentConnectionId child none,
        .setParentConnectionOwnership child jumpHost (.nodeRouter ['c']),
        .retireConnection child]).ReleasedOnce := by
  refine (released_once_of_careful sampleParts_digests ⟨by decide, by decide⟩ {} ?_).1
  refine ⟨trivial, trivial, trivial, ?_, trivial, ?_, trivial, trivial⟩
  · rintro _ ⟨⟩
    exact .inl (by decide)
  · rintro _ ⟨⟩
    exact .inl (by decide)

/-- The registry after a second consumer is recorded over the first, and the child is retired. -/
def overwritten : SshConnectionRegistry :=
  run sampleParts {}
    [.acquire { host := ['p'] } (.sftp ['s']) jumpHost,
      .acquire { host := ['c'] } (.sftp ['t']) child,
      .acquireConsumerForConnection jumpHost (.nodeRouter ['a']),
      .acquireConsumerForConnection jumpHost (.nodeRouter ['b']),
      .setParentConnectionOwnership child jumpHost (.nodeRouter ['a']),
      .setParentConnectionOwnership child jumpHost (.nodeRouter ['b']),
      .retireConnection child]

/-- The registry after the parent of a child is replaced, and the child is retired. The third
    connection has a consumer of the same name. -/
def misplaced : SshConnectionRegistry :=
  run sampleParts {}
    [.acquire { host := ['p'] } (.sftp ['s']) jumpHost,
      .acquire { host := ['c'] } (.sftp ['t']) child,
      .acquire { host := ['q'] } (.nodeRouter ['a']) third,
      .acquireConsumerForConnection jumpHost (.nodeRouter ['a']),
      .setParentConnectionOwnership child jumpHost (.nodeRouter ['a']),
      .setParentConnectionId child (some third),
      .retireConnection child]

/-- **A consumer overwritten by the next one stays on the jump host after the child is retired; one
    whose parent is replaced is released on the other connection.** -/
theorem ownership_overwritten :
    (overwritten.get child = none ∧
      recordings overwritten.ledger child =
        [(jumpHost, .nodeRouter ['a']), (jumpHost, .nodeRouter ['b'])] ∧
      releases overwritten.ledger child = [(jumpHost, .nodeRouter ['b'])] ∧
      overwritten.consumersOf jumpHost = [.sftp ['s'], .nodeRouter ['a']] ∧
      ¬overwritten.ReleasedOnce) ∧
    misplaced.get child = none ∧
      releases misplaced.ledger child = [(third, .nodeRouter ['a'])] ∧
      misplaced.consumersOf jumpHost = [.sftp ['s'], .nodeRouter ['a']] ∧
      misplaced.consumersOf third = [] ∧ ¬misplaced.ReleasedOnce := by
  have hoverwritten : ¬overwritten.ReleasedOnce := fun h =>
    absurd (h.retired child (by decide)) (by decide)
  have hmisplaced : ¬misplaced.ReleasedOnce := fun h =>
    absurd (h.retired child (by decide)) (by decide)
  exact ⟨⟨by decide, by decide, by decide, by decide, hoverwritten⟩, by decide, by decide,
    by decide, by decide, hmisplaced⟩

end Hapcli.Ssh.SshConnectionRegistry
