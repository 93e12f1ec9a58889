/-
  Subject:   What the calls of the connection registry can do.

  * `Kept`, **`Kept.releaseLoop`**, **`Kept.step`** -- a property that quiet changes and retirements
    keep is kept by `release`, and by every call that neither adds nor links a connection.
-/
import Hapcli.Ssh.Registry

namespace Hapcli.Ssh

open Hapcli.Rust

/-! ## 1. What happens to an entry -/

/-- The connection is lost. -/
def ConnectionState.Dead : ConnectionState → Prop
  | .linkDown | .disconnected | .error _ => True
  | _ => False

instance (state : ConnectionState) : Decidable state.Dead := by
  cases state <;> unfold ConnectionState.Dead <;> infer_instance

/-- The count of an entry is that of its consumers, which differ. -/
structure ConnectionEntry.Counted (entry : ConnectionEntry) : Prop where
  count : entry.refCount = entry.consumers.length
  nodup : entry.consumers.Nodup

/-- What a call may do to an entry; it revives a dead one only if it is free to. -/
structure EntryStep (free : Prop) (entry entry' : ConnectionEntry) : Prop where
  connectionId : entry'.connectionId = entry.connectionId
  key : entry'.key = entry.key
  parentConnectionId : entry'.parentConnectionId = entry.parentConnectionId
  parentConnectionConsumer : entry'.parentConnectionConsumer = entry.parentConnectionConsumer
  counted : entry.Counted → entry'.Counted
  dead : ¬free → entry.state.Dead → entry'.state.Dead

namespace EntryStep

variable {free : Prop} {entry entry' entry'' : ConnectionEntry}

theorem refl (free : Prop) (entry : ConnectionEntry) : EntryStep free entry entry :=
  ⟨rfl, rfl, rfl, rfl, id, fun _ => id⟩

section

variable (h : EntryStep free entry entry')

include h

theorem trans (h' : EntryStep free entry' entry'') : EntryStep free entry entry'' where
  connectionId := h'.connectionId.trans h.connectionId
  key := h'.key.trans h.key
  parentConnectionId := h'.parentConnectionId.trans h.parentConnectionId
  parentConnectionConsumer := h'.parentConnectionConsumer.trans h.parentConnectionConsumer
  counted hcounted := h'.counted (h.counted hcounted)
  dead hfree hdead := h'.dead hfree (h.dead hfree hdead)

theorem mono {free' : Prop} (hfree : free → free') : EntryStep free' entry entry' :=
  { h with dead := fun hnot hdead => h.dead (mt hfree hnot) hdead }

theorem parentOwnership : entry'.parentOwnership = entry.parentOwnership := by
  unfold ConnectionEntry.parentOwnership
  rw [h.parentConnectionId, h.parentConnectionConsumer]

end

theorem of_state (hid : entry'.connectionId = entry.connectionId) (hkey : entry'.key = entry.key)
    (hparent : entry'.parentConnectionId = entry.parentConnectionId)
    (hconsumer : entry'.parentConnectionConsumer = entry.parentConnectionConsumer)
    (hcount : entry'.refCount = entry.refCount) (hconsumers : entry'.consumers = entry.consumers)
    (hstate : ¬free → entry.state.Dead → entry'.state.Dead) : EntryStep free entry entry' where
  connectionId := hid
  key := hkey
  parentConnectionId := hparent
  parentConnectionConsumer := hconsumer
  counted h := ⟨by rw [hcount, hconsumers, h.count], by rw [hconsumers]; exact h.nodup⟩
  dead := hstate

variable (entry)

theorem cancelIdleTimer (free : Prop) : EntryStep free entry entry.cancelIdleTimer :=
  .of_state rfl rfl rfl rfl rfl rfl fun _ => id

theorem addConsumer (free : Prop) (consumer : ConnectionConsumer) :
    EntryStep free entry (entry.addConsumer consumer) := by
  unfold ConnectionEntry.addConsumer
  split
  · exact refl free entry
  · next hnew =>
      refine ⟨rfl, rfl, rfl, rfl, fun h => ⟨?_, ?_⟩, fun _ => id⟩
      · show entry.refCount + 1 = (entry.consumers ++ [consumer]).length
        rw [List.length_append, h.count, List.length_singleton]
      · exact List.nodup_append.mpr ⟨h.nodup, List.nodup_singleton consumer, fun a ha b hb hab =>
          hnew (by rw [List.mem_singleton.mp hb] at hab; exact hab ▸ ha)⟩

theorem borrow (free : Prop) (consumer : ConnectionConsumer) :
    EntryStep free entry (entry.borrow consumer) := by
  have hadd := addConsumer entry free consumer
  have hcancel := hadd.trans (cancelIdleTimer _ free)
  unfold ConnectionEntry.borrow
  split
  · exact refl free entry
  · dsimp only
    split
    · split
      · next hidle =>
          refine hcancel.trans (.of_state rfl rfl rfl rfl rfl rfl fun _ hdead => ?_)
          have hstate : (entry.addConsumer consumer).cancelIdleTimer.state = .idle := by
            unfold ConnectionEntry.cancelIdleTimer ConnectionEntry.addConsumer
            split <;> exact hidle.1
          rw [hstate] at hdead
          cases hdead
      · exact hcancel
    · exact hadd

theorem dropConsumer (free : Prop) (consumer : ConnectionConsumer) :
    EntryStep free entry (entry.dropConsumer consumer) := by
  refine ⟨rfl, rfl, rfl, rfl, fun h => ⟨?_, h.nodup.filter _⟩, fun _ => id⟩
  show (if (entry.consumers.filter (· ≠ consumer)).length ≠ entry.consumers.length
    then entry.refCount - 1 else entry.refCount) = (entry.consumers.filter (· ≠ consumer)).length
  have hfilter : entry.consumers.filter (· ≠ consumer) = entry.consumers.erase consumer := by
    rw [h.nodup.erase_eq_filter]
    exact List.filter_congr fun a _ => by by_cases ha : a = consumer <;> simp [ha]
  rw [h.count, hfilter]
  by_cases hmem : consumer ∈ entry.consumers
  · have := List.length_pos_of_mem hmem
    rw [List.length_erase_of_mem hmem, if_pos (by omega)]
  · rw [List.erase_of_not_mem hmem, if_neg (not_not_intro rfl)]

theorem toIdle (hfree : entry.state.Dead → free) : EntryStep free entry entry.toIdle :=
  .of_state rfl rfl rfl rfl rfl rfl fun hnot hdead => absurd (hfree hdead) hnot

end EntryStep

/-! ## 2. Quiet changes -/

namespace SshConnectionRegistry

variable {registry registry' registry'' : SshConnectionRegistry} {free : Str → Prop}

/-- No connection is added, retired or linked to a parent, and none is revived but those that the
    call is free to revive. -/
structure Quiet (free : Str → Prop) (registry registry' : SshConnectionRegistry) : Prop where
  byId : registry'.byId = registry.byId
  ledger : registry'.ledger = registry.ledger
  entries : ∀ key, Option.Rel (fun entry entry' => EntryStep (free entry.connectionId) entry entry')
    (registry.byKey.lookup key) (registry'.byKey.lookup key)

namespace Quiet

theorem of_lookup (hbyId : registry'.byId = registry.byId)
    (hledger : registry'.ledger = registry.ledger)
    (h : ∀ key, registry'.byKey.lookup key = registry.byKey.lookup key) :
    Quiet free registry registry' := by
  refine ⟨hbyId, hledger, fun key => ?_⟩
  rw [h key]
  cases registry.byKey.lookup key with
  | none => exact .none
  | some entry => exact .some (.refl _ entry)

theorem refl (free : Str → Prop) (registry : SshConnectionRegistry) :
    Quiet free registry registry := .of_lookup rfl rfl fun _ => rfl

theorem mono {free' : Str → Prop} (h : Quiet free registry registry')
    (hfree : ∀ id, free id → free' id) : Quiet free' registry registry' := by
  refine ⟨h.byId, h.ledger, fun key => ?_⟩
  have hkey := h.entries key
  cases hlookup : registry.byKey.lookup key <;> cases hlookup' : registry'.byKey.lookup key <;>
    rw [hlookup, hlookup'] at hkey <;> cases hkey
  · exact .none
  · next hstep => exact .some (hstep.mono (hfree _))

variable {entry entry' : ConnectionEntry} {key : Str}

section

variable (h : Quiet free registry registry')

include h

theorem origin (hentry : registry'.byKey.lookup key = some entry') :
    ∃ entry, registry.byKey.lookup key = some entry ∧
      EntryStep (free entry.connectionId) entry entry' := by
  have hkey := h.entries key
  rw [hentry] at hkey
  cases hlookup : registry.byKey.lookup key with
  | none => rw [hlookup] at hkey; cases hkey
  | some entry =>
    rw [hlookup] at hkey
    cases hkey with
    | some hstep => exact ⟨entry, rfl, hstep⟩

theorem image (hentry : registry.byKey.lookup key = some entry) :
    ∃ entry', registry'.byKey.lookup key = some entry' ∧
      EntryStep (free entry.connectionId) entry entry' := by
  have hkey := h.entries key
  rw [hentry] at hkey
  cases hlookup : registry'.byKey.lookup key with
  | none => rw [hlookup] at hkey; cases hkey
  | some entry' =>
    rw [hlookup] at hkey
    cases hkey with
    | some hstep => exact ⟨entry', rfl, hstep⟩

theorem trans (h' : Quiet free registry' registry'') : Quiet free registry registry'' := by
  refine ⟨h'.byId.trans h.byId, h'.ledger.trans h.ledger, fun key => ?_⟩
  cases hlookup : registry.byKey.lookup key with
  | some entry =>
    obtain ⟨entry', hentry', hstep⟩ := h.image hlookup
    obtain ⟨entry'', hentry'', hstep'⟩ := h'.image hentry'
    rw [hentry'']
    exact .some (hstep.trans (hstep.connectionId ▸ hstep'))
  | none =>
    cases hlookup'' : registry''.byKey.lookup key with
    | none => exact .none
    | some entry'' =>
      obtain ⟨entry', hentry', -⟩ := h'.origin hlookup''
      obtain ⟨entry, hentry, -⟩ := h.origin hentry'
      rw [hlookup] at hentry
      cases hentry

theorem congr (hbyKey : registry''.byKey = registry'.byKey)
    (hbyId : registry''.byId = registry'.byId) (hledger : registry''.ledger = registry'.ledger) :
    Quiet free registry registry'' :=
  h.trans (.of_lookup hbyId hledger fun key => by rw [hbyKey])

end

theorem put (hentry : registry.byKey.lookup key = some entry)
    (hstep : EntryStep (free entry.connectionId) entry entry') :
    Quiet free registry (registry.put key entry') := by
  refine ⟨rfl, rfl, fun key' => ?_⟩
  rw [put_byKey, Map.lookup_insert_eq]
  by_cases hkey : key' = key
  · rw [if_pos hkey, hkey, hentry]
    exact .some hstep
  · rw [if_neg hkey]
    exact (refl free registry).entries key'

theorem find {connectionId : Str} (h : Quiet free registry registry')
    (hfind : registry'.find connectionId = some (key, entry')) :
    ∃ entry, registry.find connectionId = some (key, entry) ∧
      EntryStep (free entry.connectionId) entry entry' := by
  obtain ⟨hbyId, hbyKey⟩ := find_eq_some_iff.mp hfind
  obtain ⟨entry, hentry, hstep⟩ := h.origin hbyKey
  exact ⟨entry, find_eq_some_iff.mpr ⟨h.byId ▸ hbyId, hentry⟩, hstep⟩

theorem foldl {α : Type} (f : SshConnectionRegistry → α → SshConnectionRegistry)
    (hf : ∀ registry a, Quiet free registry (f registry a)) (l : List α)
    (registry : SshConnectionRegistry) : Quiet free registry (l.foldl f registry) := by
  induction l generalizing registry with
  | nil => exact refl free registry
  | cons a l ih => exact (hf registry a).trans (ih (f registry a))

theorem startIdleTimerForEntry (hentry : registry.byKey.lookup key = some entry)
    (hstep : EntryStep (free entry.connectionId) entry entry'.toIdle) :
    Quiet free registry (registry.startIdleTimerForEntry key entry') := by
  obtain ⟨sleeping, h⟩ := registry.startIdleTimerForEntry_eq key entry'
  rw [h]
  exact (put hentry hstep).congr rfl rfl rfl

end Quiet

/-! ## 3. Quiet calls -/

/-- The calls that revive nothing. -/
abbrev Still (registry registry' : SshConnectionRegistry) : Prop :=
  Quiet (fun _ => False) registry registry'

section Calls

variable (registry) (connectionId : Str)

theorem quiet_acquireConsumerForConnection (consumer : ConnectionConsumer) :
    Still registry (registry.acquireConsumerForConnection connectionId consumer).1 := by
  unfold acquireConsumerForConnection
  cases hfind : registry.find connectionId with
  | none => exact .refl _ registry
  | some found => exact .put (find_eq_some_iff.mp hfind).2 (.borrow _ _ consumer)

theorem quiet_setPhysical (physical : Option Nat) :
    Still registry (registry.setPhysical connectionId physical) := by
  unfold setPhysical
  cases hfind : registry.find connectionId with
  | none => exact .refl _ registry
  | some found =>
    exact .put (find_eq_some_iff.mp hfind).2 (.of_state rfl rfl rfl rfl rfl rfl fun _ => id)

theorem quiet_setKeepAlive (keepAlive : Bool) :
    Still registry (registry.setKeepAlive connectionId keepAlive).1 := by
  unfold setKeepAlive
  cases hfind : registry.find connectionId with
  | none => exact .refl _ registry
  | some found =>
    obtain ⟨key, entry⟩ := found
    have hentry := (find_eq_some_iff.mp hfind).2
    dsimp only
    split
    · exact .put hentry (.of_state rfl rfl rfl rfl rfl rfl fun _ => id)
    · split
      · next hidle =>
          refine .startIdleTimerForEntry hentry (.of_state rfl rfl rfl rfl rfl rfl ?_)
          intro _ hdead
          rw [hidle.1] at hdead
          cases hdead
      · exact .put hentry (.of_state rfl rfl rfl rfl rfl rfl fun _ => id)

theorem quiet_restartIdleTimer (key : Str) : Still registry (registry.restartIdleTimer key) := by
  unfold restartIdleTimer
  cases hentry : registry.byKey.lookup key with
  | none => exact .refl _ registry
  | some entry =>
    dsimp only
    split
    · next hidle =>
        refine .startIdleTimerForEntry hentry (.of_state rfl rfl rfl rfl rfl rfl ?_)
        intro _ hdead
        have hstate : entry.state = .idle := hidle.1
        rw [hstate] at hdead
        cases hdead
    · exact .put hentry (.cancelIdleTimer entry _)

theorem quiet_setIdleTimeout (idleTimeout : Option Nat) :
    Still registry (registry.setIdleTimeout idleTimeout) := by
  have hconfig : Still registry { registry with config := { registry.config with idleTimeout } } :=
    .of_lookup rfl rfl fun _ => rfl
  exact hconfig.trans (Quiet.foldl restartIdleTimer quiet_restartIdleTimer _ _)

theorem quiet_markState (state : ConnectionState) :
    Quiet (fun id => ¬state.Dead ∧ ∃ found, registry.find connectionId = some found ∧
      found.2.connectionId = id) registry (registry.markState connectionId state).1 := by
  unfold markState
  cases hfind : registry.find connectionId with
  | none => exact .refl _ registry
  | some found =>
    refine .put (find_eq_some_iff.mp hfind).2 (.of_state rfl rfl rfl rfl rfl rfl ?_)
    intro hnot _
    exact Classical.byContradiction fun hstate => hnot ⟨hstate, found, rfl, rfl⟩

theorem quiet_markState_dead {state : ConnectionState} (hdead : state.Dead) :
    Still registry (registry.markState connectionId state).1 :=
  (registry.quiet_markState connectionId state).mono fun _ h => h.1 hdead

theorem quiet_markLinkDownLoop (connectionIds : List Str) :
    Still registry (markLinkDownLoop connectionIds registry).1 := by
  induction connectionIds generalizing registry with
  | nil => exact .refl _ registry
  | cons connectionId rest ih =>
    unfold markLinkDownLoop
    split
    · have hdead : ConnectionState.linkDown.Dead := trivial
      exact (registry.quiet_markState_dead connectionId hdead).trans (ih _)
    · exact ih registry

theorem quiet_markLinkDownCascade (fuel : Nat) (rootConnectionId : Str) :
    Still registry (registry.markLinkDownCascade fuel rootConnectionId).1 := by
  unfold markLinkDownCascade
  split
  · exact .refl _ registry
  · cases registry.descendantConnectionInfos fuel rootConnectionId with
    | none => exact .refl _ registry
    | some children => exact registry.quiet_markLinkDownLoop _

theorem quiet_markTransportLostCascade (fuel : Nat) (rootConnectionId : Str) :
    Still registry (registry.markTransportLostCascade fuel rootConnectionId).1 :=
  (registry.quiet_markLinkDownCascade fuel rootConnectionId).trans
    (Quiet.foldl _ (fun registry (info : ConnectionInfo) =>
      registry.quiet_setPhysical info.connectionId none) _ _)

theorem quiet_probeActiveConnection (first second : KeepaliveProbeResult) :
    Still registry (registry.probeActiveConnection connectionId first second).1 := by
  unfold probeActiveConnection
  cases hfind : registry.find connectionId with
  | none => exact .refl _ registry
  | some found =>
    have hentry := (find_eq_some_iff.mp hfind).2
    dsimp only
    split
    · exact .refl _ registry
    · cases first with
      | ok => exact .put hentry (.of_state rfl rfl rfl rfl rfl rfl fun _ => id)
      | timeout => exact .put hentry (.of_state rfl rfl rfl rfl rfl rfl fun _ => id)
      | ioError =>
        dsimp only
        split
        · exact .put hentry (.of_state rfl rfl rfl rfl rfl rfl fun _ => id)
        · exact .refl _ registry

theorem quiet_heartbeat (fuel : Nat) (connectionId : Str) (first second : KeepaliveProbeResult) :
    Still registry (registry.heartbeat fuel connectionId first second) := by
  have hprobe := registry.quiet_probeActiveConnection connectionId first second
  unfold heartbeat
  generalize registry.probeActiveConnection connectionId first second = result at hprobe ⊢
  obtain ⟨registry', status⟩ := result
  cases status with
  | dead => exact hprobe.trans (registry'.quiet_markTransportLostCascade fuel connectionId)
  | alive => exact hprobe
  | notFound => exact hprobe
  | notApplicable => exact hprobe

/-- A probe revives a connection only when it answers that it is alive. -/
theorem quiet_probeSingleConnection (first second : KeepaliveProbeResult) :
    Quiet (fun id => (registry.probeSingleConnection connectionId first second).2 = .alive ∧
      ∃ found, registry.find connectionId = some found ∧ found.2.connectionId = id)
      registry (registry.probeSingleConnection connectionId first second).1 := by
  unfold probeSingleConnection
  cases hfind : registry.find connectionId with
  | none => exact .refl _ registry
  | some found =>
    obtain ⟨key, entry⟩ := found
    have hentry := (find_eq_some_iff.mp hfind).2
    have hrevived : ∀ status, status = ProbeConnectionStatus.alive →
        Quiet (fun id => status = .alive ∧ ∃ found, some (key, entry) = some found ∧
          found.2.connectionId = id) registry
          ((registry.put key { entry with heartbeatFailures := 0 }).markState connectionId
            .active).1 := by
      intro status hstatus
      have hreset : EntryStep False entry { entry with heartbeatFailures := 0 } :=
        .of_state rfl rfl rfl rfl rfl rfl fun _ => id
      have hput : Still registry (registry.put key { entry with heartbeatFailures := 0 }) :=
        .put hentry hreset
      refine (hput.mono fun _ => False.elim).trans
        ((quiet_markState _ connectionId .active).mono ?_)
      rintro id ⟨-, found', hfound', rfl⟩
      obtain ⟨found, hfound, hstep⟩ := hput.find hfound'
      rw [hfind] at hfound
      cases hfound
      exact ⟨hstatus, _, rfl, hstep.connectionId.symm⟩
    have hdown : Still registry (registry.markState connectionId .linkDown).1 := by
      have hdead : ConnectionState.linkDown.Dead := trivial
      exact registry.quiet_markState_dead connectionId hdead
    dsimp only
    split
    · exact .refl _ registry
    · exact .refl _ registry
    · exact .refl _ registry
    · exact .refl _ registry
    · exact hrevived _ rfl
    · split
      · exact hrevived _ rfl
      · exact hdown.mono fun _ => False.elim
    · exact .refl _ registry
    · exact .refl _ registry

theorem quiet_disconnectIfIdleTimeout (fuel : Nat) (rootConnectionId : Str) (generation : Nat) :
    Still registry (registry.disconnectIfIdleTimeout fuel rootConnectionId generation) := by
  unfold disconnectIfIdleTimeout
  cases registry.get rootConnectionId with
  | none => exact .refl _ registry
  | some root =>
    dsimp only
    split
    · exact .refl _ registry
    · cases registry.descendantConnectionInfos fuel rootConnectionId with
      | none => exact .refl _ registry
      | some children => exact .of_lookup rfl rfl fun _ => rfl

theorem quiet_wake (fuel timer : Nat) : Still registry (registry.wake fuel timer) := by
  unfold wake
  cases registry.sleeping[timer]? with
  | none => exact .refl _ registry
  | some found =>
    have hwoken : Still registry { registry with sleeping := registry.sleeping.eraseIdx timer } :=
      .of_lookup rfl rfl fun _ => rfl
    exact hwoken.trans (quiet_disconnectIfIdleTimeout _ fuel found.1 found.2)

/-- The release of a consumer frees a pooled connection that it leaves unused. -/
theorem quiet_dropConsumer (consumer : ConnectionConsumer) :
    Quiet (fun id => ∃ found, registry.find connectionId = some found ∧
      found.2.connectionId = id ∧ found.2.retireWhenUnused = false ∧
        (found.2.dropConsumer consumer).refCount = 0)
      registry (registry.dropConsumer connectionId consumer).1 := by
  unfold dropConsumer
  cases hfind : registry.find connectionId with
  | none => exact .refl _ registry
  | some found =>
    obtain ⟨key, entry⟩ := found
    have hentry := (find_eq_some_iff.mp hfind).2
    have hdrop := fun free => EntryStep.dropConsumer entry free consumer
    dsimp only
    split
    · next hcount =>
        split
        · exact .put hentry (hdrop _)
        · next hpooled =>
            have hfree : ∃ found, some (key, entry) = some found ∧
                found.2.connectionId = entry.connectionId ∧ found.2.retireWhenUnused = false ∧
                  (found.2.dropConsumer consumer).refCount = 0 :=
              ⟨_, rfl, rfl, by simpa using hpooled, hcount⟩
            split
            · exact .put hentry ((hdrop _).trans (.toIdle _ fun _ => hfree))
            · exact .startIdleTimerForEntry hentry ((hdrop _).trans (.toIdle _ fun _ => hfree))
    · exact .put hentry (hdrop _)

end Calls

/-- The calls that change nothing but entries, tasks and settings. -/
def Operation.isQuiet : Operation → Bool
  | .acquire .. | .acquireDedicated ..
  | .setParentConnectionId .. | .setParentConnectionOwnership ..
  | .release .. | .retireConnection .. | .closeNext .. => false
  | _ => true

/-- The connections that such a call may revive. -/
def Operation.MayRevive (registry : SshConnectionRegistry) : Operation → Str → Prop
  | .markState connectionId state, id =>
    ¬state.Dead ∧ ∃ found, registry.find connectionId = some found ∧ found.2.connectionId = id
  | .probeSingleConnection connectionId first second, id =>
    (registry.probeSingleConnection connectionId first second).2 = .alive ∧
      ∃ found, registry.find connectionId = some found ∧ found.2.connectionId = id
  | _, _ => False

theorem quiet_step (registry : SshConnectionRegistry) (parts : KeyParts) {operation : Operation}
    (hquiet : operation.isQuiet = true) :
    Quiet (operation.MayRevive registry) registry (registry.step parts operation) := by
  cases operation with
  | acquireConsumerForConnection connectionId consumer =>
    exact registry.quiet_acquireConsumerForConnection connectionId consumer
  | markState connectionId state => exact registry.quiet_markState connectionId state
  | setPhysical connectionId physical => exact registry.quiet_setPhysical connectionId physical
  | setKeepAlive connectionId keepAlive => exact registry.quiet_setKeepAlive connectionId keepAlive
  | setIdleTimeout idleTimeout => exact registry.quiet_setIdleTimeout idleTimeout
  | setTaskRuntime => exact .of_lookup rfl rfl fun _ => rfl
  | setNodeEventEmitter nodes => exact .of_lookup rfl rfl fun _ => rfl
  | registerNode connectionId nodeId => exact .of_lookup rfl rfl fun _ => rfl
  | markLinkDownCascade fuel rootConnectionId =>
    exact registry.quiet_markLinkDownCascade fuel rootConnectionId
  | markTransportLostCascade fuel rootConnectionId =>
    exact registry.quiet_markTransportLostCascade fuel rootConnectionId
  | heartbeat fuel connectionId first second =>
    exact registry.quiet_heartbeat fuel connectionId first second
  | probeSingleConnection connectionId first second =>
    exact registry.quiet_probeSingleConnection connectionId first second
  | wake fuel timer => exact registry.quiet_wake fuel timer
  | rehash entries => exact .of_lookup rfl rfl fun key => Map.lookup_reorder ..
  | _ => cases hquiet

/-! ## 4. Properties that the calls keep -/

/-- A property that quiet changes and retirements keep. -/
structure Kept (P : SshConnectionRegistry → Prop) : Prop where
  quiet : ∀ {registry registry'}, Quiet (fun _ => True) registry registry' →
    P registry → P registry'
  unregister : ∀ {registry registry' connectionId info ownership},
    unregister registry connectionId = some (registry', info, ownership) → P registry → P registry'

namespace Kept

variable {P : SshConnectionRegistry → Prop}

theorem still (h : Kept P) (hstill : Quiet free registry registry') (hP : P registry) :
    P registry' :=
  h.quiet (hstill.mono fun _ _ => trivial) hP

theorem same (h : Kept P) (hP : P registry) (hbyKey : registry'.byKey = registry.byKey)
    (hbyId : registry'.byId = registry.byId) (hledger : registry'.ledger = registry.ledger) :
    P registry' :=
  h.quiet (.of_lookup hbyId hledger fun key => by rw [hbyKey]) hP

theorem releaseLoop (h : Kept P) (fuel : Nat) (hP : P registry) (connectionId : Str)
    (consumer : ConnectionConsumer) : P (releaseLoop fuel registry connectionId consumer) := by
  induction fuel generalizing registry connectionId consumer with
  | zero => exact hP
  | succ fuel ih =>
    have hdrop := h.still (registry.quiet_dropConsumer connectionId consumer) hP
    unfold SshConnectionRegistry.releaseLoop
    generalize registry.dropConsumer connectionId consumer = result at hdrop ⊢
    obtain ⟨dropped, retired⟩ := result
    cases retired with
    | false => exact hdrop
    | true =>
      dsimp only at hdrop ⊢
      rcases hunregister : dropped.unregister connectionId with _ | ⟨removed, info, ownership⟩
      · exact hdrop
      · have hremoved := h.unregister hunregister hdrop
        cases ownership with
        | none => exact hremoved
        | some pair => exact ih hremoved pair.1 pair.2

section

variable (h : Kept P) (hP : P registry)

include h hP

theorem release (connectionId : Str)
    (consumer : ConnectionConsumer) : P (registry.release connectionId consumer) :=
  h.releaseLoop _ hP connectionId consumer

theorem releaseOwnership (ownership : Option (Str × ConnectionConsumer)) : P
    (registry.releaseOwnership ownership) := by
  cases ownership with
  | none => exact hP
  | some pair => exact h.release hP pair.1 pair.2

theorem retireConnection (connectionId : Str) : P (registry.retireConnection connectionId).1 := by
  unfold SshConnectionRegistry.retireConnection
  rcases hunregister : registry.unregister connectionId with _ | ⟨removed, info, ownership⟩
  · exact hP
  · exact h.releaseOwnership (h.unregister hunregister hP) ownership

theorem startDisconnect {connectionId : Str}
    (hstart : registry.startDisconnect connectionId = some registry') : P registry' := by
  unfold SshConnectionRegistry.startDisconnect at hstart
  cases hfind : registry.find connectionId with
  | none => rw [hfind] at hstart; cases hstart
  | some found =>
    rw [hfind] at hstart
    dsimp only at hstart
    split at hstart
    · cases hstart
    · cases hstart
      have hcancelled := h.quiet (.put (find_eq_some_iff.mp hfind).2 (.cancelIdleTimer _ _)) hP
      refine h.still (quiet_setPhysical _ _ _) ?_
      unfold SshConnectionRegistry.releaseAncestor
      split
      · exact h.release hcancelled _ _
      · exact hcancelled

theorem finishDisconnect (connectionId : Str) : P (registry.finishDisconnect connectionId) := by
  refine h.retireConnection ?_ connectionId
  have hmarked := h.still (registry.quiet_markState connectionId .disconnected) hP
  exact h.same hmarked rfl rfl rfl

theorem closeNext (task : Nat) : P (registry.closeNext task) := by
  unfold SshConnectionRegistry.closeNext
  split
  · exact hP
  · exact hP
  · next connectionId rest hclosing =>
      cases hstart : registry.startDisconnect connectionId with
      | none => exact h.same hP rfl rfl rfl
      | some registry' => exact h.same (h.startDisconnect hP hstart) rfl rfl rfl
  · next connectionId rest hclosing =>
      exact h.same (h.finishDisconnect hP connectionId) rfl rfl rfl

end

end Kept

/-- The calls that add a connection or link one to a parent. -/
def Operation.addsOrLinks : Operation → Bool
  | .acquire .. | .acquireDedicated ..
  | .setParentConnectionId .. | .setParentConnectionOwnership .. => true
  | _ => false

theorem Kept.step {P : SshConnectionRegistry → Prop} (h : Kept P) (parts : KeyParts)
    (hP : P registry) {operation : Operation} (hlocal : operation.addsOrLinks = false) :
    P (registry.step parts operation) := by
  by_cases hquiet : operation.isQuiet = true
  · exact h.still (registry.quiet_step parts hquiet) hP
  cases operation with
  | acquire config consumer uuid => cases hlocal
  | acquireDedicated config consumer poolUuid uuid => cases hlocal
  | setParentConnectionId connectionId parentConnectionId => cases hlocal
  | setParentConnectionOwnership connectionId parentConnectionId parentConsumer => cases hlocal
  | release connectionId consumer => exact h.release hP connectionId consumer
  | retireConnection connectionId => exact h.retireConnection hP connectionId
  | closeNext task => exact h.closeNext hP task
  | _ => exact absurd rfl hquiet

/-! ## 5. Calls that add or link a connection -/

variable (registry)

theorem acquire_cases (parts : KeyParts) (config : SshConfig) (consumer : ConnectionConsumer)
    (uuid : Str) :
    Still registry (registry.acquire parts config consumer uuid).1 ∨
      registry.byKey.lookup (config.connectionKey parts) = none ∧
        Still (registry.insertEntry
          (registry.newEntry config (config.connectionKey parts) uuid false))
          (registry.acquire parts config consumer uuid).1 := by
  have hadd : ∀ entry : ConnectionEntry, EntryStep False entry
      (entry.cancelIdleTimer.addConsumer consumer) := fun entry =>
    (EntryStep.cancelIdleTimer entry _).trans (.addConsumer _ _ consumer)
  unfold acquire
  dsimp only
  cases hentry : registry.byKey.lookup (config.connectionKey parts) with
  | some entry => exact .inl (.put hentry (hadd entry))
  | none =>
    refine .inr ⟨rfl, .put ?_ (hadd _)⟩
    exact AList.lookup_insert registry.byKey

theorem setParentConnectionOwnership_cases (connectionId parentConnectionId : Str)
    (parentConsumer : ConnectionConsumer) :
    (registry.setParentConnectionOwnership connectionId parentConnectionId parentConsumer).1 =
        registry ∨
      ∃ key entry noted, registry.find connectionId = some (key, entry) ∧
        noted = (if entry.parentOwnership = some (parentConnectionId, parentConsumer) then []
          else [OwnershipEvent.recorded connectionId parentConnectionId parentConsumer]) ∧
        (registry.setParentConnectionOwnership connectionId parentConnectionId parentConsumer).1 =
          { registry.put key (entry.linked (some parentConnectionId) (some parentConsumer)) with
            ledger := registry.ledger ++ noted } := by
  unfold setParentConnectionOwnership
  cases hfind : registry.find connectionId with
  | none => exact .inl rfl
  | some found =>
    dsimp only
    split
    · exact .inr ⟨_, _, _, rfl, rfl, rfl⟩
    · exact .inl rfl

theorem setParentConnectionId_cases (connectionId : Str) (parentConnectionId : Option Str) :
    (registry.setParentConnectionId connectionId parentConnectionId).1 = registry ∨
      ∃ key entry, registry.find connectionId = some (key, entry) ∧
        ((∃ parentId, parentConnectionId = some parentId ∧
          (registry.setParentConnectionId connectionId parentConnectionId).1 =
            registry.put key { entry with parentConnectionId := some parentId }) ∨
        parentConnectionId = none ∧
          (registry.setParentConnectionId connectionId parentConnectionId).1 =
            ((registry.put key (entry.linked none none)).noteReleased connectionId
              entry.parentOwnership).releaseOwnership entry.parentOwnership) := by
  unfold setParentConnectionId
  cases hfind : registry.find connectionId with
  | none => exact .inl rfl
  | some found =>
    dsimp only
    split
    · refine .inr ⟨_, _, rfl, ?_⟩
      cases parentConnectionId with
      | some parentId => exact .inl ⟨parentId, rfl, rfl⟩
      | none => exact .inr ⟨rfl, rfl⟩
    · exact .inl rfl

end SshConnectionRegistry

end Hapcli.Ssh
