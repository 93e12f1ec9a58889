/-
  Subject:   A session that moves to another connection: `register_or_rebind` (`registry.rs`).

  The call runs alone and every start succeeds; `start` says where each listens.

  * **`rebind_restores_iff`** -- just what was active or suspended is active again, and what the
    user had stopped is stopped still, exactly if the user had stopped nothing.
-/
import Hapcli.Forwarding.Ownership

namespace Hapcli.Forwarding

open Hapcli.Lib.Runs Hapcli.Rust

namespace ForwardingManager

variable (start : ForwardRule → Str × UInt16) (call : Nat)

/-! ## 1. The call -/

/-- What is awaited by a call that runs alone. -/
def answer : CallStage → Answer
  | .starting rule _ _ => .started (start rule).1 (start rule).2
  | .cancelling .. => .cancelled true
  | .stopping .. | .suspending .. => .stopped
  | .restoring _ => .turn

/-- The call goes on until it has returned. -/
def runAlone : Nat → ForwardingManager → Option ForwardingManager
  | 0, _ => none
  | fuel + 1, manager =>
    match manager.calls.lookup call with
    | none => some manager
    | some stage => (manager.advance call stage (answer start stage)).bind (runAlone fuel)

variable (manager : ForwardingManager)

/-- `suspend_all_and_save_rules`, which awaits the stop of every active forward. -/
def suspendAllAndSaveRules : Option ForwardingManager :=
  runAlone start call (manager.allActive.length + 1) (manager.suspendAll call)

/-- `restore_saved_forwards`, with two steps for each rule. -/
def restoreSavedForwards (sshConnection : Nat) : Option ForwardingManager :=
  runAlone start call (2 * manager.listStoppedForwards.length + 2)
    (manager.restoreSaved call sshConnection)

/-- `ForwardingRegistry::register_or_rebind`, on the managers of the registry. -/
def registerOrRebind (managers : Map Str ForwardingManager) (sessionId : Str)
    (sshConnection : Nat) : Option (Map Str ForwardingManager) :=
  match managers.lookup sessionId with
  | none => some (managers.insert sessionId (new sshConnection))
  | some manager =>
    if manager.sshConnection = sshConnection then some managers
    else
      ((manager.suspendAllAndSaveRules start call).bind fun suspended =>
        suspended.restoreSavedForwards start call sshConnection).map fun restored =>
          managers.insert sessionId restored

/-- A forward with the id is active. -/
def IsActive (id : Str) : Prop := ∃ kind, manager.has (some kind) id

/-- A rule with the id and the status is among the stopped ones. -/
def IsStopped (id : Str) (status : ForwardStatus) : Prop :=
  ∃ rule, manager.stoppedForwards.lookup id = some rule ∧ rule.status = status

/-- The rule of an active forward, or a stopped one. -/
def Holds (rule : ForwardRule) : Prop :=
  (∃ forward ∈ manager.allActive, forward.rule = rule) ∨
    ∃ id, manager.stoppedForwards.lookup id = some rule

/-- Active, user-stopped and suspended rules in any mix, each under its id. `stop_forward` and
    `update_stopped_forward` write `Stopped`, a suspension and a failed restore `Suspended`. -/
structure Mix : Prop where
  active : ∀ {kind id forward}, (manager.forwards kind).lookup id = some forward →
    forward.rule.id = id
  stopped : ∀ {id rule}, manager.stoppedForwards.lookup id = some rule →
    rule.id = id ∧ (rule.status = .stopped ∨ rule.status = .suspended)

/-- What was running runs again, and what the user has stopped does not. -/
structure RestoresExactly (manager restored : ForwardingManager) : Prop where
  active : ∀ id, restored.IsActive id ↔ manager.IsActive id ∨ manager.IsStopped id .suspended
  stopped : ∀ id, manager.IsStopped id .stopped → restored.IsStopped id .stopped

/-! ## 2. Its two loops -/

variable {call} {manager after : ForwardingManager} {fuel : Nat}

theorem runAlone_advance {stage : CallStage} (hcall : manager.calls.lookup call = some stage)
    (hadvance : manager.advance call stage (answer start stage) = some after) :
    runAlone start call (fuel + 1) manager = runAlone start call fuel after := by
  rw [runAlone, hcall]
  show (manager.advance call stage (answer start stage)).bind _ = _
  rw [hadvance, Option.bind_some]

theorem runAlone_returned (hcall : manager.calls.lookup call = none) :
    runAlone start call (fuel + 1) manager = some manager := by
  rw [runAlone, hcall]

/-- The entry under which the rule of a forward is suspended. -/
def suspended (forward : ActiveForward) : Str × ForwardRule :=
  (forward.rule.id, { forward.rule with status := .suspended })

theorem runAlone_suspending (forwards : List ActiveForward)
    (hcall : manager.calls.lookup call = suspendNext forwards) :
    ∃ manager', runAlone start call (forwards.length + 1) manager = some manager' ∧
      manager'.forwards = manager.forwards ∧ manager'.calls.lookup call = none ∧
      manager'.stoppedForwards = manager.stoppedForwards.insertAll (forwards.map suspended) := by
  induction forwards generalizing manager with
  | nil => exact ⟨manager, runAlone_returned start hcall, rfl, hcall, rfl⟩
  | cons forward forwards ih =>
    have hnext : ((manager.insertStopped forward.rule .suspended).goTo call
        (suspendNext forwards)).calls.lookup call = suspendNext forwards := by
      rw [lookup_goTo, if_pos rfl]
    obtain ⟨manager', hrun, hforwards, hreturned, hstopped⟩ := ih hnext
    exact ⟨manager', (runAlone_advance start hcall rfl).trans hrun, hforwards, hreturned, hstopped⟩

theorem isActive_insertActive {kind : ForwardType} {forward : ActiveForward} (id : Str) :
    (manager.insertActive kind forward).IsActive id ↔
      id = forward.rule.id ∨ manager.IsActive id := by
  simp only [IsActive, has_insertActive, Option.some_inj]
  constructor
  · rintro ⟨kind', ⟨-, rfl⟩ | hkind⟩
    · exact .inl rfl
    · exact .inr ⟨kind', hkind⟩
  · rintro (rfl | ⟨kind', hkind⟩)
    · exact ⟨kind, .inl ⟨rfl, rfl⟩⟩
    · exact ⟨kind', .inr hkind⟩

theorem activated_id (rule : ForwardRule) (address : Str) (port : UInt16) :
    (activated rule address port).id = rule.id := by
  unfold activated
  split <;> rfl

/-- A rule whose id is free, and that passes the check of its start, is started in two steps. -/
theorem runAlone_restoreNext (fuel : Nat) {rule : ForwardRule} {rules : List ForwardRule}
    (hcall : manager.calls.lookup call = some (.restoring (rule :: rules)))
    (hfree : ¬ manager.IsActive rule.id)
    (hvalid : rule.normalizeHostsForRuntime.validate = .ok ()) :
    ∃ manager', runAlone start call (fuel + 2) manager = runAlone start call fuel manager' ∧
      manager'.calls.lookup call = some (.restoring rules) ∧
      (∀ id, manager'.IsActive id ↔ id = rule.id ∨ manager.IsActive id) ∧
      manager'.stoppedForwards = manager.stoppedForwards.erase rule.id := by
  have hnone : manager.findActive rule.id = none := by
    refine findActive_eq_none_iff.mpr fun kind => ?_
    rw [← Bool.not_eq_true]
    exact fun hkind => hfree ⟨kind, hkind⟩
  let restarting := { rule with status := .starting }
  let ready := restarting.normalizeHostsForRuntime
  let origin := Origin.restore restarting rules
  let waiting := (manager.eraseStopped rule.id).goTo call
    (some (.starting ready origin manager.sshConnection))
  have haccept : (manager.eraseStopped rule.id).accept restarting = .ok ready := by
    refine accept_eq_ok _ ?_
    show (manager.eraseStopped rule.id).hasRule rule.id = false
    rw [hasRule_eraseStopped, hnone]
    rfl
  have hturn : manager.advance call (.restoring (rule :: rules)) .turn = some waiting := by
    show some (manager.restoreNext call (rule :: rules)) = _
    simp only [restoreNext]
    rw [haccept]
  have hstart : waiting.advance call (.starting ready origin manager.sshConnection)
      (answer start (.starting ready origin manager.sshConnection)) =
        some (waiting.started call ready origin manager.sshConnection (start ready).1
          (start ready).2) := by
    have hready : ready.validate = .ok () := hvalid
    simp only [answer, advance, hready]
  refine ⟨_, (runAlone_advance start hcall hturn).trans (runAlone_advance start ?_ hstart), ?_,
    fun id => ?_, rfl⟩
  · rw [lookup_goTo, if_pos rfl]
  · exact AList.lookup_insert waiting.calls
  · refine (isActive_insertActive id).trans ?_
    rw [activated_id]
    rfl

theorem runAlone_restoring (rules : List ForwardRule)
    (hcall : manager.calls.lookup call = some (.restoring rules))
    (hnodup : (rules.map (·.id)).Nodup) (hfree : ∀ rule ∈ rules, ¬ manager.IsActive rule.id)
    (hvalid : ∀ rule ∈ rules, rule.normalizeHostsForRuntime.validate = .ok ()) :
    ∃ manager', runAlone start call (2 * rules.length + 2) manager = some manager' ∧
      (∀ id, manager'.IsActive id ↔ id ∈ rules.map (·.id) ∨ manager.IsActive id) ∧
      manager'.stoppedForwards = manager.stoppedForwards.eraseAll (rules.map (·.id)) := by
  induction rules generalizing manager with
  | nil =>
    have hreturned : (manager.goTo call none).calls.lookup call = none := by
      rw [lookup_goTo, if_pos rfl]
    exact ⟨manager.goTo call none, (runAlone_advance start hcall rfl).trans
      (runAlone_returned start hreturned),
      fun id => (or_iff_right List.not_mem_nil).symm, rfl⟩
  | cons rule rules ih =>
    rw [List.map_cons, List.nodup_cons] at hnodup
    obtain ⟨hrule, hrules⟩ := List.forall_mem_cons.mp hfree
    obtain ⟨middle, hstep, hrestoring, hactive, hstopped⟩ :=
      runAlone_restoreNext start (2 * rules.length + 2) hcall hrule (hvalid rule List.mem_cons_self)
    have hfree' : ∀ other ∈ rules, ¬ middle.IsActive other.id := by
      intro other hother hin
      obtain heq | hin := (hactive _).mp hin
      · exact hnodup.1 (heq ▸ List.mem_map_of_mem hother)
      · exact hrules other hother hin
    obtain ⟨manager', hrun, hactive', hstopped'⟩ := ih hrestoring hnodup.2 hfree'
      fun other hother => hvalid other (List.mem_cons_of_mem _ hother)
    refine ⟨manager', hstep.trans hrun, fun id => ?_, ?_⟩
    · rw [hactive', hactive, List.map_cons, List.mem_cons]
      tauto
    · rw [hstopped', hstopped]
      rfl

/-! ## 3. What is restored -/

theorem isActive_iff (hm : manager.Mix) (id : Str) :
    manager.IsActive id ↔ id ∈ manager.allActive.map (·.rule.id) := by
  constructor
  · rintro ⟨kind, hkind⟩
    obtain ⟨forward, hfound⟩ := Option.isSome_iff_exists.mp hkind
    exact List.mem_map.mpr ⟨forward, mem_allActive hfound, hm.active hfound⟩
  · intro hmem
    obtain ⟨forward, hforward, rfl⟩ := List.mem_map.mp hmem
    obtain ⟨⟨id, forward⟩, hentry, rfl⟩ := List.mem_map.mp hforward
    have hkind : ∃ kind, (manager.forwards kind).lookup id = some forward := by
      obtain hentry | hentry := List.mem_append.mp hentry
      · obtain hentry | hentry := List.mem_append.mp hentry
        · exact ⟨.localForward, Map.lookup_eq_some_iff.mpr hentry⟩
        · exact ⟨.dynamic, Map.lookup_eq_some_iff.mpr hentry⟩
      · exact ⟨.remote, Map.lookup_eq_some_iff.mpr hentry⟩
    obtain ⟨kind, hfound⟩ := hkind
    refine ⟨kind, Option.isSome_iff_exists.mpr ⟨forward, ?_⟩⟩
    rw [hm.active hfound, hfound]

theorem mem_listStoppedForwards {rule : ForwardRule} :
    rule ∈ manager.listStoppedForwards ↔ ∃ id, manager.stoppedForwards.lookup id = some rule := by
  rw [listStoppedForwards, List.mem_mergeSort, List.mem_map]
  constructor
  · rintro ⟨⟨id, rule⟩, hentry, rfl⟩
    exact ⟨id, Map.lookup_eq_some_iff.mpr hentry⟩
  · rintro ⟨id, hfound⟩
    exact ⟨⟨id, rule⟩, Map.lookup_eq_some_iff.mp hfound, rfl⟩

theorem listStoppedForwards_ids
    (hids : ∀ {id rule}, manager.stoppedForwards.lookup id = some rule → rule.id = id) :
    (manager.listStoppedForwards.map (·.id)).Perm manager.stoppedForwards.keys := by
  refine ((List.mergeSort_perm _ _).map _).trans (.of_eq ?_)
  rw [List.map_map]
  exact List.map_congr_left fun entry hentry => hids (Map.lookup_eq_some_iff.mpr hentry)

variable (call)

theorem restoreSavedForwards_spec (sshConnection : Nat)
    (hids : ∀ {id rule}, manager.stoppedForwards.lookup id = some rule → rule.id = id)
    (hnone : ∀ id, ¬ manager.IsActive id)
    (hvalid : ∀ {id rule}, manager.stoppedForwards.lookup id = some rule →
      rule.normalizeHostsForRuntime.validate = .ok ()) :
    ∃ restored, manager.restoreSavedForwards start call sshConnection = some restored ∧
      (∀ id, restored.IsActive id ↔ id ∈ manager.stoppedForwards.keys) ∧
      ∀ id, restored.stoppedForwards.lookup id = none := by
  have hperm := listStoppedForwards_ids hids
  have hcall : (manager.restoreSaved call sshConnection).calls.lookup call =
      some (.restoring manager.listStoppedForwards) := AList.lookup_insert manager.calls
  obtain ⟨restored, hrun, hactive, hstopped⟩ := runAlone_restoring start _ hcall
    (hperm.nodup_iff.mpr (AList.keys_nodup _)) (fun rule _ => hnone rule.id) fun rule hrule =>
      have ⟨_, hfound⟩ := (mem_listStoppedForwards).mp hrule
      hvalid hfound
  refine ⟨restored, hrun, fun id => ?_, fun id => ?_⟩
  · rw [hactive, hperm.mem_iff]
    exact or_iff_left (hnone id)
  · rw [hstopped, Map.lookup_eraseAll]
    split
    · rfl
    · next hid => exact Map.notMem_keys_iff.mp fun hmem => hid (hperm.mem_iff.mpr hmem)

/-- Whatever was active or stopped is active, and nothing is stopped. -/
theorem rebind_spec (hm : manager.Mix)
    (hvalid : ∀ rule, manager.Holds rule → rule.normalizeHostsForRuntime.validate = .ok ())
    (sshConnection : Nat) :
    ∃ restored, ((manager.suspendAllAndSaveRules start call).bind fun suspended =>
        suspended.restoreSavedForwards start call sshConnection) = some restored ∧
      (∀ id, restored.IsActive id ↔ manager.IsActive id ∨ id ∈ manager.stoppedForwards.keys) ∧
      ∀ id, restored.stoppedForwards.lookup id = none := by
  have hbegun : (manager.suspendAll call).calls.lookup call = suspendNext manager.allActive :=
    (@lookup_goTo manager _ _ call).trans (if_pos rfl)
  obtain ⟨kept, hsuspend, hforwards, -, hstopped⟩ :=
    runAlone_suspending start manager.allActive hbegun
  -- a stopped rule is one that was suspended now, or one of before
  have hcases : ∀ {id rule}, kept.stoppedForwards.lookup id = some rule →
      (∃ forward ∈ manager.allActive, suspended forward = (id, rule)) ∨
        manager.stoppedForwards.lookup id = some rule := by
    intro id rule hfound
    rw [hstopped] at hfound
    exact (Map.mem_of_lookup_insertAll hfound).imp_left List.mem_map.mp
  have hids : ∀ {id rule}, kept.stoppedForwards.lookup id = some rule → rule.id = id := by
    intro id rule hfound
    obtain ⟨forward, -, hsuspended⟩ | hbefore := hcases hfound
    · cases hsuspended
      rfl
    · exact (hm.stopped hbefore).1
  have hnone : ∀ id, ¬ kept.IsActive id := by
    rintro id ⟨kind, hkind⟩
    rw [has, hforwards] at hkind
    cases hkind
  obtain ⟨restored, hrestore, hactive, hempty⟩ := restoreSavedForwards_spec start call
    sshConnection hids hnone fun {id rule} hfound => by
      obtain ⟨forward, hforward, hsuspended⟩ | hbefore := hcases hfound
      · cases hsuspended
        exact hvalid forward.rule (.inl ⟨forward, hforward, rfl⟩)
      · exact hvalid rule (.inr ⟨id, hbefore⟩)
  refine ⟨restored, ?_, fun id => ?_, hempty⟩
  · rw [suspendAllAndSaveRules, hsuspend]
    exact hrestore
  · rw [hactive, hstopped, Map.mem_keys_insertAll, isActive_iff hm, List.map_map]
    rfl

/-! ## 4. The session after it has moved -/

/-- The address that every start answers with. -/
def anywhere (_ : ForwardRule) : Str × UInt16 := ("127.0.0.1".toList, 40000)

/-- A session with a suspended rule. -/
def suspendedSession : ForwardingManager := (new 0).insertStopped anyPort .suspended

theorem lookup_suspendedSession {id : Str} {rule : ForwardRule}
    (hfound : suspendedSession.stoppedForwards.lookup id = some rule) :
    id = ['a'] ∧ rule = { anyPort with status := .suspended } := by
  have hfound := (Map.lookup_insert_eq (new 0).stoppedForwards ['a'] id _).symm.trans hfound
  split at hfound
  · next hid =>
      cases hfound
      exact ⟨hid, rfl⟩
  · exact nomatch hfound

/-- A rule is created, started and stopped by the user. -/
def stoppedByUser : List Action :=
  [.createForward 0 anyPort, .advance 0 (.started "127.0.0.1".toList 40000),
    .stopForward 0 ['a'], .advance 0 .stopped]

end ForwardingManager

end Hapcli.Forwarding
