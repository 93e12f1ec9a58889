/-
  Subject:   The shutdown of the transfers of an SFTP session is complete, or is not.

  * **`shutdown_complete_iff`** -- the shutdown is complete throughout a run exactly when each step
    of the run stays shut.
-/
import Hapcli.Sftp.Transfers

namespace Hapcli.Sftp

open Function
open Hapcli.Rust
open Hapcli.Lib.Runs

namespace SftpTransferManager

/-! ## 1. Controls -/

/-- The call keeps the lock of the controls. -/
def holdsControls : Stage → Bool
  | .registering _ _ | .entering _ _ _ => true
  | _ => false

/-- The controls that a shutdown at this stage has still to cancel. -/
def pending : ShutdownStage → List Nat
  | .cancelling controls => controls
  | _ => []

/-- What holds of the controls in every state: the lock, and once the shutdown has collected them,
    that what is registered is cancelled or about to be. -/
structure Sound (manager : SftpTransferManager) : Prop where
  locked : ∀ {call stage}, manager.calls call = some stage → holdsControls stage →
    manager.controlsLock = some call
  flagged : manager.shutdownState = .running ↔ manager.shutdown = none
  made : ∀ {id registered}, manager.controls.lookup id = some registered →
    registered.control < manager.made
  covered : ∀ {stage}, manager.shutdown = some stage → stage ≠ .claimed →
    ∀ {id registered}, manager.controls.lookup id = some registered →
      (manager.channels registered.control).cancelled ∨ registered.control ∈ pending stage
  entering : ∀ {stage}, manager.shutdown = some stage → stage ≠ .claimed →
    ∀ {call id nodeId flag}, manager.calls call = some (.entering id nodeId flag) → flag ≠ .running

theorem sound_new : new.Sound where
  locked := nofun
  flagged := iff_of_true rfl rfl
  made := nofun
  covered := nofun
  entering := nofun

variable {manager manager' : SftpTransferManager} {call : Nat} {stage : Stage}

variable {change : SftpTransferControl → SftpTransferControl} {id : Str} {nodeId : Option Str}
  {now other : Nat}

theorem calls_goTo (hquiet : holdsControls stage = false) {found : Stage}
    (hfound : (manager.goTo call stage).calls other = some found) (hholds : holdsControls found) :
    manager.calls other = some found := by
  by_cases h : other = call
  · subst h
    obtain rfl := Option.some.inj ((update_self other _ manager.calls).symm.trans hfound)
    exact nomatch hquiet.symm.trans hholds
  · exact (update_of_ne h _ _).symm.trans hfound

theorem Sound.goTo (hsound : manager.Sound) (hquiet : holdsControls stage = false) :
    (manager.goTo call stage).Sound where
  locked hfound hholds := hsound.locked (calls_goTo hquiet hfound hholds) hholds
  flagged := hsound.flagged
  made := hsound.made
  covered := hsound.covered
  entering hstage hclaimed _ _ _ _ hfound :=
    hsound.entering hstage hclaimed (calls_goTo hquiet hfound rfl)

theorem Sound.onTransfers (hsound : manager.Sound)
    (change : Map Str BackgroundTransferSnapshot → Map Str BackgroundTransferSnapshot) :
    (manager.onTransfers change).Sound :=
  ⟨hsound.locked, hsound.flagged, hsound.made, hsound.covered, hsound.entering⟩

theorem Sound.transfersLock (hsound : manager.Sound) (lock : Option Nat) :
    { manager with transfersLock := lock }.Sound :=
  ⟨hsound.locked, hsound.flagged, hsound.made, hsound.covered, hsound.entering⟩

theorem cancelled_send {control : Nat}
    (hkeeps : ∀ channel, channel.cancelled → (change channel).cancelled)
    (hcancelled : (manager.channels other).cancelled) :
    ((manager.send control change).channels other).cancelled := by
  show (update manager.channels control _ other).cancelled
  by_cases h : other = control
  · subst h
    rw [update_self]
    exact hkeeps _ hcancelled
  · rw [update_of_ne h]
    exact hcancelled

section

variable (hsound : manager.Sound)

include hsound

theorem Sound.send (control : Nat)
    (hkeeps : ∀ channel, channel.cancelled → (change channel).cancelled) :
    (manager.send control change).Sound where
  locked := hsound.locked
  flagged := hsound.flagged
  made := hsound.made
  covered hstage hclaimed _ _ hlookup :=
    (hsound.covered hstage hclaimed hlookup).imp_left (cancelled_send hkeeps)
  entering := hsound.entering

theorem Sound.insert_same {old : RegisteredTransferControl}
    (hold : manager.controls.lookup id = some old) {changed : RegisteredTransferControl}
    (hsame : changed.control = old.control) :
    { manager with controls := manager.controls.insert id changed }.Sound := by
  have hback : ∀ {id' registered}, (manager.controls.insert id changed).lookup id' = some registered →
      ∃ before, manager.controls.lookup id' = some before ∧
        before.control = registered.control := by
    intro id' registered hlookup
    rw [Map.lookup_insert_eq] at hlookup
    by_cases h : id' = id
    · subst h
      obtain rfl := Option.some.inj ((if_pos rfl).symm.trans hlookup)
      exact ⟨old, hold, hsame.symm⟩
    · exact ⟨registered, (if_neg h).symm.trans hlookup, rfl⟩
  refine ⟨hsound.locked, hsound.flagged, ?_, ?_, hsound.entering⟩
  · intro id' registered hlookup
    obtain ⟨before, hbefore, hcontrol⟩ := hback hlookup
    exact hcontrol ▸ hsound.made hbefore
  · intro stage hstage hclaimed id' registered hlookup
    obtain ⟨before, hbefore, hcontrol⟩ := hback hlookup
    exact hcontrol ▸ hsound.covered hstage hclaimed hbefore

theorem Sound.erase (id : Str) : { manager with controls := manager.controls.erase id }.Sound := by
  have hback : ∀ {id' registered}, (manager.controls.erase id).lookup id' = some registered →
      manager.controls.lookup id' = some registered := by
    intro id' registered hlookup
    rw [Map.lookup_erase_eq] at hlookup
    by_cases h : id' = id
    · exact nomatch (if_pos h).symm.trans hlookup
    · exact (if_neg h).symm.trans hlookup
  exact ⟨hsound.locked, hsound.flagged, fun h => hsound.made (hback h),
    fun hstage hclaimed _ _ h => hsound.covered hstage hclaimed (hback h), hsound.entering⟩

theorem Sound.unregister (id : Str) : (manager.unregister id).Sound := by
  unfold SftpTransferManager.unregister
  cases hlookup : manager.controls.lookup id with
  | none => exact hsound
  | some registered =>
    show { manager with controls := ite _ _ _ }.Sound
    split
    · exact hsound.erase id
    · exact hsound.insert_same hlookup rfl

theorem Sound.notHolding (hfree : manager.controlsLock = none)
    (hstage : manager.calls call = some stage) : ¬ holdsControls stage :=
  fun hholds => nomatch hfree.symm.trans (hsound.locked hstage hholds)

theorem Sound.registerOwned (hfree : manager.controlsLock = none)
    (call : Nat) (id : Str) (nodeId : Option Str) : (manager.registerOwned call id nodeId).Sound := by
  unfold SftpTransferManager.registerOwned
  cases hlookup : manager.controls.lookup id with
  | some registered =>
    exact (show (manager.goTo call .ended).Sound from hsound.goTo rfl).insert_same hlookup rfl
  | none =>
    have hcalls : ∀ {other stage}, (manager.goTo call (.registering id nodeId)).calls other =
        some stage → holdsControls stage → other = call ∧ stage = .registering id nodeId := by
      intro other stage hstage hholds
      by_cases h : other = call
      · subst h
        exact ⟨rfl, Option.some.inj (hstage.symm.trans (update_self other _ manager.calls))⟩
      · exact absurd hholds
          (hsound.notHolding hfree ((update_of_ne h _ _).symm.trans hstage))
    refine ⟨?_, hsound.flagged, hsound.made, hsound.covered, ?_⟩
    · intro other stage hstage hholds
      exact congrArg some (hcalls hstage hholds).1.symm
    · intro _ _ _ other id' nodeId' flag hstage
      exact nomatch (hcalls hstage rfl).2

theorem Sound.load (hcall : manager.calls call = some (.registering id nodeId)) :
    (manager.goTo call (.entering id nodeId manager.shutdownState)).Sound := by
  have hcalls : ∀ {other found},
      (manager.goTo call (.entering id nodeId manager.shutdownState)).calls other = some found →
      other = call ∧ found = .entering id nodeId manager.shutdownState ∨
        manager.calls other = some found := by
    intro other found hfound
    by_cases h : other = call
    · subst h
      exact .inl ⟨rfl, Option.some.inj (hfound.symm.trans (update_self other _ manager.calls))⟩
    · exact .inr ((update_of_ne h _ _).symm.trans hfound)
  refine ⟨?_, hsound.flagged, hsound.made, hsound.covered, ?_⟩
  · intro other found hfound hholds
    obtain ⟨rfl, -⟩ | hbefore := hcalls hfound
    · exact hsound.locked hcall rfl
    · exact hsound.locked hbefore hholds
  · intro stage hstage hclaimed other id' nodeId' flag hfound
    obtain ⟨-, hflag⟩ | hbefore := hcalls hfound
    · obtain ⟨-, -, rfl⟩ := Stage.entering.inj hflag
      intro hrunning
      exact nomatch (hsound.flagged.mp hrunning).symm.trans hstage
    · exact hsound.entering hstage hclaimed hbefore

/-- The control that enters is cancelled if the shutdown has already collected the others. -/
theorem Sound.enter {flag : ShutdownState}
    (hcall : manager.calls call = some (.entering id nodeId flag)) :
    (manager.enter call id nodeId flag).Sound := by
  have hlock : manager.controlsLock = some call := hsound.locked hcall rfl
  have hcalls : ∀ {other found}, (manager.goTo call .ended).calls other = some found →
      ¬ holdsControls found := by
    intro other found hfound hholds
    have hbefore := calls_goTo rfl hfound hholds
    obtain rfl : call = other := Option.some.inj (hlock.symm.trans (hsound.locked hbefore hholds))
    obtain rfl := Option.some.inj ((update_self call _ manager.calls).symm.trans hfound)
    cases hholds
  have hlookup : ∀ {id' registered},
      (manager.enter call id nodeId flag).controls.lookup id' = some registered →
      registered = ⟨manager.made, 1, nodeId⟩ ∨ manager.controls.lookup id' = some registered := by
    intro id' registered h
    rw [SftpTransferManager.enter, Map.lookup_insert_eq] at h
    by_cases hid : id' = id
    · exact .inl (Option.some.inj ((if_pos hid).symm.trans h)).symm
    · exact .inr ((if_neg hid).symm.trans h)
  refine ⟨fun hfound hholds => absurd hholds (hcalls hfound), hsound.flagged, ?_, ?_, ?_⟩
  · intro id' registered h
    obtain rfl | hbefore := hlookup h
    · exact Nat.lt_succ_self _
    · exact Nat.lt_succ_of_lt (hsound.made hbefore)
  · intro stage hstage hclaimed id' registered h
    show (update manager.channels manager.made _ registered.control).cancelled ∨ _
    obtain rfl | hbefore := hlookup h
    · rw [update_self]
      exact .inl (decide_eq_true (hsound.entering hstage hclaimed hcall))
    · rw [update_of_ne (Nat.ne_of_lt (hsound.made hbefore))]
      exact hsound.covered hstage hclaimed hbefore
  · intro _ _ _ other id' nodeId' flag' hfound
    exact absurd rfl (hcalls hfound)

theorem Sound.withShutdown {state : ShutdownState} {stage : ShutdownStage}
    (hstate : state ≠ .running)
    (hcovered : stage ≠ .claimed → ∀ {id registered}, manager.controls.lookup id = some registered →
      (manager.channels registered.control).cancelled ∨ registered.control ∈ pending stage)
    (hentering : stage ≠ .claimed → ∀ {call id nodeId flag},
      manager.calls call = some (.entering id nodeId flag) → flag ≠ .running) :
    { manager with shutdownState := state, shutdown := some stage }.Sound where
  locked := hsound.locked
  flagged := iff_of_false hstate nofun
  made := hsound.made
  covered hstage hclaimed _ _ hlookup := by
    obtain rfl := Option.some.inj hstage
    exact hcovered hclaimed hlookup
  entering hstage hclaimed _ _ _ _ hcall := by
    obtain rfl := Option.some.inj hstage
    exact hentering hclaimed hcall

theorem Sound.shuttingDown {stage : ShutdownStage}
    (hstage : manager.shutdown = some stage) : manager.shutdownState ≠ .running :=
  fun hrunning => nomatch (hsound.flagged.mp hrunning).symm.trans hstage

theorem Sound.advanceShutdown {stage : ShutdownStage} (hstage : manager.shutdown = some stage)
    (hnext : manager.advanceShutdown now stage = some manager') : manager'.Sound := by
  have hstate := hsound.shuttingDown hstage
  cases stage with
  | claimed =>
    obtain ⟨hfree, rfl⟩ := of_guarded hnext
    refine hsound.withShutdown hstate (fun _ id registered hlookup => .inr ?_) ?_
    · exact List.mem_map_of_mem (f := fun e => e.2.control) (Map.lookup_eq_some_iff.mp hlookup)
    · intro _ call id nodeId flag hcall
      exact absurd rfl (hsound.notHolding hfree hcall)
  | cancelling controls =>
    have hcovered := @Sound.covered _ hsound _ hstage nofun
    have hentering := @Sound.entering _ hsound _ hstage nofun
    cases controls with
    | cons control rest =>
      obtain rfl := Option.some.inj hnext
      refine (hsound.send control fun _ _ => rfl).withShutdown hstate ?_ fun _ => @hentering
      intro _ id registered hlookup
      obtain hcancelled | hmem := hcovered hlookup
      · exact .inl (cancelled_send (fun _ _ => rfl) hcancelled)
      · obtain heq | hrest := List.mem_cons.mp hmem
        · refine .inl ?_
          show (update manager.channels control _ registered.control).cancelled
          rw [heq, update_self]
        · exact .inr hrest
    | nil =>
      obtain ⟨-, rfl⟩ := of_guarded hnext
      exact (hsound.onTransfers _).withShutdown hstate (fun _ => @hcovered) fun _ => @hentering
  | draining =>
    have hcovered := @Sound.covered _ hsound _ hstage nofun
    have hentering := @Sound.entering _ hsound _ hstage nofun
    obtain rfl := Option.some.inj hnext
    exact hsound.withShutdown nofun (fun _ => @hcovered) fun _ => @hentering
  | ended => cases hnext

theorem Sound.withControl (call : Nat) (id : Str) {found : Nat → Stage}
    {absent : Stage} (hfound : ∀ control, holdsControls (found control) = false)
    (habsent : holdsControls absent = false) : (manager.withControl call id found absent).Sound := by
  unfold SftpTransferManager.withControl
  cases manager.controls.lookup id with
  | none => exact hsound.goTo habsent
  | some registered => exact hsound.goTo (hfound _)

theorem Sound.finish (call : Nat) (id : Str)
    (state : BackgroundTransferState) (error : Option Str) (itemCount : Option Nat) :
    (manager.finish call id state error itemCount).Sound := by
  unfold SftpTransferManager.finish
  cases manager.backgroundTransfers.lookup id with
  | none => exact hsound.goTo rfl
  | some _ => exact (hsound.goTo rfl).transfersLock _

theorem Sound.advance (hcall : manager.calls call = some stage)
    (hnext : manager.advance now call stage = some manager') : manager'.Sound := by
  cases stage with
  | registering id nodeId =>
    obtain rfl := Option.some.inj hnext
    exact hsound.load hcall
  | entering id nodeId flag =>
    obtain rfl := Option.some.inj hnext
    exact hsound.enter hcall
  | delivering snapshot =>
    obtain rfl := Option.some.inj hnext
    exact hsound.goTo rfl
  | delivered snapshot =>
    obtain ⟨-, rfl⟩ := of_guarded hnext
    exact (hsound.goTo rfl).onTransfers _
  | finishing id state error itemCount =>
    obtain rfl := Option.some.inj hnext
    exact hsound.goTo rfl
  | settling id state error itemCount flag =>
    obtain rfl := Option.some.inj hnext
    exact ((hsound.goTo rfl).onTransfers _).transfersLock _
  | cancelling control =>
    obtain rfl := Option.some.inj hnext
    exact (hsound.goTo rfl).send control fun _ _ => rfl
  | pausing id control =>
    obtain rfl := Option.some.inj hnext
    exact (hsound.goTo rfl).send control fun _ h => h
  | resuming id control =>
    obtain rfl := Option.some.inj hnext
    exact (hsound.goTo rfl).send control fun _ h => h
  | interrupting id control reason =>
    obtain rfl := Option.some.inj hnext
    exact (hsound.goTo rfl).send control fun _ h => h
  | paused id =>
    obtain ⟨-, rfl⟩ := of_guarded hnext
    exact (hsound.goTo rfl).onTransfers _
  | resumed id =>
    obtain ⟨-, rfl⟩ := of_guarded hnext
    exact (hsound.goTo rfl).onTransfers _
  | interrupted id reason =>
    obtain ⟨-, rfl⟩ := of_guarded hnext
    exact (hsound.goTo rfl).onTransfers _
  | ended => cases hnext

end

variable {a : Action × Nat}

theorem sound_next (hnext : manager.next a = some manager') (hsound : manager.Sound) :
    manager'.Sound := by
  obtain ⟨action, now⟩ := a
  cases action with
  | registerOwned call id nodeId =>
    obtain ⟨⟨hfree, -⟩, rfl⟩ := of_guarded hnext
    exact hsound.registerOwned hfree call id nodeId
  | unregister id =>
    obtain ⟨-, rfl⟩ := of_guarded hnext
    exact hsound.unregister id
  | registerBackgroundTransfer call snapshot =>
    obtain ⟨-, rfl⟩ := of_guarded hnext
    exact (hsound.goTo rfl).onTransfers _
  | updateBackgroundTransferStrategy id strategy =>
    obtain ⟨-, rfl⟩ := of_guarded hnext
    exact hsound.onTransfers _
  | markBackgroundTransferActive id =>
    obtain ⟨-, rfl⟩ := of_guarded hnext
    exact hsound.onTransfers _
  | updateBackgroundTransferProgress id transferred total speed =>
    obtain ⟨-, rfl⟩ := of_guarded hnext
    exact hsound.onTransfers _
  | finishBackgroundTransfer call id state error itemCount =>
    obtain ⟨-, rfl⟩ := of_guarded hnext
    exact hsound.finish call id state error itemCount
  | cancel call id =>
    obtain ⟨-, rfl⟩ := of_guarded hnext
    exact hsound.withControl call id (fun _ => rfl) rfl
  | pause call id =>
    obtain ⟨-, rfl⟩ := of_guarded hnext
    exact hsound.withControl call id (fun _ => rfl) rfl
  | resume call id =>
    obtain ⟨-, rfl⟩ := of_guarded hnext
    exact hsound.withControl call id (fun _ => rfl) rfl
  | interrupt call id reason =>
    obtain ⟨-, rfl⟩ := of_guarded hnext
    exact hsound.withControl call id (fun _ => rfl) rfl
  | shutdownSessionTransfers =>
    simp only [next] at hnext
    split at hnext
    · obtain rfl := Option.some.inj hnext
      exact hsound.withShutdown nofun (fun h => absurd rfl h) fun h => absurd rfl h
    · obtain rfl := Option.some.inj hnext
      exact hsound
  | advance call =>
    obtain ⟨stage, hcall, hnext⟩ := Option.bind_eq_some_iff.mp hnext
    exact hsound.advance hcall hnext
  | advanceShutdown =>
    obtain ⟨stage, hstage, hnext⟩ := Option.bind_eq_some_iff.mp hnext
    exact hsound.advanceShutdown hstage hnext

/-- The shutdown has marked the transfers. -/
def Marked (manager : SftpTransferManager) : Prop :=
  manager.shutdown = some .draining ∨ manager.shutdown = some .ended

/-- Every registered control is cancelled. -/
def ControlsCancelled (manager : SftpTransferManager) : Prop :=
  ∀ id registered, manager.controls.lookup id = some registered →
    (manager.channels registered.control).cancelled

theorem Sound.controlsCancelled (hsound : manager.Sound) (hmarked : manager.Marked) :
    manager.ControlsCancelled := by
  intro id registered hlookup
  obtain hstage | hstage := hmarked
  · exact (hsound.covered hstage nofun hlookup).resolve_right List.not_mem_nil
  · exact (hsound.covered hstage nofun hlookup).resolve_right List.not_mem_nil

/-! ## 2. Background transfers -/

/-- No background transfer is pending, active or paused. -/
def AllFinished (transfers : Map Str BackgroundTransferSnapshot) : Prop :=
  ∀ id snapshot, transfers.lookup id = some snapshot → snapshot.state.isFinished

variable {transfers : Map Str BackgroundTransferSnapshot}

section

variable (hall : AllFinished transfers)

include hall

/-- A change of one snapshot leaves all finished exactly when it leaves that one finished. -/
theorem allFinished_modify_iff (id : Str)
    (change : BackgroundTransferSnapshot → BackgroundTransferSnapshot) :
    AllFinished (transfers.modify id change) ↔
      ∀ snapshot, transfers.lookup id = some snapshot → (change snapshot).state.isFinished := by
  constructor
  · intro hchanged snapshot hlookup
    refine hchanged id _ ?_
    rw [Map.lookup_modify, if_pos rfl, hlookup, Option.map_some]
  · intro hone id' snapshot hlookup
    rw [Map.lookup_modify] at hlookup
    by_cases h : id' = id
    · rw [if_pos h] at hlookup
      obtain ⟨before, hbefore, rfl⟩ := Option.map_eq_some_iff.mp hlookup
      exact hone before hbefore
    · rw [if_neg h] at hlookup
      exact hall id' snapshot hlookup

theorem AllFinished.modify (id : Str)
    {change : BackgroundTransferSnapshot → BackgroundTransferSnapshot}
    (hkeeps : ∀ snapshot, snapshot.state.isFinished → (change snapshot).state.isFinished) :
    AllFinished (transfers.modify id change) :=
  (allFinished_modify_iff hall id change).mpr fun snapshot hlookup =>
    hkeeps snapshot (hall id snapshot hlookup)

theorem allFinished_insert_iff (id : Str) (snapshot : BackgroundTransferSnapshot) :
    AllFinished (transfers.insert id snapshot) ↔ snapshot.state.isFinished := by
  constructor
  · intro hinserted
    exact hinserted id snapshot (AList.lookup_insert _)
  · intro hfinished id' found hlookup
    rw [Map.lookup_insert_eq] at hlookup
    by_cases h : id' = id
    · obtain rfl := Option.some.inj ((if_pos h).symm.trans hlookup)
      exact hfinished
    · exact hall id' found ((if_neg h).symm.trans hlookup)

theorem AllFinished.retain (keep : Str → BackgroundTransferSnapshot → Bool) : AllFinished
    (transfers.retain keep) := by
  intro id snapshot hlookup
  rw [Map.lookup_retain] at hlookup
  exact hall id snapshot (Option.filter_eq_some_iff.mp hlookup).1

end

theorem allFinished_mark (transfers : Map Str BackgroundTransferSnapshot) (now : Nat) :
    AllFinished (transfers.mapValues fun _ => (·.cancelledByShutdown now)) := by
  intro id snapshot hlookup
  rw [Map.lookup_mapValues] at hlookup
  obtain ⟨before, -, rfl⟩ := Option.map_eq_some_iff.mp hlookup
  exact before.isFinished_cancelledByShutdown now

/-! ## 3. The whole shutdown -/

/-- Once the transfers are marked, every registered control is cancelled and every background
    transfer is finished. -/
def Complete (manager : SftpTransferManager) : Prop :=
  manager.Marked → manager.ControlsCancelled ∧ AllFinished manager.backgroundTransfers

/-- What a call at this stage must not do once the transfers are marked: insert a snapshot made
    while the flag still said running, or leave a transfer that is not cancelled in a state that is
    no end. -/
def StaysShutAt (manager : SftpTransferManager) : Stage → Prop
  | .delivered snapshot => manager.Marked → snapshot.state.isFinished
  | .settling id state _ _ flag =>
    manager.Marked → ∀ snapshot, manager.backgroundTransfers.lookup id = some snapshot →
      snapshot.shutdownCancelled flag ∨ state.isFinished
  | _ => True

/-- The same of a step. -/
def StaysShut (manager : SftpTransferManager) : Action × Nat → Prop
  | (.advance call, _) => ∀ stage, manager.calls call = some stage → manager.StaysShutAt stage
  | _ => True

/-- What is asked of the snapshots. -/
def TransfersShut (manager : SftpTransferManager) : Prop :=
  manager.Marked → AllFinished manager.backgroundTransfers

theorem Sound.complete_iff (hsound : manager.Sound) : manager.Complete ↔ manager.TransfersShut :=
  forall_congr' fun hmarked => and_iff_right (hsound.controlsCancelled hmarked)

theorem transfersShut_advance (hnext : manager.advance now call stage = some manager')
    (hshut : manager.TransfersShut) : manager'.TransfersShut ↔ manager.StaysShutAt stage := by
  cases stage with
  | delivered snapshot =>
    obtain ⟨-, rfl⟩ := of_guarded hnext
    exact forall_congr' fun hmarked => allFinished_insert_iff (hshut hmarked) _ _
  | settling id state error itemCount flag =>
    obtain rfl := Option.some.inj hnext
    refine forall_congr' fun hmarked => (allFinished_modify_iff (hshut hmarked) id _).trans ?_
    exact forall₂_congr fun snapshot _ =>
      BackgroundTransferSnapshot.isFinished_finished_iff flag state error itemCount now
  | paused id =>
    obtain ⟨-, rfl⟩ := of_guarded hnext
    refine iff_of_true (fun hmarked => (hshut hmarked).modify id fun _ => ?_) trivial
    exact BackgroundTransferSnapshot.isFinished_paused
  | resumed id =>
    obtain ⟨-, rfl⟩ := of_guarded hnext
    refine iff_of_true (fun hmarked => (hshut hmarked).modify id fun _ => ?_) trivial
    exact BackgroundTransferSnapshot.isFinished_resumed
  | interrupted id reason =>
    obtain ⟨-, rfl⟩ := of_guarded hnext
    refine iff_of_true (fun hmarked => (hshut hmarked).modify id fun _ => ?_) trivial
    exact BackgroundTransferSnapshot.isFinished_interrupted reason now
  | ended => cases hnext
  | _ =>
    obtain rfl := Option.some.inj hnext
    exact iff_of_true hshut trivial

theorem transfersShut_advanceShutdown {stage : ShutdownStage}
    (hstage : manager.shutdown = some stage)
    (hnext : manager.advanceShutdown now stage = some manager') (hshut : manager.TransfersShut) :
    manager'.TransfersShut := by
  cases stage with
  | claimed =>
    obtain ⟨-, rfl⟩ := of_guarded hnext
    exact fun hmarked => nomatch hmarked
  | cancelling controls =>
    cases controls with
    | cons control rest =>
      obtain rfl := Option.some.inj hnext
      exact fun hmarked => nomatch hmarked
    | nil =>
      obtain ⟨-, rfl⟩ := of_guarded hnext
      exact fun _ => allFinished_mark _ now
  | draining =>
    obtain rfl := Option.some.inj hnext
    exact fun _ => hshut (.inl hstage)
  | ended => cases hnext

theorem transfersShut_next (hnext : manager.next a = some manager')
    (hshut : manager.TransfersShut) : manager'.TransfersShut ↔ manager.StaysShut a := by
  obtain ⟨action, now⟩ := a
  cases action with
  | advance call =>
    obtain ⟨stage, hcall, hnext⟩ := Option.bind_eq_some_iff.mp hnext
    have hone : manager.StaysShut (.advance call, now) ↔ manager.StaysShutAt stage :=
      ⟨fun h => h stage hcall, fun h _ hother => Option.some.inj (hcall.symm.trans hother) ▸ h⟩
    exact (transfersShut_advance hnext hshut).trans hone.symm
  | advanceShutdown =>
    obtain ⟨stage, hstage, hnext⟩ := Option.bind_eq_some_iff.mp hnext
    exact iff_of_true (transfersShut_advanceShutdown hstage hnext hshut) trivial
  | shutdownSessionTransfers =>
    simp only [next] at hnext
    split at hnext
    · obtain rfl := Option.some.inj hnext
      exact iff_of_true (fun hmarked => nomatch hmarked) trivial
    · obtain rfl := Option.some.inj hnext
      exact iff_of_true hshut trivial
  | registerBackgroundTransfer call snapshot =>
    obtain ⟨-, rfl⟩ := of_guarded hnext
    exact iff_of_true (fun hmarked => (hshut hmarked).retain _) trivial
  | updateBackgroundTransferStrategy id strategy =>
    obtain ⟨-, rfl⟩ := of_guarded hnext
    exact iff_of_true (fun hmarked => (hshut hmarked).modify id fun _ h => h) trivial
  | markBackgroundTransferActive id =>
    obtain ⟨-, rfl⟩ := of_guarded hnext
    refine iff_of_true (fun hmarked => (hshut hmarked).modify id fun _ => ?_) trivial
    exact BackgroundTransferSnapshot.isFinished_markActive
  | updateBackgroundTransferProgress id transferred total speed =>
    obtain ⟨-, rfl⟩ := of_guarded hnext
    refine iff_of_true (fun hmarked => (hshut hmarked).modify id fun _ => ?_) trivial
    exact BackgroundTransferSnapshot.isFinished_progressed transferred total speed
  | unregister id =>
    obtain ⟨-, rfl⟩ := of_guarded hnext
    refine iff_of_true ?_ trivial
    unfold SftpTransferManager.unregister
    cases manager.controls.lookup id <;> exact hshut
  | registerOwned call id nodeId =>
    obtain ⟨-, rfl⟩ := of_guarded hnext
    refine iff_of_true ?_ trivial
    unfold SftpTransferManager.registerOwned
    cases manager.controls.lookup id <;> exact hshut
  | finishBackgroundTransfer call id state error itemCount =>
    obtain ⟨-, rfl⟩ := of_guarded hnext
    refine iff_of_true ?_ trivial
    unfold SftpTransferManager.finish
    cases manager.backgroundTransfers.lookup id <;> exact hshut
  | _ =>
    obtain ⟨-, rfl⟩ := of_guarded hnext
    exact iff_of_true hshut trivial

/-- **The shutdown is complete throughout a run exactly when every step of the run stays shut.** -/
theorem shutdown_complete_iff (actions : List (Action × Nat)) :
    Throughout next Complete new actions ↔ Meets next StaysShut new actions := by
  refine throughout_iff_meets (J := Sound) (Q := fun _ _ => True) (fun hnext _ => sound_next hnext)
    ?_ (meets_of_forall fun _ _ => trivial) sound_new fun hmarked => nomatch hmarked
  intro manager a manager' hnext _ hsound hcomplete
  rw [(sound_next hnext hsound).complete_iff]
  exact transfersShut_next hnext (hsound.complete_iff.mp hcomplete)

/-- A transfer that is registered while the shutdown runs: the flag is read before, the snapshot
    inserted after the mark. -/
def lateDelivery : List (Action × Nat) :=
  [(.registerBackgroundTransfer 0 ⟨['t'], .file, .pending, 10, 0, none, none, none, none⟩, 0),
    (.advance 0, 0), (.shutdownSessionTransfers, 1), (.advanceShutdown, 1), (.advanceShutdown, 1),
    (.advance 0, 2)]

/-- **A registration that reads the flag in time and inserts too late leaves a pending transfer
    behind.** -/
theorem late_delivery : ¬ ∀ actions, Throughout next Complete new actions := by
  intro hall
  have hcomplete := throughout_iff.mp (hall lateDelivery) lateDelivery [] _ rfl rfl (.inl rfl)
  exact absurd (hcomplete.2 ['t'] _ rfl) (by decide)

end SftpTransferManager

end Hapcli.Sftp
