/-
  Subject:   Who holds a rule id while the calls of a `ForwardingManager` are interleaved.

  * **`owned_iff`** -- a run keeps the ids owned exactly when no call lands on an id
    that has another owner.
-/
import Hapcli.Forwarding.Manager

namespace Hapcli.Forwarding

open Function
open Hapcli.Rust
open Hapcli.Lib.Runs

namespace ForwardingManager

variable {m m' : ForwardingManager} {kind : ForwardType} {forward : ActiveForward}
  {rule : ForwardRule} {status : ForwardStatus} {id : Str} {call : Nat} {stage : Option CallStage}

/-! ## 1. Ownership -/

/-- The map of the forwards of a kind, or else the map of the stopped rules, has the id. -/
def has (m : ForwardingManager) : Option ForwardType → Str → Bool
  | some kind, id => ((m.forwards kind).lookup id).isSome
  | none, id => (m.stoppedForwards.lookup id).isSome

/-- An id is in one map at most. -/
def InOneMap (m : ForwardingManager) : Prop :=
  ∀ ⦃id map map'⦄, m.has map id → m.has map' id → map = map'

/-- What was started and not yet given a stop is the forward held under its id. -/
def RunningHeld (m : ForwardingManager) : Prop :=
  ∀ ⦃number kind id⦄, m.running number = some (kind, id) →
    ∃ forward, (m.forwards kind).lookup id = some forward ∧ forward.number = number

/-- The rule of a restart that has failed is a stopped one, and would be admitted again. -/
def RestartKept (m : ForwardingManager) : Prop :=
  ∀ ⦃id⦄, m.failedRestart = some id →
    (∃ rule, m.stoppedForwards.lookup id = some rule ∧ rule.status = .stopped) ∧
      (m.eraseStopped id).hasRule id = false

def Owned (m : ForwardingManager) : Prop := m.InOneMap ∧ m.RunningHeld ∧ m.RestartKept

/-! ## 2. The maps -/

theorem findActive_eq_some (h : m.findActive id = some (kind, forward)) :
    (m.forwards kind).lookup id = some forward := by
  unfold findActive at h
  cases hlocal : (m.forwards .localForward).lookup id with
  | some found =>
    rw [hlocal] at h
    cases h
    exact hlocal
  | none =>
    cases hdynamic : (m.forwards .dynamic).lookup id with
    | some found =>
      rw [hlocal, hdynamic] at h
      cases h
      exact hdynamic
    | none =>
      cases hremote : (m.forwards .remote).lookup id with
      | some found =>
        rw [hlocal, hdynamic, hremote] at h
        cases h
        exact hremote
      | none =>
        rw [hlocal, hdynamic, hremote] at h
        cases h

theorem findActive_eq_none_iff : m.findActive id = none ↔ ∀ kind, m.has (some kind) id = false := by
  simp only [has, Option.isSome_eq_false_iff, Option.isNone_iff_eq_none]
  constructor
  · intro h kind
    cases hfound : (m.forwards kind).lookup id with
    | none => rfl
    | some found => cases kind <;> simp [findActive, hfound] at h
  · intro h
    simp [findActive, h]

theorem hasRule_eq_false_iff : m.hasRule id = false ↔ ∀ map, m.has map id = false := by
  have hactive : (m.findActive id).isSome = false ↔ ∀ kind, m.has (some kind) id = false := by
    rw [Option.isSome_eq_false_iff, Option.isNone_iff_eq_none]
    exact findActive_eq_none_iff
  rw [hasRule, Bool.or_eq_false_iff, hactive]
  constructor
  · intro ⟨hkinds, hnone⟩ map
    cases map with
    | none => exact hnone
    | some kind => exact hkinds kind
  · intro h
    exact ⟨fun kind => h (some kind), h none⟩

theorem lookup_insertActive (kind' : ForwardType) (id' : Str) :
    ((m.insertActive kind forward).forwards kind').lookup id' =
      if kind' = kind ∧ id' = forward.rule.id then some forward
      else (m.forwards kind').lookup id' := by
  show (update m.forwards kind _ kind').lookup id' = _
  by_cases hkind : kind' = kind
  · subst hkind
    simp [Map.lookup_insert_eq]
  · rw [update_of_ne hkind, if_neg fun h => hkind h.1]

theorem lookup_eraseActive (kind' : ForwardType) (id' : Str) :
    ((m.eraseActive kind id forward).forwards kind').lookup id' =
      if kind' = kind ∧ id' = id then none else (m.forwards kind').lookup id' := by
  show (update m.forwards kind _ kind').lookup id' = _
  by_cases hkind : kind' = kind
  · subst hkind
    simp [Map.lookup_erase_eq]
  · rw [update_of_ne hkind, if_neg fun h => hkind h.1]

variable {map : Option ForwardType}

theorem has_insertActive :
    (m.insertActive kind forward).has map id ↔
      (map = some kind ∧ id = forward.rule.id) ∨ m.has map id := by
  cases map with
  | none => exact ⟨.inr, fun h => h.resolve_left nofun⟩
  | some kind' =>
    rw [has, lookup_insertActive, has]
    split <;> simp_all

theorem has_eraseActive {id' : Str} :
    (m.eraseActive kind id forward).has map id' ↔
      ¬ (map = some kind ∧ id' = id) ∧ m.has map id' := by
  cases map with
  | none => exact ⟨fun h => ⟨nofun, h⟩, And.right⟩
  | some kind' =>
    rw [has, lookup_eraseActive, has]
    split <;> simp_all

theorem has_insertStopped :
    (m.insertStopped rule status).has map id ↔ (map = none ∧ id = rule.id) ∨ m.has map id := by
  cases map with
  | none =>
    show ((m.stoppedForwards.insert rule.id _).lookup id).isSome = true ↔ _
    rw [Map.lookup_insert_eq, has]
    split <;> simp_all
  | some kind => exact ⟨.inr, fun h => h.resolve_left nofun⟩

theorem has_eraseStopped {id' : Str} :
    (m.eraseStopped id).has map id' ↔ ¬ (map = none ∧ id' = id) ∧ m.has map id' := by
  cases map with
  | none =>
    show ((m.stoppedForwards.erase id).lookup id').isSome = true ↔ _
    rw [Map.lookup_erase_eq, has]
    split <;> simp_all
  | some kind => exact ⟨fun h => ⟨nofun, h⟩, And.right⟩

/-! ## 3. The numbers of the forwards -/

/-- A rule is found under its id. A forward in a map is the one its number runs as; one that awaits
    `cancel_on_server` runs nowhere. -/
structure Listed (m : ForwardingManager) : Prop where
  stopped : ∀ {id rule}, m.stoppedForwards.lookup id = some rule → rule.id = id
  runs : ∀ {kind id forward}, (m.forwards kind).lookup id = some forward →
    forward.rule.id = id ∧ m.running forward.number = some (kind, id)
  made : ∀ {number place}, m.running number = some place → number < m.made
  cancelled : ∀ {call forward keep}, m.calls.lookup call = some (.cancelling forward keep) →
    m.running forward.number = none ∧ forward.number < m.made
  apart : ∀ {call call' forward forward' keep keep'},
    m.calls.lookup call = some (.cancelling forward keep) →
      m.calls.lookup call' = some (.cancelling forward' keep') →
        forward.number = forward'.number → call = call'

theorem listed_new (sshConnection : Nat) : Listed (new sshConnection) where
  stopped := nofun
  runs := nofun
  made := nofun
  cancelled := nofun
  apart := nofun

theorem lookup_goTo (call' : Nat) :
    (m.goTo call stage).calls.lookup call' =
      if call' = call then stage else m.calls.lookup call' := by
  cases stage with
  | none => exact Map.lookup_erase_eq ..
  | some stage => exact Map.lookup_insert_eq ..

theorem Listed.goTo (hm : Listed m)
    (hstage : ∀ forward keep, stage ≠ some (.cancelling forward keep)) :
    Listed (m.goTo call stage) := by
  have hbefore : ∀ {call' forward keep},
      (m.goTo call stage).calls.lookup call' = some (.cancelling forward keep) →
        m.calls.lookup call' = some (.cancelling forward keep) := by
    intro call' forward keep hcall'
    rw [lookup_goTo] at hcall'
    split at hcall'
    · exact absurd hcall' (hstage forward keep)
    · exact hcall'
  exact ⟨hm.stopped, hm.runs, hm.made, fun h => hm.cancelled (hbefore h),
    fun h h' => hm.apart (hbefore h) (hbefore h')⟩

section

variable (hm : Listed m) (hnone : m.running forward.number = none) (hmade : forward.number < m.made)
  (hfree : ∀ {call' forward' keep'}, m.calls.lookup call' = some (.cancelling forward' keep') → forward'.number ≠ forward.number)

include hm hnone hmade hfree

theorem Listed.goTo_cancelling {keep : Bool} :
    Listed (m.goTo call (some (.cancelling forward keep))) := by
  refine ⟨hm.stopped, hm.runs, hm.made, ?_, ?_⟩
  · intro call' forward' keep' hcall'
    rw [lookup_goTo] at hcall'
    split at hcall'
    · cases hcall'
      exact ⟨hnone, hmade⟩
    · exact hm.cancelled hcall'
  · intro call₁ call₂ forward₁ forward₂ keep₁ keep₂ h₁ h₂ hnumber
    rw [lookup_goTo] at h₁ h₂
    split at h₁ <;> split at h₂
    · simp_all
    · cases h₁
      exact absurd hnumber.symm (hfree h₂)
    · cases h₂
      exact absurd hnumber (hfree h₁)
    · exact hm.apart h₁ h₂ hnumber

theorem Listed.insertActive : Listed (m.insertActive kind forward) := by
  refine ⟨hm.stopped, ?_, ?_, ?_, hm.apart⟩
  · intro kind' id' forward' hlookup
    show _ ∧ update m.running forward.number _ forward'.number = _
    rw [lookup_insertActive] at hlookup
    split at hlookup
    · rename_i hplace
      obtain ⟨rfl, rfl⟩ := hplace
      cases hlookup
      exact ⟨rfl, update_self ..⟩
    · obtain ⟨hid, hruns⟩ := hm.runs hlookup
      have hother : forward'.number ≠ forward.number := by
        intro hnumber
        rw [hnumber, hnone] at hruns
        cases hruns
      exact ⟨hid, (update_of_ne hother ..).trans hruns⟩
  · intro number place (hplace : update m.running forward.number _ number = some place)
    by_cases hnumber : number = forward.number
    · exact hnumber ▸ hmade
    · rw [update_of_ne hnumber] at hplace
      exact hm.made hplace
  · intro call' forward' keep' hcall'
    obtain ⟨hnone', hmade'⟩ := hm.cancelled hcall'
    exact ⟨(update_of_ne (hfree hcall') ..).trans hnone', hmade'⟩

end

section

variable (hm : Listed m)

include hm

theorem Listed.eraseActive (hfound : (m.forwards kind).lookup id = some forward) :
    Listed (m.eraseActive kind id forward) := by
  obtain ⟨-, hruns⟩ := hm.runs hfound
  refine ⟨hm.stopped, ?_, ?_, ?_, hm.apart⟩
  · intro kind' id' forward' hlookup
    show _ ∧ update m.running forward.number _ forward'.number = _
    rw [lookup_eraseActive] at hlookup
    split at hlookup
    · cases hlookup
    · rename_i hplace
      obtain ⟨hid, hruns'⟩ := hm.runs hlookup
      have hother : forward'.number ≠ forward.number := by
        intro hnumber
        rw [hnumber, hruns] at hruns'
        cases hruns'
        exact hplace ⟨rfl, rfl⟩
      exact ⟨hid, (update_of_ne hother ..).trans hruns'⟩
  · intro number place (hplace : update m.running forward.number _ number = some place)
    by_cases hnumber : number = forward.number
    · rw [hnumber, update_self] at hplace
      cases hplace
    · rw [update_of_ne hnumber] at hplace
      exact hm.made hplace
  · intro call' forward' keep' hcall'
    obtain ⟨hnone', hmade'⟩ := hm.cancelled hcall'
    refine ⟨?_, hmade'⟩
    show update m.running forward.number none forward'.number = none
    by_cases hnumber : forward'.number = forward.number
    · rw [hnumber, update_self]
    · rw [update_of_ne hnumber, hnone']

theorem Listed.eraseStopped : Listed (m.eraseStopped id) := by
  refine ⟨?_, hm.runs, hm.made, hm.cancelled, hm.apart⟩
  intro id' rule' (hlookup : (m.stoppedForwards.erase id).lookup id' = some rule')
  rw [Map.lookup_erase_eq] at hlookup
  split at hlookup
  · cases hlookup
  · exact hm.stopped hlookup

theorem Listed.insertStopped : Listed (m.insertStopped rule status) := by
  refine ⟨?_, hm.runs, hm.made, hm.cancelled, hm.apart⟩
  intro id' rule' (hlookup : (m.stoppedForwards.insert rule.id _).lookup id' = some rule')
  rw [Map.lookup_insert_eq] at hlookup
  split at hlookup
  · rename_i hid
    cases hlookup
    exact hid.symm
  · exact hm.stopped hlookup

theorem Listed.failedRestart (failed : Option Str) : Listed { m with failedRestart := failed } :=
  ⟨hm.stopped, hm.runs, hm.made, hm.cancelled, hm.apart⟩

theorem Listed.createForward : Listed (m.createForward call rule) := by
  unfold ForwardingManager.createForward
  split
  · exact hm
  · exact hm.goTo nofun

theorem Listed.restartForward : Listed (m.restartForward call id) := by
  unfold ForwardingManager.restartForward
  split
  · exact hm
  · dsimp only
    split
    · exact hm.eraseStopped.insertStopped.failedRestart _
    · exact hm.eraseStopped.goTo nofun

end

variable {connection : Nat} {keep : Bool} {origin : Origin}

theorem Listed.stopForward (hm : Listed m) : Listed (m.stopForward call id keep) := by
  unfold ForwardingManager.stopForward
  split
  · rename_i forward hfound
    have hfound := findActive_eq_some hfound
    obtain ⟨-, hruns⟩ := hm.runs hfound
    refine (hm.eraseActive hfound).goTo_cancelling (update_self ..) (hm.made hruns) ?_
    intro call' forward' keep' hcall' hnumber
    rw [← hnumber, (hm.cancelled hcall').1] at hruns
    cases hruns
  · rename_i hfound
    exact (hm.eraseActive (findActive_eq_some hfound)).goTo nofun
  · split
    · exact hm
    · exact hm.eraseStopped

theorem suspendNext_ne_cancelling (forwards : List ActiveForward) (forward : ActiveForward)
    (keep : Bool) : suspendNext forwards ≠ some (.cancelling forward keep) := by
  cases forwards <;> nofun

theorem Listed.suspendAll (hm : Listed m) : Listed (m.suspendAll call) := by
  have hgo : Listed (m.goTo call (suspendNext m.allActive)) :=
    hm.goTo (suspendNext_ne_cancelling m.allActive)
  refine ⟨hm.stopped, nofun, ?_, ?_, hgo.apart⟩
  · intro number place hplace
    dsimp only [ForwardingManager.suspendAll] at hplace
    split at hplace
    · cases hplace
    · exact hm.made hplace
  · intro call' forward keep hcall'
    obtain ⟨hnone, hmade⟩ := hgo.cancelled hcall'
    refine ⟨?_, hmade⟩
    dsimp only [ForwardingManager.suspendAll]
    split
    · rfl
    · exact hnone

theorem Listed.restoreSaved (hm : Listed m) : Listed (m.restoreSaved call connection) :=
  have hreplaced : Listed { m with sshConnection := connection } :=
    ⟨hm.stopped, hm.runs, hm.made, hm.cancelled, hm.apart⟩
  hreplaced.goTo nofun

theorem Listed.restoreNext {rules : List ForwardRule} (hm : Listed m) :
    Listed (m.restoreNext call rules) := by
  cases rules with
  | nil =>
    have hgo : Listed (m.goTo call none) := hm.goTo nofun
    exact hgo
  | cons rule rules =>
    unfold ForwardingManager.restoreNext
    dsimp only
    split
    · exact hm.eraseStopped.insertStopped.goTo nofun
    · exact hm.eraseStopped.goTo nofun

theorem after_ne_cancelling (origin : Origin) (forward : ActiveForward) (keep : Bool) :
    Origin.after origin ≠ some (.cancelling forward keep) := by
  cases origin <;> nofun

theorem running_made (hm : Listed m) : m.running m.made = none := by
  cases hplace : m.running m.made with
  | none => rfl
  | some place => exact absurd (hm.made hplace) (lt_irrefl _)

theorem Listed.started {address : Str} {port : UInt16} (hm : Listed m) :
    Listed (m.started call rule origin connection address port) := by
  have hnext : Listed { m with made := m.made + 1 } :=
    ⟨hm.stopped, hm.runs, fun h => (hm.made h).trans (Nat.lt_succ_self _),
      fun h => ⟨(hm.cancelled h).1, (hm.cancelled h).2.trans (Nat.lt_succ_self _)⟩, hm.apart⟩
  have hgo : Listed ({ m with made := m.made + 1 }.goTo call (Origin.after origin)) :=
    hnext.goTo (after_ne_cancelling origin)
  refine hgo.insertActive (running_made hm) (Nat.lt_succ_self _) ?_
  intro call' forward' keep' hcall'
  rw [lookup_goTo] at hcall'
  split at hcall'
  · exact absurd hcall' (after_ne_cancelling origin _ _)
  · exact (hm.cancelled hcall').2.ne

theorem Listed.startFailed (hm : Listed m) : Listed (m.startFailed call origin) := by
  unfold ForwardingManager.startFailed
  split
  · exact hm.goTo nofun
  · refine Listed.failedRestart ?_ _
    exact hm.insertStopped.goTo nofun
  · exact hm.insertStopped.goTo nofun

theorem Listed.advance {stage : CallStage} {answer : Answer} (hm : Listed m)
    (hcall : m.calls.lookup call = some stage) (h : m.advance call stage answer = some m') :
    Listed m' := by
  unfold ForwardingManager.advance at h
  split at h
  · split at h
    · cases h
      exact hm.started
    · cases h
  · cases h
    exact hm.startFailed
  · cases h
    exact hm.goTo nofun
  · rename_i forward keep
    cases h
    obtain ⟨hnone, hmade⟩ := hm.cancelled hcall
    have hgo : Listed (m.goTo call none) := hm.goTo nofun
    refine hgo.insertActive hnone hmade ?_
    intro call' forward' keep' hcall' hnumber
    rw [lookup_goTo] at hcall'
    split at hcall'
    · cases hcall'
    · rename_i hne
      exact hne (hm.apart hcall' hcall hnumber)
  · cases h
    split
    · exact hm.insertStopped.goTo nofun
    · exact hm.goTo nofun
  · cases h
    exact hm.insertStopped.goTo (suspendNext_ne_cancelling _)
  · cases h
    exact hm.restoreNext
  · cases h

theorem beginCall_eq_some {after : ForwardingManager} (h : m.beginCall call after = some m') :
    after = m' := by
  unfold beginCall at h
  split at h
  · exact Option.some.inj h
  · cases h

theorem Listed.next {a : Action} (h : m.next a = some m') (hm : Listed m) : Listed m' := by
  have hm := hm.failedRestart none
  cases a with
  | createForward call rule => exact beginCall_eq_some h ▸ hm.createForward
  | restartForward call id => exact beginCall_eq_some h ▸ hm.restartForward
  | stopForward call id => exact beginCall_eq_some h ▸ hm.stopForward
  | deleteForward call id => exact beginCall_eq_some h ▸ hm.stopForward
  | suspendAllAndSaveRules call => exact beginCall_eq_some h ▸ hm.suspendAll
  | restoreSavedForwards call connection => exact beginCall_eq_some h ▸ hm.restoreSaved
  | advance call answer =>
    obtain ⟨stage, hcall, h⟩ := Option.bind_eq_some_iff.mp h
    exact hm.advance hcall h

/-! ## 4. What each part of a step does to ownership -/

theorem hasRule_eraseStopped : (m.eraseStopped id).hasRule id = (m.findActive id).isSome := by
  show ((m.findActive id).isSome || ((m.stoppedForwards.erase id).lookup id).isSome) = _
  rw [AList.lookup_erase]
  exact Bool.or_false _

theorem findActive_eq_none (hone : m.InOneMap) (hstopped : m.has none id) :
    m.findActive id = none := by
  rw [findActive_eq_none_iff]
  intro kind
  by_contra hactive
  exact nomatch hone hstopped (Bool.eq_true_of_not_eq_false hactive)

/-- A rule put among the stopped ones is owned there exactly when no forward has its id. -/
theorem owned_insertStopped (hone : m.InOneMap) (hheld : m.RunningHeld)
    (hfailed : ∀ id, m.failedRestart = some id → id = rule.id ∧ status = .stopped) :
    Owned (m.insertStopped rule status) ↔ m.findActive rule.id = none := by
  constructor
  · intro ⟨hone', _, _⟩
    exact findActive_eq_none (m := m.insertStopped rule status) hone' (has_insertStopped.mpr (.inl ⟨rfl, rfl⟩))
  · intro hfree
    have hnone : ∀ {map}, m.has map rule.id → map = none := by
      intro map hmap
      cases map with
      | none => rfl
      | some kind => exact absurd hmap (by rw [findActive_eq_none_iff.mp hfree kind]; exact nofun)
    refine ⟨?_, hheld, ?_⟩
    · intro id map map' hmap hmap'
      rw [has_insertStopped] at hmap hmap'
      obtain ⟨rfl, rfl⟩ | hmap := hmap
      · obtain ⟨rfl, -⟩ | hmap' := hmap'
        · rfl
        · exact (hnone hmap').symm
      · obtain ⟨rfl, rfl⟩ | hmap' := hmap'
        · exact hnone hmap
        · exact hone hmap hmap'
    · intro id hid
      obtain ⟨rfl, rfl⟩ := hfailed id hid
      refine ⟨⟨_, AList.lookup_insert _, rfl⟩, ?_⟩
      rw [hasRule_eraseStopped]
      exact Option.isSome_eq_false_iff.mpr (Option.isNone_iff_eq_none.mpr hfree)

theorem owned_insertActive (hm : Listed m) (hone : m.InOneMap) (hheld : m.RunningHeld)
    (hnone : m.running forward.number = none) (hfailed : m.failedRestart = none) :
    Owned (m.insertActive kind forward) ↔ m.hasRule forward.rule.id = false := by
  constructor
  · intro ⟨hone', hheld', _⟩
    rw [hasRule_eq_false_iff]
    intro map
    by_contra hmap
    have hmap : m.has map forward.rule.id := Bool.eq_true_of_not_eq_false hmap
    obtain rfl : map = some kind :=
      hone' (has_insertActive.mpr (.inr hmap)) (has_insertActive.mpr (.inl ⟨rfl, rfl⟩))
    -- the forward that was there still runs, and nobody holds it
    obtain ⟨before, hbefore⟩ := Option.isSome_iff_exists.mp hmap
    obtain ⟨-, hruns⟩ := hm.runs hbefore
    have hother : before.number ≠ forward.number := by
      intro hnumber
      rw [hnumber, hnone] at hruns
      cases hruns
    obtain ⟨holder, hholder, hnumber⟩ := hheld' ((update_of_ne hother ..).trans hruns)
    rw [lookup_insertActive, if_pos ⟨rfl, rfl⟩] at hholder
    cases hholder
    exact hother hnumber.symm
  · intro hfree
    rw [hasRule_eq_false_iff] at hfree
    have habsent : ∀ {map}, ¬ m.has map forward.rule.id := by
      intro map
      rw [hfree map]
      exact nofun
    refine ⟨?_, ?_, ?_⟩
    · intro id map map' hmap hmap'
      rw [has_insertActive] at hmap hmap'
      obtain ⟨rfl, rfl⟩ | hmap := hmap
      · obtain ⟨rfl, -⟩ | hmap' := hmap'
        · rfl
        · exact absurd hmap' habsent
      · obtain ⟨rfl, rfl⟩ | hmap' := hmap'
        · exact absurd hmap habsent
        · exact hone hmap hmap'
    · intro number kind' id (hruns : update m.running forward.number _ number = _)
      rw [lookup_insertActive]
      by_cases hnumber : number = forward.number
      · rw [hnumber, update_self] at hruns
        cases hruns
        exact ⟨forward, if_pos ⟨rfl, rfl⟩, hnumber.symm⟩
      · rw [update_of_ne hnumber] at hruns
        obtain ⟨holder, hholder, hholds⟩ := hheld hruns
        refine ⟨holder, (if_neg ?_).trans hholder, hholds⟩
        rintro ⟨rfl, rfl⟩
        exact @habsent (some _) (Option.isSome_iff_exists.mpr ⟨holder, hholder⟩)
    · intro id hid
      exact nomatch hfailed.symm.trans hid

section

variable (hone : m.InOneMap) (hheld : m.RunningHeld) (hfailed : m.failedRestart = none)

include hone hheld hfailed

theorem owned_eraseActive (hfound : (m.forwards kind).lookup id = some forward) :
    Owned (m.eraseActive kind id forward) := by
  refine ⟨?_, ?_, ?_⟩
  · intro id' map map' hmap hmap'
    rw [has_eraseActive] at hmap hmap'
    exact hone hmap.2 hmap'.2
  · intro number kind' id' (hruns : update m.running forward.number _ number = _)
    by_cases hnumber : number = forward.number
    · rw [hnumber, update_self] at hruns
      cases hruns
    · rw [update_of_ne hnumber] at hruns
      obtain ⟨holder, hholder, hholds⟩ := hheld hruns
      refine ⟨holder, ?_, hholds⟩
      rw [lookup_eraseActive, if_neg, hholder]
      rintro ⟨rfl, rfl⟩
      obtain rfl : forward = holder := Option.some.inj (hfound.symm.trans hholder)
      exact hnumber hholds.symm
  · intro id' hid
    exact nomatch hfailed.symm.trans hid

theorem owned_eraseStopped : Owned (m.eraseStopped id) := by
  refine ⟨?_, hheld, ?_⟩
  · intro id' map map' hmap hmap'
    rw [has_eraseStopped] at hmap hmap'
    exact hone hmap.2 hmap'.2
  · intro id' hid
    exact nomatch hfailed.symm.trans hid

end

theorem mem_allActive (hfound : (m.forwards kind).lookup id = some forward) :
    forward ∈ m.allActive := by
  have hentry := Map.lookup_eq_some_iff.mp hfound
  refine List.mem_map.mpr ⟨⟨id, forward⟩, ?_, rfl⟩
  cases kind with
  | localForward => exact List.mem_append_left _ (List.mem_append_left _ hentry)
  | dynamic => exact List.mem_append_left _ (List.mem_append_right _ hentry)
  | remote => exact List.mem_append_right _ hentry

theorem owned_suspendAll (hheld : m.RunningHeld) (hfailed : m.failedRestart = none) :
    Owned (m.suspendAll call) := by
  refine ⟨?_, ?_, ?_⟩
  · intro id map map' hmap hmap'
    cases map with
    | none =>
      cases map' with
      | none => rfl
      | some kind => exact nomatch hmap'
    | some kind => exact nomatch hmap
  · intro number kind id hruns
    dsimp only [suspendAll] at hruns
    split at hruns
    · cases hruns
    · rename_i hnumber
      obtain ⟨holder, hholder, rfl⟩ := hheld hruns
      exact absurd (List.mem_map_of_mem (mem_allActive hholder)) hnumber
  · intro id hid
    exact nomatch hfailed.symm.trans hid

/-! ## 5. The condition, and runs -/

/-- What the call puts into a map when it goes on finds its id free. -/
def landsFree (m : ForwardingManager) : CallStage → Answer → Bool
  | .starting rule _ _, .started _ _ => !m.hasRule rule.id
  | .starting _ (.restart rule) _, .startFailed => (m.findActive rule.id).isNone
  | .starting _ (.restore rule _) _, .startFailed => (m.findActive rule.id).isNone
  | .cancelling forward _, .cancelled false => !m.hasRule forward.rule.id
  | .stopping forward true, .stopped => (m.findActive forward.rule.id).isNone
  | .suspending forward _, .stopped => (m.findActive forward.rule.id).isNone
  | .restoring (rule :: _), .turn => (m.findActive rule.id).isNone
  | _, _ => true

/-- The same of the call that an action lets go on; a call that begins puts nothing into a map. -/
def LandsFree (m : ForwardingManager) : Action → Prop
  | .advance call answer => ∀ stage ∈ m.calls.lookup call, m.landsFree stage answer
  | _ => True

theorem accept_eq_ok (rule : ForwardRule) (h : m.hasRule rule.id = false) :
    m.accept rule = .ok rule.normalizeHostsForRuntime := by
  have h : m.hasRule rule.normalizeHostsForRuntime.id = false := h
  rw [accept, h]
  rfl

theorem accept_eq_error (rule : ForwardRule) (h : m.hasRule rule.id = true) :
    m.accept rule = .error (.alreadyExists rule.id) := by
  have h : m.hasRule rule.normalizeHostsForRuntime.id = true := h
  rw [accept, h]
  rfl

theorem owned_createForward (hO : Owned m) : Owned (m.createForward call rule) := by
  unfold createForward
  split
  · exact hO
  · exact hO

theorem owned_restartForward (hm : Listed m) (hone : m.InOneMap) (hheld : m.RunningHeld)
    (hfailed : m.failedRestart = none) : Owned (m.restartForward call id) := by
  unfold restartForward
  split
  · exact ⟨hone, hheld, fun _ hid => nomatch hfailed.symm.trans hid⟩
  · rename_i rule hfound
    obtain rfl := hm.stopped hfound
    have hfree : (m.eraseStopped rule.id).hasRule rule.id = false := by
      rw [hasRule_eraseStopped,
        findActive_eq_none hone (Option.isSome_iff_exists.mpr ⟨rule, hfound⟩)]
      rfl
    have haccept := accept_eq_ok { rule with status := .starting } hfree
    dsimp only
    rw [haccept]
    exact owned_eraseStopped hone hheld hfailed

section

variable (hone : m.InOneMap) (hheld : m.RunningHeld) (hfailed : m.failedRestart = none)

include hone hheld hfailed

theorem owned_stopForward : Owned (m.stopForward call id keep) := by
  unfold stopForward
  split
  · rename_i hfound
    exact owned_eraseActive hone hheld hfailed (findActive_eq_some hfound)
  · rename_i hfound
    exact owned_eraseActive hone hheld hfailed (findActive_eq_some hfound)
  · split
    · exact ⟨hone, hheld, fun _ hid => nomatch hfailed.symm.trans hid⟩
    · exact owned_eraseStopped hone hheld hfailed

theorem owned_restoreNext {rules : List ForwardRule} :
    Owned (m.restoreNext call (rule :: rules)) ↔ m.findActive rule.id = none := by
  unfold restoreNext
  have herase : Owned (m.eraseStopped rule.id) := owned_eraseStopped hone hheld hfailed
  cases hactive : m.findActive rule.id with
  | none =>
    have hfree : (m.eraseStopped rule.id).hasRule rule.id = false := by
      rw [hasRule_eraseStopped, hactive]
      rfl
    have haccept := accept_eq_ok { rule with status := .starting } hfree
    dsimp only
    rw [haccept]
    exact iff_of_true herase rfl
  | some found =>
    have htaken : (m.eraseStopped rule.id).hasRule rule.id = true := by
      rw [hasRule_eraseStopped, hactive]
      rfl
    have haccept := accept_eq_error { rule with status := .starting } htaken
    dsimp only
    rw [haccept, ← hactive]
    exact owned_insertStopped herase.1 herase.2.1 fun _ hid => nomatch hfailed.symm.trans hid

theorem owned_startFailed : Owned (m.startFailed call origin) ↔
      m.landsFree (.starting rule origin connection) .startFailed := by
  have hforgets : ∀ id, m.failedRestart ≠ some id := fun _ hid => nomatch hfailed.symm.trans hid
  cases origin with
  | create => exact iff_of_true ⟨hone, hheld, fun _ hid => absurd hid (hforgets _)⟩ rfl
  | restart back =>
    have hput : Owned ({ m with failedRestart := some back.id }.insertStopped back .stopped) ↔
        m.findActive back.id = none :=
      owned_insertStopped hone hheld fun _ hid => ⟨(Option.some.inj hid).symm, rfl⟩
    exact hput.trans Option.isNone_iff_eq_none.symm
  | restore back rules =>
    have hput : Owned (m.insertStopped back .suspended) ↔ m.findActive back.id = none :=
      owned_insertStopped hone hheld fun _ hid => absurd hid (hforgets _)
    exact hput.trans Option.isNone_iff_eq_none.symm

end

/-- A call that goes on keeps the ids owned exactly when what it puts into a map lands free. -/
theorem owned_advance {stage : CallStage} {answer : Answer} (hm : Listed m) (hone : m.InOneMap)
    (hheld : m.RunningHeld) (hfailed : m.failedRestart = none)
    (hcall : m.calls.lookup call = some stage) (h : m.advance call stage answer = some m') :
    Owned m' ↔ m.landsFree stage answer := by
  have hforgets : ∀ id, m.failedRestart ≠ some id := fun _ hid => nomatch hfailed.symm.trans hid
  have hO : Owned m := ⟨hone, hheld, fun _ hid => absurd hid (hforgets _)⟩
  have hput : ∀ {rule status}, Owned (m.insertStopped rule status) ↔ (m.findActive rule.id).isNone :=
    fun {_ _} => (owned_insertStopped hone hheld fun _ hid => absurd hid (hforgets _)).trans
      Option.isNone_iff_eq_none.symm
  unfold advance at h
  split at h
  · rename_i rule origin connection address port
    split at h
    · cases h
      have hnone := running_made hm
      have hid : (activated rule address port).id = rule.id := by
        unfold activated
        split <;> rfl
      refine (owned_insertActive hm hone hheld hnone hfailed).trans ?_
      rw [landsFree, hid, Bool.not_eq_true']
    · cases h
  · cases h
    exact owned_startFailed hone hheld hfailed
  · cases h
    exact iff_of_true hO rfl
  · cases h
    refine (owned_insertActive hm hone hheld (hm.cancelled hcall).1 hfailed).trans ?_
    rw [landsFree, Bool.not_eq_true']
  · rename_i forward keep
    cases h
    cases keep with
    | false => exact iff_of_true hO rfl
    | true => exact hput
  · cases h
    exact hput
  · rename_i rules
    cases h
    cases rules with
    | nil => exact iff_of_true hO rfl
    | cons rule rules =>
      exact (owned_restoreNext hone hheld hfailed).trans Option.isNone_iff_eq_none.symm
  · cases h

theorem owned_next {a : Action} (h : m.next a = some m') (hm : Listed m) (hO : Owned m) :
    Owned m' ↔ m.LandsFree a := by
  obtain ⟨hone, hheld, -⟩ := hO
  have hm := hm.failedRestart none
  have hO : Owned { m with failedRestart := none } := ⟨hone, hheld, nofun⟩
  cases a with
  | createForward call rule =>
    exact iff_of_true (beginCall_eq_some h ▸ owned_createForward hO) trivial
  | restartForward call id =>
    exact iff_of_true (beginCall_eq_some h ▸ owned_restartForward hm hone hheld rfl) trivial
  | stopForward call id =>
    exact iff_of_true (beginCall_eq_some h ▸ owned_stopForward hone hheld rfl) trivial
  | deleteForward call id =>
    exact iff_of_true (beginCall_eq_some h ▸ owned_stopForward hone hheld rfl) trivial
  | suspendAllAndSaveRules call =>
    exact iff_of_true (beginCall_eq_some h ▸ owned_suspendAll hheld rfl) trivial
  | restoreSavedForwards call connection =>
    exact iff_of_true (beginCall_eq_some h ▸ hO) trivial
  | advance call answer =>
    obtain ⟨stage, hcall, h⟩ := Option.bind_eq_some_iff.mp h
    refine (owned_advance hm hone hheld rfl hcall h).trans ⟨?_, ?_⟩
    · intro hfree stage' hcall'
      obtain rfl := Option.mem_unique hcall hcall'
      exact hfree
    · intro hfree
      exact hfree stage hcall

theorem owned_new (sshConnection : Nat) : Owned (new sshConnection) := by
  refine ⟨?_, nofun, nofun⟩
  intro id map map' hmap
  cases map <;> exact nomatch hmap

/-- **The ids are owned throughout a run exactly when every call lands free.** -/
theorem owned_iff (sshConnection : Nat) (actions : List Action) :
    Throughout next Owned (new sshConnection) actions ↔
      Meets next LandsFree (new sshConnection) actions :=
  throughout_iff_meets (Q := fun _ _ => True) (J := Listed)
    (fun h _ hm => hm.next h) (fun h _ hm hO => owned_next h hm hO)
    (meets_of_forall fun _ _ => trivial) (listed_new sshConnection) (owned_new sshConnection)

/-- A rule for any free port. -/
def anyPort : ForwardRule where
  id := ['a']
  forwardType := .localForward
  bindAddress := "localhost".toList
  bindPort := 0
  targetHost := "db".toList
  targetPort := 5432
  status := .starting
  description := []

/-- The second `create_forward` comes while the first one awaits its start. -/
def startedTwice : List Action :=
  [.createForward 0 anyPort, .createForward 1 anyPort,
    .advance 0 (.started "127.0.0.1".toList 40000), .advance 1 (.started "127.0.0.1".toList 40001)]

/-- **Two forwards are started under one id**, and the first runs on with no map that has it. -/
theorem started_twice :
    ¬ ∀ sshConnection actions, Throughout next Owned (new sshConnection) actions := by
  intro hall
  have hafter : (run next (new 0) startedTwice).any fun m =>
      decide (m.running 0 = some (.localForward, ['a']) ∧
        ((m.forwards .localForward).lookup ['a']).map (·.number) = some 1) := by decide
  obtain ⟨m, hrun, hm⟩ := (Option.any_eq_true _ _).mp hafter
  obtain ⟨hruns, hsecond⟩ := of_decide_eq_true hm
  have howned := throughout_iff.mp (hall 0 startedTwice) startedTwice [] m rfl hrun
  obtain ⟨holder, hholder, hnumber⟩ := howned.2.1 hruns
  rw [hholder, Option.map_some, hnumber] at hsecond
  exact nomatch hsecond

end ForwardingManager

end Hapcli.Forwarding
