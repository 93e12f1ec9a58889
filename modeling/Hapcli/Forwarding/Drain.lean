/-
  Subject:   The locks of `begin_stop_all` and `suspend_all_and_save_rules` (`manager.rs`).

  A `DashMap` is locked by shards: its iterator holds a read guard on the shard it is at, and a
  removal needs the write lock of the shard of its id. A call that asks for the write lock of a
  shard it holds a guard on waits for itself; this is the error, with the shard.

  * **`drains_iff`** -- both calls get through exactly if there is nothing to take out.
-/
import Hapcli.Forwarding.Manager

namespace Hapcli.Forwarding

open Hapcli.Rust

section Shards

variable {shards : Nat} (shardOf : Str → Fin shards)

/-- `DashMap::remove`, by a call that holds a read guard. -/
def remove (held : Fin shards) (map : Map Str ActiveForward) (id : Str) :
    Except (Fin shards) (Option ActiveForward × Map Str ActiveForward) :=
  if shardOf id = held then .error held else .ok (map.lookup id, map.erase id)

/-- The turns of the iterator at a shard: `filter_map` removes an id before the next is asked for. -/
def drainShard (shard : Fin shards) : List Str → Map Str ActiveForward →
    Except (Fin shards) (List ActiveForward × Map Str ActiveForward)
  | [], map => .ok ([], map)
  | id :: ids, map => do
    let (forward, map) ← remove shardOf shard map id
    let (forwards, map) ← drainShard shard ids map
    return (forward.toList ++ forwards, map)

/-- The iterator over the shards. -/
def drainShards : List (Fin shards) → Map Str ActiveForward →
    Except (Fin shards) (List ActiveForward × Map Str ActiveForward)
  | [], map => .ok ([], map)
  | shard :: rest, map => do
    let (forwards, map) ← drainShard shardOf shard (map.keys.filter (shardOf · = shard)) map
    let (others, map) ← drainShards rest map
    return (forwards ++ others, map)

/-- `map.iter().map(..).filter_map(..).collect()`. -/
def drain (map : Map Str ActiveForward) :
    Except (Fin shards) (List ActiveForward × Map Str ActiveForward) :=
  drainShards shardOf (List.finRange shards) map

end Shards

structure ForwardingStopBatch where
  localForwards : List ActiveForward
  dynamicForwards : List ActiveForward
  remoteForwards : List ActiveForward

/-- The forwards in the order in which they are stopped. -/
def ForwardingStopBatch.forwards (batch : ForwardingStopBatch) : List ActiveForward :=
  batch.localForwards ++ batch.dynamicForwards ++ batch.remoteForwards

namespace ForwardingManager

variable {shards : Nat} (shardOf : ForwardType → Str → Fin shards) (manager : ForwardingManager)

def beginStopAll : Except (Fin shards) (ForwardingStopBatch × ForwardingManager) := do
  let (localForwards, locals) ← drain (shardOf .localForward) (manager.forwards .localForward)
  let (dynamicForwards, dynamics) ← drain (shardOf .dynamic) (manager.forwards .dynamic)
  let (remoteForwards, remotes) ← drain (shardOf .remote) (manager.forwards .remote)
  let forwards : ForwardType → Map Str ActiveForward
    | .localForward => locals
    | .dynamic => dynamics
    | .remote => remotes
  return ({ localForwards, dynamicForwards, remoteForwards }, { manager with forwards })

/-- `suspend_all_and_save_rules` up to the first stop: it takes out the same forwards. -/
def suspendAllLocking (call : Nat) :
    Except (Fin shards) (ForwardingStopBatch × ForwardingManager) := do
  let (batch, manager) ← manager.beginStopAll shardOf
  return (batch, manager.goTo call (suspendNext batch.forwards))

/-- The call gets through, each active forward is taken out once, and the maps are empty. -/
def Drains (result : Except (Fin shards) (ForwardingStopBatch × ForwardingManager)) : Prop :=
  ∃ batch after, result = .ok (batch, after) ∧ batch.forwards.Perm manager.allActive ∧
    ∀ kind, after.forwards kind = ∅

end ForwardingManager

section Shards

variable {shards : Nat} {shardOf : Str → Fin shards} {order : List (Fin shards)}
  {map : Map Str ActiveForward}

theorem drain_empty : drain shardOf ∅ = .ok ([], ∅) := by
  unfold drain
  induction List.finRange shards with
  | nil => rfl
  | cons shard rest ih =>
    rw [drainShards, AList.keys_empty, List.filter_nil, drainShard]
    exact congrArg (· >>= fun others => pure (others.1, others.2)) ih

/-- The first id of a shard is removed while the shard is held. -/
theorem not_mem_of_drainShards {result : List ActiveForward × Map Str ActiveForward}
    (h : drainShards shardOf order map = .ok result) :
    ∀ id ∈ map.keys, shardOf id ∉ order := by
  induction order generalizing map result with
  | nil => exact fun _ _ => List.not_mem_nil
  | cons shard rest ih =>
    rw [drainShards] at h
    cases hids : map.keys.filter (shardOf · = shard) with
    | cons first ids =>
      have hfirst : first ∈ map.keys.filter (shardOf · = shard) := hids ▸ List.mem_cons_self
      have hshard : shardOf first = shard := by simpa using (List.mem_filter.mp hfirst).2
      rw [hids, drainShard, remove, if_pos hshard] at h
      cases h
    | nil =>
      have hnone : ∀ id ∈ map.keys, shardOf id ≠ shard := by simpa using hids
      rw [hids, drainShard] at h
      cases hrest : drainShards shardOf rest map with
      | error held =>
        change drainShards shardOf rest map >>= _ = _ at h
        rw [hrest] at h
        cases h
      | ok others =>
        intro id hid
        rw [List.mem_cons, not_or]
        exact ⟨hnone id hid, ih hrest id hid⟩

theorem empty_of_drain {result : List ActiveForward × Map Str ActiveForward}
    (h : drain shardOf map = .ok result) : map = ∅ := by
  have hkeys : map.keys = [] :=
    List.eq_nil_iff_forall_not_mem.mpr fun id hid =>
      not_mem_of_drainShards h id hid (List.mem_finRange _)
  exact AList.ext (List.map_eq_nil_iff.mp hkeys)

end Shards

namespace ForwardingManager

variable {shards : Nat} {shardOf : ForwardType → Str → Fin shards} {manager : ForwardingManager}

theorem empty_of_beginStopAll {result : ForwardingStopBatch × ForwardingManager}
    (h : manager.beginStopAll shardOf = .ok result) : ∀ kind, manager.forwards kind = ∅ := by
  unfold beginStopAll at h
  cases hlocal : drain (shardOf .localForward) (manager.forwards .localForward) with
  | error held => simp only [hlocal] at h; cases h
  | ok locals =>
    cases hdynamic : drain (shardOf .dynamic) (manager.forwards .dynamic) with
    | error held => simp only [hlocal, hdynamic] at h; cases h
    | ok dynamics =>
      cases hremote : drain (shardOf .remote) (manager.forwards .remote) with
      | error held => simp only [hlocal, hdynamic, hremote] at h; cases h
      | ok remotes =>
        rintro (_ | _ | _)
        · exact empty_of_drain hlocal
        · exact empty_of_drain hremote
        · exact empty_of_drain hdynamic

/-- **Stopping all blocks on itself exactly if there is something to stop.** -/
theorem drains_iff (shardOf : ForwardType → Str → Fin shards) (manager : ForwardingManager) :
    (manager.Drains (manager.beginStopAll shardOf) ↔ ∀ kind, manager.forwards kind = ∅) ∧
      ∀ call, manager.Drains (manager.suspendAllLocking shardOf call) ↔
        ∀ kind, manager.forwards kind = ∅ := by
  have hdrains : (∀ kind, manager.forwards kind = ∅) →
      manager.Drains (manager.beginStopAll shardOf) := by
    intro h
    simp only [beginStopAll, h, drain_empty]
    refine ⟨_, _, rfl, ?_, ?_⟩
    · rw [allActive, h, h, h]
      exact List.Perm.refl _
    · rintro (_ | _ | _) <;> rfl
  refine ⟨⟨fun ⟨_, _, h, _⟩ => empty_of_beginStopAll h, hdrains⟩, fun call => ⟨?_, fun h => ?_⟩⟩
  · rintro ⟨batch, after, h, -⟩
    unfold suspendAllLocking at h
    cases hstop : manager.beginStopAll shardOf with
    | error held => rw [hstop] at h; cases h
    | ok stopped => exact empty_of_beginStopAll hstop
  · obtain ⟨batch, after, hstop, hperm, hempty⟩ := hdrains h
    refine ⟨batch, after.goTo call (suspendNext batch.forwards), ?_, hperm, hempty⟩
    rw [suspendAllLocking, hstop]
    rfl

/-- One local forward is enough. -/
theorem stop_all_waits_for_itself :
    let rule : ForwardRule := ⟨['a'], .localForward, ['h'], 1, ['h'], 2, .active, []⟩
    let manager := (new 0).insertActive .localForward ⟨0, rule, 0⟩
    manager.beginStopAll (fun _ _ => (0 : Fin 1)) = .error 0 ∧
      ¬manager.Drains (manager.beginStopAll fun _ _ => (0 : Fin 1)) := by
  refine ⟨rfl, ?_⟩
  rintro ⟨_, _, h, -⟩
  cases h

end ForwardingManager

end Hapcli.Forwarding
