/-
  Subject:   The handshakes of the terminal stream (`filter.rs`), and the identifiers that tell a
             repeated one.

  What counts as a handshake is a parameter. The methods that only set flags and buffers are one
  operation, which leaves in them what it likes.

  * **`unique_ids_remembered`** -- the map holds the last identifiers, in order, after every run.
-/
import Hapcli.Rust.ByteOffsets
import Hapcli.Rust.Maps

namespace Hapcli.Trzsz

open Hapcli.Rust

/-! ## 1. The filter -/

inductive TrzszTransferDirection where
  | upload
  | download
  deriving DecidableEq

/-- `TrzszDetectedHandshake`, what the filter reads of it. -/
structure TrzszDetectedHandshake where
  uniqueId : Str
  direction : TrzszTransferDirection
  deriving DecidableEq

/-- What the filter keeps besides the identifiers. -/
structure FilterFlags where
  detectTail : List UInt8 := []
  pendingDetectBuffers : List Str := []
  transferActive : Bool := false
  disposed : Bool := false
  uploadInitPending : Bool := false
  deriving DecidableEq

structure TrzszFilter where
  flags : FilterFlags := {}
  uniqueIds : Map Str Nat := ∅

namespace TrzszFilter

-- the platform of the shell, and `parse_trzsz_handshake` on it
variable (windows : Bool) (parse : Str → Option TrzszDetectedHandshake)

/-- The identifiers that are not looked up. -/
def unchecked (uniqueId : Str) : Bool :=
  uniqueId.isEmpty || (!windows && byteLen uniqueId == 14 && ['0', '0'].isSuffixOf uniqueId)

/-- The identifiers when another one is to be recorded. -/
def makeRoom (uniqueIds : Map Str Nat) : Map Str Nat :=
  if 100 ≤ uniqueIds.keys.length then
    (uniqueIds.retain fun _ index => 50 ≤ index).mapValues fun _ index => index - 50
  else uniqueIds

/-- The identifiers with another one, which is the youngest. -/
def recordId (uniqueIds : Map Str Nat) (uniqueId : Str) : Map Str Nat :=
  (makeRoom uniqueIds).insert uniqueId (makeRoom uniqueIds).keys.length

def uniqueIdExists (filter : TrzszFilter) (uniqueId : Str) : TrzszFilter × Bool :=
  if unchecked windows uniqueId then (filter, false)
  else if uniqueId ∈ filter.uniqueIds.keys then (filter, true)
  else ({ filter with uniqueIds := recordId filter.uniqueIds uniqueId }, false)

def beginTransferForDetectedHandshake (filter : TrzszFilter) (handshake : TrzszDetectedHandshake) :
    TrzszFilter :=
  { filter with flags := { filter.flags with
      uploadInitPending := if handshake.direction = .upload then false
        else filter.flags.uploadInitPending
      detectTail := []
      pendingDetectBuffers := []
      transferActive := true } }

/-- The loop of `drain_detected_handshakes`: the first handshake that is not a repeated one. -/
def drainLoop : List Str → TrzszFilter → TrzszFilter × Option TrzszDetectedHandshake
  | [], filter => (filter, none)
  | buffer :: rest, filter =>
    match parse buffer with
    | none => drainLoop rest filter
    | some handshake =>
      match filter.uniqueIdExists windows handshake.uniqueId with
      | (filter, true) => drainLoop rest filter
      | (filter, false) => (filter.beginTransferForDetectedHandshake handshake, some handshake)

def drainDetectedHandshakes (filter : TrzszFilter) : TrzszFilter × Option TrzszDetectedHandshake :=
  let taken := { filter with flags := { filter.flags with pendingDetectBuffers := [] } }
  if filter.flags.disposed ∨ filter.flags.transferActive then (taken, none)
  else drainLoop windows parse filter.flags.pendingDetectBuffers taken

inductive Operation where
  | drain
  /-- another method, which leaves the identifiers alone -/
  | other (flags : FilterFlags)

/-- The identifier of an accepted handshake is noted when it is recorded. -/
def noted (recorded : List Str) :
    TrzszFilter × Option TrzszDetectedHandshake → TrzszFilter × List Str
  | (filter, none) => (filter, recorded)
  | (filter, some handshake) =>
    (filter, if unchecked windows handshake.uniqueId then recorded
      else recorded ++ [handshake.uniqueId])

/-- The filter, and the identifiers it has recorded, the oldest first. -/
def step (state : TrzszFilter × List Str) : Operation → TrzszFilter × List Str
  | .other flags => ({ state.1 with flags := flags }, state.2)
  | .drain => noted windows state.2 (state.1.drainDetectedHandshakes windows parse)

def run (operations : List Operation) : TrzszFilter × List Str :=
  operations.foldl (step windows parse) ({}, [])

/-! ## 2. The memory -/

/-- The map holds the last identifiers with their places among them: at most 100, all or at least
    50. -/
structure Remembers (uniqueIds : Map Str Nat) (recorded : List Str) (window : List Str) : Prop where
  suffix : window <:+ recorded
  nodup : window.Nodup
  atMost : window.length ≤ 100
  atLeast : window = recorded ∨ 50 ≤ window.length
  lookup : ∀ id i, uniqueIds.lookup id = some i ↔ window[i]? = some id

variable {uniqueIds : Map Str Nat} {recorded window : List Str} {uniqueId : Str}

section

variable (h : Remembers uniqueIds recorded window)

include h

theorem Remembers.mem_keys : uniqueId ∈ uniqueIds.keys ↔ uniqueId ∈ window := by
  rw [Map.mem_keys_iff, List.mem_iff_getElem?]
  simp only [h.lookup]

theorem Remembers.length_keys : uniqueIds.keys.length = window.length :=
  ((List.perm_ext_iff_of_nodup uniqueIds.keys_nodup h.nodup).mpr fun _ => h.mem_keys).length_eq

theorem Remembers.makeRoom :
    ∃ window', Remembers (TrzszFilter.makeRoom uniqueIds) recorded window' ∧
      window'.length < 100 ∧ window' ⊆ window := by
  unfold TrzszFilter.makeRoom
  rw [h.length_keys]
  split_ifs with hfull
  · have hlength : (window.drop 50).length = window.length - 50 := List.length_drop
    have := h.atMost
    refine ⟨window.drop 50, ⟨(List.drop_suffix 50 window).trans h.suffix,
      h.nodup.sublist (List.drop_sublist 50 window), by omega, .inr (by omega), fun id i => ?_⟩,
      by omega, List.drop_subset 50 window⟩
    simp only [Map.lookup_mapValues, Map.lookup_retain, Option.map_eq_some_iff,
      Option.filter_eq_some_iff, h.lookup, decide_eq_true_eq, List.getElem?_drop]
    constructor
    · rintro ⟨j, ⟨hj, hle⟩, rfl⟩
      rwa [Nat.add_sub_cancel' hle]
    · intro hi
      exact ⟨50 + i, ⟨hi, Nat.le_add_right 50 i⟩, by omega⟩
  · exact ⟨window, h, by omega, List.Subset.refl window⟩

theorem Remembers.record (hnew : uniqueId ∉ window) :
    ∃ window', Remembers (recordId uniqueIds uniqueId) (recorded ++ [uniqueId]) window' := by
  obtain ⟨kept, hkept, hless, hsub⟩ := h.makeRoom
  have hfresh : uniqueId ∉ kept := fun hmem => hnew (hsub hmem)
  refine ⟨kept ++ [uniqueId], ?_, ?_, ?_, ?_, fun id i => ?_⟩
  · obtain ⟨old, hold⟩ := hkept.suffix
    exact ⟨old, by rw [← hold, List.append_assoc]⟩
  · exact hkept.nodup.append (List.nodup_singleton _) (List.disjoint_singleton.mpr hfresh)
  · rw [List.length_append, List.length_singleton]
    omega
  · rcases hkept.atLeast with hall | hlength
    · exact .inl (by rw [hall])
    · rw [List.length_append]
      exact .inr (by omega)
  · rw [recordId, Map.lookup_insert_eq, hkept.length_keys]
    by_cases hid : id = uniqueId
    · subst hid
      rw [if_pos rfl]
      constructor
      · rintro ⟨⟩
        simp
      · intro hi
        have hnot : kept[i]? ≠ some id := fun hat => hfresh (List.mem_of_getElem? hat)
        grind
    · rw [if_neg hid, hkept.lookup]
      grind

theorem Remembers.held : recorded.drop (recorded.length - 50) <:+ window := by
  refine List.suffix_of_suffix_length_le (List.drop_suffix _ _) h.suffix ?_
  rw [List.length_drop]
  rcases h.atLeast with rfl | hlength <;> omega

end

/-! ## 3. Runs -/

variable {windows : Bool} {parse : Str → Option TrzszDetectedHandshake}

/-- What comes of the identifiers when handshakes are drained. -/
inductive Drained (windows : Bool) (uniqueIds : Map Str Nat) :
    TrzszFilter × Option TrzszDetectedHandshake → Prop where
  | nothing {filter : TrzszFilter} (hsame : filter.uniqueIds = uniqueIds) :
    Drained windows uniqueIds (filter, none)
  | unchecked {filter : TrzszFilter} {handshake : TrzszDetectedHandshake}
    (hfree : unchecked windows handshake.uniqueId = true) (hsame : filter.uniqueIds = uniqueIds) :
    Drained windows uniqueIds (filter, some handshake)
  | recorded {filter : TrzszFilter} {handshake : TrzszDetectedHandshake}
    (hchecked : TrzszFilter.unchecked windows handshake.uniqueId = false)
    (hnew : handshake.uniqueId ∉ uniqueIds.keys)
    (hids : filter.uniqueIds = recordId uniqueIds handshake.uniqueId) :
    Drained windows uniqueIds (filter, some handshake)

theorem drained_drainLoop (buffers : List Str) (filter : TrzszFilter) :
    Drained windows filter.uniqueIds (drainLoop windows parse buffers filter) := by
  induction buffers with
  | nil => exact .nothing rfl
  | cons buffer rest ih =>
    unfold drainLoop
    cases parse buffer with
    | none => exact ih
    | some handshake =>
      simp only [uniqueIdExists]
      by_cases hfree : unchecked windows handshake.uniqueId = true
      · rw [if_pos hfree]
        exact .unchecked hfree rfl
      rw [if_neg hfree]
      by_cases hknown : handshake.uniqueId ∈ filter.uniqueIds.keys
      · rw [if_pos hknown]
        exact ih
      · rw [if_neg hknown]
        exact .recorded (Bool.not_eq_true _ ▸ hfree) hknown rfl

theorem drained_drain (filter : TrzszFilter) (windows : Bool)
    (parse : Str → Option TrzszDetectedHandshake) :
    Drained windows filter.uniqueIds (filter.drainDetectedHandshakes windows parse) := by
  unfold drainDetectedHandshakes
  dsimp only
  split_ifs
  · exact .nothing rfl
  · exact drained_drainLoop _ { filter with flags := { filter.flags with pendingDetectBuffers := [] } }

/-- The invariant of a run: what is recorded was looked up, and the map remembers it. -/
def Sound (windows : Bool) (state : TrzszFilter × List Str) : Prop :=
  (∀ id ∈ state.2, unchecked windows id = false) ∧
    ∃ window, Remembers state.1.uniqueIds state.2 window

theorem Sound.step {state : TrzszFilter × List Str} (h : Sound windows state)
    (operation : Operation) : Sound windows (step windows parse state operation) := by
  obtain ⟨hchecked, window, hwindow⟩ := h
  cases operation with
  | other flags => exact ⟨hchecked, window, hwindow⟩
  | drain =>
    show Sound windows (noted windows state.2 (state.1.drainDetectedHandshakes windows parse))
    have hdrained := state.1.drained_drain windows parse
    generalize state.1.drainDetectedHandshakes windows parse = result at hdrained ⊢
    cases hdrained with
    | nothing hsame => exact ⟨hchecked, window, hsame ▸ hwindow⟩
    | unchecked hfree hsame =>
      rw [noted, if_pos hfree]
      exact ⟨hchecked, window, hsame ▸ hwindow⟩
    | recorded hlooked hnew hids =>
      rw [noted, hlooked, if_neg Bool.false_ne_true]
      refine ⟨?_, hids ▸ hwindow.record fun hmem => hnew (hwindow.mem_keys.mpr hmem)⟩
      rw [List.forall_mem_append, List.forall_mem_singleton]
      exact ⟨hchecked, hlooked⟩

theorem sound_run (windows : Bool) (parse : Str → Option TrzszDetectedHandshake)
    (operations : List Operation) : Sound windows (run windows parse operations) := by
  have hrun : ∀ state, Sound windows state → Sound windows (operations.foldl
      (TrzszFilter.step windows parse) state) := by
    induction operations with
    | nil => exact fun state h => h
    | cons operation rest ih => exact fun state h => ih _ (h.step operation)
  exact hrun _ ⟨by simp, [], List.suffix_refl [], List.nodup_nil, by simp, .inl rfl, by simp⟩

/-- **After every run the identifiers have the indices below their number, each once; they are at
    most 100; and none of the last 50 recorded, which differ, is accepted again.** -/
theorem unique_ids_remembered (windows : Bool) (parse : Str → Option TrzszDetectedHandshake)
    (operations : List Operation) : let state := run windows parse operations
    let last := state.2.drop (state.2.length - 50)
    (∀ i < state.1.uniqueIds.keys.length, ∃! id, state.1.uniqueIds.lookup id = some i) ∧
      (∀ id i, state.1.uniqueIds.lookup id = some i → i < state.1.uniqueIds.keys.length) ∧
      state.1.uniqueIds.keys.length ≤ 100 ∧ last.Nodup ∧
      ∀ handshake, (state.1.drainDetectedHandshakes windows parse).2 = some handshake →
        handshake.uniqueId ∉ last := by
  obtain ⟨hchecked, window, h⟩ := sound_run windows parse operations
  generalize run windows parse operations = state at hchecked h
  refine ⟨fun i hi => ?_, fun id i hlookup => ?_, ?_, h.nodup.sublist h.held.sublist,
    fun handshake haccepted hmem => ?_⟩
  · rw [h.length_keys] at hi
    refine ⟨window[i], (h.lookup _ _).mpr (List.getElem?_eq_getElem hi), fun id hid => ?_⟩
    have hat := (h.lookup id i).mp hid
    rw [List.getElem?_eq_getElem hi] at hat
    exact (Option.some.inj hat).symm
  · rw [h.length_keys]
    exact (List.getElem?_eq_some_iff.mp ((h.lookup id i).mp hlookup)).1
  · rw [h.length_keys]
    exact h.atMost
  · have hdrained := state.1.drained_drain windows parse
    generalize state.1.drainDetectedHandshakes windows parse = result at hdrained haccepted
    cases hdrained with
    | nothing => cases haccepted
    | unchecked hfree =>
      cases haccepted
      exact Bool.false_ne_true ((hchecked _ (List.mem_of_mem_drop hmem)).symm.trans hfree)
    | recorded hlooked hnew =>
      cases haccepted
      exact hnew (h.mem_keys.mpr (h.held.mem hmem))

end TrzszFilter

end Hapcli.Trzsz
