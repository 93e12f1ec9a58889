/-
  Subject:   The three-way merge of synchronised records (`operation/merge.rs`):
             `merge_structured_json_value` and `merge_structured_model_fields`.

  * **`at_merge`** -- along a path of objects the merge leaves the merge of what lies there;
  * **`merge_used_local`**, **`merge_swap`** -- a merge that used nothing local is the remote value,
    and a merge does not care which side is called local.
-/
import Hapcli.Rust.Json
import Mathlib.Data.List.Dedup

namespace Hapcli.CloudSync

open Hapcli.Rust

/-! ## 1. The merge -/

inductive ConflictStrategy where
  | merge
  | replace
  | skip
  | rename
  deriving DecidableEq

def mergeConflictPrefersLocal (conflictStrategy : ConflictStrategy) : Bool :=
  conflictStrategy != .replace

/-- The keys of the three objects, each once and in order: a `BTreeSet`. -/
def sortedKeys (base localFields remote : Fields) : List Str :=
  (base.keys ++ localFields.keys ++ remote.keys).dedup.mergeSort fun a b => !decide (b < a)

/-- The fields that have a value, inserted one after the other. -/
def insertPresent (children : List (Str × Option Json)) : Fields :=
  children.foldl
    (fun merged child =>
      match child.2 with
      | some value => merged.insert child.1 value
      | none => merged)
    Fields.empty

/-- `value.as_object()`, of a value that may be absent. -/
def objectOf (value : Option Json) : Option Fields := value.bind Json.asObject

theorem sizeOf_field_lt {entries : List (Str × Value)} (key : Str) :
    sizeOf (field entries key) < sizeOf (some (Value.object entries)) := by
  cases h : field entries key with
  | none =>
    simp only [Option.none.sizeOf_spec, Option.some.sizeOf_spec, Value.object.sizeOf_spec]
    omega
  | some v =>
    have hmem := List.sizeOf_lt_of_mem (mem_of_field h)
    simp only [Option.some.sizeOf_spec, Value.object.sizeOf_spec, Prod.mk.sizeOf_spec] at hmem ⊢
    omega

variable {fields : Fields} {value : Option Json}

theorem sizeOf_get_lt (h : objectOf value = some fields) (key : Str) :
    sizeOf ((fields.get key).map Json.value) < sizeOf (value.map Json.value) := by
  obtain ⟨v, rfl, hv⟩ := Option.bind_eq_some_iff.mp h
  rw [Json.asObject_eq_some_iff] at hv
  subst hv
  rw [Fields.map_value_get]
  exact sizeOf_field_lt key

@[grind] def mergeStructuredJsonValue (conflictStrategy : ConflictStrategy)
    (base localValue remote : Option Json) : Option Json × Bool :=
  if localValue == remote then (remote, false)
  else if base == localValue then (remote, false)
  else if base == remote then (localValue, true)
  else
    match objectOf base, _h : objectOf localValue, objectOf remote with
    | some baseObject, some localObject, some remoteObject =>
      let children := (sortedKeys baseObject localObject remoteObject).map fun key =>
        (key, mergeStructuredJsonValue conflictStrategy (baseObject.get key) (localObject.get key)
          (remoteObject.get key))
      (some (.object (insertPresent (children.map fun child => (child.1, child.2.1)))),
        children.any fun child => child.2.2)
    | _, _, _ =>
      if mergeConflictPrefersLocal conflictStrategy then (localValue, true) else (remote, false)
termination_by sizeOf (localValue.map Json.value)
decreasing_by exact sizeOf_get_lt _h key

/-! ## 2. One level of the merge -/

section Level

variable {s : ConflictStrategy} {base localValue remote : Option Json}

theorem merge_of_same (h : (localValue == remote) = true) :
    mergeStructuredJsonValue s base localValue remote = (remote, false) := by
  rw [mergeStructuredJsonValue, if_pos h]

theorem merge_of_local_unchanged (h : (base == localValue) = true) :
    mergeStructuredJsonValue s base localValue remote = (remote, false) := by
  by_cases hsame : (localValue == remote) = true
  · exact merge_of_same hsame
  · rw [mergeStructuredJsonValue, if_neg hsame, if_pos h]

theorem merge_of_remote_unchanged (h : (base == remote) = true) :
    ((mergeStructuredJsonValue s base localValue remote).1 == localValue) = true := by
  by_cases hsame : (localValue == remote) = true
  · rw [merge_of_same hsame]
    exact BEq.symm hsame
  by_cases hlocal : (base == localValue) = true
  · rw [merge_of_local_unchanged hlocal]
    exact BEq.trans (BEq.symm h) hlocal
  · rw [mergeStructuredJsonValue, if_neg hsame, if_neg hlocal, if_pos h]
    exact BEq.rfl

/-- All three sides differ. -/
def Conflict (base localValue remote : Option Json) : Prop :=
  (localValue == remote) = false ∧ (base == localValue) = false ∧ (base == remote) = false

theorem merge_of_conflict (h : Conflict base localValue remote)
    (hobjects : ¬ (∃ b l r, objectOf base = some b ∧ objectOf localValue = some l ∧
      objectOf remote = some r)) :
    mergeStructuredJsonValue s base localValue remote =
      if mergeConflictPrefersLocal s then (localValue, true) else (remote, false) := by
  obtain ⟨hsame, hlocal, hremote⟩ := h
  rw [mergeStructuredJsonValue, if_neg (by simp [hsame]), if_neg (by simp [hlocal]),
    if_neg (by simp [hremote])]
  split
  · next b l r hb hl hr => exact absurd ⟨b, l, r, hb, hl, hr⟩ hobjects
  · rfl

theorem mem_sortedKeys {b l r : Fields} {key : Str} :
    key ∈ sortedKeys b l r ↔ key ∈ b.keys ∨ key ∈ l.keys ∨ key ∈ r.keys := by
  rw [sortedKeys, List.mem_mergeSort, List.mem_dedup, List.mem_append, List.mem_append, or_assoc]

theorem get_foldl_insert (f : Str → Option Json) (keys : List Str) (merged : Fields) (key : Str) :
    ((keys.map fun k => (k, f k)).foldl
      (fun (merged : Fields) child =>
        match child.2 with
        | some value => merged.insert child.1 value
        | none => merged) merged).get key =
      if key ∈ keys then (f key).or (merged.get key) else merged.get key := by
  induction keys generalizing merged with
  | nil => rfl
  | cons k keys ih =>
    rw [List.map_cons, List.foldl_cons, ih]
    cases hk : f k with
    | none =>
      by_cases hkey : key = k
      · subst hkey
        simp [hk]
      · simp [hkey]
    | some v =>
      simp only [Fields.get_insert]
      by_cases hkey : key = k
      · subst hkey
        simp [hk]
      · simp [hkey]

theorem merge_of_objects {b l r : Fields} (h : Conflict base localValue remote)
    (hb : objectOf base = some b) (hl : objectOf localValue = some l)
    (hr : objectOf remote = some r) : ∃ merged : Fields,
      (mergeStructuredJsonValue s base localValue remote).1 = some (.object merged) ∧
      (∀ key, merged.get key =
        (mergeStructuredJsonValue s (b.get key) (l.get key) (r.get key)).1) ∧
      ((mergeStructuredJsonValue s base localValue remote).2 = false →
        ∀ key, (mergeStructuredJsonValue s (b.get key) (l.get key) (r.get key)).2 = false) := by
  obtain ⟨hsame, hlocal, hremote⟩ := h
  have habsent : ∀ key ∉ sortedKeys b l r,
      mergeStructuredJsonValue s (b.get key) (l.get key) (r.get key) = (none, false) := by
    intro key hkey
    rw [mem_sortedKeys, not_or, not_or, ← Fields.get_eq_none_iff, ← Fields.get_eq_none_iff,
      ← Fields.get_eq_none_iff] at hkey
    rw [hkey.2.1, hkey.2.2]
    exact merge_of_same rfl
  rw [mergeStructuredJsonValue, if_neg (by simp [hsame]), if_neg (by simp [hlocal]),
    if_neg (by simp [hremote])]
  split
  · next b' l' r' hb' hl' hr' =>
      cases hb.symm.trans hb'
      cases hl.symm.trans hl'
      cases hr.symm.trans hr'
      refine ⟨_, rfl, fun key => ?_, fun hused key => ?_⟩
      · rw [List.map_map]
        refine (get_foldl_insert
          (fun k => (mergeStructuredJsonValue s (b.get k) (l.get k) (r.get k)).1) _ _ key).trans ?_
        split
        · rw [Fields.get_empty, Option.or_none]
        · next hkey => rw [habsent key hkey, Fields.get_empty]
      · by_cases hkey : key ∈ sortedKeys b l r
        · have hall := List.any_eq_false.mp hused _ (List.mem_map_of_mem hkey)
          simpa using hall
        · rw [habsent key hkey]
  · next hnot => exact absurd hr (hnot b l r hb hl)

end Level

/-! ## 3. Fields and paths -/

/-- The field of a value that may be absent or no object. -/
def fieldOf (value : Option Json) (key : Str) : Option Json :=
  (objectOf value).bind fun fields => fields.get key

/-- What lies at a path of field names. -/
def atPath : Option Json → List Str → Option Json
  | value, [] => value
  | value, key :: path => atPath (fieldOf value key) path

/-- All three sides are objects at each place the path goes through. -/
def ObjectPath : (base localValue remote : Option Json) → List Str → Prop
  | _, _, _, [] => True
  | base, localValue, remote, key :: path =>
    ((objectOf base).isSome ∧ (objectOf localValue).isSome ∧ (objectOf remote).isSome) ∧
      ObjectPath (fieldOf base key) (fieldOf localValue key) (fieldOf remote key) path

theorem objectOf_eq_some_iff : objectOf value = some fields ↔ value = some (.object fields) := by
  rw [objectOf, Option.bind_eq_some_iff]
  constructor
  · rintro ⟨v, rfl, hv⟩
    rw [Json.asObject_eq_some_iff.mp hv]
  · rintro rfl
    exact ⟨_, rfl, rfl⟩

theorem object_of_beq (h : (some (Json.object fields) == value) = true) :
    ∃ fields', value = some (.object fields') := by
  match value, h with
  | some ⟨.object entries, hvalue⟩, _ =>
    obtain ⟨hnodup, hvalues⟩ := Value.wellFormed_object_iff.mp hvalue
    exact ⟨⟨entries, hnodup, hvalues⟩, rfl⟩

theorem fieldOf_congr {v w : Option Json} (h : (v == w) = true) (key : Str) :
    (fieldOf v key == fieldOf w key) = true := by
  cases hv : objectOf v with
  | some fields =>
    rw [objectOf_eq_some_iff] at hv
    subst hv
    obtain ⟨fields', rfl⟩ := object_of_beq h
    exact Json.object_beq_iff.mp h key
  | none =>
    cases hw : objectOf w with
    | none =>
      rw [fieldOf, fieldOf, hv, hw]
      rfl
    | some fields =>
      rw [objectOf_eq_some_iff] at hw
      subst hw
      obtain ⟨fields', rfl⟩ := object_of_beq (BEq.symm h)
      cases hv

theorem atPath_congr {v w : Option Json} (h : (v == w) = true) (path : List Str) :
    (atPath v path == atPath w path) = true := by
  induction path generalizing v w with
  | nil => exact h
  | cons key path ih => exact ih (fieldOf_congr h key)

variable (s : ConflictStrategy)

theorem fieldOf_merge {base localValue remote : Option Json} {b l r : Fields}
    (hb : objectOf base = some b) (hl : objectOf localValue = some l)
    (hr : objectOf remote = some r) (key : Str) :
    (fieldOf (mergeStructuredJsonValue s base localValue remote).1 key ==
      (mergeStructuredJsonValue s (fieldOf base key) (fieldOf localValue key)
        (fieldOf remote key)).1) = true := by
  by_cases hsame : (localValue == remote) = true
  · rw [merge_of_same hsame, merge_of_same (fieldOf_congr hsame key)]
    exact BEq.rfl
  by_cases hlocal : (base == localValue) = true
  · rw [merge_of_local_unchanged hlocal, merge_of_local_unchanged (fieldOf_congr hlocal key)]
    exact BEq.rfl
  by_cases hremote : (base == remote) = true
  · exact BEq.trans (fieldOf_congr (merge_of_remote_unchanged hremote) key)
      (BEq.symm (merge_of_remote_unchanged (fieldOf_congr hremote key)))
  · simp only [Bool.not_eq_true] at hsame hlocal hremote
    obtain ⟨merged, hmerged, hget, _⟩ :=
      merge_of_objects (s := s) ⟨hsame, hlocal, hremote⟩ hb hl hr
    have hfield : fieldOf (some (.object merged)) key = merged.get key := rfl
    rw [hmerged, hfield, hget, fieldOf, fieldOf, fieldOf, hb, hl, hr]
    exact BEq.rfl

theorem atPath_merge {base localValue remote : Option Json} {path : List Str}
    (h : ObjectPath base localValue remote path) :
    (atPath (mergeStructuredJsonValue s base localValue remote).1 path ==
      (mergeStructuredJsonValue s (atPath base path) (atPath localValue path)
        (atPath remote path)).1) = true := by
  induction path generalizing base localValue remote with
  | nil => exact BEq.rfl
  | cons key path ih =>
    obtain ⟨⟨hb, hl, hr⟩, hpath⟩ := h
    obtain ⟨b, hb⟩ := Option.isSome_iff_exists.mp hb
    obtain ⟨l, hl⟩ := Option.isSome_iff_exists.mp hl
    obtain ⟨r, hr⟩ := Option.isSome_iff_exists.mp hr
    exact BEq.trans (atPath_congr (fieldOf_merge s hb hl hr key) path) (ih hpath)

/-- All three sides are objects. -/
def AllObjects (base localValue remote : Option Json) : Prop :=
  ∃ b l r, objectOf base = some b ∧ objectOf localValue = some l ∧ objectOf remote = some r

/-! ## 4. Both sides -/

theorem merge_used_local (s : ConflictStrategy) (base localValue remote : Option Json)
    (hused : (mergeStructuredJsonValue s base localValue remote).2 = false) :
    ((mergeStructuredJsonValue s base localValue remote).1 == remote) = true := by
  by_cases hsame : (localValue == remote) = true
  · rw [merge_of_same hsame]
    exact BEq.rfl
  by_cases hlocal : (base == localValue) = true
  · rw [merge_of_local_unchanged hlocal]
    exact BEq.rfl
  by_cases hremote : (base == remote) = true
  · rw [mergeStructuredJsonValue, if_neg hsame, if_neg hlocal, if_pos hremote] at hused
    cases hused
  · simp only [Bool.not_eq_true] at hsame hlocal hremote
    by_cases hobjects : AllObjects base localValue remote
    · obtain ⟨b, l, r, hb, hl, hr⟩ := hobjects
      obtain ⟨merged, hmerged, hget, hchildren⟩ :=
        merge_of_objects (s := s) ⟨hsame, hlocal, hremote⟩ hb hl hr
      rw [hmerged, (objectOf_eq_some_iff).mp hr]
      refine Json.object_beq_iff.mpr fun key => ?_
      rw [hget]
      exact merge_used_local s (b.get key) (l.get key) (r.get key) (hchildren hused key)
    · rw [merge_of_conflict ⟨hsame, hlocal, hremote⟩ hobjects] at hused ⊢
      split at hused
      · cases hused
      · next hprefers =>
          rw [if_neg hprefers]
          exact BEq.rfl
termination_by sizeOf (localValue.map Json.value)
decreasing_by exact sizeOf_get_lt hl key

theorem merge_swap {s s' : ConflictStrategy}
    (hs : mergeConflictPrefersLocal s' = !mergeConflictPrefersLocal s)
    (base localValue remote : Option Json) :
    ((mergeStructuredJsonValue s' base remote localValue).1 ==
      (mergeStructuredJsonValue s base localValue remote).1) = true := by
  by_cases hsame : (localValue == remote) = true
  · rw [merge_of_same hsame, merge_of_same (BEq.symm hsame)]
    exact hsame
  by_cases hlocal : (base == localValue) = true
  · rw [merge_of_local_unchanged hlocal]
    exact merge_of_remote_unchanged hlocal
  by_cases hremote : (base == remote) = true
  · rw [merge_of_local_unchanged hremote]
    exact BEq.symm (merge_of_remote_unchanged hremote)
  · simp only [Bool.not_eq_true] at hsame hlocal hremote
    have hsame' : (remote == localValue) = false := BEq.symm_false hsame
    by_cases hobjects : AllObjects base localValue remote
    · obtain ⟨b, l, r, hb, hl, hr⟩ := hobjects
      obtain ⟨merged, hmerged, hget, _⟩ :=
        merge_of_objects (s := s) ⟨hsame, hlocal, hremote⟩ hb hl hr
      obtain ⟨merged', hmerged', hget', _⟩ :=
        merge_of_objects (s := s') ⟨hsame', hremote, hlocal⟩ hb hr hl
      rw [hmerged, hmerged']
      refine Json.object_beq_iff.mpr fun key => ?_
      rw [hget, hget']
      exact merge_swap hs (b.get key) (l.get key) (r.get key)
    · have hobjects' : ¬ AllObjects base remote localValue := fun ⟨b, r, l, hb, hr, hl⟩ =>
        hobjects ⟨b, l, r, hb, hl, hr⟩
      rw [merge_of_conflict ⟨hsame, hlocal, hremote⟩ hobjects,
        merge_of_conflict ⟨hsame', hremote, hlocal⟩ hobjects', hs]
      cases mergeConflictPrefersLocal s <;> exact BEq.rfl
termination_by sizeOf (localValue.map Json.value)
decreasing_by exact sizeOf_get_lt hl key

/-- **The three-way merge**, at each path through objects; what it leaves where nothing local was
    used; and the two sides exchanged. -/
theorem mergeStructuredJsonValue_correct (conflictStrategy : ConflictStrategy)
    (base localValue remote : Option Json) :
    (∀ path, ObjectPath base localValue remote path →
      let merged := atPath (mergeStructuredJsonValue conflictStrategy base localValue remote).1 path
      ((atPath localValue path == atPath base path) = true →
        (merged == atPath remote path) = true) ∧
      ((atPath remote path == atPath base path) = true →
        (merged == atPath localValue path) = true) ∧
      ((atPath localValue path == atPath remote path) = true →
        (merged == atPath localValue path) = true ∧ (merged == atPath remote path) = true) ∧
      (Conflict (atPath base path) (atPath localValue path) (atPath remote path) →
        (AllObjects (atPath base path) (atPath localValue path) (atPath remote path) →
          (objectOf merged).isSome = true) ∧
        (¬ AllObjects (atPath base path) (atPath localValue path) (atPath remote path) →
          (merged == if mergeConflictPrefersLocal conflictStrategy then atPath localValue path
            else atPath remote path) = true))) ∧
    ((mergeStructuredJsonValue conflictStrategy base localValue remote).2 = false →
      ((mergeStructuredJsonValue conflictStrategy base localValue remote).1 == remote) = true) ∧
    (∀ swapped : ConflictStrategy,
      mergeConflictPrefersLocal swapped = !mergeConflictPrefersLocal conflictStrategy →
      ((mergeStructuredJsonValue swapped base remote localValue).1 ==
        (mergeStructuredJsonValue conflictStrategy base localValue remote).1) = true) := by
  refine ⟨fun path hpath => ?_, merge_used_local conflictStrategy base localValue remote,
    fun swapped hswapped => merge_swap hswapped base localValue remote⟩
  have hat := atPath_merge conflictStrategy hpath
  intro merged
  refine ⟨fun hlocal => ?_, fun hremote => ?_, fun hsame => ?_, fun hconflict => ⟨?_, ?_⟩⟩
  · rw [merge_of_local_unchanged (BEq.symm hlocal)] at hat
    exact hat
  · exact BEq.trans hat (merge_of_remote_unchanged (BEq.symm hremote))
  · rw [merge_of_same hsame] at hat
    exact ⟨BEq.trans hat (BEq.symm hsame), hat⟩
  · rintro ⟨b, l, r, hb, hl, hr⟩
    obtain ⟨fields, hfields, _⟩ := merge_of_objects (s := conflictStrategy) hconflict hb hl hr
    rw [hfields] at hat
    obtain ⟨fields', hmerged⟩ := object_of_beq (BEq.symm hat)
    rw [Option.isSome_iff_exists]
    exact ⟨fields', (objectOf_eq_some_iff).mpr hmerged⟩
  · intro hobjects
    rw [merge_of_conflict hconflict hobjects] at hat
    cases hprefers : mergeConflictPrefersLocal conflictStrategy with
    | true =>
      rw [hprefers, if_pos rfl] at hat
      exact hat
    | false =>
      rw [hprefers, if_neg Bool.false_ne_true] at hat
      exact hat

/-! ## 5. The same remote again -/

/-- **A merge is not undone by the same remote**: merged again from the same base, its result stays. -/
theorem merge_again (s : ConflictStrategy) (base localValue remote : Option Json) :
    let merged := (mergeStructuredJsonValue s base localValue remote).1
    ((mergeStructuredJsonValue s base merged remote).1 == merged) = true := by
  dsimp only
  by_cases hsame : (localValue == remote) = true
  · rw [merge_of_same hsame, merge_of_same BEq.rfl]
    exact BEq.rfl
  by_cases hlocal : (base == localValue) = true
  · rw [merge_of_local_unchanged hlocal, merge_of_same BEq.rfl]
    exact BEq.rfl
  by_cases hremote : (base == remote) = true
  · exact merge_of_remote_unchanged hremote
  simp only [Bool.not_eq_true] at hsame hlocal hremote
  by_cases hobjects : AllObjects base localValue remote
  · obtain ⟨b, l, r, hb, hl, hr⟩ := hobjects
    obtain ⟨merged, hmerged, hget, -⟩ := merge_of_objects (s := s) ⟨hsame, hlocal, hremote⟩ hb hl hr
    have hagain : ∀ key, ((mergeStructuredJsonValue s (b.get key) (merged.get key) (r.get key)).1 ==
        merged.get key) = true := fun key => by
      rw [hget]
      exact merge_again s (b.get key) (l.get key) (r.get key)
    rw [hmerged]
    by_cases hdone : (some (Json.object merged) == remote) = true
    · rw [merge_of_same hdone]
      exact BEq.symm hdone
    by_cases hback : (base == some (Json.object merged)) = true
    · -- then the remote fields are those of the base, field by field
      rw [merge_of_local_unchanged hback, (objectOf_eq_some_iff).mp hr]
      rw [(objectOf_eq_some_iff).mp hb] at hback
      refine Json.object_beq_iff.mpr fun key => ?_
      have hfield := hagain key
      rwa [merge_of_local_unchanged (Json.object_beq_iff.mp hback key)] at hfield
    simp only [Bool.not_eq_true] at hdone hback
    obtain ⟨merged', hmerged', hget', -⟩ := merge_of_objects (s := s) ⟨hdone, hback, hremote⟩ hb
      ((objectOf_eq_some_iff).mpr rfl) hr
    rw [hmerged']
    exact Json.object_beq_iff.mpr fun key => hget' key ▸ hagain key
  · rw [merge_of_conflict ⟨hsame, hlocal, hremote⟩ hobjects]
    split
    · next hprefers =>
        rw [merge_of_conflict ⟨hsame, hlocal, hremote⟩ hobjects, if_pos hprefers]
        exact BEq.rfl
    · rw [merge_of_same BEq.rfl]
      exact BEq.rfl
termination_by sizeOf (localValue.map Json.value)
decreasing_by exact sizeOf_get_lt hl key

end Hapcli.CloudSync
