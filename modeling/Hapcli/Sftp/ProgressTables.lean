/-
  Subject:   The three tables of the stored progress in step with one another.

  * **`listAllIncomplete_perm`**, **`listIncomplete_perm`** -- tables in step list what is stored;
  * **`inStep_saveSync`**, **`inStep_normalize`** -- a save keeps them in step, opening brings them
    in step; `stored_normalize` is what opening makes of a row;
  * **`inStep_deleteRows_iff`** -- a delete keeps them in step exactly when what it loaded before
    has the session of the row it removes.
-/
import Hapcli.Sftp.Progress

namespace Hapcli.Sftp

open Hapcli.Rust

namespace RedbTables

variable {codec : RmpSerde} {tables tables' : RedbTables}

/-! ## 1. In step -/

/-- Every row can be read, and neither its id nor its session has a colon in it. -/
def Readable (codec : RmpSerde) (tables : RedbTables) : Prop :=
  ∀ id bytes, tables.progress.lookup id = some bytes →
    ∃ progress, codec.fromSlice bytes = some progress ∧ ':' ∉ id ∧ ':' ∉ progress.sessionId

/-- The rows that are to be resumed are the second table, and the third has one entry for each. -/
structure InStep (codec : RmpSerde) (tables : RedbTables) : Prop where
  incomplete : ∀ id, tables.incomplete.lookup id =
    (tables.progress.lookup id).filter fun bytes => (codec.fromSlice bytes).any (·.isIncomplete)
  index : ∀ key id, tables.sessionIndex.lookup key = some id ↔
    ∃ progress, tables.stored codec id = some progress ∧ progress.isIncomplete ∧
      key = sessionIncompleteIndexKey progress.sessionId id

theorem readable_new : new.Readable codec := nofun

theorem inStep_new : new.InStep codec where
  incomplete _ := rfl
  index _ _ := ⟨nofun, nofun⟩

variable {bytes : List UInt8} {id sessionId : Str} {progress : StoredTransferProgress}

theorem stored_eq_some_iff :
    tables.stored codec id = some progress ↔
      ∃ bytes, tables.progress.lookup id = some bytes ∧ codec.fromSlice bytes = some progress :=
  Option.bind_eq_some_iff

theorem Readable.of_stored (hreadable : tables.Readable codec)
    (hstored : tables.stored codec id = some progress) : ':' ∉ id ∧ ':' ∉ progress.sessionId := by
  obtain ⟨bytes, hlookup, hbytes⟩ := (stored_eq_some_iff).mp hstored
  obtain ⟨progress', hprogress', hfree⟩ := hreadable id bytes hlookup
  obtain rfl := Option.some.inj (hbytes.symm.trans hprogress')
  exact hfree

theorem sessionIncompleteIndexKey_inj {sessionId' id' : Str} (h : ':' ∉ sessionId)
    (h' : ':' ∉ sessionId')
    (heq : sessionIncompleteIndexKey sessionId id = sessionIncompleteIndexKey sessionId' id') :
    sessionId = sessionId' ∧ id = id' := by
  induction sessionId generalizing sessionId' with
  | nil =>
    cases sessionId' with
    | nil => exact ⟨rfl, (List.cons.inj heq).2⟩
    | cons c sessionId' => exact absurd ((List.cons.inj heq).1 ▸ List.mem_cons_self) h'
  | cons c sessionId ih =>
    cases sessionId' with
    | nil => exact absurd ((List.cons.inj heq).1 ▸ List.mem_cons_self) h
    | cons c' sessionId' =>
      obtain ⟨rfl, htail⟩ := List.cons.inj heq
      obtain ⟨rfl, rfl⟩ := ih (List.not_mem_of_not_mem_cons h) (List.not_mem_of_not_mem_cons h')
        htail
      exact ⟨rfl, rfl⟩

/-! ## 2. Listings -/

/-- The stored transfers, row by row. -/
def transfers (codec : RmpSerde) (tables : RedbTables) : List StoredTransferProgress :=
  tables.progress.inKeyOrder.filterMap fun row => codec.fromSlice row.2

/-- The rows that are to be resumed. -/
def incompleteRows (codec : RmpSerde) (tables : RedbTables) : List (Str × List UInt8) :=
  tables.progress.inKeyOrder.filter fun row => (codec.fromSlice row.2).any (·.isIncomplete)

theorem mapM_fromSlice {values : List (List UInt8)}
    (h : ∀ bytes ∈ values, ∃ progress, codec.fromSlice bytes = some progress) :
    values.mapM codec.fromSlice = some (values.filterMap codec.fromSlice) := by
  induction values with
  | nil => rfl
  | cons bytes values ih =>
    obtain ⟨progress, hprogress⟩ := h bytes List.mem_cons_self
    rw [List.mapM_cons, hprogress, ih fun b hb => h b (List.mem_cons_of_mem _ hb),
      List.filterMap_cons_some hprogress]
    rfl

theorem filterMap_filter_any (rows : List (Str × List UInt8))
    (keep : StoredTransferProgress → Bool) :
    ((rows.filter fun row => (codec.fromSlice row.2).any keep).map Prod.snd).filterMap
        codec.fromSlice =
      (rows.filterMap fun row => codec.fromSlice row.2).filter keep := by
  induction rows with
  | nil => rfl
  | cons row rows ih =>
    cases hrow : codec.fromSlice row.2 with
    | none => simpa [List.filter_cons, hrow] using ih
    | some progress =>
      cases hkeep : keep progress <;> simpa [List.filter_cons, hrow, hkeep] using ih

theorem mem_incompleteRows_iff :
    (id, bytes) ∈ tables.incompleteRows codec ↔ tables.progress.lookup id = some bytes ∧
      ∃ progress, codec.fromSlice bytes = some progress ∧ progress.isIncomplete := by
  rw [incompleteRows, List.mem_filter, Map.mem_inKeyOrder_iff, Option.any_eq_true]

theorem InStep.lookup_incomplete_iff (hstep : tables.InStep codec) :
    tables.incomplete.lookup id = some bytes ↔ (id, bytes) ∈ tables.incompleteRows codec := by
  rw [hstep.incomplete, Option.filter_eq_some_iff, mem_incompleteRows_iff, Option.any_eq_true]

theorem listAllIncomplete_perm (hstep : tables.InStep codec) :
    ∃ listed, tables.listAllIncomplete codec = some listed ∧
      listed.Perm ((tables.transfers codec).filter (·.isIncomplete)) := by
  have hrows : tables.incomplete.inKeyOrder.Perm (tables.incompleteRows codec) := by
    refine (List.perm_ext_iff_of_nodup (Map.nodup_inKeyOrder _)
      ((Map.nodup_inKeyOrder _).filter _)).mpr ?_
    intro ⟨id, bytes⟩
    rw [Map.mem_inKeyOrder_iff, hstep.lookup_incomplete_iff]
    rfl
  have hread : ∀ bytes ∈ tables.incomplete.inKeyOrder.map Prod.snd,
      ∃ progress, codec.fromSlice bytes = some progress := by
    intro bytes hbytes
    obtain ⟨⟨id, bytes⟩, hrow, rfl⟩ := List.mem_map.mp hbytes
    obtain ⟨-, progress, hprogress, -⟩ := (mem_incompleteRows_iff).mp (hrows.mem_iff.mp hrow)
    exact ⟨progress, hprogress⟩
  refine ⟨(tables.incomplete.inKeyOrder.map Prod.snd).filterMap codec.fromSlice, ?_, ?_⟩
  · rw [listAllIncomplete, ← mapM_fromSlice hread, List.mapM_map]
    rfl
  · rw [transfers, ← filterMap_filter_any]
    exact (hrows.map Prod.snd).filterMap _

section

variable (hreadable : tables.Readable codec) (hstep : tables.InStep codec)
  (hcolon : ':' ∉ sessionId)

include hreadable hstep hcolon

theorem indexed_perm : ((tables.sessionIndex.range (sessionIncompleteIndexKey sessionId [])
        (sessionIncompleteIndexEndKey sessionId)).map Prod.snd).Perm
      ((tables.progress.inKeyOrder.filter fun row =>
        (codec.fromSlice row.2).any fun progress =>
          progress.isIncomplete && decide (progress.sessionId = sessionId)).map Prod.fst) := by
  have hentry : ∀ {key id}, (key, id) ∈ tables.sessionIndex.range
      (sessionIncompleteIndexKey sessionId []) (sessionIncompleteIndexEndKey sessionId) ↔
      key = sessionIncompleteIndexKey sessionId id ∧
        ∃ progress, tables.stored codec id = some progress ∧ progress.isIncomplete ∧
          progress.sessionId = sessionId := by
    intro key id
    rw [show sessionIncompleteIndexKey sessionId [] = sessionId ++ [':'] from rfl,
      show sessionIncompleteIndexEndKey sessionId = sessionId ++ [';'] from rfl,
      Map.mem_range_prefix_iff rfl, hstep.index]
    constructor
    · intro ⟨⟨progress, hstored, hincomplete, hkey⟩, rest, hprefix⟩
      have hsame : sessionIncompleteIndexKey progress.sessionId id =
          sessionIncompleteIndexKey sessionId rest := by
        rw [← hkey, ← hprefix, List.append_assoc]
        rfl
      obtain ⟨rfl, -⟩ :=
        sessionIncompleteIndexKey_inj (hreadable.of_stored hstored).2 hcolon hsame
      exact ⟨hkey, progress, hstored, hincomplete, rfl⟩
    · intro ⟨hkey, progress, hstored, hincomplete, hsession⟩
      refine ⟨⟨progress, hstored, hincomplete, hsession ▸ hkey⟩, id, ?_⟩
      rw [hkey, List.append_assoc]
      rfl
  have hnodup : ((tables.sessionIndex.range (sessionIncompleteIndexKey sessionId [])
      (sessionIncompleteIndexEndKey sessionId)).map Prod.snd).Nodup := by
    refine List.Nodup.map_on ?_ ((Map.nodup_inKeyOrder _).filter _)
    intro ⟨key, id⟩ hrow ⟨key', id'⟩ hrow' hid
    obtain rfl : id = id' := hid
    exact Prod.ext ((hentry.mp hrow).1.trans (hentry.mp hrow').1.symm) rfl
  refine (List.perm_ext_iff_of_nodup hnodup
    ((Map.nodup_keys_inKeyOrder _).sublist (List.filter_sublist.map _))).mpr ?_
  intro id
  rw [List.mem_map, List.mem_map]
  constructor
  · intro ⟨⟨key, id'⟩, hrow, hid⟩
    obtain rfl : id' = id := hid
    obtain ⟨-, progress, hstored, hincomplete, hsession⟩ := hentry.mp hrow
    obtain ⟨bytes, hlookup, hbytes⟩ := (stored_eq_some_iff).mp hstored
    refine ⟨(id', bytes), List.mem_filter.mpr ⟨Map.mem_inKeyOrder_iff.mpr hlookup, ?_⟩, rfl⟩
    rw [hbytes, Option.any_some, hincomplete, decide_eq_true hsession]
    rfl
  · intro ⟨⟨id', bytes⟩, hrow, hid⟩
    obtain rfl : id' = id := hid
    obtain ⟨hlookup, hany⟩ := List.mem_filter.mp hrow
    obtain ⟨progress, hbytes, hkeep⟩ := (Option.any_eq_true _ _).mp hany
    obtain ⟨hincomplete, hsession⟩ := Bool.and_eq_true_iff.mp hkeep
    exact ⟨(_, id'), hentry.mpr ⟨rfl, progress, (stored_eq_some_iff).mpr
      ⟨bytes, Map.mem_inKeyOrder_iff.mp hlookup, hbytes⟩, hincomplete, of_decide_eq_true hsession⟩,
      rfl⟩

theorem listIncomplete_perm : ∃ listed, tables.listIncomplete codec sessionId = some listed ∧
      listed.Perm ((tables.transfers codec).filter fun progress =>
        progress.isIncomplete && decide (progress.sessionId = sessionId)) := by
  have hids := indexed_perm hreadable hstep hcolon
  have hvalues : ((tables.sessionIndex.range (sessionIncompleteIndexKey sessionId [])
      (sessionIncompleteIndexEndKey sessionId)).filterMap fun row =>
        tables.incomplete.lookup row.2).Perm
      ((tables.progress.inKeyOrder.filter fun row =>
        (codec.fromSlice row.2).any fun progress =>
          progress.isIncomplete && decide (progress.sessionId = sessionId)).map Prod.snd) := by
    have h := hids.filterMap tables.incomplete.lookup
    rw [List.filterMap_map, List.filterMap_map] at h
    refine h.trans (.of_eq ?_)
    rw [← List.filterMap_eq_map]
    refine List.filterMap_congr fun row hrow => ?_
    obtain ⟨hlookup, hany⟩ := List.mem_filter.mp hrow
    obtain ⟨progress, hbytes, hkeep⟩ := (Option.any_eq_true _ _).mp hany
    exact hstep.lookup_incomplete_iff.mpr ((mem_incompleteRows_iff).mpr
      ⟨Map.mem_inKeyOrder_iff.mp hlookup, progress, hbytes, (Bool.and_eq_true_iff.mp hkeep).1⟩)
  refine ⟨_, mapM_fromSlice ?_, ?_⟩
  · intro bytes hbytes
    obtain ⟨row, hrow, rfl⟩ := List.mem_map.mp (hvalues.mem_iff.mp hbytes)
    obtain ⟨progress, hprogress, -⟩ := (Option.any_eq_true _ _).mp (List.mem_filter.mp hrow).2
    exact ⟨progress, hprogress⟩
  · rw [transfers, ← filterMap_filter_any]
    exact hvalues.filterMap _

end

/-! ## 3. Saving -/

theorem stored_of_load {found : Option StoredTransferProgress}
    (hload : tables.load codec id = some found) : tables.stored codec id = found := by
  unfold load at hload
  unfold stored
  cases hlookup : tables.progress.lookup id with
  | none =>
    rw [hlookup] at hload
    exact Option.some.inj hload
  | some bytes =>
    rw [hlookup] at hload
    obtain ⟨progress, hprogress, rfl⟩ := Option.map_eq_some_iff.mp hload
    exact hprogress

theorem withoutPrevious_eq (progress : StoredTransferProgress)
    (previous : Option StoredTransferProgress) :
    (tables.withoutPrevious progress previous).progress = tables.progress ∧
      (tables.withoutPrevious progress previous).incomplete = tables.incomplete := by
  unfold withoutPrevious
  cases previous with
  | none => exact ⟨rfl, rfl⟩
  | some previous =>
    dsimp only
    split <;> exact ⟨rfl, rfl⟩

theorem saveSync_spec (hsave : tables.saveSync codec progress = some tables') :
    ∃ serialized, codec.toVecNamed progress = some serialized ∧
      tables'.progress = tables.progress.insert progress.transferId serialized ∧
      (∀ id, tables'.incomplete.lookup id =
        if id = progress.transferId then (if progress.isIncomplete then some serialized else none)
        else tables.incomplete.lookup id) ∧
      ∀ key, tables'.sessionIndex.lookup key =
        if key = sessionIncompleteIndexKey progress.sessionId progress.transferId then
          (if progress.isIncomplete then some progress.transferId else none)
        else (tables.withoutPrevious progress
          (tables.stored codec progress.transferId)).sessionIndex.lookup key := by
  obtain ⟨serialized, hserialized, hsave⟩ := Option.bind_eq_some_iff.mp hsave
  obtain ⟨previous, hprevious, hsave⟩ := Option.bind_eq_some_iff.mp hsave
  obtain rfl := stored_of_load hprevious
  obtain ⟨hprogress, hincomplete⟩ :=
    @withoutPrevious_eq tables progress (tables.stored codec progress.transferId)
  refine ⟨serialized, hserialized, ?_⟩
  split at hsave
  · next h =>
      obtain rfl := Option.some.inj hsave
      refine ⟨?_, fun id => ?_, fun key => ?_⟩
      · show AList.insert progress.transferId serialized (tables.withoutPrevious _ _).progress = _
        rw [hprogress]
      · rw [if_pos h, ← hincomplete]
        exact Map.lookup_insert_eq _ _ id _
      · rw [if_pos h]
        exact Map.lookup_insert_eq _ _ key _
  · next h =>
      obtain rfl := Option.some.inj hsave
      refine ⟨?_, fun id => ?_, fun key => ?_⟩
      · rw [hprogress]
      · rw [if_neg h, ← hincomplete]
        exact Map.lookup_erase_eq _ _ id
      · rw [if_neg h]
        exact Map.lookup_erase_eq _ _ key

theorem stored_insert (h : tables'.progress = tables.progress.insert id bytes) (id' : Str) :
    tables'.stored codec id' =
      if id' = id then codec.fromSlice bytes else tables.stored codec id' := by
  unfold stored
  rw [h, Map.lookup_insert_eq]
  split <;> rfl

section

variable (hreadable : tables.Readable codec)

include hreadable

theorem key_ne_of_ne {id' : Str} (hcolon : ':' ∉ sessionId)
    (hne : id' ≠ id) (hstored : tables.stored codec id' = some progress) :
    sessionIncompleteIndexKey progress.sessionId id' ≠ sessionIncompleteIndexKey sessionId id := by
  intro heq
  exact hne (sessionIncompleteIndexKey_inj (hreadable.of_stored hstored).2 hcolon heq).2

theorem lookup_withoutPrevious (hstep : tables.InStep codec) {key : Str}
    (hkey : key ≠ sessionIncompleteIndexKey progress.sessionId progress.transferId) (id : Str) :
    (tables.withoutPrevious progress
        (tables.stored codec progress.transferId)).sessionIndex.lookup key = some id ↔
      id ≠ progress.transferId ∧ ∃ found, tables.stored codec id = some found ∧
        found.isIncomplete ∧ key = sessionIncompleteIndexKey found.sessionId id := by
  have hprevious : (tables.withoutPrevious progress
      (tables.stored codec progress.transferId)).sessionIndex.lookup key = some id ↔
      tables.sessionIndex.lookup key = some id ∧
        ∀ previous, tables.stored codec progress.transferId = some previous →
          key ≠ sessionIncompleteIndexKey previous.sessionId progress.transferId := by
    unfold withoutPrevious
    cases tables.stored codec progress.transferId with
    | none => exact ⟨fun h => ⟨h, nofun⟩, And.left⟩
    | some previous =>
      dsimp only
      by_cases hsession : previous.sessionId = progress.sessionId
      · rw [if_neg (not_not.mpr hsession)]
        refine ⟨fun h => ⟨h, fun found hfound => ?_⟩, And.left⟩
        obtain rfl := Option.some.inj hfound
        exact hsession ▸ hkey
      · rw [if_pos hsession, Map.lookup_erase_eq]
        by_cases hold : key = sessionIncompleteIndexKey previous.sessionId progress.transferId
        · rw [if_pos hold]
          exact ⟨nofun, fun h => absurd hold (h.2 previous rfl)⟩
        · rw [if_neg hold]
          refine ⟨fun h => ⟨h, fun found hfound => ?_⟩, And.left⟩
          exact Option.some.inj hfound ▸ hold
  rw [hprevious, hstep.index]
  constructor
  · intro ⟨⟨found, hfound, hincomplete, hsame⟩, hothers⟩
    refine ⟨?_, found, hfound, hincomplete, hsame⟩
    rintro rfl
    exact hothers found hfound hsame
  · intro ⟨hne, found, hfound, hincomplete, hsame⟩
    refine ⟨⟨found, hfound, hincomplete, hsame⟩, fun previous hstored => ?_⟩
    exact hsame ▸ key_ne_of_ne hreadable (hreadable.of_stored hstored).2 hne hfound

end

theorem readable_saveSync (hlawful : codec.Lawful) (hreadable : tables.Readable codec)
    (hid : ':' ∉ progress.transferId) (hsession : ':' ∉ progress.sessionId)
    (hsave : tables.saveSync codec progress = some tables') : tables'.Readable codec := by
  obtain ⟨serialized, hserialized, hrows, -⟩ := saveSync_spec hsave
  intro id bytes hlookup
  rw [hrows, Map.lookup_insert_eq] at hlookup
  by_cases h : id = progress.transferId
  · subst h
    obtain rfl := Option.some.inj ((if_pos rfl).symm.trans hlookup)
    exact ⟨progress, hlawful progress _ hserialized, hid, hsession⟩
  · exact hreadable id bytes ((if_neg h).symm.trans hlookup)

theorem inStep_saveSync (hlawful : codec.Lawful) (hreadable : tables.Readable codec)
    (hstep : tables.InStep codec) (hsession : ':' ∉ progress.sessionId)
    (hsave : tables.saveSync codec progress = some tables') : tables'.InStep codec := by
  obtain ⟨serialized, hserialized, hrows, hincomplete, hindex⟩ := saveSync_spec hsave
  have hread := hlawful progress serialized hserialized
  constructor
  · intro id
    rw [hincomplete, hrows, Map.lookup_insert_eq]
    by_cases h : id = progress.transferId
    · rw [if_pos h, if_pos h, Option.filter_some, hread, Option.any_some]
    · rw [if_neg h, if_neg h, hstep.incomplete]
  · intro key id
    rw [hindex, stored_insert hrows id]
    by_cases hkey : key = sessionIncompleteIndexKey progress.sessionId progress.transferId
    · rw [if_pos hkey, Option.ite_none_right_eq_some, Option.some_inj]
      constructor
      · intro ⟨hinc, hid⟩
        exact ⟨progress, (if_pos hid.symm).trans hread, hinc, hid ▸ hkey⟩
      · intro ⟨found, hfound, hinc, hsame⟩
        by_cases h : id = progress.transferId
        · obtain rfl := Option.some.inj (hread.symm.trans ((if_pos h).symm.trans hfound))
          exact ⟨hinc, h.symm⟩
        · exact absurd (hsame.symm.trans hkey)
            (key_ne_of_ne hreadable hsession h ((if_neg h).symm.trans hfound))
    · rw [if_neg hkey, lookup_withoutPrevious hreadable hstep hkey]
      constructor
      · intro ⟨hne, found, hfound, hinc, hsame⟩
        exact ⟨found, (if_neg hne).trans hfound, hinc, hsame⟩
      · intro ⟨found, hfound, hinc, hsame⟩
        by_cases h : id = progress.transferId
        · obtain rfl := Option.some.inj (hread.symm.trans ((if_pos h).symm.trans hfound))
          exact absurd (h ▸ hsame) hkey
        · exact ⟨h, found, (if_neg h).symm.trans hfound, hinc, hsame⟩

/-! ## 4. Deleting -/

/-- What a delete loaded has the session of the row that is to be resumed and that it removes. -/
def LoadedInTime (codec : RmpSerde) (tables : RedbTables) (id : Str)
    (existing : Option StoredTransferProgress) : Prop :=
  ∀ progress ∈ tables.stored codec id, progress.isIncomplete →
    existing.map (·.sessionId) = some progress.sessionId

theorem stored_deleteRows (id id' : Str) (existing : Option StoredTransferProgress) :
    (tables.deleteRows id existing).stored codec id' =
      if id' = id then none else tables.stored codec id' := by
  unfold stored deleteRows
  rw [Map.lookup_erase_eq]
  split <;> rfl

theorem readable_deleteRows (hreadable : tables.Readable codec) (id : Str)
    (existing : Option StoredTransferProgress) : (tables.deleteRows id existing).Readable codec := by
  intro id' bytes hlookup
  have hrow := (Map.lookup_erase_eq tables.progress id id').symm.trans hlookup
  by_cases h : id' = id
  · exact nomatch (if_pos h).symm.trans hrow
  · exact hreadable id' bytes ((if_neg h).symm.trans hrow)

theorem lookup_sessionIndex_deleteRows (id : Str) (existing : Option StoredTransferProgress)
    (key found : Str) :
    (tables.deleteRows id existing).sessionIndex.lookup key = some found ↔
      tables.sessionIndex.lookup key = some found ∧
        ∀ progress ∈ existing, key ≠ sessionIncompleteIndexKey progress.sessionId id := by
  unfold deleteRows
  cases existing with
  | none => exact ⟨fun h => ⟨h, nofun⟩, And.left⟩
  | some progress =>
    rw [Map.lookup_erase_eq]
    by_cases h : key = sessionIncompleteIndexKey progress.sessionId id
    · rw [if_pos h]
      exact ⟨nofun, fun hand => absurd h (hand.2 progress rfl)⟩
    · rw [if_neg h]
      refine ⟨fun hlookup => ⟨hlookup, fun other hother => ?_⟩, And.left⟩
      exact Option.some.inj hother ▸ h

theorem inStep_deleteRows_iff (hreadable : tables.Readable codec) (hstep : tables.InStep codec)
    {existing : Option StoredTransferProgress}
    (hexisting : ∀ progress ∈ existing, ':' ∉ progress.sessionId) :
    (tables.deleteRows id existing).InStep codec ↔ tables.LoadedInTime codec id existing := by
  constructor
  · intro hafter progress hstored hincomplete
    have hentry := (hstep.index _ id).mpr ⟨progress, hstored, hincomplete, rfl⟩
    by_contra hother
    -- the entry of the row would still be there
    have hkept : (tables.deleteRows id existing).sessionIndex.lookup
        (sessionIncompleteIndexKey progress.sessionId id) = some id := by
      refine (lookup_sessionIndex_deleteRows id existing _ _).mpr ⟨hentry, ?_⟩
      intro loaded hloaded heq
      obtain rfl := hloaded
      exact hother (congrArg some (List.append_cancel_right heq).symm)
    obtain ⟨_, hnone, -⟩ := (hafter.index _ id).mp hkept
    rw [stored_deleteRows, if_pos rfl] at hnone
    cases hnone
  · intro hintime
    constructor
    · intro id'
      show (tables.incomplete.erase id).lookup id' = ((tables.progress.erase id).lookup id').filter _
      rw [Map.lookup_erase_eq, Map.lookup_erase_eq]
      by_cases h : id' = id
      · rw [if_pos h, if_pos h, Option.filter_none]
      · rw [if_neg h, if_neg h, hstep.incomplete]
    · intro key id'
      rw [lookup_sessionIndex_deleteRows, hstep.index, stored_deleteRows]
      constructor
      · intro ⟨⟨progress, hstored, hincomplete, hkey⟩, hloaded⟩
        refine ⟨progress, (if_neg ?_).trans hstored, hincomplete, hkey⟩
        rintro rfl
        obtain ⟨loaded, hfound, hsession⟩ :=
          Option.map_eq_some_iff.mp (hintime progress hstored hincomplete)
        exact hloaded loaded hfound (hkey.trans (congrArg (sessionIncompleteIndexKey · id') hsession.symm))
      · intro ⟨progress, hstored, hincomplete, hkey⟩
        by_cases h : id' = id
        · exact nomatch (if_pos h).symm.trans hstored
        · have hbefore := (if_neg h).symm.trans hstored
          refine ⟨⟨progress, hbefore, hincomplete, hkey⟩, fun loaded hloaded => ?_⟩
          exact hkey ▸ key_ne_of_ne hreadable (hexisting loaded hloaded) h hbefore

/-! ## 5. Opening -/

/-- What opening the store makes of a stored transfer. -/
def reopened (now : Nat) (progress : StoredTransferProgress) : Option StoredTransferProgress :=
  match progress.status with
  | .active => some (progress.markPaused now)
  | .paused | .failed => some progress
  | .completed | .cancelled => none

variable {collected : Collected} {now : Nat}

theorem isIncomplete_of_reopened {progress' : StoredTransferProgress}
    (h : reopened now progress = some progress') :
    progress'.isIncomplete ∧ progress'.sessionId = progress.sessionId := by
  unfold reopened at h
  cases hstatus : progress.status with
  | active =>
    rw [hstatus] at h
    obtain rfl := Option.some.inj h
    exact ⟨rfl, rfl⟩
  | paused | failed =>
    rw [hstatus] at h
    obtain rfl := Option.some.inj h
    unfold StoredTransferProgress.isIncomplete
    rw [hstatus]
    exact ⟨rfl, rfl⟩
  | completed | cancelled =>
    rw [hstatus] at h
    cases h

/-- The row that is left of a row, and the session it is indexed under. -/
def Fate.row (value : List UInt8) : Fate → Option (List UInt8)
  | .dropped => none
  | .recovered _ serialized => some serialized
  | .kept _ => some value

def Fate.session : Fate → Option Str
  | .dropped => none
  | .recovered sessionId _ | .kept sessionId => some sessionId

theorem fate_spec (hlawful : codec.Lawful) {value : List UInt8} {f : Fate}
    (hfate : fate codec now value = some f) :
    (f.row value).bind codec.fromSlice = (codec.fromSlice value).bind (reopened now) ∧
      f.session = ((codec.fromSlice value).bind (reopened now)).map (·.sessionId) := by
  unfold fate at hfate
  cases hread : codec.fromSlice value with
  | none =>
    rw [hread] at hfate
    obtain rfl := Option.some.inj hfate
    exact ⟨rfl, rfl⟩
  | some progress =>
    rw [hread] at hfate
    dsimp only at hfate
    unfold reopened
    cases hstatus : progress.status with
    | active =>
      rw [hstatus] at hfate
      obtain ⟨serialized, hserialized, rfl⟩ := Option.map_eq_some_iff.mp hfate
      simp only [Option.bind_some, hstatus]
      exact ⟨hlawful _ _ hserialized, rfl⟩
    | paused | failed =>
      rw [hstatus] at hfate
      obtain rfl := Option.some.inj hfate
      simp only [Option.bind_some, hstatus]
      exact ⟨hread, rfl⟩
    | completed | cancelled =>
      rw [hstatus] at hfate
      obtain rfl := Option.some.inj hfate
      simp only [Option.bind_some, hstatus]
      exact ⟨rfl, rfl⟩

/-- What the loop over the rows has collected: each row in the list of its fate. -/
structure Collects (codec : RmpSerde) (now : Nat) (rows : List (Str × List UInt8))
    (collected : Collected) : Prop where
  fated : ∀ row ∈ rows, ∃ f, fate codec now row.2 = some f
  dropped : ∀ id, id ∈ collected.entriesToDelete ↔
    ∃ value, (id, value) ∈ rows ∧ fate codec now value = some .dropped
  recovered : ∀ id sessionId serialized,
    (id, sessionId, serialized) ∈ collected.recoveredActiveEntries ↔
      ∃ value, (id, value) ∈ rows ∧ fate codec now value = some (.recovered sessionId serialized)
  kept : ∀ id sessionId, (id, sessionId) ∈ collected.incompleteEntries ↔
    ∃ value, (id, value) ∈ rows ∧ fate codec now value = some (.kept sessionId)

theorem collects_of_collect {rows : List (Str × List UInt8)}
    (hcollect : collect codec now rows = some collected) : Collects codec now rows collected := by
  induction rows generalizing collected with
  | nil =>
    obtain rfl := Option.some.inj hcollect
    exact ⟨nofun, fun _ => by simp, fun _ _ _ => by simp, fun _ _ => by simp⟩
  | cons row rows ih =>
    obtain ⟨f, hfate, hcollect⟩ := Option.bind_eq_some_iff.mp hcollect
    obtain ⟨rest, hrest, hpush⟩ := Option.bind_eq_some_iff.mp hcollect
    obtain ⟨hfated, hdropped, hrecovered, hkept⟩ := ih hrest
    refine ⟨?_, ?_, ?_, ?_⟩
    · intro row hrow
      obtain rfl | hrow := List.mem_cons.mp hrow
      · exact ⟨f, hfate⟩
      · exact hfated row hrow
    · cases f <;> grind [Collected.push]
    · cases f <;> grind [Collected.push]
    · cases f <;> grind [Collected.push]

theorem foldl_recoverEntry (entries : List (Str × Str × List UInt8)) (tables : RedbTables) :
    entries.foldl recoverEntry tables =
      ⟨tables.progress.insertAll (entries.map fun e => (e.1, e.2.2)),
        tables.incomplete.insertAll (entries.map fun e => (e.1, e.2.2)),
        tables.sessionIndex.insertAll
          (entries.map fun e => (sessionIncompleteIndexKey e.2.1 e.1, e.1))⟩ := by
  induction entries generalizing tables with
  | nil => rfl
  | cons e entries ih => exact ih (tables.recoverEntry e)

theorem foldl_indexEntry {entries : List (Str × Str)}
    (hrows : ∀ e ∈ entries, ∃ value, tables.progress.lookup e.1 = some value) :
    entries.foldl indexEntry tables =
      ⟨tables.progress,
        tables.incomplete.insertAll
          (entries.filterMap fun e => (tables.progress.lookup e.1).map (e.1, ·)),
        tables.sessionIndex.insertAll
          (entries.map fun e => (sessionIncompleteIndexKey e.2 e.1, e.1))⟩ := by
  induction entries generalizing tables with
  | nil => rfl
  | cons e entries ih =>
    obtain ⟨value, hvalue⟩ := hrows e List.mem_cons_self
    have hturn : tables.indexEntry e = tables.putIncomplete e.1 e.2 value := by
      unfold indexEntry
      rw [hvalue]
    have hrest := @ih (tables.putIncomplete e.1 e.2 value)
      fun e' he' => hrows e' (List.mem_cons_of_mem _ he')
    have hfirst : (e :: entries).filterMap (fun e => (tables.progress.lookup e.1).map (e.1, ·)) =
        (e.1, value) :: entries.filterMap fun e => (tables.progress.lookup e.1).map (e.1, ·) :=
      List.filterMap_cons_some (Option.map_eq_some_iff.mpr ⟨value, hvalue, rfl⟩)
    rw [List.foldl_cons, hturn, hrest, hfirst]
    rfl

/-- The lists that were collected, by the fate of the one row under each id. -/
structure Sorted (codec : RmpSerde) (now : Nat) (progress : Map Str (List UInt8))
    (collected : Collected) : Prop where
  fated : ∀ id value, progress.lookup id = some value → ∃ f, fate codec now value = some f
  dropped : ∀ id, id ∈ collected.entriesToDelete ↔
    ∃ value, progress.lookup id = some value ∧ fate codec now value = some .dropped
  recovered : ∀ id serialized,
    (id, serialized) ∈ collected.recoveredActiveEntries.map (fun e => (e.1, e.2.2)) ↔
      ∃ value sessionId, progress.lookup id = some value ∧
        fate codec now value = some (.recovered sessionId serialized)
  indexed : ∀ key id,
    (key, id) ∈ (collected.recoveredActiveEntries.map
        fun e => (sessionIncompleteIndexKey e.2.1 e.1, e.1)) ++
      collected.incompleteEntries.map (fun e => (sessionIncompleteIndexKey e.2 e.1, e.1)) ↔
      ∃ value sessionId, progress.lookup id = some value ∧
        (fate codec now value).bind Fate.session = some sessionId ∧
        key = sessionIncompleteIndexKey sessionId id
  kept : ∀ id sessionId, (id, sessionId) ∈ collected.incompleteEntries ↔
    ∃ value, progress.lookup id = some value ∧ fate codec now value = some (.kept sessionId)

theorem sorted_of_collect {progress : Map Str (List UInt8)}
    (hcollect : collect codec now progress.inKeyOrder = some collected) :
    Sorted codec now progress collected := by
  obtain ⟨hfated, hdropped, hrecovered, hkept⟩ := collects_of_collect hcollect
  simp only [Map.mem_inKeyOrder_iff] at hdropped hrecovered hkept
  refine ⟨fun id value h => hfated (id, value) (Map.mem_inKeyOrder_iff.mpr h), hdropped, ?_, ?_, hkept⟩
  · intro id serialized
    rw [List.mem_map]
    constructor
    · intro ⟨⟨id', sessionId, serialized'⟩, hmem, heq⟩
      obtain ⟨rfl, rfl⟩ := Prod.mk.inj heq
      obtain ⟨value, hlookup, hfate⟩ := (hrecovered _ _ _).mp hmem
      exact ⟨value, sessionId, hlookup, hfate⟩
    · intro ⟨value, sessionId, hlookup, hfate⟩
      exact ⟨_, (hrecovered _ _ _).mpr ⟨value, hlookup, hfate⟩, rfl⟩
  · intro key id
    rw [List.mem_append, List.mem_map, List.mem_map]
    constructor
    · intro hor
      obtain ⟨⟨id', sessionId, serialized⟩, hmem, heq⟩ | ⟨⟨id', sessionId⟩, hmem, heq⟩ := hor
      · obtain ⟨rfl, rfl⟩ := Prod.mk.inj heq
        obtain ⟨value, hlookup, hfate⟩ := (hrecovered _ _ _).mp hmem
        exact ⟨value, sessionId, hlookup, by rw [hfate]; rfl, rfl⟩
      · obtain ⟨rfl, rfl⟩ := Prod.mk.inj heq
        obtain ⟨value, hlookup, hfate⟩ := (hkept _ _).mp hmem
        exact ⟨value, sessionId, hlookup, by rw [hfate]; rfl, rfl⟩
    · intro ⟨value, sessionId, hlookup, hsession, hkey⟩
      obtain ⟨f, hfate, hsession⟩ := Option.bind_eq_some_iff.mp hsession
      cases f with
      | dropped => cases hsession
      | recovered sessionId' serialized =>
        obtain rfl := Option.some.inj hsession
        exact .inl ⟨_, (hrecovered _ _ _).mpr ⟨value, hlookup, hfate⟩, Prod.ext hkey.symm rfl⟩
      | kept sessionId' =>
        obtain rfl := Option.some.inj hsession
        exact .inr ⟨_, (hkept _ _).mpr ⟨value, hlookup, hfate⟩, Prod.ext hkey.symm rfl⟩

theorem Sorted.recovered_unique {progress : Map Str (List UInt8)}
    (hsorted : Sorted codec now progress collected) {serialized serialized' : List UInt8}
    (h : (id, serialized) ∈ collected.recoveredActiveEntries.map (fun e => (e.1, e.2.2)))
    (h' : (id, serialized') ∈ collected.recoveredActiveEntries.map (fun e => (e.1, e.2.2))) :
    serialized' = serialized := by
  obtain ⟨value, _, hlookup, hfate⟩ := (hsorted.recovered id serialized).mp h
  obtain ⟨value', _, hlookup', hfate'⟩ := (hsorted.recovered id serialized').mp h'
  obtain rfl := Option.some.inj (hlookup.symm.trans hlookup')
  exact (Fate.recovered.inj (Option.some.inj (hfate'.symm.trans hfate))).2

theorem Sorted.lookup_progress {progress : Map Str (List UInt8)}
    (hsorted : Sorted codec now progress collected) (id : Str) :
    ((progress.eraseAll collected.entriesToDelete).insertAll
      (collected.recoveredActiveEntries.map fun e => (e.1, e.2.2))).lookup id =
    (progress.lookup id).bind fun value => (fate codec now value).bind (Fate.row value) := by
  have hnot : (∀ value sessionId serialized, progress.lookup id = some value →
      fate codec now value ≠ some (.recovered sessionId serialized)) →
      id ∉ (collected.recoveredActiveEntries.map fun e => (e.1, e.2.2)).map Prod.fst := by
    intro hno hmem
    obtain ⟨⟨id', serialized⟩, hentry, hid⟩ := List.mem_map.mp hmem
    obtain rfl : id' = id := hid
    obtain ⟨value, sessionId, hlookup, hfate⟩ := (hsorted.recovered id' serialized).mp hentry
    exact hno value sessionId serialized hlookup hfate
  cases hlookup : progress.lookup id with
  | none =>
    rw [Map.lookup_insertAll_of_notMem (hnot fun _ _ _ h => nomatch hlookup.symm.trans h),
      Map.lookup_eraseAll, hlookup, ite_self, Option.bind_none]
  | some value =>
    obtain ⟨f, hfate⟩ := hsorted.fated id value hlookup
    rw [Option.bind_some, hfate, Option.bind_some]
    have hother : ∀ g, g ≠ f → ∀ value', progress.lookup id = some value' →
        fate codec now value' ≠ some g := by
      intro g hg value' hlookup' hfate'
      obtain rfl := Option.some.inj (hlookup.symm.trans hlookup')
      exact hg (Option.some.inj (hfate'.symm.trans hfate))
    cases f with
    | dropped =>
      rw [Map.lookup_insertAll_of_notMem (hnot fun v s r => hother (.recovered s r) nofun v),
        Map.lookup_eraseAll, if_pos ((hsorted.dropped id).mpr ⟨value, hlookup, hfate⟩)]
      rfl
    | recovered sessionId serialized =>
      have hmem := (hsorted.recovered id serialized).mpr ⟨value, sessionId, hlookup, hfate⟩
      exact Map.lookup_insertAll_of_unique hmem (fun _ h => hsorted.recovered_unique hmem h) _
    | kept sessionId =>
      have hdropped : id ∉ collected.entriesToDelete := by
        intro hmem
        obtain ⟨value', hlookup', hfate'⟩ := (hsorted.dropped id).mp hmem
        exact hother .dropped nofun value' hlookup' hfate'
      rw [Map.lookup_insertAll_of_notMem (hnot fun v s r => hother (.recovered s r) nofun v),
        Map.lookup_eraseAll, if_neg hdropped, hlookup]
      rfl

theorem session_of_fate (hlawful : codec.Lawful) (hreadable : tables.Readable codec)
    {value : List UInt8} (hlookup : tables.progress.lookup id = some value)
    (hsession : (fate codec now value).bind Fate.session = some sessionId) : ':' ∉ sessionId := by
  obtain ⟨f, hfate, hsession⟩ := Option.bind_eq_some_iff.mp hsession
  obtain ⟨progress, hprogress, -, hfree⟩ := hreadable id value hlookup
  have hspec := (fate_spec hlawful hfate).2
  rw [hprogress, Option.bind_some, hsession] at hspec
  obtain ⟨progress', hreopened, rfl⟩ := Option.map_eq_some_iff.mp hspec.symm
  exact (isIncomplete_of_reopened hreopened).2 ▸ hfree

theorem normalize_spec (hnormalize : tables.normalize codec now = some tables') :
    (∀ id, tables'.progress.lookup id = (tables.progress.lookup id).bind fun value =>
      (fate codec now value).bind (Fate.row value)) ∧
    (∀ id, tables'.incomplete.lookup id = tables'.progress.lookup id) ∧
    (codec.Lawful → tables.Readable codec → ∀ key id, tables'.sessionIndex.lookup key = some id ↔
      ∃ value sessionId, tables.progress.lookup id = some value ∧
        (fate codec now value).bind Fate.session = some sessionId ∧
        key = sessionIncompleteIndexKey sessionId id) := by
  obtain ⟨collected, hcollect, rfl⟩ := Option.map_eq_some_iff.mp hnormalize
  have hsorted := sorted_of_collect hcollect
  have hprogress := hsorted.lookup_progress
  have hrows : ∀ e ∈ collected.incompleteEntries,
      ∃ value, ((tables.progress.eraseAll collected.entriesToDelete).insertAll
        (collected.recoveredActiveEntries.map fun e => (e.1, e.2.2))).lookup e.1 = some value := by
    intro ⟨id, sessionId⟩ hmem
    obtain ⟨value, hlookup, hfate⟩ := (hsorted.kept id sessionId).mp hmem
    refine ⟨value, ?_⟩
    rw [hprogress, hlookup, Option.bind_some, hfate]
    rfl
  dsimp only
  rw [foldl_recoverEntry, foldl_indexEntry hrows]
  refine ⟨hprogress, fun id => ?_, fun hlawful hreadable key id => ?_⟩
  · generalize (tables.progress.eraseAll collected.entriesToDelete).insertAll
      (collected.recoveredActiveEntries.map fun e => (e.1, e.2.2)) = recovered at hprogress ⊢
    have hmem : ∀ {id row}, (id, row) ∈
        collected.recoveredActiveEntries.map (fun e => (e.1, e.2.2)) ++
          collected.incompleteEntries.filterMap
            (fun e => (recovered.lookup e.1).map (e.1, ·)) ↔ recovered.lookup id = some row := by
      intro id row
      rw [List.mem_append, List.mem_filterMap, hsorted.recovered, hprogress]
      constructor
      · intro hor
        obtain ⟨value, sessionId, hlookup, hfate⟩ | ⟨⟨id', sessionId⟩, -, hrow⟩ := hor
        · rw [hlookup, Option.bind_some, hfate]
          rfl
        · obtain ⟨row', hrow', heq⟩ := Option.map_eq_some_iff.mp hrow
          obtain ⟨rfl, rfl⟩ := Prod.mk.inj heq
          exact (hprogress id').symm.trans hrow'
      · intro hlookup
        obtain ⟨value, hvalue, hbind⟩ := Option.bind_eq_some_iff.mp hlookup
        obtain ⟨f, hfate, hrow⟩ := Option.bind_eq_some_iff.mp hbind
        cases f with
        | dropped => cases hrow
        | recovered sessionId serialized =>
          obtain rfl := Option.some.inj hrow
          exact .inl ⟨value, sessionId, hvalue, hfate⟩
        | kept sessionId =>
          refine .inr ⟨(id, sessionId), (hsorted.kept id sessionId).mpr ⟨value, hvalue, hfate⟩, ?_⟩
          rw [hprogress, hlookup]
          rfl
    rw [← Map.insertAll_append]
    generalize (_ ++ _ : List (Str × List UInt8)) = entries at hmem ⊢
    have hone : ∀ {id row row'}, (id, row) ∈ entries → (id, row') ∈ entries → row' = row :=
      fun h h' => Option.some.inj ((hmem.mp h').symm.trans (hmem.mp h))
    ext row
    rw [Map.lookup_insertAll_iff hone, hmem]
    exact or_iff_left fun h => nomatch h.2
  · show (((∅ : Map Str Str).insertAll _).insertAll _).lookup key = some id ↔ _
    rw [← Map.insertAll_append]
    have hone : ∀ {key id id'}, _ → _ → id' = id := fun {key id id'} h h' => by
      obtain ⟨value, sessionId, hlookup, hsession, hkey⟩ := (hsorted.indexed key id).mp h
      obtain ⟨value', sessionId', hlookup', hsession', hkey'⟩ := (hsorted.indexed key id').mp h'
      exact (sessionIncompleteIndexKey_inj (session_of_fate hlawful hreadable hlookup' hsession')
        (session_of_fate hlawful hreadable hlookup hsession) (hkey'.symm.trans hkey)).2
    rw [Map.lookup_insertAll_iff hone, hsorted.indexed]
    exact or_iff_left fun h => nomatch h.2

theorem stored_normalize (hlawful : codec.Lawful)
    (hnormalize : tables.normalize codec now = some tables') (id : Str) :
    tables'.stored codec id = (tables.stored codec id).bind (reopened now) := by
  obtain ⟨hrows, -, -⟩ := normalize_spec hnormalize
  unfold stored
  rw [hrows]
  cases hlookup : tables.progress.lookup id with
  | none => rfl
  | some value =>
    obtain ⟨collected, hcollect, -⟩ := Option.map_eq_some_iff.mp hnormalize
    obtain ⟨f, hfate⟩ := (sorted_of_collect hcollect).fated id value hlookup
    rw [Option.bind_some, Option.bind_some, hfate, Option.bind_some]
    exact (fate_spec hlawful hfate).1

section

variable (hlawful : codec.Lawful) (hreadable : tables.Readable codec)
  (hnormalize : tables.normalize codec now = some tables')

include hlawful hreadable hnormalize

theorem readable_normalize : ∀ id bytes, tables'.progress.lookup id = some bytes → ∃ progress,
      codec.fromSlice bytes = some progress ∧ progress.isIncomplete ∧ ':' ∉ id ∧
        ':' ∉ progress.sessionId := by
  intro id bytes hlookup
  have hbefore := (normalize_spec hnormalize).1 id
  rw [hlookup] at hbefore
  obtain ⟨value, hvalue, hbind⟩ := Option.bind_eq_some_iff.mp hbefore.symm
  obtain ⟨f, hfate, hrow⟩ := Option.bind_eq_some_iff.mp hbind
  obtain ⟨progress, hprogress, hid, hfree⟩ := hreadable id value hvalue
  have hspec := (fate_spec hlawful hfate).1
  rw [hrow, hprogress, Option.bind_some, Option.bind_some] at hspec
  cases hreopened : reopened now progress with
  | none =>
    cases f with
    | dropped => cases hrow
    | recovered sessionId serialized =>
      have hsession := (fate_spec hlawful hfate).2
      rw [hprogress, Option.bind_some, hreopened] at hsession
      cases hsession
    | kept sessionId =>
      have hsession := (fate_spec hlawful hfate).2
      rw [hprogress, Option.bind_some, hreopened] at hsession
      cases hsession
  | some progress' =>
    obtain ⟨hincomplete, hsession⟩ := isIncomplete_of_reopened hreopened
    exact ⟨progress', hspec.trans hreopened, hincomplete, hid, hsession ▸ hfree⟩

theorem inStep_normalize : tables'.InStep codec := by
  obtain ⟨hrows, hincomplete, hindex⟩ := normalize_spec hnormalize
  constructor
  · intro id
    rw [hincomplete]
    cases hlookup : tables'.progress.lookup id with
    | none => rfl
    | some bytes =>
      obtain ⟨progress, hprogress, hinc, -⟩ :=
        readable_normalize hlawful hreadable hnormalize id bytes hlookup
      rw [Option.filter_some, hprogress, Option.any_some, if_pos hinc]
  · intro key id
    rw [hindex hlawful hreadable, stored_normalize hlawful hnormalize]
    constructor
    · intro ⟨value, sessionId, hlookup, hsession, hkey⟩
      obtain ⟨f, hfate, hsession⟩ := Option.bind_eq_some_iff.mp hsession
      have hspec := (fate_spec hlawful hfate).2
      rw [hsession] at hspec
      obtain ⟨progress, hprogress, rfl⟩ := Option.map_eq_some_iff.mp hspec.symm
      obtain ⟨before, -, hreopened⟩ := Option.bind_eq_some_iff.mp hprogress
      refine ⟨progress, ?_, (isIncomplete_of_reopened hreopened).1, hkey⟩
      rw [stored, hlookup, Option.bind_some]
      exact hprogress
    · intro ⟨progress, hstored, hinc, hkey⟩
      obtain ⟨before, hbefore, hreopened⟩ := Option.bind_eq_some_iff.mp hstored
      obtain ⟨value, hlookup, hvalue⟩ := (stored_eq_some_iff).mp hbefore
      obtain ⟨collected, hcollect, -⟩ := Option.map_eq_some_iff.mp hnormalize
      obtain ⟨f, hfate⟩ := (sorted_of_collect hcollect).fated id value hlookup
      refine ⟨value, progress.sessionId, hlookup, ?_, hkey⟩
      rw [hfate, Option.bind_some, (fate_spec hlawful hfate).2, hvalue, Option.bind_some, hreopened]
      rfl

end

end RedbTables

end Hapcli.Sftp
