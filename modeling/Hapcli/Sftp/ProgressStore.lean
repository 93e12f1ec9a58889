/-
  Subject:   Runs of a `RedbProgressStore` (`progress.rs`): saves, deletes, deletes of a session and
             reopenings, in any order, transaction by transaction.

  * **`listings_exact`** -- the listings are exact throughout a run whose deletes are timely.
-/
import Hapcli.Sftp.ProgressTables
import Hapcli.Lib.Runs

namespace Hapcli.Sftp

open Function
open Hapcli.Rust
open Hapcli.Lib.Runs

/-! ## 1. The store -/

/-- Where a call stands. -/
inductive DeleteStage where
  /-- in the loop of `delete_for_session`, with these still to delete -/
  | loading (ids : List Str)
  /-- in `delete`, after the load; then these are still to delete -/
  | deleting (id : Str) (existing : Option StoredTransferProgress) (ids : List Str)
  deriving DecidableEq

/-- `RedbProgressStore`, with the calls of `delete` and `delete_for_session` that are under way. -/
structure RedbProgressStore where
  tables : RedbTables
  calls : Nat → Option DeleteStage

inductive ProgressAction where
  | save (progress : StoredTransferProgress)
  | delete (call : Nat) (id : Str)
  | deleteForSession (call : Nat) (sessionId : Str)
  /-- the next transaction of a call -/
  | advance (call : Nat)
  /-- `RedbProgressStore::new` on the file of a store that is gone -/
  | reopen (now : Nat)
  deriving DecidableEq

namespace RedbProgressStore

open RedbTables

variable (codec : RmpSerde)

/-- `RedbProgressStore::new` on a new file. -/
def new : RedbProgressStore := ⟨RedbTables.new, fun _ => none⟩

variable (store : RedbProgressStore)

def goTo (call : Nat) (stage : Option DeleteStage) : RedbProgressStore :=
  { store with calls := update store.calls call stage }

/-- The load of `delete`; a row that cannot be read ends the call. -/
def loadFor (call : Nat) (id : Str) (ids : List Str) : RedbProgressStore :=
  store.goTo call ((store.tables.load codec id).map fun existing => .deleting id existing ids)

/-- The next transaction of a call at `stage`. -/
def advance (call : Nat) : DeleteStage → RedbProgressStore
  | .loading [] => store.goTo call none
  | .loading (id :: ids) => store.loadFor codec call id ids
  | .deleting id existing ids =>
    { store.goTo call (some (.loading ids)) with tables := store.tables.deleteRows id existing }

/-- **One step.** A save that fails leaves the tables as they were. -/
def next : ProgressAction → Option RedbProgressStore
  | .save progress =>
    some { store with tables := (store.tables.saveSync codec progress).getD store.tables }
  | .delete call id => if store.calls call = none then some (store.loadFor codec call id []) else none
  | .deleteForSession call sessionId =>
    if store.calls call = none then
      some (store.goTo call ((store.tables.listIncomplete codec sessionId).map fun listed =>
        .loading (listed.map (·.transferId))))
    else none
  | .advance call => (store.calls call).map (store.advance codec call)
  | .reopen now => (store.tables.normalize codec now).map fun tables => ⟨tables, fun _ => none⟩

/-! ## 2. In step -/

/-- No id or session with a colon is saved. -/
def ColonFree (_ : RedbProgressStore) : ProgressAction → Prop
  | .save progress => ':' ∉ progress.transferId ∧ ':' ∉ progress.sessionId
  | _ => True

/-- The write transaction of a delete finds, where the row is to be resumed, the session that the
    load had found. -/
def Timely : ProgressAction → Prop
  | .advance call =>
    match store.calls call with
    | some (.deleting id existing _) => store.tables.LoadedInTime codec id existing
    | _ => True
  | _ => True

instance (store : RedbProgressStore) (a : ProgressAction) : Decidable (ColonFree store a) := by
  cases a <;> simp only [ColonFree] <;> infer_instance

instance (store : RedbProgressStore) (a : ProgressAction) : Decidable (Timely codec store a) := by
  unfold Timely LoadedInTime
  cases a with
  | advance call =>
    dsimp only
    cases store.calls call with
    | none => exact isTrue trivial
    | some stage => cases stage <;> dsimp only <;> infer_instance
  | _ => exact isTrue trivial

/-- What holds whatever is in step: the rows can be read, and what a delete has loaded has a session
    without a colon. -/
structure Sound : Prop where
  readable : store.tables.Readable codec
  loaded : ∀ {call id existing ids}, store.calls call = some (.deleting id existing ids) →
    ∀ progress ∈ existing, ':' ∉ progress.sessionId

variable {codec} {store store' : RedbProgressStore}

theorem sound_new : new.Sound codec := ⟨readable_new, nofun⟩

theorem Sound.goTo (hsound : store.Sound codec) (call : Nat) {stage : Option DeleteStage}
    (hstage : ∀ {id existing ids}, stage = some (.deleting id existing ids) →
      ∀ progress ∈ existing, ':' ∉ progress.sessionId) : (store.goTo call stage).Sound codec where
  readable := hsound.readable
  loaded := by
    intro other id existing ids hfound
    by_cases h : other = call
    · subst h
      exact hstage ((update_self other _ store.calls).symm.trans hfound)
    · exact hsound.loaded ((update_of_ne h _ _).symm.trans hfound)

theorem Sound.loadFor (hsound : store.Sound codec) (call : Nat) (id : Str) (ids : List Str) :
    (store.loadFor codec call id ids).Sound codec := by
  refine hsound.goTo call fun hstage progress hprogress => ?_
  obtain ⟨existing, hload, heq⟩ := Option.map_eq_some_iff.mp hstage
  obtain ⟨rfl, rfl, -⟩ := DeleteStage.deleting.inj heq
  exact (hsound.readable.of_stored ((stored_of_load hload).trans hprogress)).2

theorem Sound.withTables (hsound : store.Sound codec) {tables : RedbTables}
    (hreadable : tables.Readable codec) : { store with tables := tables }.Sound codec :=
  ⟨hreadable, hsound.loaded⟩

theorem sound_next (hlawful : codec.Lawful) {a : ProgressAction}
    (hnext : store.next codec a = some store') (hfree : store.ColonFree a)
    (hsound : store.Sound codec) : store'.Sound codec := by
  cases a with
  | save progress =>
    obtain rfl := Option.some.inj hnext
    refine hsound.withTables ?_
    cases hsave : store.tables.saveSync codec progress with
    | none => exact hsound.readable
    | some tables => exact readable_saveSync hlawful hsound.readable hfree.1 hfree.2 hsave
  | delete call id =>
    obtain ⟨-, rfl⟩ := of_guarded hnext
    exact hsound.loadFor call id []
  | deleteForSession call sessionId =>
    obtain ⟨-, rfl⟩ := of_guarded hnext
    refine hsound.goTo call fun hstage => ?_
    obtain ⟨_, -, heq⟩ := Option.map_eq_some_iff.mp hstage
    cases heq
  | advance call =>
    obtain ⟨stage, hstage, rfl⟩ := Option.map_eq_some_iff.mp hnext
    cases stage with
    | loading ids =>
      cases ids with
      | nil => exact hsound.goTo call fun h => nomatch h
      | cons id ids => exact hsound.loadFor call id ids
    | deleting id existing ids =>
      have hgone : (store.goTo call (some (.loading ids))).Sound codec :=
        hsound.goTo call fun h => nomatch h
      exact hgone.withTables (readable_deleteRows hsound.readable id existing)
  | reopen now =>
    obtain ⟨tables, hnormalize, rfl⟩ := Option.map_eq_some_iff.mp hnext
    refine ⟨fun id bytes hlookup => ?_, nofun⟩
    obtain ⟨progress, hprogress, -, hplain⟩ :=
      readable_normalize hlawful hsound.readable hnormalize id bytes hlookup
    exact ⟨progress, hprogress, hplain⟩

theorem inStep_next_iff (hlawful : codec.Lawful) {a : ProgressAction}
    (hnext : store.next codec a = some store') (hfree : store.ColonFree a)
    (hsound : store.Sound codec) (hstep : store.tables.InStep codec) :
    store'.tables.InStep codec ↔ store.Timely codec a := by
  cases a with
  | save progress =>
    obtain rfl := Option.some.inj hnext
    refine iff_of_true ?_ trivial
    dsimp only
    cases hsave : store.tables.saveSync codec progress with
    | none => exact hstep
    | some tables => exact inStep_saveSync hlawful hsound.readable hstep hfree.2 hsave
  | delete call id =>
    obtain ⟨-, rfl⟩ := of_guarded hnext
    exact iff_of_true hstep trivial
  | deleteForSession call sessionId =>
    obtain ⟨-, rfl⟩ := of_guarded hnext
    exact iff_of_true hstep trivial
  | advance call =>
    obtain ⟨stage, hstage, rfl⟩ := Option.map_eq_some_iff.mp hnext
    unfold Timely
    dsimp only
    rw [hstage]
    cases stage with
    | loading ids => cases ids <;> exact iff_of_true hstep trivial
    | deleting id existing ids =>
      exact inStep_deleteRows_iff hsound.readable hstep (hsound.loaded hstage)
  | reopen now =>
    obtain ⟨tables, hnormalize, rfl⟩ := Option.map_eq_some_iff.mp hnext
    exact iff_of_true (inStep_normalize hlawful hsound.readable hnormalize) trivial

/-! ## 3. Exact listings -/

/-- The listings are what is stored: all of it that is to be resumed, and the same of a session. -/
def ListsExactly (codec : RmpSerde) (tables : RedbTables) : Prop :=
  (∃ listed, tables.listAllIncomplete codec = some listed ∧
    listed.Perm ((tables.transfers codec).filter (·.isIncomplete))) ∧
  ∀ sessionId, ':' ∉ sessionId →
    ∃ listed, tables.listIncomplete codec sessionId = some listed ∧
      listed.Perm ((tables.transfers codec).filter fun progress =>
        progress.isIncomplete && decide (progress.sessionId = sessionId))

/-- Opening the file again pauses what was active and drops what was finished. -/
def ReopensRight (codec : RmpSerde) (tables : RedbTables) : Prop :=
  ∀ now tables', tables.normalize codec now = some tables' →
    ∀ id, tables'.stored codec id = (tables.stored codec id).bind (reopened now)

/-- **The listings are exact throughout a run whose deletes are timely**, and the file can be opened
    again in each of its states. -/
theorem listings_exact (codec : RmpSerde) (hlawful : codec.Lawful) (actions : List ProgressAction)
    (hfree : Meets (next codec) ColonFree new actions)
    (htimely : Meets (next codec) (Timely codec) new actions) :
    Throughout (next codec)
      (fun store => ListsExactly codec store.tables ∧ ReopensRight codec store.tables)
      new actions := by
  have hboth : Throughout (next codec)
      (fun store => store.Sound codec ∧ store.tables.InStep codec) new actions := by
    refine throughout_of_meets ?_ (hfree.and htimely) ⟨sound_new, inStep_new⟩
    intro store a store' hnext ⟨hfree, htimely⟩ ⟨hsound, hstep⟩
    exact ⟨sound_next hlawful hnext hfree hsound,
      (inStep_next_iff hlawful hnext hfree hsound hstep).mpr htimely⟩
  refine hboth.mono fun store ⟨hsound, hstep⟩ => ⟨⟨listAllIncomplete_perm hstep, ?_⟩, ?_⟩
  · intro sessionId hcolon
    exact listIncomplete_perm hsound.readable hstep hcolon
  · intro now tables' hnormalize id
    exact stored_normalize hlawful hnormalize id

/-! ## 4. A transfer that moves while it is deleted -/

/-- A MessagePack string of fewer than 32 bytes. -/
def fixstr (text : String) : List UInt8 :=
  UInt8.ofNat (0xa0 + (asBytes text.toList).length) :: asBytes text.toList

/-- A transfer that was paused, of the session that is named. -/
def pausedIn (sessionId : String) : StoredTransferProgress where
  transferId := ['t']
  transferType := .download
  protocol := .sftp
  strategy := .file
  sourcePath := "/r".toList
  destinationPath := "/l".toList
  transferredBytes := 3
  totalBytes := 8
  status := .paused
  lastUpdated := 0
  sessionId := sessionId.toList
  error := none

/-- Its encoding: a map of twelve named fields. -/
def pausedBytes (sessionId : String) : List UInt8 :=
  0x8c :: fixstr "transfer_id" ++ fixstr "t" ++ fixstr "transfer_type" ++ fixstr "Download" ++
    fixstr "protocol" ++ fixstr "sftp" ++ fixstr "strategy" ++ fixstr "file" ++
    fixstr "source_path" ++ fixstr "/r" ++ fixstr "destination_path" ++ fixstr "/l" ++
    fixstr "transferred_bytes" ++ [3] ++ fixstr "total_bytes" ++ [8] ++
    fixstr "status" ++ fixstr "Paused" ++ fixstr "last_updated" ++ fixstr "1970-01-01T00:00:00Z" ++
    fixstr "session_id" ++ fixstr sessionId ++ fixstr "error" ++ [0xc0]

/-- `rmp_serde` on the transfers of three sessions. -/
def threeSessions : RmpSerde where
  toVecNamed progress :=
    (["a", "b", "c"].find? fun s => decide (pausedIn s = progress)).map pausedBytes
  fromSlice bytes :=
    (["a", "b", "c"].find? fun s => decide (pausedBytes s = bytes)).map pausedIn

theorem lawful_threeSessions : threeSessions.Lawful := by
  intro progress bytes h
  obtain ⟨s, hs, rfl⟩ := Option.map_eq_some_iff.mp h
  have hall : ∀ s ∈ ["a", "b", "c"],
      threeSessions.fromSlice (pausedBytes s) = some (pausedIn s) := by decide +kernel
  rw [hall s (List.mem_of_find?_eq_some hs)]
  exact congrArg some (of_decide_eq_true (List.find?_some (p := fun s => decide (pausedIn s = progress)) hs))

example : threeSessions.toVecNamed (pausedIn "d") = none := by decide +kernel

/-- A transfer that is paused, moves to another session and is deleted there. -/
theorem listings_exact_moved :
    Throughout (next threeSessions)
      (fun store => ListsExactly threeSessions store.tables ∧ ReopensRight threeSessions store.tables)
      new [.save (pausedIn "a"), .save (pausedIn "b"), .deleteForSession 0 ['b'], .advance 0,
        .advance 0, .save (pausedIn "c"), .reopen 5] :=
  listings_exact threeSessions lawful_threeSessions _ (by decide +kernel) (by decide +kernel)

/-- Session `b` takes the transfer over between the load and the removal, and `c` saves it later. -/
def movedWhileDeleted : List ProgressAction :=
  [.save (pausedIn "a"), .delete 0 ['t'], .save (pausedIn "b"), .advance 0, .save (pausedIn "c")]

theorem mem_of_listIncomplete {tables : RedbTables} {sessionId id : Str} {bytes : List UInt8}
    {progress : StoredTransferProgress} {listed : List StoredTransferProgress}
    (hindex : tables.sessionIndex.lookup (sessionIncompleteIndexKey sessionId id) = some id)
    (hrow : tables.incomplete.lookup id = some bytes) (hread : codec.fromSlice bytes = some progress)
    (hlisted : tables.listIncomplete codec sessionId = some listed) : progress ∈ listed := by
  have hbytes : bytes ∈ (tables.sessionIndex.range (sessionIncompleteIndexKey sessionId [])
      (sessionIncompleteIndexEndKey sessionId)).filterMap fun row =>
        tables.incomplete.lookup row.2 := by
    refine List.mem_filterMap.mpr ⟨(sessionIncompleteIndexKey sessionId id, id), ?_, hrow⟩
    refine (Map.mem_range_prefix_iff rfl).mpr ⟨hindex, id, ?_⟩
    rw [List.append_assoc]
    rfl
  unfold listIncomplete at hlisted
  generalize List.filterMap _ _ = values at hbytes hlisted
  induction values generalizing listed with
  | nil => cases hbytes
  | cons value values ih =>
    rw [List.mapM_cons] at hlisted
    obtain ⟨first, hfirst, hlisted⟩ := Option.bind_eq_some_iff.mp hlisted
    obtain ⟨others, hothers, heq⟩ := Option.bind_eq_some_iff.mp hlisted
    obtain rfl := Option.some.inj heq
    obtain rfl | hbytes := List.mem_cons.mp hbytes
    · obtain rfl := Option.some.inj (hread.symm.trans hfirst)
      exact List.mem_cons_self
    · exact List.mem_cons_of_mem _ (ih hbytes hothers)

/-- **A transfer that moves to another session while it is deleted leaves an index entry behind**,
    and that session lists it when it is a third one's. -/
theorem moved_while_deleted :
    ¬ ∀ codec : RmpSerde, codec.Lawful → ∀ actions, Meets (next codec) ColonFree new actions →
      Throughout (next codec) (fun store => ListsExactly codec store.tables) new actions := by
  intro hall
  have hthroughout :=
    hall threeSessions lawful_threeSessions movedWhileDeleted (by decide +kernel)
  have hrows : (run (next threeSessions) new movedWhileDeleted).map (fun store =>
      (store.tables.sessionIndex.lookup (sessionIncompleteIndexKey ['b'] ['t']),
        store.tables.incomplete.lookup ['t'])) = some (some ['t'], some (pausedBytes "c")) := by
    decide +kernel
  obtain ⟨store, hrun, hrows⟩ := Option.map_eq_some_iff.mp hrows
  obtain ⟨hstale, hrow⟩ := Prod.mk.inj hrows
  have hexact := throughout_iff.mp hthroughout movedWhileDeleted [] store rfl hrun
  obtain ⟨listed, hlisted, hperm⟩ := hexact.2 ['b'] (by decide)
  have hmem := mem_of_listIncomplete hstale hrow
    (show threeSessions.fromSlice (pausedBytes "c") = some (pausedIn "c") by decide +kernel) hlisted
  have hkept := (List.mem_filter.mp (hperm.mem_iff.mp hmem)).2
  exact absurd hkept (by decide)

end RedbProgressStore

end Hapcli.Sftp
