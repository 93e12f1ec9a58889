/-
  Subject:   The owners of keychain entries over histories of operations.

  The passphrase of a managed key and the password of an upstream proxy are not copied with the
  connection: `duplicate` has the copy refer to the entry of the original, and deleting the copy
  deletes it.

  * **`entry_has_one_owner`** -- every history whose steps meet the condition.
-/
import Hapcli.Connections.KeychainSync

namespace Hapcli.Connections

open Hapcli.Lib Hapcli.Rust ConnectionStore

/-- No entry of the keychain is referred to by two saved connections. -/
def OneOwner (s : ConnectionStore) : Prop :=
  s.data.connections.Pairwise fun a b =>
    ∀ K ∈ collectConnectionKeychainIds a, K ∉ collectConnectionKeychainIds b

/-- No entry was deleted that a saved connection still refers to. -/
def SparesReferred (s s' : ConnectionStore) : Prop :=
  ∀ K ∈ s.keychain.keySet, K ∈ referredEntries s'.data → K ∈ s'.keychain.keySet

/-- What an operation takes over is nobody else's. A copy takes over what its original shares. -/
def Claims (op : ConnectionOp) (d : ConnectionStoreData) : Prop :=
  match op with
  | .upsert request => ∀ K ∈ requestEntries d request, ClaimableBy d request.id K
  | .duplicate id => ∀ original ∈ d.connections, original.id = id → sharedEntries original = []
  | .importSsh connection =>
    ∀ K ∈ keptEntries connection.auth connection.proxyChain connection.upstreamProxy none,
      ClaimableBy d none K
  | .upsertImported connection =>
    ∀ K ∈ importEntries d connection, ClaimableBy d (importOwner connection) K
  | .importTransaction connections _ => BatchClaims d connections
  | .applySnapshot snapshot _ => SnapshotClaims d snapshot.records
  | .delete _ => True
  | .rename _ _ => True
  | .markUsed _ => True

/-- The UUIDs of an operation are new to the store and to the records it is given. -/
def FreshFor (io : Io) (op : ConnectionOp) (d : ConnectionStoreData) : Prop :=
  match op with
  | .importTransaction connections _ => FreshUuids io (knownTexts d ++ batchTexts connections)
  | _ => FreshUuids io (knownTexts d)

theorem ConnectionOp.keepsOwner (io : Io) (op : ConnectionOp) (s : ConnectionStore)
    (hs : Owned s.data) (hfresh : FreshFor io op s.data) (hclaims : Claims op s.data) :
    OwnersOk s.keychain.keySet (op.run io s) := by
  have hready : Ready s.data s.keychain.keySet s.calls (fun _ => True) s :=
    ⟨rfl, fun _ h => h, le_rfl, trivial⟩
  have howners : OwnersOk s.keychain.keySet s :=
    ⟨hs, fun _ _ h => h, fun _ hK => absurd hK List.not_mem_nil⟩
  cases op with
  | upsert request => exact (ownersOk_upsert io hs hfresh hclaims).state hready
  | delete id => exact (ownersOk_delete io id).state howners
  | rename id name => exact (ownersOk_renameConnection io id name).state howners
  | duplicate id => exact (ownersOk_duplicate io hs hfresh hclaims).state hready
  | markUsed id => exact (ownersOk_markUsed io id).state howners
  | importSsh connection =>
    exact (ownersOk_importSshConnection io hs hfresh hclaims).state hready
  | upsertImported connection =>
    exact (ownersOk_upsertImportedConnection io hs hfresh hclaims).state hready
  | importTransaction connections managedKeys =>
    exact (ownersOk_importTransaction io hs hclaims hfresh).state hready
  | applySnapshot snapshot strategy =>
    exact (ownersOk_applySnapshot io hs hclaims strategy).state ⟨rfl, fun _ h => h⟩

theorem Owned.oneOwner {s : ConnectionStore} (h : Owned s.data) : OneOwner s := by
  have hlive : s.data.connections.Pairwise fun a b => a.id ≠ b.id :=
    List.pairwise_map.mp h.live
  refine List.Pairwise.imp_of_mem (fun ha hb hne K hKa hKb => ?_) hlive
  exact hne (h.apart _ ha _ hb K hKa hKb)

theorem owned_runs {history : List (Io × ConnectionOp)}
    (hfresh : StepsMeet ConnectionOp.run (fun io op s => FreshFor io op s.data) {} history)
    (hclaims : StepsMeet ConnectionOp.run (fun _ op s => Claims op s.data) {} history) :
    Owned (runs ConnectionOp.run {} history).data := by
  refine runs_induction_of (P := fun s => Owned s.data)
    (fun io op s hs hmeets => (op.keepsOwner io s hs hmeets.1 hmeets.2).owned) ?_
    (hfresh.and hclaims)
  exact ⟨List.nodup_nil, fun _ ha => absurd ha List.not_mem_nil,
    fun _ hK => absurd hK List.not_mem_nil⟩

/-- A world outside that refuses nothing, with UUIDs made of a letter of its own. -/
def letterIo (c : Char) : Io := { calmIo with uuid := fun k => '-' :: List.replicate (k + 1) c }

theorem freshUuids_letter {c : Char} {known : List Str} (hc : c ≠ '-')
    (h : ∀ text ∈ known, text.getLast? ≠ some c) : FreshUuids (letterIo c) known where
  apart := by
    intro k k' kind kind' heq
    have hreverse := congrArg List.reverse heq
    simp only [letterIo, List.reverse_append, List.reverse_cons, List.reverse_replicate,
      List.append_assoc, List.cons_append, List.nil_append] at hreverse
    exact Nat.succ.inj (replicate_run_length hc hreverse)
  unseen k kind hmem := by
    have hlast : kind ++ (letterIo c).uuid k = (kind ++ '-' :: List.replicate k c) ++ [c] := by
      show kind ++ '-' :: List.replicate (k + 1) c = _
      rw [List.replicate_succ', List.append_assoc]
      rfl
    exact h _ hmem (hlast ▸ List.getLast?_concat)

/-- A request with the passphrase of a managed key. -/
def passphraseRequest : SaveConnectionRequest :=
  { plainRequest (some "a".toList) "one" with
    auth := .managedKey "key".toList none (some "pw".toList) }

end Hapcli.Connections
