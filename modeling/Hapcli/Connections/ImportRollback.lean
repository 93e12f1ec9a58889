/-
  Subject:   The checkpoint and the rollback of an import.

  * **`rollbackEntries_restores`**, **`rollbackImport_restores`** -- what was touched gets what the
    checkpoint has of it;
  * `Reads`, `Reading` -- code that only reads; **`getManagedSshKeySecret_ok`**, `checkpoint_find` --
    what a checkpoint has of an entry.
-/
import Hapcli.Connections.SaveAtomicity

namespace Hapcli.Connections

open Hapcli.Lib Hapcli.Rust ConnectionStore
open Lib.Action (Keeps attempt each)

variable {io : Io} {s s' : ConnectionStore}

/-! ## 1. The rollback -/

/-- From here on no call is refused. -/
def Calm (io : Io) (s : ConnectionStore) : Prop := ∀ k, s.calls ≤ k → io.refuses k = false

theorem Calm.later (h : Calm io s) (hcalls : s.calls ≤ s'.calls) : Calm io s' :=
  fun k hk => h k (hcalls.trans hk)

variable {change : ConnectionStore → ConnectionStore}

theorem outside_calm (h : Calm io s) :
    outside io change s = (.ok (), { change s with calls := s.calls + 1 }) := by
  unfold outside
  rw [h s.calls le_rfl]
  rfl

/-- Code that gives one entry of a keychain a value, or takes it out, and leaves the rest of what
    matters. -/
def Sets (io : Io) {ρ : Type} (vault : ConnectionStore → Map Str Secret) (others : ConnectionStore → ρ)
    (id : Str) (value : Option Secret) (act : StoreM Unit) : Prop :=
  ∀ s, Calm io s → ∃ s', act s = (.ok (), s') ∧ s.calls ≤ s'.calls ∧ others s' = others s ∧
    ∀ K, (vault s').lookup K = if K = id then value else (vault s).lookup K

/-- A round of the loop of `rollback_keychain_entries`. -/
def rollbackEntry (original : List (Str × Option Secret)) (store : Str → Secret → StoreM Unit)
    (delete : Str → StoreM Unit) (id : Str) : StoreM Bool :=
  match (original.find? (·.1 == id)).bind (·.2) with
  | some secret => attempt (store id secret)
  | none => attempt (delete id)

section Rollback

variable {ρ : Type} {vault : ConnectionStore → Map Str Secret} {others : ConnectionStore → ρ}

theorem sets_outside {id : Str} {value : Option Secret}
    (hothers : ∀ s calls, others { change s with calls } = others s)
    (hvault : ∀ s calls K, (vault { change s with calls }).lookup K =
      if K = id then value else (vault s).lookup K) :
    Sets io vault others id value (outside io change) :=
  fun s hcalm => ⟨_, outside_calm hcalm, Nat.le_succ _, hothers s _, hvault s _⟩

theorem rollbackEntries_restores {store : Str → Secret → StoreM Unit} {delete : Str → StoreM Unit}
    (hstore : ∀ id secret, Sets io vault others id (some secret) (store id secret))
    (hdelete : ∀ id, Sets io vault others id none (delete id))
    (original : List (Str × Option Secret)) (touched : List Str) (hcalm : Calm io s) :
    ∃ s', rollbackEntries touched original store delete s = (.ok (), s') ∧ s.calls ≤ s'.calls ∧
      others s' = others s ∧ ∀ K, (vault s').lookup K =
        if K ∈ touched then (original.find? (·.1 == K)).bind (·.2) else (vault s).lookup K := by
  let body (id : Str) : StoreM Bool := rollbackEntry original store delete id
  have hround : ∀ id s, Calm io s → ∃ s', body id s = (.ok true, s') ∧ s.calls ≤ s'.calls ∧
      others s' = others s ∧ ∀ K, (vault s').lookup K =
        if K = id then (original.find? (·.1 == id)).bind (·.2) else (vault s).lookup K := by
    intro id s hcalm
    simp only [body, rollbackEntry]
    cases hfind : (original.find? (·.1 == id)).bind (·.2) with
    | some secret =>
      obtain ⟨s', hrun, hrest⟩ := hstore id secret s hcalm
      exact ⟨s', Action.attempt_ok hrun, hrest⟩
    | none =>
      obtain ⟨s', hrun, hrest⟩ := hdelete id s hcalm
      exact ⟨s', Action.attempt_ok hrun, hrest⟩
  have hloop : ∀ ids s, Calm io s → ∃ done s', each ids body s = (.ok done, s') ∧
      done.all id = true ∧ s.calls ≤ s'.calls ∧ others s' = others s ∧
      ∀ K, (vault s').lookup K =
        if K ∈ ids then (original.find? (·.1 == K)).bind (·.2) else (vault s).lookup K := by
    intro ids
    induction ids with
    | nil =>
      intro s _
      exact ⟨[], s, rfl, rfl, le_rfl, rfl, fun K => (if_neg List.not_mem_nil).symm⟩
    | cons id ids ih =>
      intro s hcalm
      obtain ⟨s₁, hrun, hcalls, hothers, hvault⟩ := hround id s hcalm
      obtain ⟨done, s', hrest, hdone, hcalls', hothers', hvault'⟩ := ih s₁ (hcalm.later hcalls)
      refine ⟨true :: done, s', ?_, hdone, hcalls.trans hcalls', hothers'.trans hothers, fun K => ?_⟩
      · show (body id >>= _) s = _
        rw [Action.bind_ok hrun, Action.bind_ok hrest]
        rfl
      · rw [hvault' K, hvault K]
        by_cases hK : K ∈ ids
        · rw [if_pos hK, if_pos (List.mem_cons_of_mem _ hK)]
        · by_cases heq : K = id
          · rw [if_neg hK, if_pos heq, heq, if_pos List.mem_cons_self]
          · rw [if_neg hK, if_neg heq, if_neg fun hmem => (List.mem_cons.mp hmem).elim heq hK]
  obtain ⟨done, s', hrun, hdone, hrest⟩ := hloop touched s hcalm
  refine ⟨s', (Action.bind_ok hrun).trans ?_, hrest⟩
  rw [if_pos hdone]
  rfl

end Rollback

/-- What a rollback of one keychain leaves alone: the data and the two others. -/
abbrev besideKeychain (s : ConnectionStore) :=
  (s.data, s.privilegeKeychain, s.managedKeychain)

abbrev besidePrivilege (s : ConnectionStore) := (s.data, s.keychain, s.managedKeychain)

abbrev besideManaged (s : ConnectionStore) := (s.data, s.keychain, s.privilegeKeychain)

variable (id : Str)

theorem sets_keychainStore (secret : Secret) :
    Sets io (·.keychain) besideKeychain id (some secret) (keychainStore io id secret) :=
  sets_outside (fun _ _ => rfl) fun s _ K => Map.lookup_insert_eq s.keychain id K secret

theorem sets_keychainDelete : Sets io (·.keychain) besideKeychain id none (keychainDelete io id) :=
  sets_outside (fun _ _ => rfl) fun s _ K => Map.lookup_erase_eq s.keychain id K

theorem sets_privilegeKeychainStore (secret : Secret) :
    Sets io (·.privilegeKeychain) besidePrivilege id (some secret)
      (privilegeKeychainStore io id secret) :=
  sets_outside (fun _ _ => rfl) fun s _ K => Map.lookup_insert_eq s.privilegeKeychain id K secret

theorem sets_privilegeKeychainDelete :
    Sets io (·.privilegeKeychain) besidePrivilege id none (privilegeKeychainDelete io id) :=
  sets_outside (fun _ _ => rfl) fun s _ K => Map.lookup_erase_eq s.privilegeKeychain id K

theorem sets_managedStore (secret : Secret) :
    Sets io (·.managedKeychain) besideManaged id (some secret) (do
      let _ ← storeManagedSshKeySecret io id secret
      pure ()) := by
  intro s hcalm
  have hstore : attempt (managedKeychainStore io id secret) s = (.ok true,
      { s with managedKeychain := s.managedKeychain.insert id secret, calls := s.calls + 1 }) :=
    Action.attempt_ok (outside_calm hcalm)
  refine ⟨{ s with managedKeychain := s.managedKeychain.insert id secret, calls := s.calls + 1 }, ?_,
    Nat.le_succ _, rfl, fun K => Map.lookup_insert_eq s.managedKeychain id K secret⟩
  exact Action.bind_ok (Action.bind_ok hstore)

theorem sets_managedDelete :
    Sets io (·.managedKeychain) besideManaged id none (deleteManagedSshKeySecret io id) := by
  intro s hcalm
  let s₁ : ConnectionStore :=
    { s with managedKeychain := s.managedKeychain.erase id, calls := s.calls + 1 }
  have hdelete : attempt (managedKeychainDelete io id) s = (.ok true, s₁) :=
    Action.attempt_ok (outside_calm hcalm)
  have hfile : outside io (fun s => { s with managedFiles := s.managedFiles.erase id }) s₁ =
      (.ok (), { s₁ with managedFiles := s₁.managedFiles.erase id, calls := s₁.calls + 1 }) :=
    outside_calm (hcalm.later (Nat.le_succ _))
  exact ⟨_, (Action.bind_ok hdelete).trans hfile, (Nat.le_succ _).trans (Nat.le_succ _), rfl,
    fun K => Map.lookup_erase_eq s.managedKeychain id K⟩

/-- What a rollback makes of an entry: what the checkpoint has of it, where it was touched. -/
def Restored (touched : List Str) (original : List (Str × Option Secret)) (before after : Map Str Secret) :
    Prop :=
  ∀ K, after.lookup K =
    if K ∈ touched then (original.find? (·.1 == K)).bind (·.2) else before.lookup K

theorem rollbackImport_restores (originalData : ConnectionStoreData)
    (original originalPrivilege originalManaged : List (Str × Option Secret)) (touched : Touched)
    (hcalm : Calm io s) :
    let s' := (rollbackImport io originalData original originalPrivilege originalManaged touched s).2
    s'.data = originalData ∧ Restored touched.keychainIds original s.keychain s'.keychain ∧
      Restored touched.privilegeKeychainIds originalPrivilege s.privilegeKeychain
        s'.privilegeKeychain ∧
      Restored touched.managedSecretIds originalManaged s.managedKeychain s'.managedKeychain := by
  let s₀ : ConnectionStore := { s with data := originalData }
  let s₁ : ConnectionStore := { s₀ with file := some originalData, calls := s₀.calls + 1 }
  have hsave : attempt (save io) s₀ = (.ok true, s₁) :=
    Action.attempt_ok (outside_calm hcalm)
  have hcalm₁ : Calm io s₁ := hcalm.later (Nat.le_succ _)
  obtain ⟨s₂, hrun₂, hcalls₂, hothers₂, hvault₂⟩ := rollbackEntries_restores
    sets_keychainStore sets_keychainDelete original touched.keychainIds.dedup hcalm₁
  obtain ⟨s₃, hrun₃, hcalls₃, hothers₃, hvault₃⟩ := rollbackEntries_restores
    sets_privilegeKeychainStore sets_privilegeKeychainDelete originalPrivilege
    touched.privilegeKeychainIds.dedup (hcalm₁.later hcalls₂)
  obtain ⟨s₄, hrun₄, hcalls₄, hothers₄, hvault₄⟩ := rollbackEntries_restores
    sets_managedStore sets_managedDelete originalManaged touched.managedSecretIds.dedup
    ((hcalm₁.later hcalls₂).later hcalls₃)
  have hend : ∃ s', (rollbackImport io originalData original originalPrivilege originalManaged
      touched s).2 = s' ∧ s'.data = s₄.data ∧ s'.keychain = s₄.keychain ∧
      s'.privilegeKeychain = s₄.privilegeKeychain ∧ s'.managedKeychain = s₄.managedKeychain := by
    have hrun : rollbackImport io originalData original originalPrivilege originalManaged touched s =
        (if touched.createdConfigKey then do
          let _ ← attempt (outside io fun s => { s with configKey := false })
          pure ()
        else pure () : StoreM Unit) s₄ :=
      (Action.bind_ok (show modifyData (fun _ => originalData) s = (.ok (), s₀) from rfl)).trans
        ((Action.bind_ok hsave).trans ((Action.bind_ok (Action.attempt_ok hrun₂)).trans
          ((Action.bind_ok (Action.attempt_ok hrun₃)).trans
            (Action.bind_ok (Action.attempt_ok hrun₄)))))
    rw [hrun]
    split
    · have hkey := @outside_calm io s₄ (fun s => { s with configKey := false })
        (((hcalm₁.later hcalls₂).later hcalls₃).later hcalls₄)
      rw [Action.bind_ok (Action.attempt_ok hkey)]
      exact ⟨_, rfl, rfl, rfl, rfl, rfl⟩
    · exact ⟨_, rfl, rfl, rfl, rfl, rfl⟩
  obtain ⟨s', hs', hdata, hkeychain, hprivilege, hmanaged⟩ := hend
  simp only [hs', hdata, hkeychain, hprivilege, hmanaged]
  have hdata₂ := congrArg (·.1) hothers₂
  have hprivilege₂ := congrArg (·.2.1) hothers₂
  have hmanaged₂ := congrArg (·.2.2) hothers₂
  have hdata₃ := congrArg (·.1) hothers₃
  have hkeychain₃ := congrArg (·.2.1) hothers₃
  have hmanaged₃ := congrArg (·.2.2) hothers₃
  have hdata₄ := congrArg (·.1) hothers₄
  have hkeychain₄ := congrArg (·.2.1) hothers₄
  have hprivilege₄ := congrArg (·.2.2) hothers₄
  dsimp only at hdata₂ hprivilege₂ hmanaged₂ hdata₃ hkeychain₃ hmanaged₃ hdata₄ hkeychain₄ hprivilege₄
  refine ⟨hdata₄.trans (hdata₃.trans hdata₂), fun K => ?_, fun K => ?_, fun K => ?_⟩
  · rw [hkeychain₄, hkeychain₃, hvault₂ K]
    simp only [List.mem_dedup]
    rfl
  · rw [hprivilege₄, hvault₃ K, hprivilege₂]
    simp only [List.mem_dedup]
    rfl
  · rw [hvault₄ K, hmanaged₃, hmanaged₂]
    simp only [List.mem_dedup]
    rfl

/-! ## 2. The checkpoint -/

/-- Nothing of what a rollback is about was changed. -/
structure Reads (s s' : ConnectionStore) : Prop where
  data : s'.data = s.data
  keychain : s'.keychain = s.keychain
  privilegeKeychain : s'.privilegeKeychain = s.privilegeKeychain
  managedKeychain : s'.managedKeychain = s.managedKeychain
  managedFiles : s'.managedFiles = s.managedFiles
  calls : s.calls ≤ s'.calls

theorem Reads.refl (s : ConnectionStore) : Reads s s := ⟨rfl, rfl, rfl, rfl, rfl, le_rfl⟩

theorem Reads.trans {a b c : ConnectionStore} (h : Reads a b) (h' : Reads b c) : Reads a c :=
  ⟨h'.data.trans h.data, h'.keychain.trans h.keychain,
    h'.privilegeKeychain.trans h.privilegeKeychain, h'.managedKeychain.trans h.managedKeychain,
    h'.managedFiles.trans h.managedFiles, h.calls.trans h'.calls⟩

theorem Reads.unchanged (h : Reads s s') : Unchanged s s' :=
  ⟨h.data, fun _ _ hvalue => h.keychain ▸ hvalue, fun _ _ hvalue => h.privilegeKeychain ▸ hvalue,
    fun _ _ hvalue => h.managedKeychain ▸ hvalue⟩

/-- Code that only reads. -/
abbrev Reading {α : Type} (act : StoreM α) : Prop := Keeps Reads act

section Reading

variable {α β : Type} {act : StoreM α}

theorem Reading.bind {f : α → StoreM β} (hact : Reading act) (hf : ∀ a, Reading (f a)) :
    Reading (act >>= f) :=
  Keeps.bind Reads.trans hact hf

theorem reading_pure (a : α) : Reading (pure a : StoreM α) := Keeps.pure Reads.refl a

theorem reading_getThe : Reading (getThe ConnectionStore) := Keeps.getThe Reads.refl

theorem reading_outside : Reading (outside io fun s => s) := by
  intro s
  unfold outside
  split <;> exact ⟨rfl, rfl, rfl, rfl, rfl, Nat.le_succ _⟩

variable {read : Str → StoreM (Option Secret)}

theorem reading_snapshotEntries (h : ∀ id, Reading (read id))
    (ids : List Str) : Reading (snapshotEntries ids read) :=
  Keeps.each Reads.refl Reads.trans fun id _ => (h id).bind fun _ => reading_pure _

variable (id : Str)

theorem reading_keychainGetOptional : Reading (keychainGetOptional io id) :=
  (reading_outside).bind fun _ => (reading_getThe).bind fun _ => reading_pure _

theorem reading_privilegeKeychainGetOptional : Reading (privilegeKeychainGetOptional io id) :=
  (reading_outside).bind fun _ => (reading_getThe).bind fun _ => reading_pure _

theorem reading_getManagedSshKeySecret : Reading (getManagedSshKeySecret io id) := by
  refine Reading.bind (Keeps.attempt reading_outside) fun readable => ?_
  refine (reading_getThe).bind fun s => ?_
  split
  · exact reading_pure _
  · refine (reading_outside).bind fun _ => ?_
    dsimp only
    by_cases hkey : (!s.configKey) = true
    · rw [if_pos hkey]
      refine Reading.bind (Keeps.throw Reads.refl _) fun _ => ?_
      split
      · exact reading_pure _
      · exact Keeps.throw Reads.refl _
    · rw [if_neg hkey]
      split
      · exact reading_pure _
      · exact Keeps.throw Reads.refl _

theorem reading_managedGet : Reading (do
    let secret ← getManagedSshKeySecret io id
    pure (some secret)) :=
  (reading_getManagedSshKeySecret id).bind fun _ => reading_pure _

theorem getManagedSshKeySecret_ok {id : Str} {secret : Secret}
    (h : getManagedSshKeySecret io id s = (.ok secret, s')) :
    s.managedKeychain.lookup id = some secret ∨ s.managedFiles.lookup id = some secret := by
  obtain ⟨readable, s₁, hreadable, h⟩ := bind_ok_iff.mp h
  have hreads : Reads s s₁ := by
    have hkeeps : Reads s (attempt (outside io fun s => s) s).2 :=
      Keeps.attempt reading_outside s
    rw [hreadable] at hkeeps
    exact hkeeps
  obtain ⟨s₂, s₃, hget, h⟩ := bind_ok_iff.mp h
  cases hget
  cases hlookup : (if readable then s₁.managedKeychain.lookup id else none) with
  | some value =>
    rw [hlookup] at h
    obtain ⟨rfl, -⟩ := pure_ok h
    refine .inl ?_
    rw [← hreads.managedKeychain]
    cases readable with
    | true => exact hlookup
    | false => cases hlookup
  | none =>
    rw [hlookup] at h
    obtain ⟨u, s₄, hread, h⟩ := bind_ok_iff.mp h
    refine .inr ?_
    rw [← hreads.managedFiles]
    by_cases hkey : (!s₁.configKey) = true
    · rw [if_pos hkey] at h
      cases h
    · rw [if_neg hkey] at h
      cases hfile : s₁.managedFiles.lookup id with
      | none =>
        rw [hfile] at h
        cases h
      | some value =>
        rw [hfile] at h
        obtain ⟨rfl, -⟩ := pure_ok h
        rfl

theorem checkpoint_find {V : Str → Option Secret → Prop}
    (hreading : ∀ id, Reading (read id))
    (hread : ∀ id s₁ value s₂, Reads s s₁ → read id s₁ = (.ok value, s₂) → V id value)
    {ids : List Str} {entries : List (Str × Option Secret)} {s₁ s₂ : ConnectionStore}
    (hs₁ : Reads s s₁) (h : snapshotEntries ids read s₁ = (.ok entries, s₂)) {K : Str} (hK : K ∈ ids) :
    ∃ value, entries.find? (·.1 == K) = some (K, value) ∧ V K value := by
  refine (snapshotEntries_find (I := Reads s) (V := V) (fun id s₁ value s₂ hs₁ hrun => ?_) hs₁ h).2
    K hK
  have hkeeps := hreading id s₁
  rw [hrun] at hkeeps
  exact ⟨hread id s₁ value s₂ hs₁ hrun, hs₁.trans hkeeps⟩

end Reading

end Hapcli.Connections
