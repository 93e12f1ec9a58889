/-
  Subject:   What the staging of one record of an import does to the keychains.

  A record that is staged tells which entries it has touched; a record that fails tells nothing, and
  what it has stored until then is known to nobody.

  * **`stage_error`** -- a record that fails has gone by its steps;
  * **`stage_ok`** -- a record that is staged names every entry it has touched.
-/
import Mathlib.Data.List.Basic
import Hapcli.Connections.SaveAtomicity

namespace Hapcli.Connections

open Hapcli.Lib Hapcli.Rust ConnectionStore
open Lib.Action (Keeps lift each)

variable {io : Io} {s s' s'' : ConnectionStore}

/-! ## 1. Nothing changed but some entries -/

/-- Some entries may have been stored, all others are as they were. -/
structure Only (entries privilegeEntries : List Str) (s s' : ConnectionStore) : Prop where
  keychain : ∀ K ∉ entries, s'.keychain.lookup K = s.keychain.lookup K
  privilegeKeychain : ∀ K ∉ privilegeEntries,
    s'.privilegeKeychain.lookup K = s.privilegeKeychain.lookup K
  managedKeychain : s'.managedKeychain = s.managedKeychain

variable {entries entries' privilegeEntries privilegeEntries' : List Str}

theorem only_same (hkeychain : s'.keychain = s.keychain)
    (hprivilege : s'.privilegeKeychain = s.privilegeKeychain)
    (hmanaged : s'.managedKeychain = s.managedKeychain) : Only entries privilegeEntries s s' :=
  ⟨fun _ _ => by rw [hkeychain], fun _ _ => by rw [hprivilege], hmanaged⟩

theorem only_refl (s : ConnectionStore) : Only entries privilegeEntries s s := only_same rfl rfl rfl

section

variable (h : Only entries privilegeEntries s s')

include h

theorem Only.mono (hsub : ∀ K ∈ entries, K ∈ entries')
    (hsub' : ∀ K ∈ privilegeEntries, K ∈ privilegeEntries') : Only entries' privilegeEntries' s s' :=
  ⟨fun K hK => h.keychain K fun hmem => hK (hsub K hmem),
    fun K hK => h.privilegeKeychain K fun hmem => hK (hsub' K hmem), h.managedKeychain⟩

theorem Only.trans (h' : Only entries privilegeEntries s' s'') :
    Only entries privilegeEntries s s'' :=
  ⟨fun K hK => (h'.keychain K hK).trans (h.keychain K hK),
    fun K hK => (h'.privilegeKeychain K hK).trans (h.privilegeKeychain K hK),
    h'.managedKeychain.trans h.managedKeychain⟩

theorem Only.append (h' : Only entries' privilegeEntries' s' s'') :
    Only (entries ++ entries') (privilegeEntries ++ privilegeEntries') s s'' :=
  (h.mono (fun _ => List.mem_append_left _) fun _ => List.mem_append_left _).trans
    (h'.mono (fun _ => List.mem_append_right _) fun _ => List.mem_append_right _)

end

variable {entry : Option Str} {kind : String} {result : SavedAuth × Option Secret} {secret : Secret}

theorem storeSecret_only {K : Str}
    (h : storeSecret io entry (newKeychainId io kind) secret s = (.ok K, s')) :
    Only [K] [] s s' := by
  obtain ⟨K', s₁, hid, h⟩ := bind_ok_iff.mp h
  obtain ⟨u, hstore, rfl⟩ := bind_pure_ok h
  obtain rfl := outside_state io hstore
  have hfirst : Only [K] [] s s₁ := by
    cases entry with
    | some entry =>
      obtain ⟨-, rfl⟩ := pure_ok hid
      exact only_refl _
    | none =>
      cases hid
      exact only_same rfl rfl rfl
  refine hfirst.trans ⟨fun L hL => ?_, fun _ _ => rfl, rfl⟩
  show (s₁.keychain.insert K secret).lookup L = s₁.keychain.lookup L
  rw [Map.lookup_insert_eq, if_neg fun heq => hL (List.mem_singleton.mpr heq)]

theorem storedAuth_only
    {auth : Str → SavedAuth} (hauth : ∀ K, collectKeychainIdsForAuth (auth K) = [K])
    (h : (storeSecret io entry (newKeychainId io kind) secret >>= fun K =>
      pure (auth K, some secret)) s = (.ok result, s')) :
    Only (collectKeychainIdsForAuth result.1) [] s s' := by
  obtain ⟨K, hstore, rfl⟩ := bind_pure_ok h
  rw [hauth]
  exact storeSecret_only hstore

theorem materializeAuth_only {auth : SavedAuth} {existingAuth : Option SavedAuth}
    (h : materializeAuthWithRuntimeSecret io auth existingAuth s = (.ok result, s')) :
    Only (collectKeychainIdsForAuth result.1) [] s s' := by
  have hpure : ∀ {auth' : SavedAuth × Option Secret},
      (pure auth' : StoreM (SavedAuth × Option Secret)) s = (.ok result, s') →
      Only (collectKeychainIdsForAuth result.1) [] s s' := by
    intro auth' h
    obtain ⟨-, rfl⟩ := pure_ok h
    exact only_refl _
  cases auth with
  | password keychainId plaintext =>
    cases plaintext with
    | none => exact hpure h
    | some password => exact storedAuth_only (fun _ => rfl) h
  | key keyPath has keychainId plaintext =>
    cases plaintext with
    | none =>
      simp only [materializeAuthWithRuntimeSecret] at h
      cases hmatch : matchingKeyPassphrase existingAuth keyPath <;>
        (rw [hmatch] at h; exact hpure h)
    | some passphrase => exact storedAuth_only (fun _ => rfl) h
  | certificate keyPath certPath has keychainId plaintext =>
    cases plaintext with
    | none =>
      simp only [materializeAuthWithRuntimeSecret] at h
      cases hmatch : matchingCertificatePassphrase existingAuth keyPath certPath <;>
        (rw [hmatch] at h; exact hpure h)
    | some passphrase => exact storedAuth_only (fun _ => rfl) h
  | managedKey keyId keychainId plaintext =>
    cases plaintext with
    | none => exact hpure h
    | some passphrase => exact storedAuth_only (fun _ => rfl) h
  | keyboardInteractive => exact hpure h
  | agent => exact hpure h

theorem each_only {α β : Type} {xs : List α} {body : α → StoreM β} {touched touched' : β → List Str}
    (hbody : ∀ x s y s', body x s = (.ok y, s') → Only (touched y) (touched' y) s s')
    {ys : List β} (h : each xs body s = (.ok ys, s')) :
    Only (ys.flatMap touched) (ys.flatMap touched') s s' := by
  induction xs generalizing s ys with
  | nil =>
    obtain ⟨rfl, rfl⟩ := pure_ok h
    exact only_refl _
  | cons x xs ih =>
    obtain ⟨y, s₁, hround, h⟩ := bind_ok_iff.mp h
    obtain ⟨zs, hrest, rfl⟩ := bind_pure_ok h
    exact (hbody x s y s₁ hround).append (ih hrest)

theorem materializeProxyHop_only {hop : SavedProxyHop} {result : SavedProxyHop × Option Secret}
    (h : materializeProxyHop io hop s = (.ok result, s')) :
    Only (collectKeychainIdsForAuth result.1.auth) [] s s' := by
  obtain ⟨⟨auth, secret⟩, s₁, hauth, h⟩ := bind_ok_iff.mp h
  obtain ⟨host, s₂, hhost, h⟩ := bind_ok_iff.mp h
  obtain ⟨username, husername, rfl⟩ := bind_pure_ok h
  obtain rfl : s₂ = s₁ := (congrArg Prod.snd hhost).symm
  obtain rfl : s' = s₂ := (congrArg Prod.snd husername).symm
  exact materializeAuth_only hauth

theorem materializeProxyChain_only {proxyChain result : List SavedProxyHop}
    (h : materializeProxyChain io proxyChain s = (.ok result, s')) :
    Only (result.flatMap (collectKeychainIdsForAuth ·.auth)) [] s s' := by
  obtain ⟨⟨hops, secrets⟩, hchain, rfl⟩ := bind_pure_ok h
  obtain ⟨rounds, s₂, hrounds, h⟩ := bind_ok_iff.mp hchain
  cases h
  have hall := each_only (fun _ _ _ _ h => materializeProxyHop_only h) hrounds
  refine hall.mono (fun K hK => ?_) fun K hK => ?_
  · rw [List.flatMap_map]
    exact hK
  · obtain ⟨_, -, hK⟩ := List.mem_flatMap.mp hK
    exact hK

theorem materializeUpstreamProxyPolicy_only {policy result : SavedUpstreamProxyPolicy}
    {existingPolicy : Option SavedUpstreamProxyPolicy}
    (h : materializeUpstreamProxyPolicy io policy existingPolicy s = (.ok result, s')) :
    Only (collectKeychainIdsForUpstreamProxy result) [] s s' := by
  obtain ⟨⟨policy', secret⟩, hpolicy, rfl⟩ := bind_pure_ok h
  cases policy with
  | useGlobal =>
    obtain ⟨-, rfl⟩ := pure_ok hpolicy
    exact only_refl _
  | direct =>
    obtain ⟨-, rfl⟩ := pure_ok hpolicy
    exact only_refl _
  | custom proxy =>
    obtain ⟨⟨auth, secret'⟩, s₁, hauth, h⟩ := bind_ok_iff.mp hpolicy
    obtain ⟨host, s₂, hhost, h⟩ := bind_ok_iff.mp h
    cases h
    obtain rfl : s' = s₁ := (congrArg Prod.snd hhost).symm
    cases hproxy : proxy.auth with
    | none =>
      rw [hproxy] at hauth
      obtain ⟨-, rfl⟩ := pure_ok hauth
      exact only_refl _
    | password username keychainId plaintext =>
      rw [hproxy] at hauth
      obtain ⟨name, s₂, hname, hrest⟩ := bind_ok_iff.mp hauth
      obtain rfl : s₂ = s := (congrArg Prod.snd hname).symm
      cases plaintext with
      | none =>
        obtain ⟨-, rfl⟩ := pure_ok hrest
        exact only_refl _
      | some password =>
        obtain ⟨K, s₃, hstore, hrest⟩ := bind_ok_iff.mp hrest
        obtain ⟨hresult, rfl⟩ := pure_ok hrest
        cases hresult
        exact storeSecret_only hstore

/-- The entries that credentials with a secret in plain text go under. -/
def credentialEntries (connectionId : Str) (credentials : List SavedPrivilegeCredential) : List Str :=
  credentials.filterMap fun credential => credential.plaintextSecret.map fun _ =>
    privilegeKeychainId (if (trim credential.connectionId).isEmpty then connectionId
      else credential.connectionId) credential.id

variable {connectionId : Str} {credentials : List SavedPrivilegeCredential} {r : SavedConnection}

theorem materializePrivilegeCredential_only {credential : SavedPrivilegeCredential}
    {result : SavedPrivilegeCredential × Option Str}
    (h : materializePrivilegeCredential io connectionId credential s = (.ok result, s')) :
    Only [] result.2.toList s s' ∧
      result.2.toList = credentialEntries connectionId [credential] := by
  unfold materializePrivilegeCredential at h
  unfold credentialEntries
  cases hsecret : credential.plaintextSecret with
  | none =>
    rw [hsecret] at h
    obtain ⟨rfl, rfl⟩ := pure_ok h
    exact ⟨only_refl _, by simp [hsecret]⟩
  | some secret =>
    rw [hsecret] at h
    obtain ⟨u, hstore, rfl⟩ := bind_pure_ok h
    obtain rfl := outside_state io hstore
    have hinsert : ∀ K L : Str, L ∉ [K] →
        (s.privilegeKeychain.insert K secret).lookup L = s.privilegeKeychain.lookup L := by
      intro K L hL
      rw [Map.lookup_insert_eq, if_neg fun heq => hL (List.mem_singleton.mpr heq)]
    exact ⟨⟨fun _ _ => rfl, hinsert _, rfl⟩, by simp [hsecret]⟩

theorem credentialRounds_entries {rounds : List (SavedPrivilegeCredential × Option Str)}
    (h : each credentials (materializePrivilegeCredential io connectionId) s = (.ok rounds, s')) :
    rounds.flatMap (·.2.toList) = credentialEntries connectionId credentials := by
  induction credentials generalizing s rounds with
  | nil =>
    obtain ⟨rfl, -⟩ := pure_ok h
    rfl
  | cons credential credentials ih =>
    obtain ⟨pair, s₁, hround, h⟩ := bind_ok_iff.mp h
    obtain ⟨pairs, hrest, rfl⟩ := bind_pure_ok h
    have hfirst := (materializePrivilegeCredential_only hround).2
    rw [List.flatMap_cons, ih hrest, hfirst]
    exact (@List.filterMap_append _ _ [credential] credentials _).symm

theorem materializePrivilegeCredentials_only {result : List SavedPrivilegeCredential × List Str}
    (h : materializePrivilegeCredentials io connectionId credentials s = (.ok result, s')) :
    Only [] result.2 s s' ∧ result.2 = credentialEntries connectionId credentials := by
  obtain ⟨rounds, hrounds, rfl⟩ := bind_pure_ok h
  have hall := each_only (fun _ _ _ _ h => (materializePrivilegeCredential_only h).1) hrounds
  have hentries : rounds.filterMap (·.2) = rounds.flatMap (·.2.toList) :=
    List.filterMap_eq_flatMap_toList _ _
  refine ⟨hall.mono (fun K hK => ?_) fun K hK => ?_,
    hentries.trans (credentialRounds_entries hrounds)⟩
  · obtain ⟨_, -, hK⟩ := List.mem_flatMap.mp hK
    exact hK
  · exact hentries ▸ hK

/-! ## 2. The steps of a record -/

/-- The credentials that are staged: those of the connection there is where the record has none. -/
def stagedCredentials (r : SavedConnection) (existing : Option SavedConnection) :
    List SavedPrivilegeCredential :=
  match existing with
  | some existing =>
    if r.privilegeCredentials.isEmpty then existing.privilegeCredentials
    else r.privilegeCredentials
  | none => r.privilegeCredentials

/-- The steps of `stage_imported_connection` before it touches the data: all checks come first, but
    those of the upstream proxy. -/
def stageSteps (r : SavedConnection) (id : Str) (existing : Option SavedConnection) :
    List SecretStep :=
  .required r.name "Connection name" :: .required r.host "Host" ::
    .required r.username "Username" :: (r.proxyChain.flatMap hopChecks ++
      (partSteps r.auth r.proxyChain r.upstreamProxy existing ++
        credentialSteps id (stagedCredentials r existing)))

/-- The id a record is staged under. -/
def stagedId (io : Io) (r : SavedConnection) (s : ConnectionStore) : Str :=
  if (trim r.id).isEmpty then io.uuid (s.calls + 1) else r.id

/-- The calls before the steps of a record: the clock, and a UUID where the record has no id. -/
def stageStart (r : SavedConnection) (s : ConnectionStore) : ConnectionStore :=
  { s with calls := s.calls + if (trim r.id).isEmpty then 2 else 1 }

/-- Code that does not fail. -/
def NeverFails {α : Type} (act : StoreM α) : Prop := ∀ s, ∃ a s', act s = (.ok a, s')

theorem NeverFails.bind {α β : Type} {act : StoreM α} {f : α → StoreM β} (h : NeverFails act)
    (hf : ∀ a, NeverFails (f a)) : NeverFails (act >>= f) := by
  intro s
  obtain ⟨a, s', hrun⟩ := h s
  obtain ⟨b, s'', hrest⟩ := hf a s'
  exact ⟨b, s'', (Action.bind_ok hrun).trans hrest⟩

theorem importedId_run (r : SavedConnection) (s : ConnectionStore) :
    importedId io r { s with calls := s.calls + 1 } = (.ok (stagedId io r s), stageStart r s) := by
  unfold importedId stagedId stageStart
  split <;> rfl

theorem follows_checkProxyHop (hop : SavedProxyHop) :
    Follows io (lift (checkProxyHop hop)) (hopChecks hop) := by
  intro s
  unfold checkProxyHop hopChecks SecretStep.required
  cases nonEmpty (trim hop.host) "Proxy host" <;>
    cases nonEmpty (trim hop.username) "Proxy username" <;> exact ⟨rfl, rfl⟩

theorem Follows.fst {α β : Type} {act : StoreM (α × β)} {steps : List SecretStep}
    (h : Follows io act steps) : Follows io (act >>= fun pair => pure pair.1) steps := h.map

theorem stage_begins {group : Option Str} (hgroup : normalizeOptionalGroupName r.group = .ok group)
    (s : ConnectionStore) :
    Begins io s (stageStart r s) (stageImportedConnection io r)
      (stageSteps r (stagedId io r s) (s.get (stagedId io r s))) NeverFails := by
  have hlift : (lift (normalizeOptionalGroupName r.group) : StoreM _) s = (.ok group, s) := by
    rw [hgroup]
    rfl
  refine Begins.after hlift (Begins.after rfl (Begins.after (importedId_run r s)
    (Begins.after rfl ?_)))
  have hexisting : (stageStart r s).get (stagedId io r s) = s.get (stagedId io r s) := rfl
  dsimp only
  rw [hexisting]
  refine Begins.lift_bind fun name _ => Begins.lift_bind fun host _ =>
    Begins.lift_bind fun username _ => ?_
  refine Begins.bind (Follows.each follows_checkProxyHop) fun _ _ => ?_
  rw [partSteps, List.append_assoc, List.append_assoc]
  refine Begins.bind (follows_materializeAuth _ _).fst fun _ _ => ?_
  refine Begins.bind (follows_materializeProxyChain _).fst fun _ _ => ?_
  refine Begins.bind (follows_materializeUpstreamProxyPolicy _ _).fst fun _ _ => ?_
  rw [← List.append_nil (credentialSteps _ _)]
  refine Begins.bind (follows_materializePrivilegeCredentials _ _) fun _ _ => Begins.done ?_
  refine NeverFails.bind (fun s => ⟨_, _, rfl⟩) fun _ => NeverFails.bind (fun s => ?_) fun _ =>
    fun s => ⟨_, _, rfl⟩
  obtain ⟨s', hrun, -⟩ := ensureOptionalGroup_ok io (validGroup_normalize hgroup) s
  exact ⟨(), s', hrun⟩

/-- A record that fails has gone by its steps, up to the one that failed. -/
theorem stage_error {e : StoreError} (h : stageImportedConnection io r s = (.error e, s')) :
    s' = s ∨ ∃ e', runSteps io (stageSteps r (stagedId io r s) (s.get (stagedId io r s)))
      (stageStart r s) = (.error e', s') := by
  cases hgroup : normalizeOptionalGroupName r.group with
  | error e' =>
    have hlift : (lift (normalizeOptionalGroupName r.group) : StoreM _) s =
        (.error e', s) := by
      rw [hgroup]
      rfl
    exact .inl (congrArg Prod.snd ((Action.bind_error hlift).symm.trans h)).symm
  | ok group =>
    rcases stage_begins hgroup s with ⟨e₁, e₂, s₁, hsteps, hact⟩ | ⟨s₁, tail, -, htail, hact⟩
    · obtain rfl : s₁ = s' := congrArg Prod.snd (hact.symm.trans h)
      exact .inr ⟨e₁, hsteps⟩
    · obtain ⟨a, s₂, hrun⟩ := htail s₁
      cases (hact.trans hrun).symm.trans h

/-- A record whose group and fields are in order, as far as they are checked. -/
def Checked (r : SavedConnection) : Prop :=
  (∃ group, normalizeOptionalGroupName r.group = .ok group) ∧
    ∃ id existing, ∀ step ∈ stageSteps r id existing, ¬ step.Fails

/-- A record that is staged is in order, and names every entry it has touched. -/
theorem stage_ok {staged : StagedImportedConnection}
    (h : stageImportedConnection io r s = (.ok staged, s')) :
    Checked r ∧ Only staged.touchedKeychainIds staged.touchedPrivilegeKeychainIds s s' ∧
      staged.touchedPrivilegeKeychainIds =
        credentialEntries staged.id (stagedCredentials r (s.get staged.id)) ∧
      staged.id = stagedId io r s := by
  have hbegins : ∀ {group}, normalizeOptionalGroupName r.group = .ok group → Checked r := by
    intro group hgroup
    refine ⟨⟨group, hgroup⟩, stagedId io r s, s.get (stagedId io r s),
      fun step hstep hfails => ?_⟩
    rcases stage_begins hgroup s with ⟨e₁, e₂, s₁, -, hact⟩ | ⟨s₁, tail, hsteps, -⟩
    · cases hact.symm.trans h
    · exact runSteps_not_ok ⟨step, hstep, hfails⟩ hsteps
  obtain ⟨group, s₁, hgroup, h⟩ := bind_ok_iff.mp h
  obtain ⟨now, s₂, hnow, h⟩ := bind_ok_iff.mp h
  obtain ⟨id, s₃, hid, h⟩ := bind_ok_iff.mp h
  obtain ⟨s₄, s₅, hget, h⟩ := bind_ok_iff.mp h
  obtain ⟨name, s₆, hname, h⟩ := bind_ok_iff.mp h
  obtain ⟨host, s₇, hhost, h⟩ := bind_ok_iff.mp h
  obtain ⟨username, s₈, husername, h⟩ := bind_ok_iff.mp h
  obtain ⟨hops, s₉, hhops, h⟩ := bind_ok_iff.mp h
  obtain ⟨auth, s₁₀, hauth, h⟩ := bind_ok_iff.mp h
  obtain ⟨proxyChain, s₁₁, hchain, h⟩ := bind_ok_iff.mp h
  obtain ⟨upstreamProxy, s₁₂, hupstream, h⟩ := bind_ok_iff.mp h
  obtain ⟨⟨credentials, touched⟩, s₁₃, hcredentials, h⟩ := bind_ok_iff.mp h
  obtain ⟨u, s₁₄, hput, h⟩ := bind_ok_iff.mp h
  obtain ⟨u', hensure, rfl⟩ := bind_pure_ok h
  have hvalid : normalizeOptionalGroupName r.group = .ok group := congrArg Prod.fst hgroup
  -- the checks leave everything as it is
  obtain rfl : s = s₁ := congrArg Prod.snd hgroup
  cases hnow
  rw [importedId_run] at hid
  cases hid
  cases hget
  obtain rfl : stageStart r s = s₆ := congrArg Prod.snd hname
  obtain rfl : stageStart r s = s₇ := congrArg Prod.snd hhost
  obtain rfl : stageStart r s = s₈ := congrArg Prod.snd husername
  have hchecks : Keeps (fun a b : ConnectionStore => b = a)
      (each r.proxyChain fun hop => (lift (checkProxyHop hop) : StoreM Unit)) :=
    Keeps.each (R := fun a b : ConnectionStore => b = a) (fun _ => rfl)
      (fun h h' => h'.trans h) fun hop _ _ => rfl
  have hsame := hchecks (stageStart r s)
  rw [hhops] at hsame
  obtain rfl : s₉ = stageStart r s := hsame
  obtain ⟨⟨auth', secret⟩, hauth', rfl⟩ := bind_pure_ok hauth
  obtain ⟨honly, htouched⟩ := materializePrivilegeCredentials_only hcredentials
  have htidies := tidying_ensureOptionalGroup io group s₁₄
  rw [hensure] at htidies
  have hput' : Only [] touched s₁₃ s₁₄ := by
    obtain rfl : _ = s₁₄ := congrArg Prod.snd hput
    exact only_same rfl rfl rfl
  have hlast : Only [] touched s₁₃ s' := hput'.trans
    (only_same htidies.keychain htidies.privilegeKeychain htidies.managedKeychain)
  have hfirst : Only [] [] s (stageStart r s) := only_same rfl rfl rfl
  have hparts := hfirst.append ((materializeAuth_only hauth').append
    (((materializeProxyChain_only hchain).append (materializeUpstreamProxyPolicy_only hupstream))))
  refine ⟨hbegins hvalid, ?_, htouched, rfl⟩
  have hnone : ∀ {entries : List Str}, ∀ K ∈ ([] : List Str), K ∈ entries :=
    fun _ hK => absurd hK List.not_mem_nil
  exact (hparts.mono (fun _ hK => hK) hnone).trans
    ((honly.mono hnone fun _ hK => hK).trans (hlast.mono hnone fun _ hK => hK))

end Hapcli.Connections
