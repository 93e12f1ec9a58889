/-
  Subject:   The order in which a save stores secrets and checks fields.

  Secrets are stored while the fields of a connection are still being checked. What comes when is a
  list, read off the input alone.

  * `authSteps`, `hopSteps`, `upstreamSteps`, `credentialSteps` -- the lists of the parts;
    **`Follows`**, `follows_materializeAuth` and the others -- the code goes by them;
  * `Recoverable` -- no step that can fail comes after one that changes an entry;
    **`runSteps_recoverable`** -- then a failure has changed nothing.
-/
import Hapcli.Connections.KeychainBatch

namespace Hapcli.Connections

open Hapcli.Lib Hapcli.Rust ConnectionStore
open Lib.Action (lift each)

/-! ## 1. Steps -/

/-- A secret is stored, under the entry there is or a new one, or a field is checked. -/
inductive SecretStep
  | store (entry : Option Str) (kind : String) (secret : Secret)
  | storePrivilege (entry : Str) (secret : Secret)
  | check (result : Except StoreError Unit)

namespace SecretStep

def run (io : Io) : SecretStep → StoreM Unit
  | .store entry kind secret => do
      let _ ← storeSecret io entry (newKeychainId io kind) secret
      pure ()
  | .storePrivilege entry secret => privilegeKeychainStore io entry secret
  | .check result => lift result

/-- A check that does not pass. -/
def Fails : SecretStep → Prop
  | .check (.error _) => True
  | _ => False

/-- A check that passes: what is stored can be refused. -/
def Passes : SecretStep → Prop
  | .check (.ok _) => True
  | _ => False

/-- How many calls a step makes. -/
def cost : SecretStep → Nat
  | .store none _ _ => 2
  | .store (some _) _ _ => 1
  | .storePrivilege _ _ => 1
  | .check _ => 0

/-- `non_empty(value.trim(), label)`. -/
def required (value : Str) (label : String) : SecretStep :=
  .check ((nonEmpty (trim value) label).map fun _ => ())

end SecretStep

/-- One step after the other, until one fails. -/
def runSteps (io : Io) : List SecretStep → StoreM Unit
  | [] => pure ()
  | step :: steps => do
      step.run io
      runSteps io steps

/-! ## 2. The steps of a connection -/

/-- The steps of `materialize_auth_with_runtime_secret`. -/
def authSteps (auth : SavedAuth) (existingAuth : Option SavedAuth) : List SecretStep :=
  match auth with
  | .password _ (some password) => [.store (authEntry auth existingAuth) "oxide_conn_" password]
  | .key _ _ _ (some passphrase) => [.store (authEntry auth existingAuth) "oxide_conn_key_" passphrase]
  | .certificate _ _ _ _ (some passphrase) =>
    [.store (authEntry auth existingAuth) "oxide_conn_key_" passphrase]
  | .managedKey _ _ (some passphrase) =>
    [.store (authEntry auth existingAuth) "oxide_conn_key_" passphrase]
  | _ => []

/-- The checks of a proxy hop. -/
def hopChecks (hop : SavedProxyHop) : List SecretStep :=
  [.required hop.host "Proxy host", .required hop.username "Proxy username"]

/-- The steps of a round of `materialize_proxy_chain_with_runtime_secrets`. -/
def hopSteps (hop : SavedProxyHop) : List SecretStep := authSteps hop.auth none ++ hopChecks hop

/-- The steps of `materialize_upstream_proxy_policy_with_runtime_secret`. -/
def upstreamSteps (policy : SavedUpstreamProxyPolicy)
    (existingPolicy : Option SavedUpstreamProxyPolicy) : List SecretStep :=
  match policy with
  | .custom proxy =>
    (match proxy.auth with
    | .password username _ (some password) =>
      [.required username "Upstream proxy username",
        .store (upstreamEntry policy existingPolicy) "oxide_conn_upstream_proxy_" password]
    | .password username _ none => [.required username "Upstream proxy username"]
    | .none => []) ++ [.required proxy.host "Upstream proxy host"]
  | _ => []

/-- The steps of `materialize_privilege_credentials`. -/
def credentialSteps (connectionId : Str) (credentials : List SavedPrivilegeCredential) :
    List SecretStep :=
  credentials.flatMap fun credential =>
    match credential.plaintextSecret with
    | none => []
    | some secret =>
      [.storePrivilege (privilegeKeychainId (if (trim credential.connectionId).isEmpty then
        connectionId else credential.connectionId) credential.id) secret]

/-- The steps of the parts of a connection. -/
def partSteps (auth : SavedAuth) (proxyChain : List SavedProxyHop)
    (upstreamProxy : SavedUpstreamProxyPolicy) (existing : Option SavedConnection) :
    List SecretStep :=
  authSteps auth (existing.map (·.auth)) ++
    (proxyChain.flatMap hopSteps ++ upstreamSteps upstreamProxy (existing.map (·.upstreamProxy)))

variable {io : Io} {α β : Type}

/-! ## 3. The code goes by them -/

theorem runSteps_append (xs ys : List SecretStep) :
    runSteps io (xs ++ ys) = runSteps io xs >>= fun _ => runSteps io ys := by
  induction xs with
  | nil => rfl
  | cons x xs ih =>
    funext s
    show (x.run io >>= fun _ => runSteps io (xs ++ ys)) s =
      ((x.run io >>= fun _ => runSteps io xs) >>= fun _ => runSteps io ys) s
    rw [ih]
    rcases hrun : x.run io s with ⟨e | u, s'⟩
    · rw [Action.bind_error hrun, Action.bind_error (Action.bind_error hrun)]
    · rw [Action.bind_ok hrun]
      rcases hrest : runSteps io xs s' with ⟨e | u', s''⟩
      · rw [Action.bind_error hrest, Action.bind_error ((Action.bind_ok hrun).trans hrest)]
      · rw [Action.bind_ok hrest, Action.bind_ok ((Action.bind_ok hrun).trans hrest)]

/-- Code leaves the state that the steps leave, and fails where they fail. -/
def Follows (io : Io) (act : StoreM α) (steps : List SecretStep) : Prop :=
  ∀ s, (act s).2 = (runSteps io steps s).2 ∧ (act s).1.isOk = (runSteps io steps s).1.isOk

theorem follows_pure (a : α) : Follows io (pure a) [] := fun _ => ⟨rfl, rfl⟩

theorem follows_run (step : SecretStep) : Follows io (step.run io) [step] := by
  intro s
  show _ = ((step.run io >>= fun _ => pure ()) s).2 ∧ _
  rcases hrun : step.run io s with ⟨e | u, s'⟩
  · exact ⟨by rw [Action.bind_error hrun], by
      rw [show runSteps io [step] s = _ from Action.bind_error hrun]⟩
  · exact ⟨by rw [Action.bind_ok hrun]; rfl, by
      rw [show runSteps io [step] s = _ from Action.bind_ok hrun]; rfl⟩

variable {act : StoreM α} {entry : Option Str} {f : α → StoreM β} {kind : String} {secret : Secret}
  {xs ys : List SecretStep}

theorem Follows.bind (hact : Follows io act xs) (hf : ∀ a, Follows io (f a) ys) :
    Follows io (act >>= f) (xs ++ ys) := by
  intro s
  obtain ⟨hstate, hok⟩ := hact s
  rw [runSteps_append]
  rcases hrun : act s with ⟨e | a, s'⟩ <;> rcases hsteps : runSteps io xs s with ⟨e' | u, s''⟩ <;>
    rw [hrun, hsteps] at hstate hok
  · rw [Action.bind_error hrun, Action.bind_error hsteps]
    exact ⟨hstate, rfl⟩
  · cases hok
  · cases hok
  · rw [Action.bind_ok hrun, Action.bind_ok hsteps, show s' = s'' from hstate]
    exact hf a s''

theorem Follows.map {f : α → β} (h : Follows io act xs) :
    Follows io (act >>= fun a => pure (f a)) xs := by
  have hbind := h.bind fun a => follows_pure (f a)
  rwa [List.append_nil] at hbind

theorem Follows.lift_bind {r : Except StoreError α} (hf : ∀ a, Follows io (f a) ys) :
    Follows io (lift r >>= f) (.check (r.map fun _ => ()) :: ys) := by
  have hlift : Follows io (lift r) [.check (r.map fun _ => ())] := by
    intro s
    cases r <;> exact ⟨rfl, rfl⟩
  exact hlift.bind hf

theorem Follows.each {xs : List α} {body : α → StoreM β} {steps : α → List SecretStep}
    (h : ∀ x, Follows io (body x) (steps x)) : Follows io (each xs body) (xs.flatMap steps) := by
  induction xs with
  | nil => exact follows_pure _
  | cons x xs ih => exact (h x).bind fun _ => ih.map

theorem follows_store {f : Str → α} :
    Follows io (storeSecret io entry (newKeychainId io kind) secret >>= fun K => pure (f K))
      [.store entry kind secret] := by
  intro s
  obtain ⟨hstate, hok⟩ := follows_run (.store entry kind secret) s
  rcases hrun : storeSecret io entry (newKeychainId io kind) secret s with ⟨e | K, s'⟩
  · have hstep : SecretStep.run io (.store entry kind secret) s = (.error e, s') :=
      Action.bind_error hrun
    rw [Action.bind_error hrun]
    rw [hstep] at hstate hok
    exact ⟨hstate, hok⟩
  · have hstep : SecretStep.run io (.store entry kind secret) s = (.ok (), s') :=
      Action.bind_ok hrun
    rw [Action.bind_ok hrun]
    rw [hstep] at hstate hok
    exact ⟨hstate, hok⟩

theorem follows_materializeAuth (auth : SavedAuth) (existingAuth : Option SavedAuth) :
    Follows io (materializeAuthWithRuntimeSecret io auth existingAuth)
      (authSteps auth existingAuth) := by
  cases auth with
  | password keychainId plaintext =>
    cases plaintext with
    | none => exact follows_pure _
    | some password => exact follows_store
  | key keyPath has keychainId plaintext =>
    cases plaintext with
    | none =>
      simp only [materializeAuthWithRuntimeSecret]
      split <;> exact follows_pure _
    | some passphrase => exact follows_store
  | certificate keyPath certPath has keychainId plaintext =>
    cases plaintext with
    | none =>
      simp only [materializeAuthWithRuntimeSecret]
      split <;> exact follows_pure _
    | some passphrase => exact follows_store
  | managedKey keyId keychainId plaintext =>
    cases plaintext with
    | none => exact follows_pure _
    | some passphrase => exact follows_store
  | keyboardInteractive => exact follows_pure _
  | agent => exact follows_pure _

theorem follows_materializeProxyHop (hop : SavedProxyHop) :
    Follows io (materializeProxyHop io hop) (hopSteps hop) :=
  (follows_materializeAuth hop.auth none).bind fun _ =>
    Follows.lift_bind fun _ => Follows.lift_bind fun _ => follows_pure _

theorem follows_materializeProxyChain (proxyChain : List SavedProxyHop) :
    Follows io (materializeProxyChainWithRuntimeSecrets io proxyChain)
      (proxyChain.flatMap hopSteps) :=
  (Follows.each follows_materializeProxyHop).map

theorem follows_materializeUpstreamProxyPolicy (policy : SavedUpstreamProxyPolicy)
    (existingPolicy : Option SavedUpstreamProxyPolicy) :
    Follows io (materializeUpstreamProxyPolicyWithRuntimeSecret io policy existingPolicy)
      (upstreamSteps policy existingPolicy) := by
  cases policy with
  | useGlobal => exact follows_pure _
  | direct => exact follows_pure _
  | custom proxy =>
    refine Follows.bind ?_ fun _ => Follows.lift_bind fun _ => follows_pure _
    cases hauth : proxy.auth with
    | none => exact follows_pure _
    | password username keychainId plaintext =>
      cases plaintext with
      | none => exact Follows.lift_bind fun _ => follows_pure _
      | some password =>
        refine Follows.lift_bind fun _ => ?_
        simp only [upstreamEntry, hauth]
        exact follows_store

theorem follows_materializePrivilegeCredentials (connectionId : Str)
    (credentials : List SavedPrivilegeCredential) :
    Follows io (materializePrivilegeCredentials io connectionId credentials)
      (credentialSteps connectionId credentials) := by
  refine (Follows.each fun credential => ?_).map
  unfold materializePrivilegeCredential
  cases credential.plaintextSecret with
  | none => exact follows_pure _
  | some secret => exact (follows_run (.storePrivilege _ secret)).map

/-! ## 4. A failure that has changed nothing -/

/-- The entries there were, with their values, but for some. -/
structure KeptBut (exempt exemptPrivilege : List Str) (s s' : ConnectionStore) : Prop where
  keychain : ∀ K ∉ exempt, ∀ value, s.keychain.lookup K = some value →
    s'.keychain.lookup K = some value
  privilegeKeychain : ∀ K ∉ exemptPrivilege, ∀ value, s.privilegeKeychain.lookup K = some value →
    s'.privilegeKeychain.lookup K = some value

/-- A step that gives another value to an entry there was, but for some. -/
def Changes (s : ConnectionStore) (exempt exemptPrivilege : List Str) : SecretStep → Prop
  | .store (some entry) _ secret => entry ∉ exempt ∧
      ∃ value, s.keychain.lookup entry = some value ∧ value ≠ secret
  | .storePrivilege entry secret => entry ∉ exemptPrivilege ∧
      ∃ value, s.privilegeKeychain.lookup entry = some value ∧ value ≠ secret
  | _ => False

/-- No step that can fail comes after one that changes an entry; a check that does not pass is the
    last step. -/
def Recoverable (changes : SecretStep → Prop) : List SecretStep → Prop
  | [] => True
  | step :: steps => step.Fails ∨
      ((changes step → ∀ later ∈ steps, later.Passes) ∧ Recoverable changes steps)

/-- New names are not those of entries there were. -/
def NewNames (io : Io) (s : ConnectionStore) : Prop :=
  ∀ k kind, kind ++ io.uuid k ∉ s.keychain.keySet

variable {s₀ s s' : ConnectionStore} {exempt exemptPrivilege : List Str} {step : SecretStep}
  {steps : List SecretStep}

theorem KeptBut.refl (exempt exemptPrivilege : List Str) (s : ConnectionStore) :
    KeptBut exempt exemptPrivilege s s :=
  ⟨fun _ _ _ h => h, fun _ _ _ h => h⟩

theorem KeptBut.same (h : KeptBut exempt exemptPrivilege s₀ s)
    (hkeychain : s'.keychain = s.keychain)
    (hprivilege : s'.privilegeKeychain = s.privilegeKeychain) :
    KeptBut exempt exemptPrivilege s₀ s' :=
  ⟨hkeychain ▸ h.keychain, hprivilege ▸ h.privilegeKeychain⟩

variable {e : StoreError}

theorem outside_error {change : ConnectionStore → ConnectionStore}
    (h : outside io change s = (.error e, s')) : s' = { s with calls := s.calls + 1 } := by
  unfold outside at h
  split at h
  · cases h
    rfl
  · cases h

theorem storeSecret_cases {result : Except StoreError Str}
    (h : storeSecret io entry (newKeychainId io kind) secret s = (result, s')) :
    (∃ K, (entry = some K ∨ entry = none ∧ ∃ k, K = kind.toList ++ io.uuid k) ∧ result = .ok K ∧
        s'.keychain = s.keychain.insert K secret ∧ s'.privilegeKeychain = s.privilegeKeychain) ∨
      (∃ e, result = .error e) ∧ s'.keychain = s.keychain ∧
        s'.privilegeKeychain = s.privilegeKeychain := by
  have hnamed : ∃ K s₁, orNewId entry (newKeychainId io kind) s = (.ok K, s₁) ∧
      (entry = some K ∨ entry = none ∧ ∃ k, K = kind.toList ++ io.uuid k) ∧
      s₁.keychain = s.keychain ∧ s₁.privilegeKeychain = s.privilegeKeychain := by
    cases entry with
    | some K => exact ⟨K, s, rfl, .inl rfl, rfl, rfl⟩
    | none => exact ⟨_, _, rfl, .inr ⟨rfl, s.calls, rfl⟩, rfl, rfl⟩
  obtain ⟨K, s₁, hid, hK, hkeychain, hprivilege⟩ := hnamed
  rw [storeSecret, Action.bind_ok hid] at h
  rcases hstore : keychainStore io K secret s₁ with ⟨e | u, s₂⟩
  · rw [Action.bind_error hstore] at h
    obtain rfl := outside_error hstore
    cases h
    exact .inr ⟨⟨e, rfl⟩, hkeychain, hprivilege⟩
  · rw [Action.bind_ok hstore] at h
    obtain rfl := outside_state io hstore
    cases h
    refine .inl ⟨K, hK, rfl, ?_, hprivilege⟩
    show s₁.keychain.insert K secret = s.keychain.insert K secret
    rw [hkeychain]

theorem step_error (h : step.run io s = (.error e, s')) :
    s'.keychain = s.keychain ∧ s'.privilegeKeychain = s.privilegeKeychain := by
  cases step with
  | store entry kind secret =>
    rcases hrun : storeSecret io entry (newKeychainId io kind) secret s with ⟨e' | K, s₁⟩
    · have hs : s₁ = s' := congrArg Prod.snd ((Action.bind_error hrun).symm.trans h)
      rcases storeSecret_cases hrun with ⟨K, -, hok, -⟩ | ⟨-, hkept⟩
      · cases hok
      · exact hs ▸ hkept
    · have hok := (Action.bind_ok hrun).symm.trans h
      cases hok
  | storePrivilege entry secret =>
    have hstore : privilegeKeychainStore io entry secret s = (.error e, s') := h
    obtain rfl := outside_error hstore
    exact ⟨rfl, rfl⟩
  | check result =>
    cases h
    exact ⟨rfl, rfl⟩

theorem step_keeps (hnames : NewNames io s₀) (hstep : ¬ Changes s₀ exempt exemptPrivilege step)
    (hs : KeptBut exempt exemptPrivilege s₀ s) (h : step.run io s = (.ok (), s')) :
    KeptBut exempt exemptPrivilege s₀ s' := by
  cases step with
  | store entry kind secret =>
    rcases hrun : storeSecret io entry (newKeychainId io kind) secret s with ⟨e | K, s₁⟩
    · cases (Action.bind_error hrun).symm.trans h
    · have hs' : s₁ = s' := congrArg Prod.snd ((Action.bind_ok hrun).symm.trans h)
      rcases storeSecret_cases hrun with ⟨K', hK, -, hkeychain, hprivilege⟩ | ⟨⟨e, hok⟩, -⟩
      · rw [← hs']
        refine ⟨fun L hL value hvalue => ?_, hprivilege ▸ hs.privilegeKeychain⟩
        rw [hkeychain, Map.lookup_insert_eq]
        split
        · next heq =>
            subst heq
            rcases hK with rfl | ⟨-, k, rfl⟩
            · by_contra hne
              exact hstep ⟨hL, value, hvalue, fun heq => hne (congrArg some heq.symm)⟩
            · exact absurd (Map.mem_keySet.mpr (Map.mem_keys_iff.mpr ⟨value, hvalue⟩))
                (hnames k kind.toList)
        · exact hs.keychain L hL value hvalue
      · cases hok
  | storePrivilege entry secret =>
    have hstore : privilegeKeychainStore io entry secret s = (.ok (), s') := h
    obtain rfl := outside_state io hstore
    refine ⟨hs.keychain, fun L hL value hvalue => ?_⟩
    show (s.privilegeKeychain.insert entry secret).lookup L = some value
    rw [Map.lookup_insert_eq]
    split
    · next heq =>
        subst heq
        by_contra hne
        exact hstep ⟨hL, value, hvalue, fun heq => hne (congrArg some heq.symm)⟩
    · exact hs.privilegeKeychain L hL value hvalue
  | check result =>
    cases h
    exact hs

theorem runSteps_all_pass (h : ∀ step ∈ steps, step.Passes) : runSteps io steps s =
    (.ok (), s) := by
  induction steps with
  | nil => rfl
  | cons step steps ih =>
    have hpass := h step List.mem_cons_self
    have hrest := ih fun later hlater => h later (List.mem_cons_of_mem _ hlater)
    cases step with
    | store entry kind secret => exact hpass.elim
    | storePrivilege entry secret => exact hpass.elim
    | check result =>
      cases result with
      | error e => exact hpass.elim
      | ok u => exact hrest

/-- A list of steps that fails has changed nothing, where it is recoverable. -/
theorem runSteps_recoverable (hnames : NewNames io s₀)
    (hsteps : Recoverable (Changes s₀ exempt exemptPrivilege) steps)
    (hs : KeptBut exempt exemptPrivilege s₀ s) (h : runSteps io steps s = (.error e, s')) :
    KeptBut exempt exemptPrivilege s₀ s' := by
  induction steps generalizing s with
  | nil => cases h
  | cons step steps ih =>
    rcases hrun : step.run io s with ⟨e' | u, s₁⟩
    · have hs' : s₁ = s' := congrArg Prod.snd ((Action.bind_error hrun).symm.trans h)
      obtain ⟨hkeychain, hprivilege⟩ := step_error hrun
      exact hs' ▸ hs.same hkeychain hprivilege
    · have hrest : runSteps io steps s₁ = (.error e, s') := (Action.bind_ok hrun).symm.trans h
      rcases hsteps with hfails | ⟨hlate, hsteps⟩
      · cases step with
        | store entry kind secret => exact hfails.elim
        | storePrivilege entry secret => exact hfails.elim
        | check result =>
          cases result with
          | error e => cases hrun
          | ok u => exact hfails.elim
      · by_cases hchanges : Changes s₀ exempt exemptPrivilege step
        · rw [runSteps_all_pass (hlate hchanges)] at hrest
          cases hrest
        · exact ih hsteps (step_keeps hnames hchanges hs hrun) hrest

/-! ## 5. Gone through, and stopped -/

/-- The calls of a list of steps. -/
def stepsCost (steps : List SecretStep) : Nat := (steps.map SecretStep.cost).sum

theorem step_passes (hfails : ¬ step.Fails)
    (hcalm : ∀ k, k < s.calls + step.cost → io.refuses k = false) :
    ∃ s', step.run io s = (.ok (), s') ∧ s'.calls = s.calls + step.cost ∧ s'.data = s.data := by
  cases step with
  | store entry kind secret =>
    cases entry with
    | some K =>
      have hrefuse : io.refuses s.calls = false := hcalm _ (Nat.lt_succ_self _)
      refine ⟨{ s with keychain := s.keychain.insert K secret, calls := s.calls + 1 }, ?_, rfl,
        rfl⟩
      have hstore : keychainStore io K secret s =
          (.ok (), { s with keychain := s.keychain.insert K secret, calls := s.calls + 1 }) := by
        unfold keychainStore outside
        rw [hrefuse]
        rfl
      exact (Action.bind_ok (Action.bind_ok hstore))
    | none =>
      have hrefuse : io.refuses (s.calls + 1) = false := hcalm _ (Nat.lt_succ_self _)
      let K := kind.toList ++ io.uuid s.calls
      refine ⟨{ s with keychain := s.keychain.insert K secret, calls := s.calls + 2 }, ?_, rfl,
        rfl⟩
      have hstore : keychainStore io K secret { s with calls := s.calls + 1 } =
          (.ok (), { s with keychain := s.keychain.insert K secret, calls := s.calls + 2 }) := by
        unfold keychainStore outside
        dsimp only
        rw [hrefuse]
        rfl
      exact (Action.bind_ok (Action.bind_ok hstore))
  | storePrivilege entry secret =>
    have hrefuse : io.refuses s.calls = false := hcalm _ (Nat.lt_succ_self _)
    refine ⟨{ s with privilegeKeychain := s.privilegeKeychain.insert entry secret,
                     calls := s.calls + 1 }, ?_, rfl, rfl⟩
    show privilegeKeychainStore io entry secret s = _
    unfold privilegeKeychainStore outside
    rw [hrefuse]
    rfl
  | check result =>
    cases result with
    | error e => exact absurd trivial hfails
    | ok u => exact ⟨s, rfl, rfl, rfl⟩

theorem runSteps_passes (hfails : ∀ step ∈ steps, ¬ step.Fails)
    (hcalm : ∀ k, k < s.calls + stepsCost steps → io.refuses k = false) :
    ∃ s', runSteps io steps s = (.ok (), s') ∧ s'.calls = s.calls + stepsCost steps ∧
      s'.data = s.data := by
  induction steps generalizing s with
  | nil => exact ⟨s, rfl, rfl, rfl⟩
  | cons step steps ih =>
    have hcost : stepsCost (step :: steps) = step.cost + stepsCost steps := rfl
    obtain ⟨s₁, hrun, hcalls, hdata⟩ :=
      step_passes (s := s) (hfails step List.mem_cons_self)
        fun k hk => hcalm k (by rw [hcost]; omega)
    obtain ⟨s₂, hrest, hcalls', hdata'⟩ :=
      ih (s := s₁) (fun later hlater => hfails later (List.mem_cons_of_mem _ hlater))
        fun k hk => hcalm k (by rw [hcost]; omega)
    refine ⟨s₂, (Action.bind_ok hrun).trans hrest, ?_, hdata'.trans hdata⟩
    rw [hcalls', hcalls, hcost, Nat.add_assoc]

theorem runSteps_refused (hrefuses : ∀ k, s.calls ≤ k → io.refuses k = true)
    (hfails : ∃ step ∈ steps, ¬ step.Passes) :
    ∃ e s', runSteps io steps s = (.error e, s') ∧ s'.keychain = s.keychain ∧
      s'.privilegeKeychain = s.privilegeKeychain := by
  induction steps with
  | nil =>
    obtain ⟨step, hstep, -⟩ := hfails
    exact absurd hstep List.not_mem_nil
  | cons step steps ih =>
    rcases hrun : step.run io s with ⟨e | u, s₁⟩
    · obtain ⟨hkeychain, hprivilege⟩ := step_error hrun
      exact ⟨e, s₁, Action.bind_error hrun, hkeychain, hprivilege⟩
    · cases step with
      | check result =>
        cases result with
        | error e => cases hrun
        | ok u =>
          obtain ⟨later, hlater, hfail⟩ := hfails
          rcases List.mem_cons.mp hlater with rfl | hlater
          · exact absurd trivial hfail
          · obtain ⟨e, s', hrest, hkept⟩ := ih ⟨later, hlater, hfail⟩
            exact ⟨e, s', hrest, hkept⟩
      | store entry kind secret =>
        obtain ⟨K, s₂, hstore, -⟩ := bind_ok_iff.mp hrun
        obtain ⟨K', s₃, hid, hstore⟩ := bind_ok_iff.mp hstore
        obtain ⟨u', s₄, hstore, -⟩ := bind_ok_iff.mp hstore
        have hle : s.calls ≤ s₃.calls := by
          cases entry with
          | some K => cases hid; exact le_rfl
          | none => cases hid; exact Nat.le_succ _
        unfold keychainStore outside at hstore
        rw [hrefuses _ hle] at hstore
        cases hstore
      | storePrivilege entry secret =>
        have hstore : privilegeKeychainStore io entry secret s = (.ok u, s₁) := hrun
        unfold privilegeKeychainStore outside at hstore
        rw [hrefuses _ le_rfl] at hstore
        cases hstore

theorem step_changes (hchanges : Changes s₀ [] [] step) (h : step.run io s = (.ok (), s')) :
    ¬ KeptBut [] [] s₀ s' := by
  intro hkept
  cases step with
  | store entry kind secret =>
    cases entry with
    | none => exact hchanges.elim
    | some K =>
      obtain ⟨hK, value, hvalue, hne⟩ := hchanges
      rcases hrun : storeSecret io (some K) (newKeychainId io kind) secret s with ⟨e | L, s₁⟩
      · cases (Action.bind_error hrun).symm.trans h
      · have hs' : s₁ = s' := congrArg Prod.snd ((Action.bind_ok hrun).symm.trans h)
        rcases storeSecret_cases hrun with ⟨L', hL, -, hkeychain, -⟩ | ⟨⟨e, hok⟩, -⟩
        · rcases hL with hL | ⟨hL, -⟩
          · cases hL
            have hlookup := hkept.keychain K hK value hvalue
            rw [← hs', hkeychain, Map.lookup_insert_eq, if_pos rfl] at hlookup
            exact hne (Option.some.inj hlookup).symm
          · cases hL
        · cases hok
  | storePrivilege entry secret =>
    obtain ⟨hK, value, hvalue, hne⟩ := hchanges
    have hstore : privilegeKeychainStore io entry secret s = (.ok (), s') := h
    obtain rfl := outside_state io hstore
    have hlookup : (s.privilegeKeychain.insert entry secret).lookup entry = some value :=
      hkept.privilegeKeychain entry hK value hvalue
    rw [Map.lookup_insert_eq, if_pos rfl] at hlookup
    exact hne (Option.some.inj hlookup).symm
  | check result => exact hchanges.elim

theorem exists_change_of_not_recoverable {changes : SecretStep → Prop}
    (h : ¬ Recoverable changes steps) : ∃ before step after, steps = before ++ step :: after ∧
      (∀ x ∈ before, ¬ x.Fails) ∧ ¬ step.Fails ∧ changes step ∧ ∃ later ∈ after, ¬ later.Passes := by
  induction steps with
  | nil => exact absurd trivial h
  | cons step steps ih =>
    have hfails : ¬ step.Fails := fun hfails => h (.inl hfails)
    by_cases hlate : changes step → ∀ later ∈ steps, later.Passes
    · obtain ⟨before, x, after, rfl, hbefore, hx⟩ := ih fun hrest => h (.inr ⟨hlate, hrest⟩)
      refine ⟨step :: before, x, after, rfl, fun y hy => ?_, hx⟩
      rcases List.mem_cons.mp hy with rfl | hy
      · exact hfails
      · exact hbefore y hy
    · push Not at hlate
      obtain ⟨hchanges, later, hlater, hpass⟩ := hlate
      exact ⟨[], step, steps, rfl, fun _ hx => absurd hx List.not_mem_nil, hfails, hchanges,
        later, hlater, hpass⟩

end Hapcli.Connections
