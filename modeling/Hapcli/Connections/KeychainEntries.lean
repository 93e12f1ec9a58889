/-
  Subject:   Which entries of the keychain a connection refers to after its secrets are stored.

  * **`parts_of_materialize`** -- every entry of a materialized connection is taken over or new;
    `cloneAuthSecret_ok` -- every entry of a copy is new, but the one of a managed key.
-/
import Hapcli.Connections.Identities

namespace Hapcli.Connections

open Hapcli.Lib Hapcli.Rust
open Lib.Action (Keeps each)

/-! ## 1. Entries taken over -/

/-- The entry an authentication refers to after `materialize_auth`, unless a new one is made. -/
def authEntry (auth : SavedAuth) (existingAuth : Option SavedAuth) : Option Str :=
  match auth with
  | .password keychainId (some _) => (existingPasswordKeychainId existingAuth).or keychainId
  | .password keychainId none => keychainId
  | .key keyPath _ keychainId (some _) => (matchingKeyPassphraseId existingAuth keyPath).or keychainId
  | .key keyPath _ keychainId none =>
    match matchingKeyPassphrase existingAuth keyPath with
    | some (_, existingKeychainId) => existingKeychainId
    | none => keychainId
  | .certificate keyPath certPath _ keychainId (some _) =>
    (matchingCertificatePassphraseId existingAuth keyPath certPath).or keychainId
  | .certificate keyPath certPath _ keychainId none =>
    match matchingCertificatePassphrase existingAuth keyPath certPath with
    | some (_, existingKeychainId) => existingKeychainId
    | none => keychainId
  | .managedKey keyId keychainId _ =>
    (matchingManagedKeyPassphraseId existingAuth keyId).or keychainId
  | .keyboardInteractive => none
  | .agent => none

/-- The entry an upstream proxy refers to after it is materialized, unless a new one is made. -/
def upstreamEntry (policy : SavedUpstreamProxyPolicy)
    (existingPolicy : Option SavedUpstreamProxyPolicy) : Option Str :=
  match policy with
  | .custom proxy =>
    match proxy.auth with
    | .password _ keychainId (some _) =>
      (existingUpstreamProxyPasswordKeychainId existingPolicy).or keychainId
    | .password _ keychainId none => keychainId
    | .none => none
  | _ => none

/-- The entries a connection takes over, from what it is made of and from the one there was. -/
def keptEntries (auth : SavedAuth) (proxyChain : List SavedProxyHop)
    (upstreamProxy : SavedUpstreamProxyPolicy) (existing : Option SavedConnection) : List Str :=
  (authEntry auth (existing.map (·.auth))).toList ++
    (proxyChain.filterMap (authEntry ·.auth none) ++
      (upstreamEntry upstreamProxy (existing.map (·.upstreamProxy))).toList)

/-- The entries the parts of a connection carry. -/
abbrev carriedEntries (connection : SavedConnection) : List Str :=
  collectConnectionKeychainIds connection

variable {K : Str} {auth : Option SavedAuth}

theorem existingPassword_mem (h : existingPasswordKeychainId auth = some K) :
    ∃ a, auth = some a ∧ K ∈ collectKeychainIdsForAuth a := by
  unfold existingPasswordKeychainId at h
  split at h
  · subst h
    exact ⟨_, rfl, List.mem_singleton_self _⟩
  · cases h

theorem matchingKey_mem {keyPath : Str} {has : Bool}
    (h : matchingKeyPassphrase auth keyPath = some (has, some K)) :
    ∃ a, auth = some a ∧ K ∈ collectKeychainIdsForAuth a := by
  unfold matchingKeyPassphrase at h
  split at h
  · split at h
    · cases h
      exact ⟨_, rfl, List.mem_singleton_self _⟩
    · cases h
  · cases h

theorem matchingCertificate_mem {keyPath certPath : Str} {has : Bool}
    (h : matchingCertificatePassphrase auth keyPath certPath = some (has, some K)) :
    ∃ a, auth = some a ∧ K ∈ collectKeychainIdsForAuth a := by
  unfold matchingCertificatePassphrase at h
  split at h
  · split at h
    · cases h
      exact ⟨_, rfl, List.mem_singleton_self _⟩
    · cases h
  · cases h

theorem matchingManagedKey_mem {keyId : Str}
    (h : matchingManagedKeyPassphraseId auth keyId = some K) :
    ∃ a, auth = some a ∧ K ∈ collectKeychainIdsForAuth a := by
  unfold matchingManagedKeyPassphraseId at h
  split at h
  · split at h
    · subst h
      exact ⟨_, rfl, List.mem_singleton_self _⟩
    · cases h
  · cases h

variable {existingAuth : Option SavedAuth}

theorem authEntry_cases {auth : SavedAuth} (h : authEntry auth existingAuth = some K) :
    (∃ a, existingAuth = some a ∧ K ∈ collectKeychainIdsForAuth a) ∨
      K ∈ collectKeychainIdsForAuth auth := by
  cases auth with
  | password keychainId plaintext =>
    cases plaintext with
    | none =>
      cases h
      exact .inr (List.mem_singleton_self _)
    | some password =>
      rcases Option.or_eq_some_iff.mp h with h | ⟨-, rfl⟩
      · exact .inl (existingPassword_mem h)
      · exact .inr (List.mem_singleton_self _)
  | key keyPath has keychainId plaintext =>
    cases plaintext with
    | none =>
      simp only [authEntry] at h
      split at h
      · next hmatch =>
          subst h
          exact .inl (matchingKey_mem hmatch)
      · subst h
        exact .inr (List.mem_singleton_self _)
    | some passphrase =>
      rcases Option.or_eq_some_iff.mp h with h | ⟨-, rfl⟩
      · obtain ⟨⟨has', id⟩, hmatch, rfl⟩ := Option.bind_eq_some_iff.mp h
        exact .inl (matchingKey_mem hmatch)
      · exact .inr (List.mem_singleton_self _)
  | certificate keyPath certPath has keychainId plaintext =>
    cases plaintext with
    | none =>
      simp only [authEntry] at h
      split at h
      · next hmatch =>
          subst h
          exact .inl (matchingCertificate_mem hmatch)
      · subst h
        exact .inr (List.mem_singleton_self _)
    | some passphrase =>
      rcases Option.or_eq_some_iff.mp h with h | ⟨-, rfl⟩
      · obtain ⟨⟨has', id⟩, hmatch, rfl⟩ := Option.bind_eq_some_iff.mp h
        exact .inl (matchingCertificate_mem hmatch)
      · exact .inr (List.mem_singleton_self _)
  | managedKey keyId keychainId plaintext =>
    rcases Option.or_eq_some_iff.mp h with h | ⟨-, rfl⟩
    · exact .inl (matchingManagedKey_mem h)
    · exact .inr (List.mem_singleton_self _)
  | keyboardInteractive => cases h
  | agent => cases h

theorem existingUpstream_mem {policy : Option SavedUpstreamProxyPolicy}
    (h : existingUpstreamProxyPasswordKeychainId policy = some K) :
    ∃ p, policy = some p ∧ K ∈ collectKeychainIdsForUpstreamProxy p := by
  unfold existingUpstreamProxyPasswordKeychainId at h
  split at h
  · next proxy =>
      refine ⟨_, rfl, ?_⟩
      cases hauth : proxy.auth with
      | none =>
        rw [hauth] at h
        cases h
      | password username keychainId plaintext =>
        rw [hauth] at h
        subst h
        simp only [collectKeychainIdsForUpstreamProxy, hauth]
        exact List.mem_singleton_self _
  · cases h

variable {policy : SavedUpstreamProxyPolicy} {existingPolicy : Option SavedUpstreamProxyPolicy}

theorem upstreamEntry_cases (h : upstreamEntry policy existingPolicy = some K) :
    (∃ p, existingPolicy = some p ∧ K ∈ collectKeychainIdsForUpstreamProxy p) ∨
      K ∈ collectKeychainIdsForUpstreamProxy policy := by
  cases policy with
  | useGlobal => cases h
  | direct => cases h
  | custom proxy =>
    cases hauth : proxy.auth with
    | none =>
      simp only [upstreamEntry, hauth] at h
      cases h
    | password username keychainId plaintext =>
      have hown : keychainId = some K →
          K ∈ collectKeychainIdsForUpstreamProxy (.custom proxy) := by
        rintro rfl
        simp only [collectKeychainIdsForUpstreamProxy, hauth]
        exact List.mem_singleton_self _
      cases plaintext with
      | none =>
        simp only [upstreamEntry, hauth] at h
        exact .inr (hown h)
      | some password =>
        simp only [upstreamEntry, hauth] at h
        rcases Option.or_eq_some_iff.mp h with h | ⟨-, h⟩
        · exact .inl (existingUpstream_mem h)
        · exact .inr (hown h)

variable {upstreamProxy : SavedUpstreamProxyPolicy} {existing : Option SavedConnection}

theorem keptEntries_cases {auth : SavedAuth} {proxyChain : List SavedProxyHop}
    (h : K ∈ keptEntries auth proxyChain upstreamProxy existing) :
    (∃ conn, existing = some conn ∧ K ∈ collectConnectionKeychainIds conn) ∨
      K ∈ collectKeychainIdsForParts auth proxyChain upstreamProxy := by
  simp only [keptEntries, List.mem_append, Option.mem_toList, List.mem_filterMap] at h
  simp only [collectConnectionKeychainIds, collectKeychainIdsForParts, List.mem_append,
    List.mem_flatMap]
  rcases h with h | ⟨hop, hhop, h⟩ | h
  · rcases authEntry_cases h with ⟨a, ha, hK⟩ | hK
    · obtain ⟨conn, hconn, rfl⟩ := Option.map_eq_some_iff.mp ha
      exact .inl ⟨conn, hconn, .inl hK⟩
    · exact .inr (.inl hK)
  · rcases authEntry_cases h with ⟨a, ha, -⟩ | hK
    · cases ha
    · exact .inr (.inr (.inl ⟨hop, hhop, hK⟩))
  · rcases upstreamEntry_cases h with ⟨p, hp, hK⟩ | hK
    · obtain ⟨conn, hconn, rfl⟩ := Option.map_eq_some_iff.mp hp
      exact .inl ⟨conn, hconn, .inr (.inr hK)⟩
    · exact .inr (.inr (.inr hK))

/-! ## 2. Before the data is touched -/

/-- A name made of a UUID of one of the calls from one number to another. -/
def NewSince (io : Io) (first last : Nat) (K : Str) : Prop :=
  ∃ k kind, first ≤ k ∧ k < last ∧ K = kind ++ io.uuid k

/-- What is asked of UUIDs: names made of two of them differ, and none was known before. -/
structure FreshUuids (io : Io) (known : List Str) : Prop where
  apart : ∀ {k k' : Nat} {kind kind' : Str}, kind ++ io.uuid k = kind' ++ io.uuid k' → k = k'
  unseen : ∀ (k : Nat) (kind : Str), kind ++ io.uuid k ∉ known

theorem replicate_run_length {c : Char} (hc : c ≠ '-') {k k' : Nat} {t t' : Str}
    (h : List.replicate k c ++ '-' :: t = List.replicate k' c ++ '-' :: t') : k = k' := by
  induction k generalizing k' with
  | zero =>
    cases k' with
    | zero => rfl
    | succ k' => exact absurd (List.cons.inj h).1.symm hc
  | succ k ih =>
    cases k' with
    | zero => exact absurd (List.cons.inj h).1 hc
    | succ k' => exact congrArg Nat.succ (ih (List.cons.inj h).2)

variable {first last : Nat} {io : Io}

theorem NewSince.not_known {known : List Str} (h : FreshUuids io known)
    (hK : NewSince io first last K) : K ∉ known := by
  obtain ⟨k, kind, -, -, rfl⟩ := hK
  exact h.unseen k kind

theorem NewSince.later {known : List Str} (h : FreshUuids io known) {middle : Nat}
    (hK : NewSince io first middle K) : ¬ NewSince io middle last K := by
  obtain ⟨k, kind, -, hk, rfl⟩ := hK
  rintro ⟨k', kind', hk', -, heq⟩
  have hsame := h.apart heq
  omega

theorem NewSince.widen {first' last' : Nat} (hK : NewSince io first last K)
    (hfirst : first' ≤ first) (hlast : last ≤ last') : NewSince io first' last' K := by
  obtain ⟨k, kind, hk, hk', heq⟩ := hK
  exact ⟨k, kind, hfirst.trans hk, hk'.trans_le hlast, heq⟩

namespace ConnectionStore

variable (io : Io)

/-- Before an operation touches the data: the data is as it was, no entry is gone, and what is known
    of the calls so far. -/
structure Ready (d₀ : ConnectionStoreData) (keys : Finset Str) (first : Nat) (found : Nat → Prop)
    (s : ConnectionStore) : Prop where
  data : s.data = d₀
  entries : ∀ K ∈ keys, K ∈ s.keychain.keySet
  calls : first ≤ s.calls
  found : found s.calls

/-- What was found out stays true with more calls. -/
def Lasting (found : Nat → Prop) : Prop := ∀ m m', m ≤ m' → found m → found m'

/-- Entries that are taken over or new. -/
def EntriesFrom (io : Io) (first : Nat) (kept entries : List Str) (m : Nat) : Prop :=
  ∀ K ∈ entries, K ∈ kept ∨ NewSince io first m K

theorem lasting_entriesFrom (first : Nat) (kept entries : List Str) :
    Lasting (EntriesFrom io first kept entries) :=
  fun _ _ hle h K hK => (h K hK).imp_right fun hnew => hnew.widen le_rfl hle

theorem Lasting.and {found found' : Nat → Prop} (h : Lasting found) (h' : Lasting found') :
    Lasting fun m => found m ∧ found' m :=
  fun m m' hle hm => ⟨h m m' hle hm.1, h' m m' hle hm.2⟩

variable {s s' : ConnectionStore}

theorem Ready.step {d₀ : ConnectionStoreData} {keys : Finset Str} {found : Nat → Prop}
    (hs : Ready d₀ keys first found s) (hfound : Lasting found) (h : Prepares s s') :
    Ready d₀ keys first found s' where
  data := h.data.trans hs.data
  entries K hK := h.entries K (hs.entries K hK)
  calls := hs.calls.trans h.calls
  found := hfound _ _ h.calls hs.found

variable {α : Type} {act : StoreM α}

section Ready

variable {d₀ : ConnectionStoreData} {keys : Finset Str} {found : Nat → Prop}

theorem Preparing.ready (h : Preparing act) (hfound : Lasting found) :
    act.Ensures (Ready d₀ keys first found) (fun _ => Ready d₀ keys first found)
      (Ready d₀ keys first found) :=
  Keeps.ensures h fun hprep hs => hs.step hfound hprep

theorem Preparing.finds {V : α → Nat → Prop} (h : Preparing act)
    (hfound : Lasting found) (hV : ∀ s a s', first ≤ s.calls → act s = (.ok a, s') → V a s'.calls) :
    act.Ensures (Ready d₀ keys first found)
      (fun a => Ready d₀ keys first fun m => found m ∧ V a m) (Ready d₀ keys first found) := by
  intro s hs
  have hready := hs.step hfound (h s)
  rcases hrun : act s with ⟨e | a, s'⟩
  · rw [hrun] at hready
    exact hready
  · rw [hrun] at hready
    exact ⟨hready.data, hready.entries, hready.calls, hready.found, hV s a s' hs.calls hrun⟩

end Ready

/-! ## 3. What is given -/

theorem bind_ok_iff {β : Type} {f : α → StoreM β} {s'' : ConnectionStore} {b : β} :
    (act >>= f) s = (.ok b, s'') ↔ ∃ a s', act s = (.ok a, s') ∧ f a s' = (.ok b, s'') := by
  constructor
  · intro h
    rcases hrun : act s with ⟨e | a, s'⟩
    · rw [Action.bind_error hrun] at h
      cases h
    · rw [Action.bind_ok hrun] at h
      exact ⟨a, s', rfl, h⟩
  · rintro ⟨a, s', hrun, h⟩
    rw [Action.bind_ok hrun]
    exact h

theorem pure_ok {a b : α} (h : (pure a : StoreM α) s = (.ok b, s')) :
    b = a ∧ s' = s := by
  cases h
  exact ⟨rfl, rfl⟩

theorem bind_pure_ok {β : Type} {f : α → β} {b : β}
    (h : (act >>= fun a => pure (f a)) s = (.ok b, s')) : ∃ a, act s = (.ok a, s') ∧ b = f a := by
  obtain ⟨a, s₁, hact, h⟩ := (bind_ok_iff).mp h
  obtain ⟨rfl, rfl⟩ := pure_ok h
  exact ⟨a, hact, rfl⟩

variable {change : ConnectionStore → ConnectionStore} {u : Unit}

theorem outside_ok (h : outside io change s = (.ok u, s')) : s'.calls = s.calls + 1 := by
  unfold outside at h
  split at h
  · cases h
  · cases h
    rfl

theorem outside_state
    (h : outside io change s = (.ok u, s')) : s' = { change s with calls := s.calls + 1 } := by
  unfold outside at h
  split at h
  · cases h
  · cases h
    rfl

theorem keychainGetOptional_ok {id : Str} {value : Option Secret}
    (h : keychainGetOptional io id s = (.ok value, s')) :
    value = s.keychain.lookup id ∧ s'.keychain = s.keychain := by
  obtain ⟨u, s₁, hread, h⟩ := (bind_ok_iff).mp h
  obtain rfl := outside_state io hread
  cases h
  exact ⟨rfl, rfl⟩

theorem snapshotEntries_find {I : ConnectionStore → Prop} {V : Str → Option Secret → Prop}
    {read : Str → StoreM (Option Secret)}
    (hread : ∀ id s value s', I s → read id s = (.ok value, s') → V id value ∧ I s')
    {ids : List Str} {entries : List (Str × Option Secret)} (hs : I s)
    (h : snapshotEntries ids read s = (.ok entries, s')) :
    I s' ∧ ∀ K ∈ ids, ∃ value, entries.find? (·.1 == K) = some (K, value) ∧ V K value := by
  induction ids generalizing s entries with
  | nil =>
    obtain ⟨rfl, rfl⟩ := pure_ok h
    exact ⟨hs, fun _ hK => absurd hK List.not_mem_nil⟩
  | cons id ids ih =>
    obtain ⟨entry, s₁, hbody, h⟩ := (bind_ok_iff).mp h
    obtain ⟨value, hvalue, rfl⟩ := bind_pure_ok hbody
    obtain ⟨rest, hrest, rfl⟩ := bind_pure_ok h
    obtain ⟨hV, hs₂⟩ := hread id s value _ hs hvalue
    obtain ⟨hs', hrest'⟩ := ih hs₂ hrest
    refine ⟨hs', fun K hK => ?_⟩
    by_cases heq : id = K
    · subst heq
      exact ⟨value, by simp, hV⟩
    · rcases List.mem_cons.mp hK with rfl | hK
      · exact absurd rfl heq
      · obtain ⟨value', hfind, hV'⟩ := hrest' K hK
        exact ⟨value', by simp [heq, hfind], hV'⟩

variable {auth : SavedAuth} {kind : String}

variable {id : Option Str} {secret : Secret}

theorem storeSecret_ok (h : storeSecret io id (newKeychainId io kind) secret s = (.ok K, s')) :
    id = some K ∨ NewSince io s.calls s'.calls K := by
  obtain ⟨K', s₁, hid, h⟩ := (bind_ok_iff).mp h
  obtain ⟨u, hstore, rfl⟩ := bind_pure_ok h
  have hcalls := outside_ok io hstore
  cases id with
  | some id =>
    obtain ⟨rfl, -⟩ := pure_ok hid
    exact .inl rfl
  | none =>
    cases hid
    refine .inr ⟨s.calls, kind.toList, le_rfl, ?_, rfl⟩
    rw [hcalls]
    exact Nat.lt_succ_of_lt (Nat.lt_succ_self _)

variable {result : SavedAuth × Option Secret}

theorem storedAuth_ok {auth : Str → SavedAuth}
    (hauth : ∀ K, collectKeychainIdsForAuth (auth K) = [K])
    (h : (storeSecret io id (newKeychainId io kind) secret >>= fun K =>
      pure (auth K, some secret)) s = (.ok result, s')) :
    ∀ K ∈ collectKeychainIdsForAuth result.1, id = some K ∨ NewSince io s.calls s'.calls K := by
  obtain ⟨K', hstore, rfl⟩ := bind_pure_ok h
  intro K hK
  rw [hauth, List.mem_singleton] at hK
  subst hK
  exact storeSecret_ok io hstore

theorem plainAuth_ok {entry : Option Str} (hauth : collectKeychainIdsForAuth auth = entry.toList) :
    ∀ K ∈ collectKeychainIdsForAuth auth, entry = some K ∨ NewSince io first last K := by
  intro K hK
  rw [hauth, Option.mem_toList] at hK
  exact .inl hK

theorem materializeAuth_ok
    (h : materializeAuthWithRuntimeSecret io auth existingAuth s = (.ok result, s')) :
    ∀ K ∈ collectKeychainIdsForAuth result.1,
      authEntry auth existingAuth = some K ∨ NewSince io s.calls s'.calls K := by
  cases auth with
  | password keychainId plaintext =>
    cases plaintext with
    | none =>
      obtain ⟨rfl, rfl⟩ := pure_ok h
      cases keychainId <;> exact plainAuth_ok io rfl
    | some password => exact storedAuth_ok io (fun _ => rfl) h
  | key keyPath has keychainId plaintext =>
    cases plaintext with
    | none =>
      simp only [materializeAuthWithRuntimeSecret] at h
      simp only [authEntry]
      cases hmatch : matchingKeyPassphrase existingAuth keyPath with
      | none =>
        rw [hmatch] at h
        obtain ⟨rfl, rfl⟩ := pure_ok h
        cases keychainId <;> exact plainAuth_ok io rfl
      | some found =>
        rw [hmatch] at h
        obtain ⟨rfl, rfl⟩ := pure_ok h
        obtain ⟨has', id⟩ := found
        cases id <;> exact plainAuth_ok io rfl
    | some passphrase => exact storedAuth_ok io (fun _ => rfl) h
  | certificate keyPath certPath has keychainId plaintext =>
    cases plaintext with
    | none =>
      simp only [materializeAuthWithRuntimeSecret] at h
      simp only [authEntry]
      cases hmatch : matchingCertificatePassphrase existingAuth keyPath certPath with
      | none =>
        rw [hmatch] at h
        obtain ⟨rfl, rfl⟩ := pure_ok h
        cases keychainId <;> exact plainAuth_ok io rfl
      | some found =>
        rw [hmatch] at h
        obtain ⟨rfl, rfl⟩ := pure_ok h
        obtain ⟨has', id⟩ := found
        cases id <;> exact plainAuth_ok io rfl
    | some passphrase => exact storedAuth_ok io (fun _ => rfl) h
  | managedKey keyId keychainId plaintext =>
    cases plaintext with
    | none =>
      obtain ⟨rfl, rfl⟩ := pure_ok h
      simp only [authEntry]
      cases (matchingManagedKeyPassphraseId existingAuth keyId).or keychainId <;>
        exact plainAuth_ok io rfl
    | some passphrase => exact storedAuth_ok io (fun _ => rfl) h
  | keyboardInteractive =>
    obtain ⟨rfl, rfl⟩ := pure_ok h
    exact fun K hK => absurd hK List.not_mem_nil
  | agent =>
    obtain ⟨rfl, rfl⟩ := pure_ok h
    exact fun K hK => absurd hK List.not_mem_nil

theorem materializeProxyHop_ok {hop : SavedProxyHop} {result : SavedProxyHop × Option Secret}
    (h : materializeProxyHop io hop s = (.ok result, s')) :
    ∀ K ∈ collectKeychainIdsForAuth result.1.auth,
      authEntry hop.auth none = some K ∨ NewSince io s.calls s'.calls K := by
  obtain ⟨⟨auth, secret⟩, s₁, hauth, h⟩ := (bind_ok_iff).mp h
  obtain ⟨host, s₂, hhost, h⟩ := (bind_ok_iff).mp h
  obtain ⟨username, husername, rfl⟩ := bind_pure_ok h
  have hs₂ : s₂ = s₁ := (congrArg Prod.snd hhost).symm
  have hs' : s' = s₂ := (congrArg Prod.snd husername).symm
  rw [hs', hs₂]
  exact materializeAuth_ok io hauth

theorem each_ok {β : Type} {xs : List α} {body : α → StoreM β} {V : α → Nat → Nat → β → Prop}
    (hprep : ∀ x, Preparing (body x))
    (hV : ∀ x s b s', body x s = (.ok b, s') → V x s.calls s'.calls b) {bs : List β}
    (h : each xs body s = (.ok bs, s')) :
    ∀ b ∈ bs, ∃ x ∈ xs, ∃ first last, s.calls ≤ first ∧ last ≤ s'.calls ∧ V x first last b := by
  induction xs generalizing s bs with
  | nil =>
    obtain ⟨rfl, -⟩ := pure_ok h
    exact fun b hb => absurd hb List.not_mem_nil
  | cons x xs ih =>
    obtain ⟨b₁, s₁, hbody, h⟩ := (bind_ok_iff).mp h
    obtain ⟨bs₁, hrest, rfl⟩ := bind_pure_ok h
    have hfirst := (hprep x s).calls
    have hlast : Prepares s₁ (each xs body s₁).2 := Preparing.each (fun x _ => hprep x) s₁
    rw [hbody] at hfirst
    rw [hrest] at hlast
    intro b hb
    rcases List.mem_cons.mp hb with rfl | hb
    · exact ⟨x, List.mem_cons_self, _, _, le_rfl, hlast.calls, hV x s _ s₁ hbody⟩
    · obtain ⟨y, hy, first, last, hle, hle', hVy⟩ := ih hrest b hb
      exact ⟨y, List.mem_cons_of_mem _ hy, first, last, hfirst.trans hle, hle', hVy⟩

variable {proxyChain : List SavedProxyHop}

theorem materializeProxyChain_ok {result : List SavedProxyHop × List (Option Secret)}
    (h : materializeProxyChainWithRuntimeSecrets io proxyChain s = (.ok result, s')) :
    EntriesFrom io s.calls (proxyChain.filterMap (authEntry ·.auth none))
      (result.1.flatMap (collectKeychainIdsForAuth ·.auth)) s'.calls := by
  obtain ⟨hops, hhops, rfl⟩ := bind_pure_ok h
  intro K hK
  obtain ⟨hop', hhop', hK⟩ := List.mem_flatMap.mp hK
  obtain ⟨pair, hpair, rfl⟩ := List.mem_map.mp hhop'
  have hround := each_ok (V := fun (hop : SavedProxyHop) first last
      (pair : SavedProxyHop × Option Secret) =>
        ∀ K ∈ collectKeychainIdsForAuth pair.1.auth,
          authEntry hop.auth none = some K ∨ NewSince io first last K)
    (preparing_materializeProxyHop io) (fun hop s pair s' hrun => materializeProxyHop_ok io hrun)
    hhops pair hpair
  obtain ⟨hop, hhop, first, last, hfirst, hlast, hV⟩ := hround
  rcases hV K hK with hkept | hnew
  · exact .inl (List.mem_filterMap.mpr ⟨hop, hhop, hkept⟩)
  · exact .inr (hnew.widen hfirst hlast)

theorem materializeUpstreamProxyAuth_ok {proxy : SavedUpstreamProxyConfig}
    {result : SavedUpstreamProxyAuth × Option Secret}
    (h : materializeUpstreamProxyAuthWithRuntimeSecret io proxy.auth existingPolicy s =
      (.ok result, s')) {proxy' : SavedUpstreamProxyConfig} (hproxy' : proxy'.auth = result.1) :
    ∀ K ∈ collectKeychainIdsForUpstreamProxy (.custom proxy'),
      upstreamEntry (.custom proxy) existingPolicy = some K ∨ NewSince io s.calls s'.calls K := by
  cases hauth : proxy.auth with
  | none =>
    rw [hauth] at h
    obtain ⟨rfl, rfl⟩ := pure_ok h
    intro K hK
    simp only [collectKeychainIdsForUpstreamProxy, hproxy'] at hK
    exact absurd hK List.not_mem_nil
  | password username keychainId plaintext =>
    rw [hauth] at h
    obtain ⟨name, s₁, hname, h⟩ := (bind_ok_iff).mp h
    have hs₁ : s₁ = s := (congrArg Prod.snd hname).symm
    cases plaintext with
    | none =>
      obtain ⟨rfl, rfl⟩ := pure_ok h
      intro K hK
      simp only [collectKeychainIdsForUpstreamProxy, hproxy'] at hK
      simp only [upstreamEntry, hauth]
      cases keychainId with
      | none => exact absurd hK List.not_mem_nil
      | some id => exact .inl (congrArg some (List.mem_singleton.mp hK).symm)
    | some password =>
      obtain ⟨K', hstore, rfl⟩ := bind_pure_ok h
      intro K hK
      simp only [collectKeychainIdsForUpstreamProxy, hproxy', List.mem_singleton] at hK
      subst hK
      simp only [upstreamEntry, hauth]
      rw [← hs₁]
      exact storeSecret_ok io hstore

theorem materializeUpstreamProxyPolicy_ok {result : SavedUpstreamProxyPolicy × Option Secret}
    (h : materializeUpstreamProxyPolicyWithRuntimeSecret io policy existingPolicy s =
      (.ok result, s')) :
    ∀ K ∈ collectKeychainIdsForUpstreamProxy result.1,
      upstreamEntry policy existingPolicy = some K ∨ NewSince io s.calls s'.calls K := by
  cases policy with
  | useGlobal =>
    obtain ⟨rfl, rfl⟩ := pure_ok h
    exact fun K hK => absurd hK List.not_mem_nil
  | direct =>
    obtain ⟨rfl, rfl⟩ := pure_ok h
    exact fun K hK => absurd hK List.not_mem_nil
  | custom proxy =>
    obtain ⟨⟨auth, secret⟩, s₁, hauth, h⟩ := (bind_ok_iff).mp h
    obtain ⟨host, hhost, rfl⟩ := bind_pure_ok h
    have hs' : s' = s₁ := (congrArg Prod.snd hhost).symm
    rw [hs']
    exact materializeUpstreamProxyAuth_ok io hauth rfl

/-- A credential keeps no secret in plain text. -/
theorem materializePrivilegeCredentials_ok {connectionId : Str}
    {credentials : List SavedPrivilegeCredential}
    {result : List SavedPrivilegeCredential × List Str}
    (h : materializePrivilegeCredentials io connectionId credentials s = (.ok result, s')) :
    ∀ credential ∈ result.1, credential.plaintextSecret = none := by
  obtain ⟨rounds, hrounds, rfl⟩ := bind_pure_ok h
  intro credential hcredential
  obtain ⟨pair, hpair, rfl⟩ := List.mem_map.mp hcredential
  have hround : ∀ (credential : SavedPrivilegeCredential) s
      (pair : SavedPrivilegeCredential × Option Str) s',
      materializePrivilegeCredential io connectionId credential s = (.ok pair, s') →
      pair.1.plaintextSecret = none := by
    intro credential s pair s' hrun
    unfold materializePrivilegeCredential at hrun
    cases hsecret : credential.plaintextSecret with
    | none =>
      rw [hsecret] at hrun
      obtain ⟨rfl, -⟩ := pure_ok hrun
      rfl
    | some secret =>
      rw [hsecret] at hrun
      obtain ⟨u, s₁, -, hrun⟩ := (bind_ok_iff).mp hrun
      obtain ⟨rfl, -⟩ := pure_ok hrun
      rfl
  obtain ⟨-, -, -, -, -, -, hplain⟩ := each_ok
    (V := fun (_ : SavedPrivilegeCredential) _ _ (pair : SavedPrivilegeCredential × Option Str) =>
      pair.1.plaintextSecret = none)
    (preparing_materializePrivilegeCredential io connectionId) hround hrounds pair hpair
  exact hplain

variable {proxyChain' : List SavedProxyHop}

theorem parts_of_materialize {auth' : SavedAuth} {upstreamProxy' : SavedUpstreamProxyPolicy}
    {m : Nat} (hauth : EntriesFrom io first (authEntry auth (existing.map (·.auth))).toList
      (collectKeychainIdsForAuth auth') m)
    (hchain : EntriesFrom io first (proxyChain.filterMap (authEntry ·.auth none))
      (proxyChain'.flatMap (collectKeychainIdsForAuth ·.auth)) m) (hupstream : EntriesFrom io first
      (upstreamEntry upstreamProxy (existing.map (·.upstreamProxy))).toList
      (collectKeychainIdsForUpstreamProxy upstreamProxy') m) :
    EntriesFrom io first (keptEntries auth proxyChain upstreamProxy existing)
      (collectKeychainIdsForParts auth' proxyChain' upstreamProxy') m := by
  intro K hK
  rcases List.mem_append.mp hK with hK | hK
  · exact (hauth K hK).imp_left fun h => List.mem_append_left _ h
  · rcases List.mem_append.mp hK with hK | hK
    · exact (hchain K hK).imp_left fun h => List.mem_append_right _ (List.mem_append_left _ h)
    · exact (hupstream K hK).imp_left fun h => List.mem_append_right _ (List.mem_append_right _ h)

/-! ## 4. Copies -/

/-- The entry a copy shares with its original: that of a managed key's passphrase. -/
def sharedAuthEntries : SavedAuth → List Str
  | .managedKey _ (some keychainId) _ => [keychainId]
  | _ => []

/-- The entries a copy of a connection shares with it. -/
def sharedEntries (connection : SavedConnection) : List Str :=
  sharedAuthEntries connection.auth ++
    (connection.proxyChain.flatMap (sharedAuthEntries ·.auth) ++
      collectKeychainIdsForUpstreamProxy connection.upstreamProxy)

theorem cloneSecret_ok {keychainId : Str}
    (h : cloneSecret io keychainId (newKeychainId io kind) s = (.ok K, s')) :
    NewSince io s.calls s'.calls K := by
  obtain ⟨secret, s₁, hget, h⟩ := (bind_ok_iff).mp h
  obtain ⟨K', s₂, hnew, h⟩ := (bind_ok_iff).mp h
  obtain ⟨u, hstore, rfl⟩ := bind_pure_ok h
  have hread := (preparing_keychainGet io keychainId s).calls
  rw [hget] at hread
  have hcalls := outside_ok io hstore
  cases hnew
  refine ⟨s₁.calls, kind.toList, hread, ?_, rfl⟩
  rw [hcalls]
  exact Nat.lt_succ_of_lt (Nat.lt_succ_self _)

variable {auth' : SavedAuth}

theorem cloneAuthSecret_ok (h : cloneAuthSecret io auth s = (.ok auth', s')) :
    EntriesFrom io s.calls (sharedAuthEntries auth) (collectKeychainIdsForAuth auth') s'.calls := by
  have hcloned : ∀ {id : Str} {kind : String} {mk : Str → SavedAuth},
      (∀ K, collectKeychainIdsForAuth (mk K) = [K]) →
      (cloneSecret io id (newKeychainId io kind) >>= fun K => pure (mk K)) s = (.ok auth', s') →
      EntriesFrom io s.calls (sharedAuthEntries auth) (collectKeychainIdsForAuth auth')
        s'.calls := by
    intro id kind mk hmk h
    obtain ⟨K', hclone, rfl⟩ := bind_pure_ok h
    intro K hK
    rw [hmk, List.mem_singleton] at hK
    subst hK
    exact .inr (cloneSecret_ok io hclone)
  cases auth with
  | password keychainId plaintext =>
    cases keychainId with
    | none =>
      obtain ⟨rfl, rfl⟩ := pure_ok h
      exact fun K hK => absurd hK List.not_mem_nil
    | some id => exact hcloned (fun _ => rfl) h
  | key keyPath has keychainId plaintext =>
    cases keychainId with
    | none =>
      obtain ⟨rfl, rfl⟩ := pure_ok h
      exact fun K hK => absurd hK List.not_mem_nil
    | some id => exact hcloned (fun _ => rfl) h
  | certificate keyPath certPath has keychainId plaintext =>
    cases keychainId with
    | none =>
      obtain ⟨rfl, rfl⟩ := pure_ok h
      exact fun K hK => absurd hK List.not_mem_nil
    | some id => exact hcloned (fun _ => rfl) h
  | managedKey keyId keychainId plaintext =>
    obtain ⟨rfl, rfl⟩ := pure_ok h
    cases keychainId with
    | none => exact fun K hK => absurd hK List.not_mem_nil
    | some id => exact fun K hK => .inl hK
  | keyboardInteractive =>
    obtain ⟨rfl, rfl⟩ := pure_ok h
    exact fun K hK => absurd hK List.not_mem_nil
  | agent =>
    obtain ⟨rfl, rfl⟩ := pure_ok h
    exact fun K hK => absurd hK List.not_mem_nil

theorem cloneProxyChain_ok (h : each proxyChain (cloneProxyHop io) s = (.ok proxyChain', s')) :
    EntriesFrom io s.calls (proxyChain.flatMap (sharedAuthEntries ·.auth))
      (proxyChain'.flatMap (collectKeychainIdsForAuth ·.auth)) s'.calls := by
  intro K hK
  obtain ⟨hop', hhop', hK⟩ := List.mem_flatMap.mp hK
  have hround := each_ok (V := fun (hop : SavedProxyHop) first last (hop' : SavedProxyHop) =>
      EntriesFrom io first (sharedAuthEntries hop.auth) (collectKeychainIdsForAuth hop'.auth) last)
    (preparing_cloneProxyHop io) ?_ h hop' hhop'
  · obtain ⟨hop, hhop, first, last, hfirst, hlast, hV⟩ := hround
    rcases hV K hK with hshared | hnew
    · exact .inl (List.mem_flatMap.mpr ⟨hop, hhop, hshared⟩)
    · exact .inr (hnew.widen hfirst hlast)
  · intro hop s hop' s' hrun
    obtain ⟨auth, hauth, rfl⟩ := bind_pure_ok hrun
    exact cloneAuthSecret_ok io hauth

end ConnectionStore

end Hapcli.Connections
