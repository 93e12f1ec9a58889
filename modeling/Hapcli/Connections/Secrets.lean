/-
  Subject:   Where the secrets of a connection go: from the plain text of a request into the
             keychain, from one connection to its copy.

  A secret hangs off the authentication, off every proxy hop and off the upstream proxy.
-/
import Hapcli.Connections.Store

namespace Hapcli.Connections

open Hapcli.Lib Hapcli.Rust
open Lib.Action (lift attempt each)

/-! ## 1. The entries a connection refers to -/

def collectKeychainIdsForAuth : SavedAuth → List Str
  | .password (some keychainId) _ => [keychainId]
  | .key _ _ (some keychainId) _ => [keychainId]
  | .certificate _ _ _ (some keychainId) _ => [keychainId]
  | .managedKey _ (some keychainId) _ => [keychainId]
  | _ => []

def collectKeychainIdsForUpstreamProxy : SavedUpstreamProxyPolicy → List Str
  | .custom proxy =>
    match proxy.auth with
    | .password _ (some keychainId) _ => [keychainId]
    | _ => []
  | _ => []

def collectKeychainIdsForParts (auth : SavedAuth) (proxyChain : List SavedProxyHop)
    (upstreamProxy : SavedUpstreamProxyPolicy) : List Str :=
  collectKeychainIdsForAuth auth ++
    (proxyChain.flatMap (collectKeychainIdsForAuth ·.auth) ++
      collectKeychainIdsForUpstreamProxy upstreamProxy)

def collectConnectionKeychainIds (connection : SavedConnection) : List Str :=
  collectKeychainIdsForParts connection.auth connection.proxyChain connection.upstreamProxy

def collectPrivilegeKeychainIds (connection : SavedConnection) : List Str :=
  connection.privilegeCredentials.filterMap (·.keychainId)

/-! ## 2. Names of entries -/

def existingPasswordKeychainId : Option SavedAuth → Option Str
  | some (.password keychainId _) => keychainId
  | _ => none

def existingUpstreamProxyPasswordKeychainId : Option SavedUpstreamProxyPolicy → Option Str
  | some (.custom proxy) =>
    match proxy.auth with
    | .password _ keychainId _ => keychainId
    | .none => none
  | _ => none

variable (auth : Option SavedAuth)

def matchingKeyPassphrase (keyPath : Str) : Option (Bool × Option Str) :=
  match auth with
  | some (.key existingKeyPath hasPassphrase passphraseKeychainId _) =>
    if existingKeyPath = keyPath then some (hasPassphrase, passphraseKeychainId) else none
  | _ => none

def matchingKeyPassphraseId (keyPath : Str) : Option Str :=
  (matchingKeyPassphrase auth keyPath).bind (·.2)

def matchingCertificatePassphrase (keyPath certPath : Str) : Option (Bool × Option Str) :=
  match auth with
  | some (.certificate existingKeyPath existingCertPath hasPassphrase passphraseKeychainId _) =>
    if existingKeyPath = keyPath ∧ existingCertPath = certPath then
      some (hasPassphrase, passphraseKeychainId)
    else none
  | _ => none

def matchingCertificatePassphraseId (keyPath certPath : Str) : Option Str :=
  (matchingCertificatePassphrase auth keyPath certPath).bind (·.2)

def matchingManagedKeyPassphraseId (keyId : Str) : Option Str :=
  match auth with
  | some (.managedKey existingKeyId passphraseKeychainId _) =>
    if existingKeyId = keyId then passphraseKeychainId else none
  | _ => none

def privilegeKeychainId (connectionId credentialId : Str) : Str :=
  "privilege:v1:".toList ++ connectionId ++ ':' :: credentialId

def remoteDesktopCredentialRef (profileId : Str) : Str := "remote-desktop:".toList ++ profileId

namespace ConnectionStore

variable (io : Io)

/-- `new_password_keychain_id`, `new_key_passphrase_keychain_id` and
    `new_upstream_proxy_password_keychain_id` differ in what stands before the UUID. -/
def newKeychainId (kind : String) : StoreM Str := do
  let uuid ← newUuid io
  pure (kind.toList ++ uuid)

def newPasswordKeychainId : StoreM Str := newKeychainId io "oxide_conn_"

def newKeyPassphraseKeychainId : StoreM Str := newKeychainId io "oxide_conn_key_"

def newUpstreamProxyPasswordKeychainId : StoreM Str :=
  newKeychainId io "oxide_conn_upstream_proxy_"

/-- `.unwrap_or_else(new_..)`: the id there is, or a new one. -/
def orNewId (id : Option Str) (new : StoreM Str) : StoreM Str :=
  match id with
  | some id => pure id
  | none => new

/-- A secret goes under the id there is, or under a new one. -/
def storeSecret (id : Option Str) (new : StoreM Str) (secret : Secret) : StoreM Str := do
  let keychainId ← orNewId id new
  keychainStore io keychainId secret
  pure keychainId

/-! ## 3. Plain text becomes an entry -/

variable (auth : SavedAuth)

def materializeAuthWithRuntimeSecret (existingAuth : Option SavedAuth) :
    StoreM (SavedAuth × Option Secret) :=
  match auth with
  | .password keychainId (some password) => do
      let keychainId ← storeSecret io ((existingPasswordKeychainId existingAuth).or keychainId)
        (newPasswordKeychainId io) password
      pure (.password (some keychainId) none, some password)
  | .password keychainId none => pure (.password keychainId none, none)
  | .key keyPath _ passphraseKeychainId (some passphrase) => do
      let keychainId ←
        storeSecret io ((matchingKeyPassphraseId existingAuth keyPath).or passphraseKeychainId)
          (newKeyPassphraseKeychainId io) passphrase
      pure (.key keyPath true (some keychainId) none, some passphrase)
  | .key keyPath hasPassphrase passphraseKeychainId none =>
    match matchingKeyPassphrase existingAuth keyPath with
    | some (hasPassphrase, passphraseKeychainId) =>
      pure (.key keyPath hasPassphrase passphraseKeychainId none, none)
    | none =>
      pure (.key keyPath (hasPassphrase || passphraseKeychainId.isSome) passphraseKeychainId
        none, none)
  | .certificate keyPath certPath _ passphraseKeychainId (some passphrase) => do
      let keychainId ←
        storeSecret io
          ((matchingCertificatePassphraseId existingAuth keyPath certPath).or passphraseKeychainId)
          (newKeyPassphraseKeychainId io) passphrase
      pure (.certificate keyPath certPath true (some keychainId) none, some passphrase)
  | .certificate keyPath certPath hasPassphrase passphraseKeychainId none =>
    match matchingCertificatePassphrase existingAuth keyPath certPath with
    | some (hasPassphrase, passphraseKeychainId) =>
      pure (.certificate keyPath certPath hasPassphrase passphraseKeychainId none, none)
    | none =>
      pure (.certificate keyPath certPath (hasPassphrase || passphraseKeychainId.isSome)
        passphraseKeychainId none, none)
  | .managedKey keyId passphraseKeychainId (some passphrase) => do
      let keychainId ←
        storeSecret io ((matchingManagedKeyPassphraseId existingAuth keyId).or passphraseKeychainId)
          (newKeyPassphraseKeychainId io) passphrase
      pure (.managedKey keyId (some keychainId) none, some passphrase)
  | .managedKey keyId passphraseKeychainId none =>
    pure (.managedKey keyId
      ((matchingManagedKeyPassphraseId existingAuth keyId).or passphraseKeychainId) none, none)
  | .keyboardInteractive => pure (.keyboardInteractive, none)
  | .agent => pure (.agent, none)

def materializeAuth (existingAuth : Option SavedAuth) : StoreM SavedAuth := do
  let (auth, _) ← materializeAuthWithRuntimeSecret io auth existingAuth
  pure auth

/-- One round of `materialize_proxy_chain_with_runtime_secrets`: the secret first, then the checks
    of host and user name. -/
def materializeProxyHop (hop : SavedProxyHop) : StoreM (SavedProxyHop × Option Secret) := do
  let (auth, runtimeSecret) ← materializeAuthWithRuntimeSecret io hop.auth none
  let host ← lift (nonEmpty (trim hop.host) "Proxy host")
  let username ← lift (nonEmpty (trim hop.username) "Proxy username")
  pure ({ hop with host, port := max hop.port 1, username, auth }, runtimeSecret)

def materializeProxyChainWithRuntimeSecrets (proxyChain : List SavedProxyHop) :
    StoreM (List SavedProxyHop × List (Option Secret)) := do
  let hops ← each proxyChain (materializeProxyHop io)
  pure (hops.map (·.1), hops.map (·.2))

def materializeProxyChain (proxyChain : List SavedProxyHop) : StoreM (List SavedProxyHop) := do
  let (proxyChain, _) ← materializeProxyChainWithRuntimeSecrets io proxyChain
  pure proxyChain

def materializeUpstreamProxyAuthWithRuntimeSecret (auth : SavedUpstreamProxyAuth)
    (existingPolicy : Option SavedUpstreamProxyPolicy) :
    StoreM (SavedUpstreamProxyAuth × Option Secret) :=
  match auth with
  | .none => pure (.none, none)
  | .password username keychainId plaintextPassword => do
      let username ← lift (nonEmpty (trim username) "Upstream proxy username")
      match plaintextPassword with
      | some password => do
          let keychainId ←
            storeSecret io ((existingUpstreamProxyPasswordKeychainId existingPolicy).or keychainId)
              (newUpstreamProxyPasswordKeychainId io) password
          pure (.password username (some keychainId) none, some password)
      | none => pure (.password username keychainId none, none)

/-- `materialize_upstream_proxy_policy_with_runtime_secret`: the secret first, then the check of the
    host. -/
def materializeUpstreamProxyPolicyWithRuntimeSecret (policy : SavedUpstreamProxyPolicy)
    (existingPolicy : Option SavedUpstreamProxyPolicy) :
    StoreM (SavedUpstreamProxyPolicy × Option Secret) :=
  match policy with
  | .useGlobal => pure (.useGlobal, none)
  | .direct => pure (.direct, none)
  | .custom proxy => do
      let (auth, runtimeSecret) ←
        materializeUpstreamProxyAuthWithRuntimeSecret io proxy.auth existingPolicy
      let host ← lift (nonEmpty (trim proxy.host) "Upstream proxy host")
      pure (.custom
        { proxy with host, port := max proxy.port 1, auth, noProxy := trim proxy.noProxy },
        runtimeSecret)

def materializeUpstreamProxyPolicy (policy : SavedUpstreamProxyPolicy)
    (existingPolicy : Option SavedUpstreamProxyPolicy) : StoreM SavedUpstreamProxyPolicy := do
  let (policy, _) ← materializeUpstreamProxyPolicyWithRuntimeSecret io policy existingPolicy
  pure policy

/-- `self.privilege_keychain.store`. -/
def privilegeKeychainStore (id : Str) (secret : Secret) : StoreM Unit :=
  outside io fun s => { s with privilegeKeychain := s.privilegeKeychain.insert id secret }

/-- `self.privilege_keychain.delete`. -/
def privilegeKeychainDelete (id : Str) : StoreM Unit :=
  outside io fun s => { s with privilegeKeychain := s.privilegeKeychain.erase id }

/-- One round of `materialize_privilege_credentials`: the credential, and the entry it touched. -/
def materializePrivilegeCredential (connectionId : Str) (credential : SavedPrivilegeCredential) :
    StoreM (SavedPrivilegeCredential × Option Str) := do
  let ownerId :=
    if (trim credential.connectionId).isEmpty then connectionId else credential.connectionId
  match credential.plaintextSecret with
  | none => pure ({ credential with connectionId := ownerId }, none)
  | some secret => do
      let keychainId := privilegeKeychainId ownerId credential.id
      privilegeKeychainStore io keychainId secret
      pure ({ credential with
        connectionId := ownerId, plaintextSecret := none, keychainId := some keychainId },
        some keychainId)

def materializePrivilegeCredentials (connectionId : Str)
    (credentials : List SavedPrivilegeCredential) :
    StoreM (List SavedPrivilegeCredential × List Str) := do
  let materialized ← each credentials (materializePrivilegeCredential io connectionId)
  pure (materialized.map (·.1), materialized.filterMap (·.2))

/-! ## 4. Copies -/

/-- The secret under an id, stored again under a new one. -/
def cloneSecret (keychainId : Str) (new : StoreM Str) : StoreM Str := do
  let secret ← keychainGet io keychainId
  let nextKeychainId ← new
  keychainStore io nextKeychainId secret
  pure nextKeychainId

/-- `clone_auth_secret`: an entry of its own for every kind but the managed key, whose entry the
    copy shares. -/
def cloneAuthSecret : StoreM SavedAuth :=
  match auth with
  | .password (some keychainId) _ => do
      let nextKeychainId ← cloneSecret io keychainId (newPasswordKeychainId io)
      pure (.password (some nextKeychainId) none)
  | .password none _ => pure (.password none none)
  | .key keyPath hasPassphrase (some passphraseKeychainId) _ => do
      let nextKeychainId ← cloneSecret io passphraseKeychainId (newKeyPassphraseKeychainId io)
      pure (.key keyPath hasPassphrase (some nextKeychainId) none)
  | .certificate keyPath certPath hasPassphrase (some passphraseKeychainId) _ => do
      let nextKeychainId ← cloneSecret io passphraseKeychainId (newKeyPassphraseKeychainId io)
      pure (.certificate keyPath certPath hasPassphrase (some nextKeychainId) none)
  | auth => pure auth

/-! ## 5. Managed keys -/

/-- `self.managed_keychain.store`. -/
def managedKeychainStore (id : Str) (secret : Secret) : StoreM Unit :=
  outside io fun s => { s with managedKeychain := s.managedKeychain.insert id secret }

/-- `self.managed_keychain.delete`. -/
def managedKeychainDelete (id : Str) : StoreM Unit :=
  outside io fun s => { s with managedKeychain := s.managedKeychain.erase id }

/-- `get_or_create_config_encryption_key`: whether the key was created. -/
def getOrCreateConfigEncryptionKey : StoreM Bool := do
  let s ← getThe ConnectionStore
  outside io fun s => { s with configKey := true }
  pure !s.configKey

/-- `store_managed_ssh_key_secret`: the keychain, or else an encrypted file. -/
def storeManagedSshKeySecret (secretId : Str) (secret : Secret) : StoreM Bool := do
  if ← attempt (managedKeychainStore io secretId secret) then pure false
  else
    let _ ← attempt (managedKeychainDelete io secretId)
    let createdConfigKey ← getOrCreateConfigEncryptionKey io
    outside io fun s => { s with managedFiles := s.managedFiles.insert secretId secret }
    pure createdConfigKey

def getManagedSshKeySecret (secretId : Str) : StoreM Secret := do
  let readable ← attempt (outside io fun s => s)
  let s ← getThe ConnectionStore
  match if readable then s.managedKeychain.lookup secretId else none with
  | some secret => pure secret
  | none => do
      outside io fun s => s
      if !s.configKey then bail "Managed SSH key secret unavailable from keychain".toList
      match s.managedFiles.lookup secretId with
      | some secret => pure secret
      | none => bail "managed SSH key secret unavailable from keychain".toList

/-- `delete_managed_ssh_key_secret`: it fails only where the file cannot be removed. -/
def deleteManagedSshKeySecret (secretId : Str) : StoreM Unit := do
  let _ ← attempt (managedKeychainDelete io secretId)
  outside io fun s => { s with managedFiles := s.managedFiles.erase secretId }

end ConnectionStore

end Hapcli.Connections
