/-
  Subject:   The in-memory host key cache and the functions that ask it (`host_key.rs`).

  A time is a number of nanoseconds, and the time a call reads is an argument of it: the clock is
  the system's, and it may be set back.

  * `hostKeyTrust_iff` -- **the answer rests on the presented key exactly if the fingerprint that is
    cached for the host and port, if any, is the one of that key**.
-/
import Hapcli.Ssh.KnownHosts

namespace Hapcli.Ssh

open Hapcli.Rust

/-! ## 1. The cache -/

def cacheTtlSecs : Nat := 3600
def maxCacheEntries : Nat := 500
def nanosPerSec : Nat := 1000000000

structure CacheEntry where
  fingerprint : Str
  verifiedAt : Nat
  deriving DecidableEq

/-- `HostKeyCache`: its entries in the order an iteration meets them. -/
structure HostKeyCache where
  cache : List (Str × CacheEntry) := []
  deriving DecidableEq

/-- `SystemTime::elapsed`; a time that is still to come has none. -/
def elapsed (now time : Nat) : Option Nat := if time ≤ now then some (now - time) else none

section Cache

variable (toLowercase : Str → Str)

def hostKeyCacheKey (host : Str) (port : UInt16) : Str :=
  toLowercase host ++ ':' :: numToString port.toNat

namespace HostKeyCache

variable (cache : HostKeyCache)

/-- `cache.get`. -/
def get (key : Str) : Option CacheEntry := cache.cache.lookup key

/-- `cache.remove`. -/
def remove (key : Str) : HostKeyCache :=
  ⟨cache.cache.filter fun entry => entry.1 ≠ key⟩

/-- `cache.insert`. -/
def insert (key : Str) (entry : CacheEntry) : HostKeyCache :=
  ⟨(cache.remove key).cache ++ [(key, entry)]⟩

/-- `get_verified`: the fingerprint, and the cache without an entry that has expired. -/
def getVerified (now : Nat) (host : Str) (port : UInt16) : Option Str × HostKeyCache :=
  let key := hostKeyCacheKey toLowercase host port
  match cache.get key with
  | none => (none, cache)
  | some entry =>
    match elapsed now entry.verifiedAt with
    | none => (none, cache)
    | some elapsed =>
      if elapsed / nanosPerSec < cacheTtlSecs then (some entry.fingerprint, cache)
      else (none, cache.remove key)

def evictExpired (now : Nat) : HostKeyCache :=
  let expired := cache.cache.filter fun entry =>
    match elapsed now entry.2.verifiedAt with
    | some elapsed => decide (cacheTtlSecs ≤ elapsed / nanosPerSec)
    | none => true
  (expired.map (·.1)).foldl remove cache

/-- The eviction of the oldest quarter of a full cache. -/
def evictOldest : HostKeyCache :=
  let entries := cache.cache.mergeSort fun a b => decide (a.2.verifiedAt ≤ b.2.verifiedAt)
  ((entries.take (maxCacheEntries / 4)).map (·.1)).foldl remove cache

def setVerified (now : Nat) (host : Str) (port : UInt16) (fingerprint : Str) : HostKeyCache :=
  let cache := if maxCacheEntries ≤ cache.cache.length then cache.evictExpired now else cache
  let cache := if maxCacheEntries ≤ cache.cache.length then cache.evictOldest else cache
  cache.insert (hostKeyCacheKey toLowercase host port) ⟨fingerprint, now⟩

end HostKeyCache

end Cache

/-! ## 2. The functions -/

/-- What the functions share: the cache, and the file under the default path. -/
structure HostKeys where
  cache : HostKeyCache := {}
  file : KnownHostsFile := .missing
  deriving DecidableEq

section Functions

variable {K : Type} [PublicKey K] (toLowercase : Str → Str)

def verifyHostKey (keys : HostKeys) (now : Nat) (host : Str) (port : UInt16) (key : K) :
    Except SshTransportError HostKeyVerification × HostKeys :=
  match keys.cache.getVerified toLowercase now host port with
  | (some _, cache) => (.ok .verified, { keys with cache })
  | (none, cache) =>
    (do
      let store ← KnownHostsStore.load toLowercase keys.file
      return store.verify toLowercase host port key, { keys with cache })

def acceptHostKeyForSession (keys : HostKeys) (now : Nat) (host : Str) (port : UInt16)
    (fingerprint : Str) : HostKeys :=
  { keys with cache := keys.cache.setVerified toLowercase now host port fingerprint }

end Functions

/-! ## 3. Trust -/

section Trust

variable {K : Type} [PublicKey K] (toLowercase : Str → Str)

/-- The answer rests on the presented key: on an entry of the file or the cached fingerprint, and
    not against the latter. -/
structure HostKeyTrust (keys : HostKeys) (now : Nat) (host : Str) (port : UInt16) (key : K) :
    Prop where
  known : (verifyHostKey toLowercase keys now host port key).1 = .ok .verified →
    (∃ store, KnownHostsStore.load toLowercase keys.file = .ok store ∧
      ∃ entry ∈ store.entriesFor toLowercase host port, entry.Matches key) ∨
    (keys.cache.getVerified toLowercase now host port).1 = some (publicKeyFingerprint key)
  other : ∀ fingerprint, (keys.cache.getVerified toLowercase now host port).1 = some fingerprint →
    fingerprint ≠ publicKeyFingerprint key →
    (verifyHostKey toLowercase keys now host port key).1 ≠ .ok .verified

variable {host : Str} {keys : HostKeys} {now : Nat} {port : UInt16}

theorem verifyHostKey_of_cached {fingerprint : Str} (key : K)
    (h : (keys.cache.getVerified toLowercase now host port).1 = some fingerprint) :
    (verifyHostKey toLowercase keys now host port key).1 = .ok .verified := by
  unfold verifyHostKey
  split
  · rfl
  · rename_i hcache
    rw [hcache] at h
    cases h

theorem verifyHostKey_of_not_cached {key : K}
    (hcached : (keys.cache.getVerified toLowercase now host port).1 = none)
    (h : (verifyHostKey toLowercase keys now host port key).1 = .ok .verified) :
    ∃ store, KnownHostsStore.load toLowercase keys.file = .ok store ∧
      ∃ entry ∈ store.entriesFor toLowercase host port, entry.Matches key := by
  unfold verifyHostKey at h
  split at h
  · rename_i hcache
    rw [hcache] at hcached
    cases hcached
  · cases hload : KnownHostsStore.load toLowercase keys.file with
    | error error =>
      rw [hload] at h
      cases h
    | ok store =>
      rw [hload] at h
      have hverify : store.verify toLowercase host port key = .verified := by
        exact Except.ok.inj h
      exact ⟨store, rfl, (verify_verified_iff toLowercase store host port key).mp hverify⟩

/-- **The answer rests on the presented key exactly if the fingerprint that is cached for the host
    and port, if any, is the one of that key.** -/
theorem hostKeyTrust_iff (keys : HostKeys) (now : Nat) (host : Str) (port : UInt16) (key : K) :
    HostKeyTrust toLowercase keys now host port key ↔
      ∀ fingerprint, (keys.cache.getVerified toLowercase now host port).1 = some fingerprint →
        fingerprint = publicKeyFingerprint key := by
  constructor
  · intro htrust fingerprint hcached
    by_cases hsame : fingerprint = publicKeyFingerprint key
    · exact hsame
    · exact absurd (verifyHostKey_of_cached toLowercase key hcached)
        (htrust.other fingerprint hcached hsame)
  · intro hcond
    refine ⟨fun hverified => ?_, fun fingerprint hcached hne => absurd (hcond _ hcached) hne⟩
    cases hcached : (keys.cache.getVerified toLowercase now host port).1 with
    | none => exact .inl (verifyHostKey_of_not_cached toLowercase hcached hverified)
    | some fingerprint =>
      rw [hcond fingerprint hcached]
      exact .inr rfl

end Trust

/-- Two keys of one kind. -/
inductive SampleKey where
  | sample
  | alternate
  deriving DecidableEq

def SampleKey.base64 : SampleKey → Str
  | .sample => "AAAAC3NzaC1lZDI1NTE5AAAAIJdD7y3aLq454yWBdwLWbieU1ebz9/cu7/QEXn9OIeZJ".toList
  | .alternate => "AAAAC3NzaC1lZDI1NTE5AAAAIA6rWI3G1sz07DnfFlrouTcysQlj2P+jpNSOEWD9OJ3X".toList

instance : PublicKey SampleKey where
  algorithm _ := "ssh-ed25519".toList
  publicKeyBase64 := SampleKey.base64
  fingerprint
    | .sample => "SHA256:T7SvZ2cslqpPj6nKzitCBHHlpVF3r3MvLwmFL0fk0IE".toList
    | .alternate => "SHA256:SvzqXV/w1JLsbntg1WRzuMw9vHAaDQHjIKLlxH0h1EM".toList
  parsePublicKeyBase64 text :=
    if text = SampleKey.base64 .sample then some .sample
    else if text = SampleKey.base64 .alternate then some .alternate
    else none

/-- Once a key is accepted for a host, another key is verified there, which no file knows. -/
theorem accepted_key_verifies_another : ¬ HostKeyTrust (K := SampleKey) (List.map Char.toLower)
      (acceptHostKeyForSession (List.map Char.toLower) {} 0 "example.com".toList 22
        (publicKeyFingerprint SampleKey.sample))
      nanosPerSec "example.com".toList 22 .alternate := by
  intro htrust
  have hcached : ((acceptHostKeyForSession (List.map Char.toLower) {} 0 "example.com".toList 22
      (publicKeyFingerprint SampleKey.sample)).cache.getVerified (List.map Char.toLower) nanosPerSec
        "example.com".toList 22).1 = some (publicKeyFingerprint SampleKey.sample) := by
    decide
  exact htrust.other _ hcached (by decide) (verifyHostKey_of_cached _ _ hcached)

end Hapcli.Ssh
