/-
  Subject:   `KnownHostsStore` (`host_key.rs`): the host keys of a `known_hosts` file.

  Public keys and their SHA-256 fingerprints come from the `russh` crate: any type with a
  `PublicKey` instance stands for them. `str::to_lowercase` needs the tables of Unicode; whatever it
  does, the functions here are given it as `toLowercase`.

  * `verify_verified_iff` -- **a key is verified exactly if it is an entry for the host and port**.
-/
import Hapcli.Rust.Text

namespace Hapcli.Ssh

open Hapcli.Rust

/-! ## 1. Keys -/

/-- `russh::keys::PublicKey`: the name of its algorithm, its encoding and its fingerprint; and
    `parse_public_key_base64`. -/
class PublicKey (K : Type) where
  algorithm : K → Str
  publicKeyBase64 : K → Str
  fingerprint : K → Str
  parsePublicKeyBase64 : Str → Option K

open PublicKey

def publicKeyFingerprint {K : Type} [PublicKey K] (key : K) : Str := fingerprint key

def publicKeyType {K : Type} [PublicKey K] (key : K) : Str :=
  if algorithm key ∈ ["ssh-ed25519".toList, "ssh-rsa".toList, "ecdsa-sha2-nistp256".toList,
      "ecdsa-sha2-nistp384".toList, "ecdsa-sha2-nistp521".toList] then algorithm key
  else "ssh-rsa".toList

inductive HostKeyVerification where
  | verified
  | unknown (fingerprint keyType : Str)
  | changed (expectedFingerprint actualFingerprint keyType : Str)
  deriving DecidableEq

/-- `SshTransportError`, the kind that host keys raise. -/
inductive SshTransportError where
  | hostKeyCheckFailed (message : Str)
  deriving DecidableEq

structure HostKeyEntry where
  keyType : Str
  keyData : Str
  deriving DecidableEq

/-! ## 2. The store -/

/-- What stands under the path of a store. -/
inductive KnownHostsFile where
  | missing
  | unreadable (error : Str)
  | text (content : Str)
  deriving DecidableEq

/-- `KnownHostsStore`: its entries, each under a canonical host name, in the order they were
    pushed. -/
structure KnownHostsStore where
  hosts : List (Str × HostKeyEntry) := []
  deriving DecidableEq

section Names

variable (toLowercase : Str → Str)

def makeKey (host : Str) (port : UInt16) : Str :=
  if port = 22 then toLowercase host
  else '[' :: toLowercase host ++ "]:".toList ++ numToString port.toNat

def normalizeHostname (host : Str) : Str :=
  let host := host.dropWhile (· == '[')
  match findStr host "]:".toList with
  | some index => toLowercase (host.take index)
  | none => toLowercase (host.reverse.dropWhile (· == ']')).reverse

/-- A host name in brackets with its port. -/
def bracketedHost (hostname : Str) : Option (Str × UInt16) :=
  match hostname with
  | '[' :: stripped => do
      let (host, portStr) ← splitOnce stripped "]:".toList
      let port ← parseUnsigned 65535 portStr
      return (host, UInt16.ofNat port)
  | _ => none

def canonicalHostEntry (hostname : Str) : Str :=
  let hostname := trim hostname
  match bracketedHost hostname with
  | some (host, port) => makeKey toLowercase host port
  | none => normalizeHostname toLowercase hostname

/-- The entries a line of the file stands for. -/
def lineEntries (line : Str) : List (Str × HostKeyEntry) :=
  let line := trim line
  if line = [] ∨ line.head? = some '#' then []
  else match splitWhitespace line with
    | hostnames :: keyType :: keyData :: _ =>
      ((hostnames.splitOnP (· == ',')).filter fun hostname => hostname.head? ≠ some '|').map
        fun hostname => (canonicalHostEntry toLowercase hostname, ⟨keyType, keyData⟩)
    | _ => []

/-- `load`, into an empty store. -/
def KnownHostsStore.load : KnownHostsFile → Except SshTransportError KnownHostsStore
  | .missing => .ok {}
  | .unreadable error => .error (.hostKeyCheckFailed error)
  | .text content => .ok ⟨(lines content).flatMap (lineEntries toLowercase)⟩

end Names

namespace KnownHostsStore

variable {K : Type} [PublicKey K] (toLowercase : Str → Str) (store : KnownHostsStore)

/-- `hosts.get`; a name that is there has an entry. -/
def get (name : Str) : Option (List HostKeyEntry) :=
  let entries := store.hosts.filterMap fun host => if host.1 = name then some host.2 else none
  if entries = [] then none else some entries

/-- The entries that are compared with a key of the host and port: those of the host with its port,
    or if there are none those of the bare host name. -/
def entriesFor (host : Str) (port : UInt16) : List HostKeyEntry :=
  match store.get (makeKey toLowercase host port) with
  | some entries => entries
  | none => (store.get (toLowercase host)).getD []

end KnownHostsStore

section Verify

variable {K : Type} [PublicKey K]

def fingerprintFromKnownHostsKeyData (K : Type) [PublicKey K] (keyData : Str) : Str :=
  match parsePublicKeyBase64 (K := K) keyData with
  | some key => publicKeyFingerprint key
  | none => "unknown".toList

/-- `check_known_host_entries`: the loop, with the fingerprint expected so far. -/
def checkKnownHostEntries (key : K) : Option Str → List HostKeyEntry → Option HostKeyVerification
  | expected, [] => expected.map fun expected =>
    .changed expected (publicKeyFingerprint key) (publicKeyType key)
  | expected, entry :: entries =>
    if entry.keyType ≠ publicKeyType key then checkKnownHostEntries key expected entries
    else if entry.keyData = publicKeyBase64 key then some .verified
    else checkKnownHostEntries key
      (expected.or (some (fingerprintFromKnownHostsKeyData K entry.keyData))) entries

/-- `check_known_host_entries` and what `verify` makes of an answer that is none. -/
def verdict (key : K) (entries : List HostKeyEntry) : HostKeyVerification :=
  (checkKnownHostEntries key none entries).getD
    (.unknown (publicKeyFingerprint key) (publicKeyType key))

def KnownHostsStore.verify (toLowercase : Str → Str) (store : KnownHostsStore) (host : Str)
    (port : UInt16) (key : K) : HostKeyVerification :=
  match store.get (makeKey toLowercase host port) with
  | some entries => verdict key entries
  | none =>
    match store.get (toLowercase host) with
    | some entries => verdict key entries
    | none => .unknown (publicKeyFingerprint key) (publicKeyType key)

/-- The key is the one of an entry. -/
def HostKeyEntry.Matches (entry : HostKeyEntry) (key : K) : Prop :=
  entry.keyType = publicKeyType key ∧ entry.keyData = publicKeyBase64 key

theorem checkKnownHostEntries_verified_iff (key : K) (expected : Option Str)
    (entries : List HostKeyEntry) :
    checkKnownHostEntries key expected entries = some .verified ↔
      ∃ entry ∈ entries, entry.Matches key := by
  induction entries generalizing expected with
  | nil => cases expected <;> simp [checkKnownHostEntries]
  | cons entry entries ih =>
    unfold checkKnownHostEntries
    split
    · rename_i htype
      rw [ih]
      simp [HostKeyEntry.Matches, htype]
    · rename_i htype
      split
      · rename_i hdata
        simp [HostKeyEntry.Matches, not_not.mp htype, hdata]
      · rename_i hdata
        rw [ih]
        simp [HostKeyEntry.Matches, hdata]

theorem verdict_verified_iff (key : K) (entries : List HostKeyEntry) :
    verdict key entries = .verified ↔ ∃ entry ∈ entries, entry.Matches key := by
  rw [← checkKnownHostEntries_verified_iff key none entries, verdict]
  cases checkKnownHostEntries key none entries <;> simp

theorem verify_verified_iff (toLowercase : Str → Str) (store : KnownHostsStore) (host : Str)
    (port : UInt16) (key : K) :
    store.verify toLowercase host port key = .verified ↔
      ∃ entry ∈ store.entriesFor toLowercase host port, entry.Matches key := by
  unfold KnownHostsStore.verify KnownHostsStore.entriesFor
  cases store.get (makeKey toLowercase host port) with
  | some entries => exact verdict_verified_iff key entries
  | none =>
    cases store.get (toLowercase host) with
    | some entries => exact verdict_verified_iff key entries
    | none => simp

end Verify

end Hapcli.Ssh
