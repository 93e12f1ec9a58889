/-
  Subject:   The records of the connection store: saved connections with their secrets' places,
             profiles of the other kinds of sessions, tombstones, and the requests that change them.

  A timestamp is a number of nanoseconds (`Time`). A text that holds one is known by what
  `DateTime::parse_from_rfc3339` makes of it (`Rfc3339`); `to_rfc3339` always gives one that parses.
  The session options of a remote desktop profile are carried along and read by nothing here; they
  are left out.
-/
import Hapcli.Rust.Text

namespace Hapcli.Connections

open Hapcli.Rust

/-! ## 1. Times, texts, failures -/

/-- `DateTime<Utc>`, in nanoseconds. -/
abbrev Time := Int

/-- A text that should hold a timestamp. -/
inductive Rfc3339
  | time (t : Time)
  | other (text : Str)
  deriving DecidableEq

/-- `SecretString`. -/
abbrev Secret := Str

/-- `anyhow::Error`: a text of the store itself, or of the keychain or the file system. A failing
    `expect` is no error; it ends the program. -/
inductive StoreError
  | bail (text : Str)
  | outside
  | panic
  deriving DecidableEq

/-! ## 2. Authentication -/

inductive AuthType
  | password
  | key
  | managedKey
  | certificate
  | keyboardInteractive
  | agent
  deriving DecidableEq

/-- `SavedAuth`: a secret is in the keychain under an id, or still there in plain text. -/
inductive SavedAuth
  | password (keychainId : Option Str) (plaintextPassword : Option Secret)
  | key (keyPath : Str) (hasPassphrase : Bool) (passphraseKeychainId : Option Str)
      (plaintextPassphrase : Option Secret)
  | certificate (keyPath certPath : Str) (hasPassphrase : Bool) (passphraseKeychainId : Option Str)
      (plaintextPassphrase : Option Secret)
  | managedKey (keyId : Str) (passphraseKeychainId : Option Str)
      (plaintextPassphrase : Option Secret)
  | keyboardInteractive
  | agent
  deriving DecidableEq

namespace SavedAuth

def authType : SavedAuth → AuthType
  | password .. => .password
  | key .. => .key
  | managedKey .. => .managedKey
  | certificate .. => .certificate
  | keyboardInteractive => .keyboardInteractive
  | agent => .agent

def keyPath? : SavedAuth → Option Str
  | key keyPath .. => some keyPath
  | certificate keyPath .. => some keyPath
  | _ => none

def certPath? : SavedAuth → Option Str
  | certificate _ certPath .. => some certPath
  | _ => none

def managedKeyId? : SavedAuth → Option Str
  | managedKey keyId .. => some keyId
  | _ => none

end SavedAuth

/-! ## 3. Options -/

inductive ConnectionTerminalEncoding
  | utf8 | gbk | gb18030 | big5 | shiftJis | eucJp | eucKr | windows1252
  deriving DecidableEq

inductive ConnectionTerminalBackspaceSequence
  | delete | controlH
  deriving DecidableEq

inductive ConnectionTerminalDeleteSequence
  | csi3Tilde | delete | controlH
  deriving DecidableEq

structure ConnectionTerminalOptions where
  encoding : Option ConnectionTerminalEncoding := none
  backspaceSequence : Option ConnectionTerminalBackspaceSequence := none
  deleteSequence : Option ConnectionTerminalDeleteSequence := none
  deriving DecidableEq

inductive ConnectionX11ForwardingMode
  | untrusted | trusted
  deriving DecidableEq

structure ConnectionX11ForwardingOptions where
  enabled : Bool := false
  mode : ConnectionX11ForwardingMode := .untrusted
  untrustedTimeoutSeconds : Nat := 20 * 60
  deriving DecidableEq

/-- `ConnectionOptions`, with `ConnectionOptions::default()` as the fields' defaults. -/
structure ConnectionOptions where
  keepAliveInterval : Nat := 0
  compression : Bool := false
  jumpHost : Option Str := none
  termType : Option Str := none
  agentForwarding : Bool := false
  identityAgent : Option Str := none
  agentForwardingSocket : Option Str := none
  legacySshCompatibility : Bool := false
  dedicatedNewTerminalConnection : Bool := false
  x11Forwarding : ConnectionX11ForwardingOptions := {}
  postConnectCommand : Option Str := none
  terminal : ConnectionTerminalOptions := {}
  deriving DecidableEq

/-! ## 4. Proxies -/

structure SavedProxyHop where
  host : Str
  port : UInt16
  username : Str
  auth : SavedAuth
  agentForwarding : Bool := false
  identityAgent : Option Str := none
  agentForwardingSocket : Option Str := none
  legacySshCompatibility : Bool := false
  deriving DecidableEq

inductive SavedUpstreamProxyProtocol
  | socks5 | httpConnect
  deriving DecidableEq

inductive SavedUpstreamProxyAuth
  | none
  | password (username : Str) (keychainId : Option Str) (plaintextPassword : Option Secret)
  deriving DecidableEq

structure SavedUpstreamProxyConfig where
  protocol : SavedUpstreamProxyProtocol
  host : Str
  port : UInt16
  auth : SavedUpstreamProxyAuth
  remoteDns : Bool
  noProxy : Str
  deriving DecidableEq

inductive SavedUpstreamProxyPolicy
  | useGlobal
  | direct
  | custom (proxy : SavedUpstreamProxyConfig)
  deriving DecidableEq

/-! ## 5. Connections -/

inductive PrivilegeCredentialKind
  | sudoPassword | suPassword | customPrompt
  deriving DecidableEq

structure SavedPrivilegeCredential where
  id : Str
  connectionId : Str
  label : Str
  kind : PrivilegeCredentialKind
  usernameHint : Option Str
  promptPatterns : List Str
  keychainId : Option Str
  plaintextSecret : Option Secret
  enabled : Bool
  requireClickToSend : Bool
  createdAt : Time
  updatedAt : Time
  deriving DecidableEq

structure SavedConnection where
  id : Str
  version : Nat := 1
  name : Str
  group : Option Str := none
  host : Str
  port : UInt16
  username : Str
  auth : SavedAuth
  proxyChain : List SavedProxyHop := []
  upstreamProxy : SavedUpstreamProxyPolicy := .useGlobal
  options : ConnectionOptions := {}
  createdAt : Time
  lastUsedAt : Option Time := none
  updatedAt : Option Time := none
  color : Option Str := none
  iconBackgroundColor : Option Str := none
  icon : Option Str := none
  tags : List Str := []
  postConnectCommand : Option Str := none
  privilegeCredentials : List SavedPrivilegeCredential := []
  deriving DecidableEq

def configVersion : Nat := 1

/-- `ProxyHopInfo`; the name of a managed key is never filled in by `From<&SavedProxyHop>`. -/
structure ProxyHopInfo where
  host : Str
  port : UInt16
  username : Str
  authType : AuthType
  keyPath : Option Str
  certPath : Option Str
  managedKeyId : Option Str
  managedKeyName : Option Str
  agentForwarding : Bool
  identityAgent : Option Str
  agentForwardingSocket : Option Str
  legacySshCompatibility : Bool
  deriving DecidableEq

/-- `ConnectionInfo`: what the store tells others of a connection. -/
structure ConnectionInfo where
  id : Str
  name : Str
  group : Option Str
  host : Str
  port : UInt16
  username : Str
  authType : AuthType
  keyPath : Option Str
  certPath : Option Str
  managedKeyId : Option Str
  managedKeyName : Option Str
  proxyChain : List ProxyHopInfo
  upstreamProxy : SavedUpstreamProxyPolicy
  createdAt : Rfc3339
  lastUsedAt : Option Rfc3339
  color : Option Str
  iconBackgroundColor : Option Str
  icon : Option Str
  tags : List Str
  agentForwarding : Bool
  identityAgent : Option Str
  agentForwardingSocket : Option Str
  legacySshCompatibility : Bool
  postConnectCommand : Option Str
  deriving DecidableEq

/-- `ProxyHopInfo::from`. -/
def proxyHopInfo (hop : SavedProxyHop) : ProxyHopInfo where
  host := hop.host
  port := hop.port
  username := hop.username
  authType := hop.auth.authType
  keyPath := hop.auth.keyPath?
  certPath := hop.auth.certPath?
  managedKeyId := hop.auth.managedKeyId?
  managedKeyName := none
  agentForwarding := hop.agentForwarding
  identityAgent := hop.identityAgent
  agentForwardingSocket := hop.agentForwardingSocket
  legacySshCompatibility := hop.legacySshCompatibility

/-- `ConnectionInfo::from`. -/
def connectionInfo (conn : SavedConnection) : ConnectionInfo where
  id := conn.id
  name := conn.name
  group := conn.group
  host := conn.host
  port := conn.port
  username := conn.username
  authType := conn.auth.authType
  keyPath := conn.auth.keyPath?
  certPath := conn.auth.certPath?
  managedKeyId := conn.auth.managedKeyId?
  managedKeyName := none
  proxyChain := conn.proxyChain.map proxyHopInfo
  upstreamProxy := conn.upstreamProxy
  createdAt := .time conn.createdAt
  lastUsedAt := conn.lastUsedAt.map .time
  color := conn.color
  iconBackgroundColor := conn.iconBackgroundColor
  icon := conn.icon
  tags := conn.tags
  agentForwarding := conn.options.agentForwarding
  identityAgent := conn.options.identityAgent
  agentForwardingSocket := conn.options.agentForwardingSocket
  legacySshCompatibility := conn.options.legacySshCompatibility
  postConnectCommand := conn.postConnectCommand.or conn.options.postConnectCommand

/-! ## 6. Profiles of the other kinds of sessions -/

inductive SerialParity
  | none | odd | even
  deriving DecidableEq

inductive SerialFlowControl
  | none | software | hardware
  deriving DecidableEq

structure SerialProfile where
  id : Str
  name : Str
  group : Option Str := none
  icon : Option Str := none
  color : Option Str := none
  iconBackgroundColor : Option Str := none
  portPath : Str
  baudRate : Nat := 115200
  dataBits : Nat := 8
  stopBits : Nat := 1
  parity : SerialParity := .none
  flowControl : SerialFlowControl := .none
  connectOnOpen : Bool := false
  createdAt : Time
  updatedAt : Time
  lastUsedAt : Option Time := none
  deriving DecidableEq

structure TelnetProfile where
  id : Str
  name : Str
  group : Option Str := none
  icon : Option Str := none
  color : Option Str := none
  iconBackgroundColor : Option Str := none
  host : Str
  port : UInt16
  terminal : ConnectionTerminalOptions := {}
  connectOnOpen : Bool := false
  createdAt : Time
  updatedAt : Time
  lastUsedAt : Option Time := none
  deriving DecidableEq

inductive RemoteDesktopProtocol
  | rdp | vnc
  deriving DecidableEq

structure RemoteDesktopProfile where
  id : Str
  name : Str
  group : Option Str := none
  icon : Option Str := none
  color : Option Str := none
  iconBackgroundColor : Option Str := none
  protocol : RemoteDesktopProtocol
  host : Str
  port : UInt16
  username : Option Str := none
  domain : Option Str := none
  credentialRef : Option Str := none
  readOnly : Bool := false
  createdAt : Time
  updatedAt : Time
  lastUsedAt : Option Time := none
  deriving DecidableEq

/-- `if condition { bail!(text) }`. -/
def bailIf (condition : Bool) (text : String) : Except StoreError Unit :=
  if condition then .error (.bail text.toList) else .ok ()

def SerialProfile.validate (profile : SerialProfile) : Except StoreError Unit := do
  bailIf (trim profile.id).isEmpty "Serial profile id is required"
  bailIf (trim profile.name).isEmpty "Serial profile name is required"
  bailIf (trim profile.portPath).isEmpty "Serial port path is required"
  bailIf (profile.baudRate == 0) "Serial baud rate must be greater than zero"
  bailIf (!(5 ≤ profile.dataBits && profile.dataBits ≤ 8))
    "Serial data bits must be between 5 and 8"
  bailIf (!(profile.stopBits == 1 || profile.stopBits == 2)) "Serial stop bits must be 1 or 2"

def TelnetProfile.validate (profile : TelnetProfile) : Except StoreError Unit := do
  bailIf (trim profile.id).isEmpty "Telnet profile id is required"
  bailIf (trim profile.name).isEmpty "Telnet profile name is required"
  bailIf (trim profile.host).isEmpty "Telnet host is required"

def RemoteDesktopProfile.validate (profile : RemoteDesktopProfile) : Except StoreError Unit := do
  bailIf (trim profile.id).isEmpty "Remote desktop profile id is required"
  bailIf (trim profile.name).isEmpty "Remote desktop profile name is required"
  bailIf (trim profile.host).isEmpty "Remote desktop host is required"
  bailIf (profile.port == 0) "Remote desktop port must be greater than zero"
  bailIf (profile.credentialRef.any fun reference => (trim reference).isEmpty)
    "Remote desktop credential reference cannot be empty"

/-! ## 7. Requests -/

structure SaveConnectionRequest where
  id : Option Str := none
  name : Str
  group : Option Str := none
  host : Str
  port : UInt16
  username : Str
  auth : SavedAuth
  proxyChain : List SavedProxyHop := []
  upstreamProxy : SavedUpstreamProxyPolicy := .useGlobal
  color : Option Str := none
  iconBackgroundColor : Option Str := none
  icon : Option Str := none
  tags : List Str := []
  agentForwarding : Bool := false
  identityAgent : Option Str := none
  agentForwardingSocket : Option Str := none
  legacySshCompatibility : Bool := false
  dedicatedNewTerminalConnection : Bool := false
  x11Forwarding : ConnectionX11ForwardingOptions := {}
  postConnectCommand : Option Str := none
  terminal : ConnectionTerminalOptions := {}

/-- The secrets of a saved connection, handed back once. -/
structure SavedConnectionRuntimeSecrets where
  auth : Option Secret
  proxyChain : List (Option Secret)
  upstreamProxy : Option Secret
  deriving DecidableEq

structure SaveSerialProfileRequest where
  id : Option Str := none
  name : Str
  group : Option Str := none
  icon : Option Str := none
  color : Option Str := none
  iconBackgroundColor : Option Str := none
  portPath : Str
  baudRate : Option Nat := none
  dataBits : Option Nat := none
  stopBits : Option Nat := none
  parity : Option SerialParity := none
  flowControl : Option SerialFlowControl := none
  connectOnOpen : Option Bool := none

structure SaveTelnetProfileRequest where
  id : Option Str := none
  name : Str
  group : Option Str := none
  icon : Option Str := none
  color : Option Str := none
  iconBackgroundColor : Option Str := none
  host : Str
  port : UInt16
  terminal : ConnectionTerminalOptions := {}
  connectOnOpen : Option Bool := none

structure SaveRemoteDesktopProfileRequest where
  id : Option Str := none
  name : Str
  group : Option Str := none
  icon : Option Str := none
  color : Option Str := none
  iconBackgroundColor : Option Str := none
  protocol : RemoteDesktopProtocol
  host : Str
  port : UInt16
  username : Option Str := none
  domain : Option Str := none
  credentialRef : Option Str := none
  credential : Option Secret := none
  clearCredential : Bool := false
  readOnly : Bool := false

/-! ## 8. The store's data -/

structure DeletedConnectionTombstone where
  id : Str
  deletedAt : Time
  deriving DecidableEq

inductive ManagedSshKeyOrigin
  | importedFile | pastedText | oxideImport
  deriving DecidableEq

structure ManagedSshKey where
  id : Str
  secretId : Str
  name : Str
  fingerprint : Str
  publicKey : Str
  requiresPassphrase : Bool
  origin : ManagedSshKeyOrigin
  createdAt : Time
  updatedAt : Time
  deriving DecidableEq

structure ImportedManagedSshKey where
  key : ManagedSshKey
  secret : Secret
  deriving DecidableEq

/-- `ConnectionStoreData`, with `ConnectionStoreData::default()` as the fields' defaults. -/
structure ConnectionStoreData where
  version : Nat := configVersion
  connections : List SavedConnection := []
  groups : List Str := []
  recent : List Str := []
  connectionTombstones : List DeletedConnectionTombstone := []
  managedSshKeys : List ManagedSshKey := []
  serialProfiles : List SerialProfile := []
  telnetProfiles : List TelnetProfile := []
  remoteDesktopProfiles : List RemoteDesktopProfile := []
  localPrivilegeCredentials : List SavedPrivilegeCredential := []
  pendingKeychainCleanup : List Str := []
  pendingPrivilegeKeychainCleanup : List Str := []
  deriving DecidableEq

end Hapcli.Connections
