/-
  Subject:   SSH configurations (`config.rs`, `upstream_proxy.rs`), the pool key of one, and the
             states of a connection (`connection_registry.rs`).

  The SHA-256 digest and the identity of an agent endpoint, which depends on the environment, are
  parameters (`KeyParts`).
-/
import Hapcli.Rust.Text

namespace Hapcli.Ssh

open Hapcli.Rust

/-! ## 1. Configurations -/

inductive AuthMethod where
  | password (password : Str)
  | key (keyPath : Str) (passphrase : Option Str)
  | agent
  | managedKey (keyId : Str) (passphrase : Option Str)
  | certificate (keyPath certPath : Str) (passphrase : Option Str)
  | keyboardInteractive
  deriving DecidableEq

def AuthMethod.hasRuntimeSecret : AuthMethod → Bool
  | .password _ => true
  | .key _ passphrase | .managedKey _ passphrase | .certificate _ _ passphrase => passphrase.isSome
  | .agent | .keyboardInteractive => false

structure ProxyHopConfig where
  host : Str
  port : UInt16 := 22
  username : Str
  auth : AuthMethod
  agentForwarding : Bool := false
  identityAgent : Option Str := none
  agentForwardingSocket : Option Str := none
  legacySshCompatibility : Bool := false
  strictHostKeyChecking : Bool := false
  trustHostKey : Option Bool := none
  expectedHostKeyFingerprint : Option Str := none
  deriving DecidableEq

inductive UpstreamProxyProtocol where
  | socks5
  | httpConnect
  deriving DecidableEq

inductive UpstreamProxyAuth where
  | none
  | password (username password : Str)
  deriving DecidableEq

structure UpstreamProxyConfig where
  protocol : UpstreamProxyProtocol
  host : Str
  port : UInt16
  auth : UpstreamProxyAuth
  remoteDns : Bool
  noProxy : Str
  deriving DecidableEq

inductive ProxyCommandConfig where
  | authorizationRequired
  | unavailable
  | direct (program : Str) (args : List Str)
  deriving DecidableEq

inductive X11ForwardTrust where
  | trusted
  | untrusted
  deriving DecidableEq

inductive X11AuthFallbackMode where
  | requireRealAuth
  | generateSyntheticCookie
  deriving DecidableEq

structure X11ForwardPolicy where
  trust : X11ForwardTrust
  timeoutMillis : Option Nat
  fallback : X11AuthFallbackMode
  deriving DecidableEq

/-- `SshConfig`, with its defaults. -/
structure SshConfig where
  host : Str := []
  port : UInt16 := 22
  username : Str := []
  auth : AuthMethod := .password []
  timeoutSecs : Nat := 30
  cols : Nat := 80
  rows : Nat := 24
  proxyChain : Option (List ProxyHopConfig) := none
  upstreamProxy : Option UpstreamProxyConfig := none
  proxyCommand : Option ProxyCommandConfig := none
  strictHostKeyChecking : Bool := false
  trustHostKey : Option Bool := none
  expectedHostKeyFingerprint : Option Str := none
  agentForwarding : Bool := false
  identityAgent : Option Str := none
  agentForwardingSocket : Option Str := none
  legacySshCompatibility : Bool := false
  x11Forwarding : Option X11ForwardPolicy := none
  postConnectCommand : Option Str := none
  deriving DecidableEq

def SshConfig.hasRuntimeAuthSecret (config : SshConfig) : Bool :=
  config.auth.hasRuntimeSecret ||
    config.proxyChain.any fun chain => chain.any fun hop => hop.auth.hasRuntimeSecret

inductive ConnectionState where
  | connecting
  | active
  | idle
  | linkDown
  | reconnecting
  | disconnecting
  | disconnected
  | error (message : Str)
  deriving DecidableEq

/-! ## 2. The pool key -/

/-- What the pool key takes from elsewhere: `{:x}` of a SHA-256 digest, and
    `ssh_agent_endpoint_pool_identity` with `ssh_agent_forwarding_endpoint_pool_identity`. -/
structure KeyParts where
  sha256 : List UInt8 → Str
  agentEndpoint : Option Str → Str
  agentForwardingEndpoint : Option Str → Str

/-- `format!("{}", flag)`. -/
def boolToString (flag : Bool) : Str := if flag then "true".toList else "false".toList

/-- `format!("{:?}", protocol)`. -/
def UpstreamProxyProtocol.debugText : UpstreamProxyProtocol → Str
  | .socks5 => "Socks5".toList
  | .httpConnect => "HttpConnect".toList

section Key

variable (parts : KeyParts)

def agentEndpointKeySuffix (label : Str) (endpoint : Option Str) : Str :=
  ":".toList ++ label ++ "=".toList ++ parts.sha256 (asBytes (parts.agentEndpoint endpoint))

def agentForwardingEndpointKeySuffix (label : Str)
    (forwardingEndpoint identityEndpoint : Option Str) : Str :=
  let endpoint := match forwardingEndpoint with
    | none => parts.agentEndpoint identityEndpoint
    | some endpoint => parts.agentForwardingEndpoint (some endpoint)
  ":".toList ++ label ++ "=".toList ++ parts.sha256 (asBytes endpoint)

def ProxyCommandConfig.connectionKeySuffix : ProxyCommandConfig → Str
  | .authorizationRequired => "|proxy-command=authorization-required".toList
  | .unavailable => "|proxy-command=unavailable".toList
  | .direct program args =>
    "|proxy-command=".toList ++
      parts.sha256 (asBytes program ++ args.flatMap fun argument => 0 :: asBytes argument)

/-- The part of the pool key that one hop of the proxy chain gives. -/
def ProxyHopConfig.key (hop : ProxyHopConfig) : Str :=
  hop.username ++ "@".toList ++ hop.host ++ ":".toList ++ numToString hop.port.toNat ++
    (if hop.legacySshCompatibility then ":legacy".toList else []) ++
    (if hop.agentForwarding then ":agent-forwarding".toList else []) ++
    (match hop.identityAgent with
      | none => []
      | some endpoint => agentEndpointKeySuffix parts "identity-agent".toList (some endpoint)) ++
    (if hop.agentForwarding then
      agentForwardingEndpointKeySuffix parts "forwarding-agent".toList hop.agentForwardingSocket
        hop.identityAgent
    else [])

/-- The part of the pool key that the upstream proxy gives. -/
def UpstreamProxyConfig.key (proxy : UpstreamProxyConfig) : Str :=
  "|upstream=".toList ++ proxy.protocol.debugText ++ ":".toList ++ proxy.host ++ ":".toList ++
    numToString proxy.port.toNat ++ ":".toList ++ boolToString proxy.remoteDns

def SshConfig.connectionKey (config : SshConfig) : Str :=
  config.username ++ "@".toList ++ config.host ++ ":".toList ++ numToString config.port.toNat ++
    "|".toList ++
    (match config.proxyChain with
      | none => []
      | some chain => ['>'].intercalate (chain.map (ProxyHopConfig.key parts))) ++
    (match config.upstreamProxy with
      | none => []
      | some proxy => proxy.key) ++
    (if config.legacySshCompatibility then "|legacy_ssh=true".toList else []) ++
    (if config.agentForwarding then "|agent_forwarding=true".toList else []) ++
    (match config.identityAgent with
      | none => []
      | some endpoint => agentEndpointKeySuffix parts "identity_agent".toList (some endpoint)) ++
    (if config.agentForwarding then
      agentForwardingEndpointKeySuffix parts "agent_forwarding_socket".toList
        config.agentForwardingSocket config.identityAgent
    else []) ++
    (match config.proxyCommand with
      | none => []
      | some command => command.connectionKeySuffix parts)

end Key

end Hapcli.Ssh
