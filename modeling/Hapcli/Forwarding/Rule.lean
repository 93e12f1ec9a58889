/-
  Subject:   Forward rules (`model.rs`), their normalization, and the checks before a start.
-/
import Hapcli.Rust.Text

namespace Hapcli.Forwarding

open Hapcli.Rust

inductive ForwardType where
  | localForward
  | remote
  | dynamic
  deriving DecidableEq

inductive ForwardStatus where
  | starting
  | active
  | stopped
  | error
  | suspended
  deriving DecidableEq

structure ForwardRule where
  id : Str
  forwardType : ForwardType
  bindAddress : Str
  bindPort : UInt16
  targetHost : Str
  targetPort : UInt16
  status : ForwardStatus
  description : Str
  deriving DecidableEq

/-- The errors of `ForwardingError` that the code below makes itself. -/
inductive ForwardingError where
  | notFound (id : Str)
  | alreadyExists (id : Str)
  | invalidRule (message : Str)
  deriving DecidableEq

/-- `normalize_forward_host`, with `DEFAULT_FORWARD_HOST`. -/
def normalizeForwardHost (host : Str) : Str :=
  if trim host = [] then "localhost".toList else trim host

namespace ForwardRule

variable (rule : ForwardRule)

def normalizeHostsForRuntime : ForwardRule :=
  { rule with
    bindAddress := normalizeForwardHost rule.bindAddress
    targetHost :=
      if rule.forwardType ≠ .dynamic then normalizeForwardHost rule.targetHost
      else rule.targetHost }

/-- The check that `validate_local_rule` and `validate_remote_rule` make alike. -/
def validateListening : Except ForwardingError Unit :=
  if trim rule.bindAddress = [] then .error (.invalidRule "bind address is required".toList)
  else if trim rule.targetHost = [] then .error (.invalidRule "target host is required".toList)
  else if rule.targetPort = 0 then .error (.invalidRule "target port is required".toList)
  else .ok ()

def validateLocalRule : Except ForwardingError Unit := rule.validateListening

def validateRemoteRule : Except ForwardingError Unit := rule.validateListening

def validateDynamicRule : Except ForwardingError Unit :=
  if trim rule.bindAddress = [] then .error (.invalidRule "bind address is required".toList)
  else .ok ()

/-- The check of the start of a rule, by its type. -/
def validate : Except ForwardingError Unit :=
  match rule.forwardType with
  | .localForward => rule.validateLocalRule
  | .remote => rule.validateRemoteRule
  | .dynamic => rule.validateDynamicRule

end ForwardRule

end Hapcli.Forwarding
