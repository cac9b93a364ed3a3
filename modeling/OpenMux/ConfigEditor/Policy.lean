import OpenMux.Lib.PyValue

/-!
# The security policy

`security.yaml` and the sections that the editor may write. `none` stands for an exception.
-/

namespace OpenMux.ConfigEditor

open Py

/-- `_KNOWN_ADAPTER_TYPES`. -/
def knownAdapterTypes : List Text :=
  ["loopback", "tcpinitiator", "serial", "command", "clientlistener", "webconsole", "muxcon", "webstatus", "openmuxclient",
    "telnetlistener", "sshlistener", "power"].map String.toList

/-- `_KNOWN_CONFIG_SECTIONS`. -/
def knownConfigSections : List Text :=
  ["server", "authentication", "logging", "loopback_ports", "serial_ports", "command_ports", "tcp_initiator_ports",
    "client_listener", "telnet_listener", "ssh_listener", "muxcon", "web_console", "web_status", "port_actions",
    "power"].map String.toList

/-- `str.lower` as far as the known names go: beyond ASCII only the Kelvin sign lowers to a letter of one. -/
def lowerName (t : Text) : Text := t.map fun c => if c.toNat = 0x212a then 'k' else c.toLower

/-- `_canonical_section_name`; the text of a value that is no text is no known name. -/
def canonicalSectionName : Tree → Option Text
  | .str t => some (lowerName (strip t))
  | _ => none

/-- `_canonical_adapter_type`. -/
def canonicalAdapterType (v : Tree) : Option Text :=
  (canonicalSectionName v).map (·.filter fun c => c ≠ '_' ∧ c ≠ '-' ∧ c ≠ ' ')

/-- One list of `_resolve_allow_deny_list`. -/
def resolveOne (block : Mapping) (key : Text) (default : List Tree) (known : List Text) (normalize : Tree → Option Text) :
    Option (List Text) :=
  match (Mapping.find key block).getD (.list default) with
  | .none => some []
  | .list raw =>
      if raw.any fun v => normalize v = some ['*'] then some known
      else raw.mapM fun v => (normalize v).filter (known.contains ·)
  | _ => none

/-- `_resolve_allow_deny_list`. -/
def resolveAllowDenyList (block : Mapping) (known : List Text) (normalize : Tree → Option Text) : Option (List Text) := do
  let allowed ← resolveOne block "allowed".toList [.str ['*']] known normalize
  let disabled ← resolveOne block "disabled".toList [] known normalize
  some (allowed.filter fun name => !disabled.contains name)

/-- A mapping without keys other than the known ones. -/
def knownKeys (keys : List Text) : Tree → Option Mapping
  | .dict m => if m.all fun e => keys.any fun k => .str k = e.1 then some m else none
  | _ => none

/-- `_validated_block`. -/
def validatedBlock (data : Mapping) (name : Text) (keys : List Text) : Option Mapping :=
  knownKeys keys ((Mapping.get name data).orElse (.dict []))

structure RateLimits where
  windowSeconds : Int := 300
  failureThreshold : Int := 5
  baseLockSeconds : Int := 30
deriving DecidableEq

/-- A limit of `_parse_auth_rate_limits`. -/
def parseLimit (block : Mapping) (key : Text) (default : Int) : Option Int :=
  match Mapping.find key block with
  | none => some default
  | some (.int n) => some (max n 1)
  | some (.float (.fin q)) => some (max (q.num.tdiv q.den) 1)
  | some _ => none

/-- `_parse_auth_rate_limits`. -/
def parseAuthRateLimits (rateLimits : Mapping) : Option RateLimits := do
  let keys := ["window_seconds".toList, "failure_threshold".toList, "base_lock_seconds".toList]
  let block ← validatedBlock rateLimits "authentication".toList keys
  let windowSeconds ← parseLimit block "window_seconds".toList 300
  let failureThreshold ← parseLimit block "failure_threshold".toList 5
  let baseLockSeconds ← parseLimit block "base_lock_seconds".toList 30
  some { windowSeconds, failureThreshold, baseLockSeconds }

inductive AccessDefault
  | allow
  | deny
deriving DecidableEq

/-- `_parse_access_default`. -/
def parseAccessDefault : Tree → Option AccessDefault
  | .none => some .allow
  | .str t =>
      if lowerName (strip t) = "allow".toList then some .allow
      else if lowerName (strip t) = "deny".toList then some .deny
      else none
  | _ => none

structure SecurityPolicy where
  allowedAdapterTypes : List Text
  configEditorWritableSections : List Text
  authRateLimits : RateLimits
  accessDefault : AccessDefault

/-- `SecurityPolicy.from_mapping`. -/
def SecurityPolicy.fromMapping (raw : Tree) : Option SecurityPolicy := do
  let allowDeny := ["allowed".toList, "disabled".toList]
  let data ← knownKeys ["adapters".toList, "config_editor".toList, "rate_limits".toList, "access_default".toList]
    (raw.orElse (.dict []))
  let adapters ← validatedBlock data "adapters".toList allowDeny
  let allowedAdapterTypes ← resolveAllowDenyList adapters knownAdapterTypes canonicalAdapterType
  let configEditor ← validatedBlock data "config_editor".toList allowDeny
  let configEditorWritableSections ← resolveAllowDenyList configEditor knownConfigSections canonicalSectionName
  let rateLimits ← validatedBlock data "rate_limits".toList ["authentication".toList]
  let authRateLimits ← parseAuthRateLimits rateLimits
  let accessDefault ← parseAccessDefault (Mapping.get "access_default".toList data)
  some { allowedAdapterTypes, configEditorWritableSections, authRateLimits, accessDefault }

/-- A YAML file. -/
inductive File
  | missing
  | unreadable
  | content (v : Tree)

/-- What `get_security_policy` reads: a file that is missing or cannot be read counts as empty. -/
def File.policyData : File → Tree
  | .missing | .unreadable => .dict []
  | .content v => v.orElse (.dict [])

end OpenMux.ConfigEditor
