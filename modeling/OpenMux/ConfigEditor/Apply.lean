import OpenMux.ConfigEditor.Policy
import OpenMux.ConfigEditor.Secrets

/-!
# Requests to the editor

The configuration manager of a running server, and the handlers for the view and for a save. The schema is a parameter.
-/

namespace OpenMux.ConfigEditor

open Py

/-- A `ConfigManager` with a loaded configuration, and its two other files. -/
structure Manager where
  config : Mapping
  loaded : config ≠ []
  /-- `_security_policy`. -/
  securityPolicy : Option SecurityPolicy := none
  securityFile : File
  authFile : File

/-- `get_security_policy`. -/
def Manager.getSecurityPolicy (cm : Manager) : Option SecurityPolicy :=
  match cm.securityPolicy with
  | some policy => some policy
  | none => SecurityPolicy.fromMapping cm.securityFile.policyData

/-! ## The view -/

/-- `_get_writable_metadata`, without the order of the names. -/
def getWritableMetadata (cm : Manager) : List Text × Bool :=
  match cm.getSecurityPolicy with
  | some policy => (policy.configEditorWritableSections, true)
  | none => ([], false)

/-- `_get_access_default`. -/
def getAccessDefault (cm : Manager) : AccessDefault :=
  match cm.getSecurityPolicy with
  | some policy => policy.accessDefault
  | none => .allow

structure DataResponse where
  config : Mapping
  writableSections : List Text
  writableEnforced : Bool
  accessDefault : AccessDefault

/-- `_handle_data` for an administrator. -/
def handleData (cm : Manager) : Option DataResponse := do
  let config ← maskConfigSecrets cm.config
  let (writableSections, writableEnforced) := getWritableMetadata cm
  some { config, writableSections, writableEnforced, accessDefault := getAccessDefault cm }

/-! ## Sections -/

mutual

/-- `_normalize_section_value`. -/
def normalizeSectionValue : Tree → Tree
  | .dict es => match normalizeEntries es with
      | [] => .none
      | es => .dict es
  | .list xs => match normalizeItems xs with
      | [] => .none
      | xs => .list xs
  | .str [] => .none
  | v => v

def normalizeEntries : List (Key × Tree) → List (Key × Tree)
  | [] => []
  | (k, v) :: es => match normalizeSectionValue v with
      | .none => normalizeEntries es
      | w => (k, w) :: normalizeEntries es

def normalizeItems : List Tree → List Tree
  | [] => []
  | v :: xs => match normalizeSectionValue v with
      | .none => normalizeItems xs
      | w => w :: normalizeItems xs

end

/-- `d.get(section)`. -/
def sectionValue (config : Mapping) (name : Key) : Tree := (Dict.findList name config).getD .none

/-- The section compares as unchanged. -/
def unmodified (current new : Mapping) (name : Key) : Bool :=
  (normalizeSectionValue (sectionValue current name)).eq (normalizeSectionValue (sectionValue new name))

/-- `_detect_modified_sections`. -/
def detectModifiedSections (current new : Mapping) : List Key :=
  ((current ++ new).map Prod.fst).filter fun name => !unmodified current new name

def SecurityPolicy.writable (policy : SecurityPolicy) (name : Key) : Bool :=
  policy.configEditorWritableSections.any fun t => .str t = name

/-- `_enforce_writable_sections`. -/
def enforceWritableSections (cm : Manager) (payload : Mapping) : List Key :=
  match cm.getSecurityPolicy with
  | none => []
  | some policy =>
      let modified := detectModifiedSections cm.config payload
      if policy.configEditorWritableSections = [] then modified else modified.filter fun name => !policy.writable name

/-! ## Validation -/

/-- `_load_authentication_file`. -/
def loadAuthenticationFile (cm : Manager) : Option Mapping :=
  match cm.authFile with
  | .content v => match v.orElse (.dict []) with
      | .dict m => some m
      | _ => none
  | .missing | .unreadable => none

/-- `_validate_required_sections` with inline authentication: a payload without it gets the stored one. -/
def validateRequiredSections (cm : Manager) (payload : Mapping) : Option Mapping :=
  if Mapping.find "server".toList payload = none then none
  else match Mapping.find "authentication".toList payload with
    | some (.dict _) => some payload
    | some _ => none
    | none => (loadAuthenticationFile cm).map fun auth => Mapping.assign "authentication".toList (.dict auth) payload

/-- `str(v).strip().lower()`, where only text can be one of the names that it is compared with. -/
def settingName : Tree → Text
  | .str t => lowerName (strip t)
  | _ => "other".toList

/-- `_line_policy_managed`. -/
def linePolicyManaged : Tree → Bool
  | .none => false
  | .str t => lowerName (strip t) ≠ [] ∧ lowerName (strip t) ≠ "none".toList
  | _ => true

/-- A port that `_validate_serial_ports_config` accepts. -/
def serialPortOk : Tree → Bool
  | .dict port => (Mapping.find "name".toList port).isSome &&
      !(settingName (Mapping.get "flow_control".toList port) = "rtscts".toList &&
        linePolicyManaged (Mapping.get "rts".toList port))
  | _ => false

/-- `_validate_serial_ports_config`. -/
def serialPortsOk : Option Tree → Bool
  | none => true
  | some (.list ports) => ports.all serialPortOk
  | some _ => false

/-- `_validate_payload`: the payload, with the authentication that it got. -/
def validatePayload (violates : Mapping → Bool) (cm : Manager) (payload : Mapping) : Option Mapping :=
  if violates payload then none
  else (validateRequiredSections cm payload).filter fun payload =>
    (["users", "api_keys", "public_keys", "external_auth"].any fun method =>
      (Mapping.find method.toList (section? "authentication".toList payload)).isSome) &&
    serialPortsOk (Mapping.find "serial_ports".toList payload)

/-! ## Saving -/

inductive Response
  | forbidden
  | invalidJson
  | notAnObject
  | invalid
  | blocked (sections : List Key)
  | saveFailed
  | internalError
  | ok

/-- What a request leaves: what was written to the two files, and the manager. -/
structure Outcome where
  response : Response
  serverYaml : Option Mapping := none
  authYaml : Option Mapping := none
  cm : Manager

/-- A POST of an administrator's browser; `writes` says which of the two files can be written. -/
structure Request where
  admin : Bool := true
  csrf : Bool := true
  /-- The JSON body. -/
  body : Option Tree
  writesServer : Bool := true
  writesAuth : Bool := true

theorem combined_ne_nil (m : Mapping) (k : Text) (v : Tree) : Mapping.assign k v m ≠ [] := by
  intro h
  have := Mapping.find_assign_self (m := m) (k := k) (v := v)
  rw [h] at this
  cases this

/-- `save_config`. -/
def saveConfig (cm : Manager) (r : Request) (payload : Mapping) : Outcome :=
  let serverPayload := Mapping.pop "authentication".toList payload
  if !r.writesServer then { response := .saveFailed, cm := cm }
  else match Mapping.find "authentication".toList payload with
    | some (.dict auth) =>
        if !r.writesAuth then { response := .saveFailed, serverYaml := some serverPayload, cm := cm }
        else
          { response := .ok
            serverYaml := some serverPayload
            authYaml := some auth
            cm := { cm with
              config := Mapping.assign "authentication".toList (.dict auth) serverPayload
              loaded := combined_ne_nil _ _ _ } }
    | _ => { response := .saveFailed, serverYaml := some serverPayload, cm := cm }

/-- The response to a save that the policy blocks; its message joins the names. -/
def blockedResponse (sections : List Key) : Response :=
  if sections.all fun
    | .str _ => true
    | .other _ => false
  then .blocked sections else .internalError

/-- `_handle_apply`. -/
def handleApply (violates : Mapping → Bool) (cm : Manager) (r : Request) : Outcome :=
  if !r.admin || !r.csrf then { response := .forbidden, cm := cm }
  else match r.body with
    | none => { response := .invalidJson, cm := cm }
    | some (.dict payload) => match preparePayloadForSave payload cm.config with
        | none => { response := .internalError, cm := cm }
        | some payload => match validatePayload violates cm payload with
            | none => { response := .invalid, cm := cm }
            | some payload =>
                -- The policy is kept once it is loaded.
                let cm := { cm with securityPolicy := cm.getSecurityPolicy }
                let disallowed := enforceWritableSections cm payload
                if disallowed ≠ [] then { response := blockedResponse disallowed, cm := cm }
                else saveConfig cm r payload
    | some _ => { response := .notAnObject, cm := cm }

end OpenMux.ConfigEditor

/-!
## Read-only sections

What a save may do to the sections outside the writable set, as some reader of each section sees it. A reader tells a section
that is absent from one that is null or empty, or it does not.
-/

namespace OpenMux.ConfigEditor

open Py

/-- The section with the accounts, which is saved to a file of its own. -/
def authentication : Key := .str "authentication".toList

/-- The policy was loaded before, or can be loaded from its file; a file that is missing stands for the defaults. -/
def Manager.PolicyLoads (cm : Manager) : Prop :=
  cm.securityPolicy.isSome ∨ (cm.securityFile ≠ .unreadable ∧ cm.getSecurityPolicy.isSome)

/-- The section is outside the policy's writable set. -/
def Manager.ReadOnly (cm : Manager) (name : Key) : Prop :=
  ∃ policy, cm.getSecurityPolicy = some policy ∧ policy.writable name = false

variable {β : Type*} (read : Key → Option Tree → β)

/-- What is written has its read-only sections as they were, and nothing is written without a policy. -/
structure Outcome.KeepsReadOnly (cm : Manager) (o : Outcome) : Prop where
  policy : o.serverYaml.isSome ∨ o.authYaml.isSome → cm.PolicyLoads
  server : ∀ y, o.serverYaml = some y → ∀ name, cm.ReadOnly name → name ≠ authentication →
    read name (Dict.findList name y) = read name (Dict.findList name cm.config)
  auth : ∀ y, o.authYaml = some y → cm.ReadOnly authentication →
    read authentication (some (.dict y)) = read authentication (Dict.findList authentication cm.config)

/-- The mapping that a request asks to save, once it is restored and validated. -/
def Submits (violates : Mapping → Bool) (cm : Manager) (r : Request) (payload : Mapping) : Prop :=
  r.admin = true ∧ r.csrf = true ∧ r.writesServer = true ∧
    ∃ m prepared, r.body = some (.dict m) ∧ preparePayloadForSave m cm.config = some prepared ∧
      validatePayload violates cm prepared = some payload

/-- No read-only section differs, as far as normalised values show. -/
def Passes (cm : Manager) (payload : Mapping) : Prop := ∀ name, cm.ReadOnly name → unmodified cm.config payload name = true

/-- The policy loads, and the read-only sections that are written read as they are stored. -/
def Honest (cm : Manager) (r : Request) (payload : Mapping) : Prop :=
  cm.PolicyLoads ∧ ∀ name, cm.ReadOnly name → (name = authentication → r.writesAuth = true) →
    read name (Dict.findList name payload) = read name (Dict.findList name cm.config)

end OpenMux.ConfigEditor
