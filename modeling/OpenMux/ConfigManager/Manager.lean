import OpenMux.Lib.PyData
import OpenMux.Lib.PyText

/-!
# The configuration manager

`load_config` and `save_config` with the two files and what the manager holds. YAML is taken as it comes, and reading and writing may fail
at any point. A file holds the text that it is decoded to; `none` stands for a file that does not exist.
-/

namespace OpenMux.ConfigManager

open Py

variable {π : Type}

/-- `yaml.safe_load`, with `none` for a `YAMLError`, and `yaml.dump`. -/
structure Yaml where
  safeLoad : Text → Option Data
  dump : Data → Text

/-- A `ConfigManager`; the security policy is of any type. -/
structure Manager (π : Type) where
  config : Data := .none
  /-- `_authentication_config`. -/
  authenticationConfig : Data := .none
  /-- `_security_policy`. -/
  securityPolicy : Option π := none

/-- A file and its backup. -/
structure Stored where
  file : Option Text := none
  backup : Option Text := none
deriving DecidableEq

/-- What is at `config_path` and at `auth_config_path`. -/
structure Disk where
  server : Stored := {}
  auth : Stored := {}
deriving DecidableEq

/-! ## Removed keys -/

def removedTopLevel : List (Text × Text) :=
  [("server", "control_socket"), ("server", "pidfile"), ("logging", "log_dir"), ("muxcon", "federated_cache_path"),
    ("web_console", "static_dir"), ("web_console", "template_dir")].map fun e => (e.1.toList, e.2.toList)

def removedIdentityKeys : List (Text × Text) :=
  [("server", "name"), ("server", "server_id"), ("muxcon", "server_id")].map fun e => (e.1.toList, e.2.toList)

def removedListenerKeys : List Text := ["tls_dir".toList, "tls_known_peers_path".toList]

def removedCommandPortKeys : List Text :=
  ["auto_restart", "restart_delay", "max_restarts", "restart_backoff", "local_echo", "pty_force_raw", "pty_enter_mode", "spawn_mode",
    "use_pty", "output_crlf", "clean_env", "intercept_term_queries", "enable_output_batching", "output_batch_size",
    "output_batch_timeout", "output_force_flush_timeout", "enable_batching", "batch_size", "batch_timeout",
    "always_buffer"].map String.toList

def stripListenerKeys (config : Data) : Data :=
  removedListenerKeys.foldl (fun c key =>
    c.modify "muxcon".toList fun mux => mux.modify "listeners".toList fun listeners => listeners.each (Data.delete key)) config

/-- `_strip_removed_location_keys`. -/
def stripRemovedLocationKeys (config : Data) : Data :=
  (removedTopLevel ++ removedIdentityKeys).foldl (fun c e => c.modify e.1 (Data.delete e.2)) (stripListenerKeys config)

/-- The keys of a command port. -/
def stripCommandPort (port : Data) : Data := removedCommandPortKeys.foldl (fun p key => p.delete key) port

def stripCommandPorts (config : Data) : Data := config.modify "command_ports".toList fun ports => ports.each stripCommandPort

/-- `config.get(k)`, of a dict. -/
def getItem (config : Data) (k : Text) : Data :=
  match config with
  | .dict f => (f (.str k)).getD .none
  | _ => .none

/-- `absorb_removed_command_port_keys`; `none` when the loop over the ports raises. -/
def absorbRemovedCommandPortKeys (config : Data) : Option Data :=
  if (getItem config "command_ports".toList).loopable then some (stripCommandPorts config) else none

/-- A configuration without the removed keys. -/
def withoutRemovedKeys (config : Data) : Data := stripCommandPorts (stripRemovedLocationKeys config)

/-! ## Validation -/

inductive LoadError
  | notFound
  | unreadable
  | empty
  | yaml
  | badType
  | notLoaded
  | missingSection
  | inlineAuthentication
  | authNotFound
  | authUnreadable
  | authYaml
  | authNotMapping
  | noAuthMethod
  | serialNotList
  | serialNotMapping (index : ℕ)
  | serialNoName (index : ℕ)
  | serialFlowControl (index : ℕ)
deriving DecidableEq

def lower (t : Text) : Text := t.map Char.toLower

/-- `_line_policy_managed`. -/
def linePolicyManaged : Data → Bool
  | .none => false
  | .str t => lower (strip t) ≠ [] ∧ lower (strip t) ≠ "none".toList
  | _ => true

/-- `flow_control` says `rtscts`, which only a text does. -/
def isRtscts : Data → Bool
  | .str t => lower (strip t) = "rtscts".toList
  | _ => false

/-- One entry of `serial_ports`. -/
def checkSerialPort (index : ℕ) : Data → Except LoadError Unit
  | .dict port =>
      if (port (.str "name".toList)).isNone then .error (.serialNoName index)
      else if isRtscts ((port (.str "flow_control".toList)).getD .none) ∧ linePolicyManaged ((port (.str "rts".toList)).getD .none) then
        .error (.serialFlowControl index)
      else .ok ()
  | _ => .error (.serialNotMapping index)

def checkSerialPorts : ℕ → List Data → Except LoadError Unit
  | _, [] => .ok ()
  | i, port :: ports =>
      match checkSerialPort i port with
      | .error e => .error e
      | .ok () => checkSerialPorts (i + 1) ports

/-- `_validate_serial_ports_config`. -/
def validateSerialPortsConfig : Data → Except LoadError Unit
  | .list ports => checkSerialPorts 0 ports
  | _ => .error .serialNotList

def authMethods : List Text := ["users".toList, "api_keys".toList, "public_keys".toList, "external_auth".toList]

/-- `_validate_authentication_config` and `_validate_serial_ports_config`. -/
def validateSections (config : Data.Entries) (auth : Data) : Except LoadError Unit :=
  if authMethods.any fun method => auth.has method = some true then
    match config (.str "serial_ports".toList) with
    | some ports => validateSerialPortsConfig ports
    | none => .ok ()
  else .error .noAuthMethod

/-! ## Loading -/

/-- Where reading fails. -/
structure ReadFaults where
  server : Bool := false
  auth : Bool := false
deriving DecidableEq

/-- `_load_authentication_file`. -/
def loadAuthenticationFile (lib : Yaml) (faults : ReadFaults) (disk : Disk) : Except LoadError Data :=
  match disk.auth.file with
  | none => .error .authNotFound
  | some content =>
      if faults.auth then .error .authUnreadable
      else match lib.safeLoad content with
        | none => .error .authYaml
        | some data => if data.orDict.isDict then .ok data.orDict else .error .authNotMapping

/-- `_validate_config`. -/
def validateConfig (lib : Yaml) (faults : ReadFaults) (disk : Disk) (m : Manager π) : Except LoadError Unit × Manager π :=
  if m.config.isNone then (.error .notLoaded, m)
  else match m.config.has "server".toList with
    | none => (.error .badType, m)
    | some false => (.error .missingSection, m)
    | some true =>
        let m := { m with authenticationConfig := .none }
        match m.config.has "authentication".toList with
        | none => (.error .badType, m)
        | some true => (.error .inlineAuthentication, m)
        | some false =>
            match loadAuthenticationFile lib faults disk with
            | .error e => (.error e, m)
            | .ok auth =>
                let m := { m with authenticationConfig := auth }
                match m.config with
                | .dict config =>
                    (validateSections config auth, { m with config := .dict (Data.assign config "authentication".toList auth) })
                | _ => (.error .badType, m)

/-- `load_config`. -/
def loadConfig (lib : Yaml) (faults : ReadFaults) (disk : Disk) (m : Manager π) : Except LoadError Data × Manager π :=
  match disk.server.file with
  | none => (.error .notFound, m)
  | some content =>
      if faults.server then (.error .unreadable, m)
      else if strip content = [] then (.error .empty, m)
      else match lib.safeLoad content with
        | none => (.error .yaml, m)
        | some config =>
            let m := { m with config := stripRemovedLocationKeys config }
            match absorbRemovedCommandPortKeys m.config with
            | none => (.error .badType, m)
            | some config =>
                match validateConfig lib faults disk { m with config := config } with
                | (.error e, m) => (.error e, m)
                | (.ok (), m) => (.ok m.config, { m with securityPolicy := none })

/-! ## Saving -/

/-- Where writing fails: before anything is opened, at the backup, at the opening of the file, and after a part was written. -/
inductive WriteFault
  | makedirs
  | backup (left : Option Text)
  | open
  | dump (written : ℕ)
deriving DecidableEq

def Stored.backedUp (d : Stored) : Stored :=
  match d.file with
  | some content => { d with backup := some content }
  | none => d

/-- `_write_yaml_with_backup`; whether it comes to its end, and what it leaves. -/
def writeYamlWithBackup (fault : Option WriteFault) (text : Text) (d : Stored) : Bool × Stored :=
  match fault with
  | some .makedirs => (false, d)
  | some (.backup left) => if d.file.isSome then (false, { d with backup := left }) else (true, { d with file := some text })
  | some .open => (false, d.backedUp)
  | some (.dump n) => (false, { d.backedUp with file := some (text.take n) })
  | none => (true, { d.backedUp with file := some text })

structure WriteFaults where
  server : Option WriteFault := none
  auth : Option WriteFault := none
deriving DecidableEq

/-- The `authentication` that is saved. -/
def authPayload (config : Data.Entries) (authentication : Option Data) : Option Data :=
  match authentication with
  | some auth => some auth
  | none => (config (.str "authentication".toList)).filter Data.isDict

/-- `server_payload`. -/
def serverPayload (config : Data.Entries) : Data.Entries := Data.pop config "authentication".toList

/-- `combined_payload`. -/
def combinedPayload (config : Data.Entries) (auth : Data) : Data := .dict (Data.assign (serverPayload config) "authentication".toList auth)

/-- `save_config`. -/
def saveConfig (lib : Yaml) (faults : WriteFaults) (config : Data.Entries) (authentication : Option Data) (disk : Disk)
    (m : Manager π) : Bool × Disk × Manager π :=
  match writeYamlWithBackup faults.server (lib.dump (.dict (serverPayload config))) disk.server with
  | (false, server) => (false, { disk with server := server }, m)
  | (true, server) =>
      match authPayload config authentication with
      | none => (false, { disk with server := server }, m)
      | some auth =>
          match writeYamlWithBackup faults.auth (lib.dump auth) disk.auth with
          | (false, authFile) => (false, { server := server, auth := authFile }, m)
          | (true, authFile) => (true, { server := server, auth := authFile },
              { m with config := combinedPayload config auth, authenticationConfig := auth })

/-! ## When it is all or nothing -/

/-- The file is not read as YAML. -/
def Unparsed (lib : Yaml) (faults : ReadFaults) (disk : Disk) : Prop :=
  ∀ content, disk.server.file = some content → faults.server = true ∨ strip content = [] ∨ lib.safeLoad content = none

/-- A serial port with a name, and with one owner of its RTS line. -/
def SerialPortValid (port : Data) : Prop :=
  ∃ f, port = .dict f ∧ (f (.str "name".toList)).isSome ∧
    (isRtscts ((f (.str "flow_control".toList)).getD .none) → linePolicyManaged ((f (.str "rts".toList)).getD .none) = false)

/-- A configuration without the removed keys, and the authentication data, that are taken. -/
structure Valid (config : Data.Entries) (auth : Data) : Prop where
  server : (config (.str "server".toList)).isSome
  external : config (.str "authentication".toList) = none
  commands : ((config (.str "command_ports".toList)).getD .none).loopable
  mapping : auth.isDict
  method : ∃ method ∈ authMethods, auth.has method = some true
  serial : ∀ v, config (.str "serial_ports".toList) = some v → ∃ ports, v = .list ports ∧ ∀ port ∈ ports, SerialPortValid port

/-- The two files are read, and hold what is taken. -/
def Accepted (lib : Yaml) (faults : ReadFaults) (disk : Disk) : Prop :=
  ∃ content parsed config authContent data,
    (disk.server.file = some content ∧ faults.server = false ∧ strip content ≠ [] ∧ lib.safeLoad content = some parsed) ∧
    (disk.auth.file = some authContent ∧ faults.auth = false ∧ lib.safeLoad authContent = some data) ∧
    withoutRemovedKeys parsed = .dict config ∧ Valid config data.orDict

/-- The write comes to its end. -/
def Completes (fault : Option WriteFault) (d : Stored) : Prop := fault = none ∨ d.file = none ∧ ∃ left, fault = some (.backup left)

/-- The write fails and leaves the file as it was: it fails before the file is opened, or the file held just what was written. -/
def Harmless (fault : Option WriteFault) (text : Text) (d : Stored) : Prop :=
  ¬ Completes fault d ∧ ∀ n, fault = some (.dump n) → d.file = some (text.take n)

/-- A save that fails leaves both files: it completes, or its first write fails without harm, or the first write changes nothing and the
second does not happen or fails without harm. -/
def SaveSafe (lib : Yaml) (faults : WriteFaults) (config : Data.Entries) (authentication : Option Data) (disk : Disk) : Prop :=
  let text := lib.dump (.dict (serverPayload config))
  Harmless faults.server text disk.server ∨
    (Completes faults.server disk.server ∧
      match authPayload config authentication with
      | none => disk.server.file = some text
      | some auth => Completes faults.auth disk.auth ∨ disk.server.file = some text ∧ Harmless faults.auth (lib.dump auth) disk.auth)

/-- What YAML writes of the payload it reads back, up to removed keys, and a load takes it. -/
def ReadsBack (lib : Yaml) (config : Data.Entries) (auth : Data) : Prop :=
  ∃ parsed data f,
    strip (lib.dump (.dict (serverPayload config))) ≠ [] ∧
    lib.safeLoad (lib.dump (.dict (serverPayload config))) = some parsed ∧
    lib.safeLoad (lib.dump auth) = some data ∧
    withoutRemovedKeys parsed = withoutRemovedKeys (.dict (serverPayload config)) ∧
    data.orDict = auth ∧
    withoutRemovedKeys (.dict (serverPayload config)) = .dict f ∧ Valid f auth

end OpenMux.ConfigManager
