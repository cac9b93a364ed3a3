import OpenMux.Federation.Capacity
import OpenMux.Lib.PyValue

/-!
# Ports that dial out

A port of the TCP initiator adapter as its constructor leaves it, and the fields that a reload compares. The constructor and
the comparison read the same entry, each in its own way.
-/

namespace OpenMux.Initiator

open Py Federation

/-- What the interpreter does with a value; `none` stands for an exception. -/
structure Builtins where
  str : Tree → Option Text
  int : Tree → Option Int
  float : Tree → Option FloatVal
  list : Tree → Option (List Tree)
  /-- An object that is no text may have a method `lower`, as `bytes` does. -/
  hasLower : Nat → Bool
  sorted : List Key → Option (List Key)
  sorted_perm : ∀ ks ls, sorted ks = some ls → ls.Perm ks
  sorted_text : ∀ ks, (∀ k ∈ ks, ∃ t, k = .str t) → (sorted ks).isSome = true

/-- `m.get(k, d)`. -/
def getOr (k : String) (d : Tree) (m : Mapping) : Tree := (Mapping.find k.toList m).getD d

/-- A value as far as `parse_write_mode` looks at it. -/
def scalar : Tree → Value
  | .none => .none
  | .bool b => .bool b
  | .int n => .int n
  | .float x => .float x
  | .str t => .str t
  | v => .other v.truthy

/-- Why a port was not built: the field at which the constructor raised, or the step after it. -/
inductive Refusal
  | maxReadWriteUsers
  | readWriteGroups
  | readOnlyGroups
  | power
  | scrollbackSize
  | idleDisconnectDelay
  | protocol
  | host
  | port
  /-- "port could not be created or started from this entry" -/
  | notStarted
deriving DecidableEq

/-- `TcpInitiatorPort`, without its connection. -/
structure Port where
  config : Mapping
  host : Tree
  port : Tree
  useTls : Bool
  sslVerify : Tree
  timeout : Tree
  autoReconnect : Tree
  reconnectDelay : Tree
  enabled : Bool
  maxReadWriteUsers : WriteMode
  readWriteGroups : List Tree
  readOnlyGroups : List Tree
  power : List Text
  scrollbackSize : Int
  connectOnDemand : Bool
  disconnectWhenIdle : Bool
  idleDisconnectDelay : FloatVal
  batchSize : Tree
  batchTimeout : Tree
  batchingEnabled : Tree
  description : Option Text := none

/-- The fields of a change that needs a new port. -/
structure Material where
  host : Tree
  port : Tree
  useTls : Bool
  sslVerify : Tree
  timeout : Tree
  autoReconnect : Tree
  reconnectDelay : Tree
  maxReadWriteUsers : Tree
  enableBatching : Tree
  batchSize : Tree
  batchTimeout : Tree
  enabled : Bool
  connectOnDemand : Bool
  disconnectWhenIdle : Bool
  idleDisconnectDelay : FloatVal
  protocol : Tree
  scrollbackSize : Int

/-- `old_cfg == _new_mat`. -/
def Material.eq (m n : Material) : Bool :=
  m.host.eq n.host && m.port.eq n.port && m.useTls = n.useTls && m.sslVerify.eq n.sslVerify && m.timeout.eq n.timeout &&
    m.autoReconnect.eq n.autoReconnect && m.reconnectDelay.eq n.reconnectDelay &&
    m.maxReadWriteUsers.eq n.maxReadWriteUsers && m.enableBatching.eq n.enableBatching && m.batchSize.eq n.batchSize &&
    m.batchTimeout.eq n.batchTimeout && m.enabled = n.enabled && m.connectOnDemand = n.connectOnDemand &&
    m.disconnectWhenIdle = n.disconnectWhenIdle && (Tree.float m.idleDisconnectDelay).eq (.float n.idleDisconnectDelay) &&
    m.protocol.eq n.protocol && m.scrollbackSize = n.scrollbackSize

variable (B : Builtins)

/-- `(protocol_cfg.get("type", "") or "plain").lower()`. -/
def protocolType (cfg : Mapping) : Option Tree :=
  match getOr "protocol" (.dict []) cfg with
  | .dict protocolCfg =>
      match (getOr "type" (.str []) protocolCfg).orElse (.str "plain".toList) with
      | .str t => some (.str (lower t))
      | .object id b i => if B.hasLower id then some (.object id b i) else none
      | _ => none
  | _ => none

/-- `protocol_type == "plain"`. -/
def plain (protocolType : Tree) : Bool := protocolType.eq (.str "plain".toList)

/-- `parse_write_mode`. -/
def writeMode (v : Tree) : Option WriteMode := parseWriteMode (fun t => B.int (.str t)) (scalar v)

/-- `compare_write_mode`. -/
def compareWriteMode (v : Tree) : Tree :=
  match writeMode B v with
  | some m => .str m.text
  | none => v

/-- `[str(r) for r in (cfg.get("power") or [])]`. -/
def powerFeeds (cfg : Mapping) : Option (List Text) := do
  let refs ← B.list ((getOr "power" .none cfg).orElse (.list []))
  refs.mapM B.str

/-- `list(cfg.get(key) or [])`. -/
def groupList (key : String) (cfg : Mapping) : Option (List Tree) := B.list ((getOr key .none cfg).orElse (.list []))

/-- `TcpInitiatorPort.__init__`. -/
def Port.init (config : Mapping) : Except Refusal Port := do
  let some maxReadWriteUsers := writeMode B (getOr "max_read_write_users" (.int 1) config) | .error .maxReadWriteUsers
  let some readWriteGroups := groupList B "read_write_groups" config | .error .readWriteGroups
  let some readOnlyGroups := groupList B "read_only_groups" config | .error .readOnlyGroups
  let some power := powerFeeds B config | .error .power
  let some scrollbackSize := B.int (getOr "scrollback_size" (.int 0) config) | .error .scrollbackSize
  let some idleDisconnectDelay := B.float (getOr "idle_disconnect_delay" (.float (.fin 30)) config)
    | .error .idleDisconnectDelay
  let some protocolType := protocolType B config | .error .protocol
  let port : Port := {
    config
    host := getOr "host" (.str []) config
    port := getOr "port" (.int 0) config
    useTls := (getOr "use_tls" (.bool false) config).truthy
    sslVerify := getOr "ssl_verify" (.bool true) config
    timeout := getOr "timeout" (.float (.fin 10)) config
    autoReconnect := getOr "auto_reconnect" (.bool true) config
    reconnectDelay := getOr "reconnect_delay" (.float (.fin 5)) config
    enabled := (getOr "enabled" (.bool true) config).truthy
    maxReadWriteUsers, readWriteGroups, readOnlyGroups, power, scrollbackSize, idleDisconnectDelay
    connectOnDemand := (getOr "connect_on_demand" (.bool false) config).truthy
    disconnectWhenIdle := (getOr "disconnect_when_idle" (.bool false) config).truthy
    batchSize := getOr "batch_size" (.int 1024) config
    batchTimeout := getOr "batch_timeout" (.float (.fin (3 / 200))) config
    batchingEnabled := getOr "enable_batching" (.bool (plain protocolType)) config }
  if !port.host.truthy then .error .host
  else if !port.port.truthy then .error .port
  else .ok port

/-- The material fields of a running port, `old_cfg`. -/
def Port.material (p : Port) : Material where
  host := p.host
  port := p.port
  useTls := p.useTls
  sslVerify := p.sslVerify
  timeout := p.timeout
  autoReconnect := p.autoReconnect
  reconnectDelay := p.reconnectDelay
  maxReadWriteUsers := .str (wireToMode (fun t => B.int (.str t)) p.maxReadWriteUsers.value).text
  enableBatching := p.batchingEnabled
  batchSize := p.batchSize
  batchTimeout := p.batchTimeout
  enabled := p.enabled
  connectOnDemand := p.connectOnDemand
  disconnectWhenIdle := p.disconnectWhenIdle
  idleDisconnectDelay := p.idleDisconnectDelay
  protocol := getOr "protocol" (.dict []) p.config
  scrollbackSize := p.scrollbackSize

/-- `_material_cfg`. -/
def materialCfg (cfg : Mapping) : Option Material := do
  let protocolType ← protocolType B cfg
  let idleDisconnectDelay ← B.float (getOr "idle_disconnect_delay" (.float (.fin 30)) cfg)
  let scrollbackSize ← B.int (getOr "scrollback_size" (.int 0) cfg)
  some {
    host := getOr "host" (.str []) cfg
    port := getOr "port" (.int 0) cfg
    useTls := (getOr "use_tls" (.bool false) cfg).truthy
    sslVerify := getOr "ssl_verify" (.bool true) cfg
    timeout := getOr "timeout" (.float (.fin 10)) cfg
    autoReconnect := getOr "auto_reconnect" (.bool true) cfg
    reconnectDelay := getOr "reconnect_delay" (.float (.fin 5)) cfg
    maxReadWriteUsers := compareWriteMode B (getOr "max_read_write_users" (.int 1) cfg)
    enableBatching := getOr "enable_batching" (.bool (plain protocolType)) cfg
    batchSize := getOr "batch_size" (.int 1024) cfg
    batchTimeout := getOr "batch_timeout" (.float (.fin (3 / 200))) cfg
    enabled := (getOr "enabled" (.bool true) cfg).truthy
    connectOnDemand := (getOr "connect_on_demand" (.bool false) cfg).truthy
    disconnectWhenIdle := (getOr "disconnect_when_idle" (.bool false) cfg).truthy
    idleDisconnectDelay
    protocol := getOr "protocol" (.dict []) cfg
    scrollbackSize }

/-- The constructor reads the material fields as the comparison does. -/
theorem Port.material_init {config : Mapping} {p : Port} (h : Port.init B config = .ok p) :
    p.config = config ∧ materialCfg B config = some (p.material B) := by
  unfold Port.init at h
  cases hmode : writeMode B (getOr "max_read_write_users" (.int 1) config) with
  | none => simp [hmode] at h
  | some mode =>
  cases hrw : groupList B "read_write_groups" config with
  | none => simp [hmode, hrw] at h
  | some rw =>
  cases hro : groupList B "read_only_groups" config with
  | none => simp [hmode, hrw, hro] at h
  | some ro =>
  cases hpower : powerFeeds B config with
  | none => simp [hmode, hrw, hro, hpower] at h
  | some power =>
  cases hsize : B.int (getOr "scrollback_size" (.int 0) config) with
  | none => simp [hmode, hrw, hro, hpower, hsize] at h
  | some size =>
  cases hdelay : B.float (getOr "idle_disconnect_delay" (.float (.fin 30)) config) with
  | none => simp [hmode, hrw, hro, hpower, hsize, hdelay] at h
  | some delay =>
  cases htype : protocolType B config with
  | none => simp [hmode, hrw, hro, hpower, hsize, hdelay, htype] at h
  | some type =>
      simp only [hmode, hrw, hro, hpower, hsize, hdelay, htype] at h
      split at h
      · cases h
      · split at h
        · cases h
        · cases h
          have hwire : wireToMode (fun t => B.int (.str t)) mode.value = mode := by cases mode <;> rfl
          simp [materialCfg, Port.material, hsize, hdelay, htype, compareWriteMode, hmode, hwire]

/-- `_reconcile_inplace_update`. What raises leaves the fields after it as they were. -/
def Port.inplaceUpdate (p : Port) (cfg : Mapping) : Port :=
  let p := match Mapping.find "description".toList cfg with
    | some (.str desc) => if desc = [] then p else { p with description := some desc }
    | _ => p
  match groupList B "read_write_groups" cfg, groupList B "read_only_groups" cfg with
  | some newRw, some newRo =>
      let p := { p with
        readWriteGroups := if Tree.eqList p.readWriteGroups newRw then p.readWriteGroups else newRw
        readOnlyGroups := if Tree.eqList p.readOnlyGroups newRo then p.readOnlyGroups else newRo }
      match powerFeeds B cfg with
      | some newPower => { p with power := newPower }
      | none => p
  | _, _ => p

/-- An update in place changes no material field. -/
@[simp] theorem Port.material_inplaceUpdate (p : Port) (cfg : Mapping) : (p.inplaceUpdate B cfg).material B = p.material B := by
  unfold inplaceUpdate
  split <;> split <;> (try split) <;> (try split) <;> rfl

@[simp] theorem Port.config_inplaceUpdate (p : Port) (cfg : Mapping) : (p.inplaceUpdate B cfg).config = p.config := by
  unfold inplaceUpdate
  split <;> split <;> (try split) <;> (try split) <;> rfl

end OpenMux.Initiator
