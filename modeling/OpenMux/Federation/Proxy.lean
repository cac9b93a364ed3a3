import OpenMux.Federation.Capacity
import OpenMux.Lib.Dict

/-!
# Port metadata on its way from the origin to a peer

The entry that `_slpl_port_meta` builds for a local port, the JSON object it travels as, and the metadata that the
receiver builds from it. Fields that no function here reads, such as the serial settings and the server chain, are left
out.
-/

namespace OpenMux.Federation

open Py

abbrev PortName := String

/-- `{"ref", "on"}` of a power feed. -/
structure Feed where
  ref : Text
  on : Option Bool
deriving DecidableEq

/-- `PortMetadata`. `originServer` is `origin_server.server_id`. -/
structure PortMetadata where
  name : PortName
  originServer : String
  maxRwUsers : Value := .int 1
  readWriteGroups : Option (List String) := none
  readOnlyGroups : Option (List String) := none
  statusMessage : Option String := none
  readiness : Option String := none
  power : Option (List Feed) := none
deriving DecidableEq

/-- `xs or None`. -/
def orNone {α : Type} : Option (List α) → Option (List α)
  | some (x :: xs) => some (x :: xs)
  | _ => none

/-- `s or None`. -/
def strOrNone : Option String → Option String
  | some s => if s = "" then none else some s
  | none => none

/-! ## The origin -/

/-- The status entry of a local port that `_slpl_port_meta` reads. -/
structure LocalPort where
  name : PortName
  maxReadWriteUsers : Option Value := none
  maxRwUsers : Option Value := none
  readWriteGroups : Option (List String) := none
  readOnlyGroups : Option (List String) := none
  statusMessage : Option String := none
  readiness : Option String := none
  power : Option (List Feed) := none

/-- `_slpl_port_meta`. -/
def slplPortMeta (int : Text → Option Int) (serverId : String) (p : LocalPort) : PortMetadata where
  name := p.name
  originServer := serverId
  maxRwUsers := .int (capacityToWire int (p.maxReadWriteUsers.getD (p.maxRwUsers.getD (.int 1))))
  readWriteGroups := orNone p.readWriteGroups
  readOnlyGroups := orNone p.readOnlyGroups
  statusMessage := strOrNone p.statusMessage
  readiness := strOrNone p.readiness
  power := p.power

/-! ## The wire -/

/-- The `origin_server` field: an object, or the id alone from an older peer. `wellFormed` says that the other fields of
the object parse. -/
inductive Origin
  | object (serverId : Option String) (wellFormed : Bool)
  | legacy (id : Option String)
deriving DecidableEq

/-- An entry of the `power` field. -/
inductive FeedEntry
  | object (ref : Option Text) (on : Option Bool)
  | str (ref : Text)
  | malformed
deriving DecidableEq

/-- The JSON object of one port in a `PORTS:FEDERATED` frame; `none` where the key is missing or null. -/
structure FedDict where
  name : Option String
  originalName : Option String := none
  originServer : Origin
  maxRwUsers : Option Value := none
  readWriteGroups : Option (List String) := none
  readOnlyGroups : Option (List String) := none
  statusMessage : Option String := none
  readiness : Option String := none
  power : Option (List FeedEntry) := none
deriving DecidableEq

/-- `to_federation_dict`. -/
def PortMetadata.toFederationDict (m : PortMetadata) : FedDict where
  name := some m.name
  originServer := .object (some m.originServer) true
  maxRwUsers := some m.maxRwUsers
  readWriteGroups := orNone m.readWriteGroups
  readOnlyGroups := orNone m.readOnlyGroups
  statusMessage := strOrNone m.statusMessage
  readiness := strOrNone m.readiness
  power := (orNone m.power).map fun fs => fs.map fun f => .object (some f.ref) f.on

/-- `json.dumps` and `json.loads` of the object: strings, lists of strings and null come back as they are. -/
def FedDict.overJson (d : FedDict) : Option FedDict :=
  match d.maxRwUsers with
  | none => some d
  | some v => (dumps v).map fun j => { d with maxRwUsers := some (loads j) }

/-! ## The receiver -/

/-- `_rp_origin_server_info`, the server id. -/
def rpOriginServerId : Origin → String
  | .object (some s) _ => s
  | .object none true => "None"
  | .object none false => "remote"
  | .legacy id => (strOrNone id).getD "remote"

/-- `pd.get("name") or pd.get("original_name")`. -/
def FedDict.givenName (pd : FedDict) : Option PortName :=
  match strOrNone pd.name with
  | some n => some n
  | none => pd.originalName

/-- `_rp_base_fields`, the name. -/
def FedDict.portName (pd : FedDict) : PortName := (strOrNone pd.givenName).getD "remote_port"

/-- `_valid_ref_token`. -/
def validRefToken (t : Text) : Bool := !t.isEmpty && t.all fun c => c ≠ '.' && !isSpace c

/-- `split_remote_ref`. -/
def splitRemoteRef (ref : Text) : Option (Text × Text) :=
  if countTwice ':' ref ≠ 1 then none
  else match cutTwice ':' ref with
    | none => none
    | some (origin, local_) =>
        if origin.isEmpty || origin.any isSpace then none
        else match split '.' 1 local_ with
          | [pduName, outletId] =>
              if outletId.contains '.' || !validRefToken pduName || !validRefToken outletId then none
              else some (origin, local_)
          | _ => none

/-- `remote_ref`. -/
def remoteRef (origin : String) (ref : Text) : Text := origin.toList ++ ':' :: ':' :: ref

/-- `_rp_power_entry`. -/
def rpPowerEntry (serverId : String) (e : FeedEntry) : Option Feed :=
  let qualify (r : Text) (on : Option Bool) : Option Feed :=
    if r = [] then none
    else some ⟨if (splitRemoteRef r).isNone then remoteRef serverId r else r, on⟩
  match e with
  | .object none _ => none
  | .object (some r) on => qualify r on
  | .str r => qualify r none
  | .malformed => none

/-- `_rp_power_feeds`. -/
def rpPowerFeeds (serverId : String) (raw : Option (List FeedEntry)) : Option (List Feed) :=
  orNone (raw.map fun es => es.filterMap (rpPowerEntry serverId))

/-- The metadata that `_register_remote_port_from_dict` builds. -/
def metadataFromDict (int : Text → Option Int) (pd : FedDict) : PortMetadata where
  name := pd.portName
  originServer := rpOriginServerId pd.originServer
  maxRwUsers := .float (capacityFromWire int ((pd.maxRwUsers.getD (.int 1)).orElse (.int 1)))
  readWriteGroups := orNone pd.readWriteGroups
  readOnlyGroups := orNone pd.readOnlyGroups
  statusMessage := strOrNone pd.statusMessage
  readiness := strOrNone pd.readiness
  power := rpPowerFeeds (rpOriginServerId pd.originServer) pd.power

end OpenMux.Federation

/-!
## Remote port proxies

`RemotePortProxy` as far as the registration code reads and writes it, its refresh from a new advertisement, and its entry
in the federated cache.
-/

namespace OpenMux.Federation

open Py

/-- The key of a multipath group, compared only. -/
abbrev PeerKey := String

/-- An entry of a VIEWERS frame, carried along only. -/
abbrev Viewer := String

structure Proxy where
  connectionId : PeerKey
  remotePortName : PortName
  metadata : PortMetadata
  maxReadWriteUsers : WriteMode
  readWriteGroups : List String
  readOnlyGroups : List String
  power : List Text := []
  feedStates : Dict Text (Option Bool) := ∅
  remoteViewers : List Viewer := []
  isConnected : Bool := true
  linkReason : String := ""
  dataCallback : Bool := false
deriving DecidableEq

/-- The refs and states that `__init__` takes over from `metadata.power`. -/
def initFeeds (feeds : List Feed) : List Text × Dict Text (Option Bool) :=
  (feeds.filter (·.ref ≠ [])).foldl (fun (refs, states) f => (refs ++ [f.ref], states.set f.ref f.on)) ([], ∅)

variable (int : Text → Option Int)

/-- `RemotePortProxy.__init__`. -/
def Proxy.new (peerKey : PeerKey) (name : PortName) (m : PortMetadata) : Proxy where
  connectionId := peerKey
  remotePortName := name
  metadata := m
  maxReadWriteUsers := wireToMode int m.maxRwUsers
  readWriteGroups := m.readWriteGroups.getD []
  readOnlyGroups := m.readOnlyGroups.getD []
  power := (initFeeds (m.power.getD [])).1
  feedStates := (initFeeds (m.power.getD [])).2

/-- `_normalize_power_feed_meta`. -/
def normalizePowerFeedMeta (m : PortMetadata) : List Text × Dict Text (Option Bool) :=
  let feeds := (m.power.getD []).filter (·.ref ≠ [])
  let qualified := feeds.map fun f : Feed =>
    ({ f with ref := if (splitRemoteRef f.ref).isNone ∧ m.originServer ≠ "" then remoteRef m.originServer f.ref
                     else f.ref } : Feed)
  qualified.foldl (fun (refs, states) f => (refs ++ [f.ref], states.set f.ref f.on)) ([], ∅)

/-- `_apply_power_meta_to_proxy`: the declared feeds replace the old ones; none declared leaves them. -/
def applyPowerMeta (p : Proxy) : Proxy :=
  let (refs, states) := normalizePowerFeedMeta p.metadata
  if refs = [] then p
  else { p with
    power := refs
    feedStates := states
    metadata := { p.metadata with power := some (refs.map fun r => ⟨r, (states.get? r).getD none⟩) } }

/-- `_rp_update_meta_and_power`. The group lists of the proxy are not among what it refreshes. -/
def Proxy.updateMetaAndPower (p : Proxy) (peerKey : PeerKey) (m : PortMetadata) : Proxy :=
  applyPowerMeta { p with
    connectionId := peerKey
    metadata := m
    maxReadWriteUsers := wireToMode int m.maxRwUsers }

/-- What `_rp_update_existing` leaves of the proxy: refreshed, connected, with a data callback. -/
def Proxy.updateExisting (p : Proxy) (peerKey : PeerKey) (m : PortMetadata) : Proxy :=
  { p.updateMetaAndPower int peerKey m with isConnected := true, linkReason := "", dataCallback := true }

/-! ## The federated cache -/

/-- The JSON object of one port in the cache file. -/
structure CacheRecord where
  connected : Bool
  originServerId : Option String
  maxRwUsers : Json
  readWriteGroups : Option (List String)
  readOnlyGroups : Option (List String)
  statusMessage : Option String
  readiness : Option String
  power : Option (List Feed)
deriving DecidableEq

/-- The record that `_save_federated_cache` writes for a proxy. -/
def Proxy.cacheRecord (p : Proxy) : Option CacheRecord :=
  (dumps p.metadata.maxRwUsers).map fun maxRw =>
    { connected := p.isConnected
      originServerId := some p.metadata.originServer
      maxRwUsers := maxRw
      readWriteGroups := p.metadata.readWriteGroups
      readOnlyGroups := p.metadata.readOnlyGroups
      statusMessage := p.metadata.statusMessage
      readiness := p.metadata.readiness
      power := orNone p.metadata.power }

/-- `_cached_port_metadata`. -/
def cachedPortMetadata (name : PortName) (rec : CacheRecord) : PortMetadata where
  name := name
  originServer := (strOrNone rec.originServerId).getD "remote"
  maxRwUsers := loads rec.maxRwUsers
  readWriteGroups := orNone rec.readWriteGroups
  readOnlyGroups := orNone rec.readOnlyGroups
  statusMessage := strOrNone rec.statusMessage
  readiness := strOrNone rec.readiness
  power := rec.power

/-- The proxy that `_load_cached_port` builds. -/
def Proxy.ofCache (peerKey : PeerKey) (name : PortName) (rec : CacheRecord) : Proxy :=
  let m := cachedPortMetadata name rec
  { Proxy.new int peerKey name m with
    isConnected := rec.connected
    linkReason := if rec.connected then "" else "MuxCon link to " ++ m.originServer ++ " is down" }

variable {int} {p : Proxy} {peerKey : PeerKey} {m : PortMetadata} {name : PortName} {rec : CacheRecord}

@[simp] theorem applyPowerMeta_connectionId : (applyPowerMeta p).connectionId = p.connectionId := by
  unfold applyPowerMeta; dsimp only; split <;> rfl

@[simp] theorem applyPowerMeta_remotePortName : (applyPowerMeta p).remotePortName = p.remotePortName := by
  unfold applyPowerMeta; dsimp only; split <;> rfl

@[simp] theorem applyPowerMeta_maxReadWriteUsers : (applyPowerMeta p).maxReadWriteUsers = p.maxReadWriteUsers := by
  unfold applyPowerMeta; dsimp only; split <;> rfl

@[simp] theorem applyPowerMeta_readWriteGroups : (applyPowerMeta p).readWriteGroups = p.readWriteGroups := by
  unfold applyPowerMeta; dsimp only; split <;> rfl

@[simp] theorem applyPowerMeta_readOnlyGroups : (applyPowerMeta p).readOnlyGroups = p.readOnlyGroups := by
  unfold applyPowerMeta; dsimp only; split <;> rfl

/-- Only the power list of the metadata is rewritten. -/
theorem applyPowerMeta_metadata : ∃ power, (applyPowerMeta p).metadata = { p.metadata with power := power } := by
  unfold applyPowerMeta
  dsimp only
  split
  · exact ⟨p.metadata.power, rfl⟩
  · exact ⟨_, rfl⟩

/-- A cached proxy keeps the capacity value of its metadata. -/
theorem ofCache_metadata_maxRwUsers (int : Text → Option Int) (peerKey : PeerKey) (name : PortName)
    (h : p.cacheRecord = some rec) :
    (Proxy.ofCache int peerKey name rec).metadata.maxRwUsers = p.metadata.maxRwUsers := by
  obtain ⟨j, hj, rfl⟩ := Option.map_eq_some_iff.mp h
  exact loads_dumps hj

theorem ofCache_maxReadWriteUsers (h : p.cacheRecord = some rec) :
    (Proxy.ofCache int peerKey name rec).maxReadWriteUsers = wireToMode int p.metadata.maxRwUsers := by
  rw [← ofCache_metadata_maxRwUsers int peerKey name h]
  rfl

end OpenMux.Federation
