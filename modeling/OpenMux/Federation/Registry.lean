import OpenMux.Federation.Proxy
import OpenMux.Lib.Run

/-!
# The port registry of a node and its peers' proxies

`PortManager.ports`, `_peer_proxies` and the federated cache, with the handlers of the PORTS:FEDERATED, PORT_STATUS,
POWER:STATE and VIEWERS frames and of a link that goes down or comes back. Proxies are objects: the two dicts hold references, so that one proxy can be in several
peers' maps. `ports` has every local port from the start; the source makes its wrapper on the first `get_port`.
-/

namespace OpenMux.Federation

open Py

abbrev ProxyId := Nat

/-- An entry of `PortManager.ports`: the wrapper of a local port, or a proxy. -/
inductive PortObj
  | wrapper
  | proxy (id : ProxyId)
deriving DecidableEq, Repr

/-- The content of the cache file. -/
abbrev Cache := List (PeerKey × List (PortName × CacheRecord))

structure Node where
  ports : Dict PortName PortObj := ∅
  peerProxies : Dict PeerKey (Dict PortName ProxyId) := ∅
  proxies : ProxyId → Proxy
  nextId : ProxyId := 0
  /-- The cache file; `none` when there is none, or none that parses. -/
  cache : Option Cache := none

/-- `accept` is `_allow_accept_port_for_conn` for the connections of a peer. -/
structure NodeCfg where
  int : Text → Option Int
  accept : PeerKey → FedDict → Bool
  cacheEnabled : Bool := true

namespace Node

def proxiesOf (n : Node) (peer : PeerKey) : Dict PortName ProxyId := (n.peerProxies.get? peer).getD ∅

/-- Records a proxy in the map of a peer. -/
def setPeerProxy (n : Node) (peer : PeerKey) (name : PortName) (id : ProxyId) : Node :=
  { n with peerProxies := n.peerProxies.set peer ((n.proxiesOf peer).set name id) }

/-- Writes to the fields of a proxy object. -/
def update (n : Node) (id : ProxyId) (p : Proxy) : Node := { n with proxies := Function.update n.proxies id p }

/-- A new proxy object. -/
def alloc (n : Node) (p : Proxy) : ProxyId × Node := (n.nextId, { n.update n.nextId p with nextId := n.nextId + 1 })

/-- `register_federated_port`, under the name of the metadata. -/
def registerFederatedPort (n : Node) (m : PortMetadata) (id : ProxyId) : Node :=
  { n.update id { n.proxies id with dataCallback := true } with ports := n.ports.set m.name (.proxy id) }

/-! ## The cache -/

def cacheRecords (n : Node) (names : Dict PortName ProxyId) : Option (List (PortName × CacheRecord)) :=
  names.entries.mapM fun e => (n.proxies e.2).cacheRecord.map fun rec => (e.1, rec)

/-- What `_save_federated_cache` writes; `none` when the encoder raises. -/
def cacheData (n : Node) : Option Cache :=
  n.peerProxies.entries.mapM fun e => (n.cacheRecords e.2).map fun recs => (e.1, recs)

def saveFederatedCache (cfg : NodeCfg) (n : Node) : Node :=
  if cfg.cacheEnabled then { n with cache := n.cacheData } else n

/-- `_load_cached_port`. A name that the port manager already has is not registered again. -/
def loadCachedPort (cfg : NodeCfg) (n : Node) (peer : PeerKey) (name : PortName) (rec : CacheRecord) : Node :=
  let (id, n) := n.alloc (Proxy.ofCache cfg.int peer name rec)
  let n := if (n.ports.get? name).isNone then n.registerFederatedPort (cachedPortMetadata name rec) id else n
  n.setPeerProxy peer name id

/-- `_load_federated_cache`. -/
def loadFederatedCache (cfg : NodeCfg) (n : Node) : Node :=
  (n.cache.getD []).foldl (fun n e =>
    e.2.foldl (fun n r =>
      if ((n.proxiesOf e.1).get? r.1).isSome then n else n.loadCachedPort cfg e.1 r.1 r.2) n) n

/-- The registry of a node whose only ports are local ones. -/
def localPorts (names : List PortName) : Dict PortName PortObj := names.foldl (fun d name => d.set name .wrapper) ∅

/-- The process starts again with the local ports it has then: only the cache file is left of the old one. -/
def restart (cfg : NodeCfg) (n : Node) (locals : List PortName) : Node :=
  let n := { n with ports := localPorts locals, peerProxies := ∅ }
  if cfg.cacheEnabled then n.loadFederatedCache cfg else n

/-! ## PORTS:FEDERATED -/

/-- `_rp_register_duplicate`. The wrapper of a local port has no metadata. -/
def rpRegisterDuplicate (n : Node) (name : PortName) (originId : String) : Bool :=
  match n.ports.get? name with
  | some (.proxy id) => (n.proxies id).metadata.originServer = originId
  | _ => false

/-- `_rp_register_new`. -/
def rpRegisterNew (cfg : NodeCfg) (n : Node) (peer : PeerKey) (name : PortName) (m : PortMetadata) : Node :=
  let (id, n) := n.alloc (Proxy.new cfg.int peer name m)
  if n.rpRegisterDuplicate name m.originServer then n
  else ((n.registerFederatedPort m id).setPeerProxy peer name id).saveFederatedCache cfg

/-- `_rp_update_existing`: refresh, registration when the data callback is missing, and the peer's map. -/
def rpUpdateExisting (cfg : NodeCfg) (n : Node) (peer : PeerKey) (name : PortName) (id : ProxyId) (m : PortMetadata) :
    Node :=
  let p := n.proxies id
  let n := if p.dataCallback then n else n.registerFederatedPort m id
  (n.update id (p.updateExisting cfg.int peer m)).setPeerProxy peer name id

/-- `_register_remote_port_from_dict`: a proxy registered under the name is reused, whoever's it is. -/
def registerRemotePortFromDict (cfg : NodeCfg) (n : Node) (peer : PeerKey) (pd : FedDict) : Node :=
  let m := metadataFromDict cfg.int pd
  match n.ports.get? m.name with
  | some (.proxy id) => (n.rpUpdateExisting cfg peer m.name id m).saveFederatedCache cfg
  | _ => n.rpRegisterNew cfg peer m.name m

/-- `_ports_federated_register_ports`: the node, and the names seen. -/
def portsFederatedRegisterPorts (cfg : NodeCfg) (peer : PeerKey) : Node → List FedDict → Node × List PortName
  | n, [] => (n, [])
  | n, pd :: pds =>
      if cfg.accept peer pd then
        let (n', seen) := portsFederatedRegisterPorts cfg peer (n.registerRemotePortFromDict cfg peer pd) pds
        (n', pd.givenName.toList ++ seen)
      else portsFederatedRegisterPorts cfg peer n pds

/-- `_ports_federated_unregister_stale`: the name is dropped if it still refers to this proxy. -/
def unregisterStale (n : Node) (name : PortName) (id : ProxyId) : Node :=
  let n := if n.ports.get? name = some (.proxy id) then { n with ports := n.ports.pop name } else n
  n.update id { n.proxies id with isConnected := false }

/-- One turn of the loop of `_ports_federated_purge_stale`. -/
def purgeOne (n : Node) (peer : PeerKey) (name : PortName) : Node :=
  match (n.proxiesOf peer).get? name with
  | none => n
  | some id =>
      { n with peerProxies := n.peerProxies.set peer ((n.proxiesOf peer).pop name) }.unregisterStale name id

/-- `_ports_federated_purge_stale`. -/
def portsFederatedPurgeStale (n : Node) (peer : PeerKey) (seen : List PortName) : Node :=
  ((n.proxiesOf peer).keys.filter (· ∉ seen)).foldl (fun n name => n.purgeOne peer name) n

/-- `_handle_ports_federated`. -/
def handlePortsFederated (cfg : NodeCfg) (n : Node) (peer : PeerKey) (pds : List FedDict) : Node :=
  let (n, seen) := portsFederatedRegisterPorts cfg peer n pds
  n.portsFederatedPurgeStale peer seen

/-! ## The other frames -/

/-- `_handle_port_status_frame`. -/
def handlePortStatus (n : Node) (peer : PeerKey) (name : PortName) (statusMessage readiness : String) : Node :=
  match (n.proxiesOf peer).get? name with
  | none => n
  | some id =>
      let p := n.proxies id
      n.update id { p with metadata := { p.metadata with
        statusMessage := strOrNone (some statusMessage)
        readiness := strOrNone (some readiness) } }

/-- `_update_proxy_power_meta`. -/
def updateProxyPowerMeta (feeds : List Feed) (ref : Text) (on : Option Bool) : List Feed :=
  match feeds with
  | [] => [⟨ref, on⟩]
  | f :: fs => if f.ref = ref then ⟨ref, on⟩ :: fs else f :: updateProxyPowerMeta fs ref on

/-- The local form of a feed ref. -/
def localForm (ref : Text) : Text :=
  match splitRemoteRef ref with
  | some (_, l) => l
  | none => ref

/-- `_apply_power_state_to_proxy`. -/
def applyPowerState (p : Proxy) (ref : Text) (on : Option Bool) : Proxy :=
  match p.power.find? fun r => localForm r = ref with
  | none => p
  | some globalRef =>
      { p with
        feedStates := p.feedStates.set globalRef on
        metadata := { p.metadata with power := some (updateProxyPowerMeta (p.metadata.power.getD []) globalRef on) } }

/-- Writes to every proxy in the map of a peer. -/
def updateProxies (n : Node) (peer : PeerKey) (f : Proxy → Proxy) : Node :=
  (n.proxiesOf peer).entries.foldl (fun n e => n.update e.2 (f (n.proxies e.2))) n

/-- `_handle_power_state_frame`: every proxy of the sender that the outlet feeds. -/
def handlePowerState (n : Node) (peer : PeerKey) (ref : Text) (on : Option Bool) : Node :=
  n.updateProxies peer fun p => applyPowerState p ref on

/-- `_handle_viewers_frame`. Without a proxy of the sender the entries go to a local port of the name, which keeps no
field that is modelled here. -/
def handleViewers (n : Node) (peer : PeerKey) (name : PortName) (viewers : List Viewer) : Node :=
  match (n.proxiesOf peer).get? name with
  | none => n
  | some id => n.update id { n.proxies id with remoteViewers := viewers }

/-! ## The link of a peer -/

/-- `_cc_mark_proxy_disconnected`. -/
def ccMarkProxyDisconnected (p : Proxy) : Proxy :=
  { p with
    isConnected := false
    linkReason := "MuxCon link to " ++ (strOrNone (some p.metadata.originServer)).getD "unknown" ++ " is down" }

/-- `_flip_proxy_live_state`. -/
def flipProxyLiveState (live : Bool) (p : Proxy) : Proxy :=
  if p.isConnected = live then p
  else if live then { p with isConnected := true, linkReason := "" }
  else ccMarkProxyDisconnected p

/-- `_cc_proxies_offline`: the last path of the peer is gone. -/
def ccProxiesOffline (cfg : NodeCfg) (n : Node) (peer : PeerKey) : Node :=
  (n.updateProxies peer ccMarkProxyDisconnected).saveFederatedCache cfg

/-- `_update_peer_proxies_live_state` of one peer. -/
def updatePeerProxiesLiveState (n : Node) (peer : PeerKey) (live : Bool) : Node :=
  n.updateProxies peer (flipProxyLiveState live)

end Node

/-! ## Steps -/

inductive Frame
  | portsFederated (pds : List FedDict)
  | portStatus (name : PortName) (statusMessage readiness : String)
  | powerState (ref : Text) (on : Option Bool)
  | viewers (name : PortName) (entries : List Viewer)
deriving DecidableEq

namespace Node

/-- The frames of an authenticated peer that name ports. -/
def handleFrame (cfg : NodeCfg) (n : Node) (peer : PeerKey) : Frame → Node
  | .portsFederated pds => n.handlePortsFederated cfg peer pds
  | .portStatus name statusMessage readiness => n.handlePortStatus peer name statusMessage readiness
  | .powerState ref on => n.handlePowerState peer ref on
  | .viewers name entries => n.handleViewers peer name entries

end Node

inductive NodeAct
  | frame (peer : PeerKey) (f : Frame)
  | offline (peer : PeerKey)
  | liveState (peer : PeerKey) (live : Bool)
  | save
  | load
  | restart (locals : List PortName)
deriving DecidableEq

def Node.step (cfg : NodeCfg) (n : Node) : NodeAct → Option Node
  | .frame peer f => some (n.handleFrame cfg peer f)
  | .offline peer => some (n.ccProxiesOffline cfg peer)
  | .liveState peer live => some (n.updatePeerProxiesLiveState peer live)
  | .save => some (n.saveFederatedCache cfg)
  | .load => some (n.loadFederatedCache cfg)
  | .restart locals => some (n.restart cfg locals)

/-- A node that began with local ports only, and with any cache file. -/
def Node.Reachable (cfg : NodeCfg) (n : Node) : Prop :=
  ∃ n₀ locals acts, n₀.ports = localPorts locals ∧ n₀.peerProxies = ∅ ∧
    Transition.exec (Node.step cfg) n₀ acts = some n

end OpenMux.Federation

/-!
## Group lists and the access ladder

`ConsoleManager._taker_entitled` over the group lists of a port, and the lists it finds on a registered proxy.
-/

namespace OpenMux.Federation

/-- `read_write_groups` and `read_only_groups`. -/
structure GroupLists where
  readWrite : List String
  readOnly : List String
deriving DecidableEq

inductive Grant
  | write
  | readOnly
  | denied
deriving DecidableEq, Repr

/-- The outcome codes of a denied entitlement. -/
inductive Code
  | deniedByGroupAcl
  | deniedByAccessDefault
deriving DecidableEq, Repr

structure Entitlement where
  grant : Grant
  code : Option Code := none
deriving DecidableEq, Repr

namespace Entitlement

def write : Entitlement := ⟨.write, none⟩
def readOnly : Entitlement := ⟨.readOnly, none⟩
def denied (code : Code) : Entitlement := ⟨.denied, some code⟩

end Entitlement

/-- `get_user_groups` of the authentication manager and `get_access_default` of the security policy, `none` when there is no
policy or the lookup raises. -/
structure AccessPolicy where
  getUserGroups : String → List String
  accessDefault : Option String

/-- `_taker_entitled`. -/
def takerEntitled (policy : AccessPolicy) (port : GroupLists) (permissions : Option String) (username : String) :
    Entitlement :=
  if permissions = some "admin" then .write
  else if port.readWrite ≠ [] ∨ port.readOnly ≠ [] then
    if (policy.getUserGroups username).any (· ∈ port.readWrite) then .write
    else if (policy.getUserGroups username).any (· ∈ port.readOnly) then .readOnly
    else .denied .deniedByGroupAcl
  else if (strOrNone policy.accessDefault).getD "allow" = "deny" then .denied .deniedByAccessDefault
  else if permissions = some "read-write" then .write
  else .readOnly

/-- The lists that the ladder reads from a proxy. -/
def Proxy.lists (p : Proxy) : GroupLists := ⟨p.readWriteGroups, p.readOnlyGroups⟩

/-- The lists of the origin; an empty list is not on the wire. -/
def FedDict.lists (pd : FedDict) : GroupLists := ⟨pd.readWriteGroups.getD [], pd.readOnlyGroups.getD []⟩

def LocalPort.lists (p : LocalPort) : GroupLists := ⟨p.readWriteGroups.getD [], p.readOnlyGroups.getD []⟩

/-- The lists of the proxy that is registered under the name. -/
def Node.listsOf (n : Node) (name : PortName) : Option GroupLists :=
  match n.ports.get? name with
  | some (.proxy id) => some (n.proxies id).lists
  | _ => none

/-- The names that a frame shows, as far as they are accepted. -/
def seenNames (cfg : NodeCfg) (peer : PeerKey) (pds : List FedDict) : List PortName :=
  (pds.filter (cfg.accept peer)).flatMap fun pd => pd.givenName.toList

/-- The first accepted entry for a name. -/
def firstEntry (cfg : NodeCfg) (peer : PeerKey) (pds : List FedDict) (name : PortName) : Option FedDict :=
  pds.find? fun pd => cfg.accept peer pd ∧ pd.portName = name

/-- The last accepted entry for a name. -/
def lastEntry (cfg : NodeCfg) (peer : PeerKey) (pds : List FedDict) (name : PortName) : Option FedDict :=
  pds.findRev? fun pd => cfg.accept peer pd ∧ pd.portName = name

end OpenMux.Federation
