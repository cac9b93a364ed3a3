import OpenMux.Lib.PyText
import OpenMux.Lib.Run
import OpenMux.Origin.Port

/-!
# Advertise filters

The filters of the adapter, the overrides of a key, and the decision for one port. `fnmatchcase` is the matcher of the
standard library.
-/

namespace OpenMux.Origin

open Py

/-- `_adv_name_inc` and its siblings, or the `advertise_filters` of a key. -/
structure AdvertiseFilters where
  include_ : List Text := []
  exclude : List Text := []
  adapterInclude : List Text := []
  adapterExclude : List Text := []
  serverInclude : List Text := []
  serverExclude : List Text := []
deriving DecidableEq

variable (fnmatchcase : Text → Text → Bool)

/-- `_match_any`. -/
def matchAny (value : Text) (patterns : List Text) : Bool := patterns.any (fnmatchcase value)

/-- `xs or ys`. -/
def orElse (xs ys : List Text) : List Text := if xs = [] then ys else xs

/-- The `advertise_filters` of `_get_filters_for_conn`. -/
def getFiltersForConn (overrides : Option AdvertiseFilters) (adapter : AdvertiseFilters) : AdvertiseFilters :=
  let adv := overrides.getD {}
  { include_ := orElse adv.include_ adapter.include_
    exclude := orElse adv.exclude adapter.exclude
    adapterInclude := orElse adv.adapterInclude adapter.adapterInclude
    adapterExclude := orElse adv.adapterExclude adapter.adapterExclude
    serverInclude := orElse adv.serverInclude adapter.serverInclude
    serverExclude := orElse adv.serverExclude adapter.serverExclude }

/-- `_allow_advertise_port_for_conn` over the effective filters. -/
def allowAdvertisePort (f : AdvertiseFilters) (name adapterType serverId : Text) : Bool :=
  if matchAny fnmatchcase name f.exclude || matchAny fnmatchcase adapterType f.adapterExclude then false
  else if !serverId.isEmpty && matchAny fnmatchcase serverId f.serverExclude then false
  else if f.include_.isEmpty && f.adapterInclude.isEmpty && f.serverInclude.isEmpty then false
  else
    (f.include_.isEmpty || matchAny fnmatchcase name f.include_) &&
    (f.adapterInclude.isEmpty || matchAny fnmatchcase adapterType f.adapterInclude) &&
    (f.serverInclude.isEmpty || (!serverId.isEmpty && matchAny fnmatchcase serverId f.serverInclude))

/-- The default denies every port to every connection. -/
theorem allowAdvertisePort_default (name adapterType serverId : Text) :
    allowAdvertisePort fnmatchcase (getFiltersForConn none {}) name adapterType serverId = false := by
  simp [allowAdvertisePort, getFiltersForConn, orElse, matchAny]

end OpenMux.Origin

/-!
## Sessions of peers on local ports

The part of a node that serves its local ports to peers: connections, session slots, pumps, the local ports, and the
handlers of the OPEN, DATA, CLOSE, FEDRW and POWER:SWITCH frames. The set of local ports does not change. `permitted`,
`writes`, `switched` and `views` are history.
-/

namespace OpenMux.Origin

open Py Federation Streams

abbrev ConnId := Nat

structure Conn where
  peerKey : Text
  authenticated : Bool := false
deriving DecidableEq

/-- An OPEN handler that is suspended in `add_client_to_port`, or before `_rl_ensure_open_pump`. -/
structure Opening where
  slot : Slot
  portName : Text
  existing : Option Text
  clientAdded : Bool := false
deriving DecidableEq

/-- Where a pump stands: `looping` is before the check of its loop, `waiting` is in the read of the queue. -/
inductive PumpStage
  | created
  | seeding (seed : List UInt8)
  | looping
  | waiting
  | done
deriving DecidableEq

/-- A task of `_pump_local_port_to_remote`. -/
structure Pump where
  slot : Slot
  portName : Text
  stage : PumpStage := .created
  cancelled : Bool := false
deriving DecidableEq

def Pump.cancel (t : Pump) : Pump := { t with cancelled := true }

/-- What a peer is sent from a port from its first OPEN on: the snapshot and the count of dropped chunks at that OPEN, the
chunks that arrived since, and the bytes sent. -/
structure View where
  snapshot : List UInt8
  dropped : Nat
  arrived : List Chunk := []
  sent : List UInt8 := []
deriving DecidableEq

structure OriginNode where
  connections : Dict ConnId Conn := ∅
  filters : AdvertiseFilters := {}
  connFilters : Dict ConnId AdvertiseFilters := ∅
  ports : Dict Text Port := ∅
  /-- Streams that this node opened, to its proxies. -/
  sessionMap : Dict Slot Text := ∅
  localSessionMap : Dict Slot Text := ∅
  /-- Indices in `tasks`. -/
  pumpTasks : Dict Slot Nat := ∅
  tasks : List Pump := []
  opening : List Opening := []
  /-- Slots and the local ports they were opened to while the filters allowed it. -/
  permitted : List (Slot × Text) := []
  /-- Bytes that a slot wrote to a local port. -/
  writes : List (Slot × Text × List UInt8) := []
  /-- Outlets that a slot switched through a local port. -/
  switched : List (Slot × Text) := []
  /-- The view of a peer on a local port, while it has a stream open to it. -/
  views : Dict (Text × Text) View := ∅

structure OriginCfg where
  fnmatchcase : Text → Text → Bool
  serverId : Text

inductive FedrwAction
  | request
  | release
  | take (spec : TakeSpec)
  | force
  | unknown
deriving DecidableEq

/-- Frames that name a port or a stream. `outletOk` stands for the checks that a POWER:SWITCH has yet to pass after its
anchor. -/
inductive Frame
  | openStream (sid : Int) (payload : Text)
  | close (sid : Int)
  | data (sid : Int) (data : List UInt8)
  | fedrw (port : Text) (sid : Int) (action : FedrwAction)
  | powerSwitch (port : Text) (sid : Int) (outletOk : Bool)
deriving DecidableEq

namespace OriginNode

/-- Changes a port that exists. -/
def updatePort (n : OriginNode) (name : Text) (f : Port → Port) : OriginNode :=
  { n with ports := match n.ports.get? name with
      | some p => n.ports.set name (f p)
      | none => n.ports }

/-- The port that the slot is open to. -/
def sessionPort (n : OriginNode) (slot : Slot) : Option Text := n.localSessionMap.get? slot

/-! ## Views -/

def hasStream (n : OriginNode) (peerKey port : Text) : Bool :=
  n.localSessionMap.entries.any fun e => e.1.1 = peerKey ∧ e.2 = port

/-- The view of a peer ends with its last stream to the port. -/
def closeView (n : OriginNode) (peerKey port : Text) : OriginNode :=
  { n with views := if n.hasStream peerKey port then n.views else n.views.pop (peerKey, port) }

def openView (n : OriginNode) (peerKey port : Text) : OriginNode :=
  { n with views := match n.ports.get? port, n.views.get? (peerKey, port) with
      | some p, none => n.views.set (peerKey, port) ⟨p.buffers.scrollback, p.buffers.droppedChunks, [], []⟩
      | _, _ => n.views }

/-- The views of a port note a chunk that arrives. -/
def recordArrival (n : OriginNode) (port : Text) (data : Chunk) : OriginNode :=
  { n with views := n.views.mapValues fun k v => if k.2 = port then { v with arrived := v.arrived ++ [data] } else v }

/-- `_send_data_mpath`, which sends nothing unless it finds a path. -/
def sendData (n : OriginNode) (peerKey port : Text) (data : List UInt8) (ok : Bool) : OriginNode :=
  { n with views := n.views.mapValues fun k v =>
      if ok ∧ k = (peerKey, port) then { v with sent := v.sent ++ data } else v }

/-! ## Sessions -/

/-- The slot is claimed, and its pump cancelled. -/
def claimSlot (n : OriginNode) (slot : Slot) : OriginNode :=
  { n with
    localSessionMap := n.localSessionMap.pop slot
    pumpTasks := n.pumpTasks.pop slot
    tasks := match n.pumpTasks.get? slot with
      | some i => n.tasks.modify i Pump.cancel
      | none => n.tasks }

/-- `remove_client_from_port` of the pseudo-client. -/
def freeClient (n : OriginNode) (slot : Slot) (port : Text) : OriginNode :=
  if port = [] then n else n.updatePort port fun p => p.removeClient (fedClientId slot.1 slot.2)

/-- `_stop_local_session`. -/
def stopLocalSession (n : OriginNode) (slot : Slot) : OriginNode :=
  match n.sessionPort slot with
  | some port => ((n.claimSlot slot).freeClient slot port).closeView slot.1 port
  | none => n.claimSlot slot

/-- `_cleanup_peer_local_sessions`. -/
def cleanupPeerLocalSessions (n : OriginNode) (peerKey : Text) : OriginNode :=
  let n' := ((n.pumpTasks.keys ++ n.localSessionMap.keys).filter (·.1 = peerKey)).foldl stopLocalSession n
  { n' with sessionMap := (n'.sessionMap.keys.filter (·.1 = peerKey)).foldl Dict.pop n'.sessionMap }

/-- `_allow_advertise_port_for_conn`. -/
def allowAdvertisePortForConn (cfg : OriginCfg) (n : OriginNode) (c : ConnId) (name adapterType : Text) : Bool :=
  allowAdvertisePort cfg.fnmatchcase (getFiltersForConn (n.connFilters.get? c) n.filters) name adapterType cfg.serverId

/-- Some authenticated connection of the peer is allowed to see the port. -/
def allowedForPeer (cfg : OriginCfg) (n : OriginNode) (peerKey name : Text) (p : Port) : Bool :=
  n.connections.entries.any fun e =>
    e.2.peerKey = peerKey && e.2.authenticated && n.allowAdvertisePortForConn cfg e.1 name p.adapterType

/-- Notes that a slot is opened to a local port while the filters allow it. -/
def recordPermitted (cfg : OriginCfg) (n : OriginNode) (slot : Slot) (name : Text) : OriginNode :=
  { n with permitted := match n.ports.get? name with
      | some p => if n.allowedForPeer cfg slot.1 name p then (slot, name) :: n.permitted else n.permitted
      | none => n.permitted }

/-- The session that the slot has for another port is stopped. -/
def stopReused (n : OriginNode) (slot : Slot) (portName : Text) : OriginNode :=
  if (n.sessionPort slot).isSome ∧ n.sessionPort slot ≠ some portName then n.stopLocalSession slot else n

/-- `_rl_handle_open` and `_rl_open_session` up to `add_client_to_port`. The filters are not consulted. -/
def rlHandleOpen (cfg : OriginCfg) (n : OriginNode) (slot : Slot) (payload : Text) : OriginNode :=
  let portName := strip payload
  let n' := (n.recordPermitted cfg slot portName).stopReused slot portName
  { n' with
    localSessionMap := n'.localSessionMap.set slot portName
    opening := n'.opening ++ [⟨slot, portName, n.sessionPort slot, false⟩] }

/-- The account name of a pseudo-client. -/
def fedUsername (peerKey : Text) : String := "federation:" ++ String.ofList peerKey

/-- `add_client_to_port` of the pseudo-client, read-only. -/
def rlOpenClient (n : OriginNode) (o : Opening) (now : Nat) : OriginNode :=
  if o.portName = [] then n
  else n.updatePort o.portName fun p =>
    p.addClient ⟨fedClientId o.slot.1 o.slot.2, fedUsername o.slot.1, .readOnly, now⟩

/-- The pump that `_pump_tasks` has for the slot, unless it is done. -/
def existingTask (n : OriginNode) (slot : Slot) : Option Nat :=
  (n.pumpTasks.get? slot).filter fun i => n.tasks[i]?.any (·.stage ≠ .done)

def createPump (n : OriginNode) (slot : Slot) (portName : Text) : OriginNode :=
  { n with
    pumpTasks := n.pumpTasks.set slot n.tasks.length
    tasks := n.tasks ++ [{ slot := slot, portName := portName }] }

/-- `_rl_ensure_open_pump`. -/
def rlEnsureOpenPump (n : OriginNode) (o : Opening) : OriginNode :=
  if o.portName = [] then n
  else match n.existingTask o.slot with
    | some i =>
        if o.existing = some o.portName then n
        else { n with tasks := n.tasks.modify i Pump.cancel }.createPump o.slot o.portName
    | none => n.createPump o.slot o.portName

/-- A suspended OPEN handler goes on: to the client, and then to the pump. -/
def resumeOpen (n : OriginNode) (i : Nat) (o : Opening) (now : Nat) : OriginNode :=
  if o.clientAdded then { n with opening := n.opening.eraseIdx i }.rlEnsureOpenPump o
  else { n with opening := n.opening.set i { o with clientAdded := true } }.rlOpenClient o now

/-- `_rl_handle_close`. -/
def rlHandleClose (n : OriginNode) (slot : Slot) : OriginNode :=
  { n with sessionMap := n.sessionMap.pop slot }.stopLocalSession slot

/-! ## Pumps -/

def setTask (n : OriginNode) (i : Nat) (t : Pump) : OriginNode := { n with tasks := n.tasks.set i t }

/-- The size of the frames of a seed. -/
def seedFrame : Nat := 16384

/-- The hold and the snapshot. -/
def pumpStart (n : OriginNode) (i : Nat) (t : Pump) : OriginNode :=
  let seed := match n.ports.get? t.portName with
    | some p => p.buffers.scrollback
    | none => []
  ((n.updatePort t.portName (·.updateBuffers .addFederationBufferingHold)).openView t.slot.1 t.portName).setTask i
    { t with stage := .seeding seed }

/-- One round of `_seed_federation_stream`. -/
def pumpSeed (n : OriginNode) (i : Nat) (t : Pump) (rest : List UInt8) (ok : Bool) : OriginNode :=
  if rest = [] then n.setTask i { t with stage := .looping }
  else (n.sendData t.slot.1 t.portName (rest.take seedFrame) ok).setTask i
    { t with stage := if ok then .seeding (rest.drop seedFrame) else .looping }

/-- `get_port_data_async` finds a chunk, which is sent. -/
def pumpChunk (n : OriginNode) (i : Nat) (t : Pump) (data : Chunk) (ok : Bool) : OriginNode :=
  ((n.updatePort t.portName (·.updateBuffers .dequeue)).sendData t.slot.1 t.portName data ok).setTask i
    { t with stage := .looping }

/-- `_end_local_pump_cleanup`. -/
def endLocalPumpCleanup (n : OriginNode) (i : Nat) (t : Pump) : OriginNode :=
  let n' := (n.updatePort t.portName (·.updateBuffers .removeFederationBufferingHold)).setTask i { t with stage := .done }
  if n.pumpTasks.get? t.slot = some i then
    { n' with localSessionMap := n'.localSessionMap.pop t.slot, pumpTasks := n'.pumpTasks.pop t.slot }
  else n'

def nextChunk (n : OriginNode) (name : Text) : Option Chunk :=
  (n.ports.get? name).bind fun p => p.buffers.dataQueue.head?

/-- `_pump_local_port_to_remote` up to its next suspension at the latest. A cancellation before the loop skips the
cleanup. -/
def pumpStep (n : OriginNode) (i : Nat) (t : Pump) (ok : Bool) : Option OriginNode :=
  match t.stage with
  | .created => some (if t.cancelled then n.setTask i { t with stage := .done } else n.pumpStart i t)
  | .seeding rest => some (if t.cancelled then n.setTask i { t with stage := .done } else n.pumpSeed i t rest ok)
  | .looping =>
      if t.cancelled ∨ n.sessionPort t.slot ≠ some t.portName then some (n.endLocalPumpCleanup i t)
      else match n.nextChunk t.portName with
        | some data => some (n.pumpChunk i t data ok)
        | none => some (if (n.ports.get? t.portName).isSome then n.setTask i { t with stage := .waiting } else n)
  | .waiting =>
      if t.cancelled then some (n.endLocalPumpCleanup i t)
      else (n.nextChunk t.portName).map fun data => n.pumpChunk i t data ok
  | .done => none

/-- `handle_incoming_port_data`. -/
def handleIncomingPortData (n : OriginNode) (port : Text) (data : Chunk) (requireClients : Option Bool) : OriginNode :=
  (n.updatePort port fun p => p.handleIncomingPortData data requireClients).recordArrival port data

/-! ## The other frames -/

/-- `write_to_port` under the pseudo-client of the slot. -/
def writeToPort (n : OriginNode) (slot : Slot) (name : Text) (data : List UInt8) : OriginNode :=
  match n.ports.get? name with
  | some p => if p.clientHasWrite (fedClientId slot.1 slot.2) then { n with writes := n.writes ++ [(slot, name, data)] } else n
  | none => n

/-- `_route_data_frame`. Bytes for a proxy leave this state as it is. -/
def routeDataFrame (n : OriginNode) (slot : Slot) (data : List UInt8) : OriginNode :=
  if (n.sessionMap.get? slot).isSome then n
  else match n.sessionPort slot with
    | some name => if name = [] then n else n.writeToPort slot name data
    | none => n

/-- `_handle_fedrw_request`. -/
def handleFedrwRequest (n : OriginNode) (slot : Slot) (name : Text) (action : FedrwAction) : OriginNode :=
  if n.sessionPort slot ≠ some name then n
  else n.updatePort name fun p =>
    match action with
    | .request => (p.promoteClient (fedClientId slot.1 slot.2)).1
    | .release => p.demoteClient (fedClientId slot.1 slot.2)
    | .take spec => handleFedrwTake p slot spec
    | .force => handleFedrwTake p slot .latest
    | .unknown => p

/-- `_power_switch_anchor_ok` and the switch. -/
def handlePowerSwitch (n : OriginNode) (slot : Slot) (name : Text) (outletOk : Bool) : OriginNode :=
  if n.sessionPort slot ≠ some name then n
  else match n.ports.get? name with
    | some p =>
        if p.clientHasWrite (fedClientId slot.1 slot.2) ∧ outletOk then { n with switched := n.switched ++ [(slot, name)] }
        else n
    | none => n

/-- A frame of an authenticated peer. -/
def handleFrame (cfg : OriginCfg) (n : OriginNode) (peerKey : Text) : Frame → OriginNode
  | .openStream sid payload => n.rlHandleOpen cfg (peerKey, sid) payload
  | .close sid => n.rlHandleClose (peerKey, sid)
  | .data sid data => n.routeDataFrame (peerKey, sid) data
  | .fedrw port sid action => n.handleFedrwRequest (peerKey, sid) port action
  | .powerSwitch port sid outletOk => n.handlePowerSwitch (peerKey, sid) port outletOk

/-- `_close_connection` and `_maybe_cleanup_empty_peer`. -/
def closeConnection (n : OriginNode) (c : ConnId) (conn : Conn) : OriginNode :=
  let n := { n with connections := n.connections.pop c, connFilters := n.connFilters.pop c }
  if n.connections.entries.any (·.2.peerKey = conn.peerKey) then n else n.cleanupPeerLocalSessions conn.peerKey

end OriginNode

/-- `local*` are the clients of this node itself, whose ids do not begin with `fed:`; `poll` is `get_port_data` of another
reader. -/
inductive OriginAct
  | connect (c : ConnId) (peerKey : Text)
  | authenticate (c : ConnId) (peerKey : Text) (keyFilters : Option AdvertiseFilters)
  | closeConnection (c : ConnId)
  | reload (filters : AdvertiseFilters)
  | frame (c : ConnId) (f : Frame)
  | resumeOpen (i : Nat) (now : Nat)
  | pump (i : Nat) (ok : Bool)
  | incoming (port : Text) (data : Chunk) (requireClients : Option Bool)
  | poll (port : Text)
  | mapSession (slot : Slot) (proxy : Text)
  | unmapSession (slot : Slot)
  | localAttach (port : Text) (client : Client)
  | localDetach (port id : Text)
  | localPromote (port id : Text)
  | localDemote (port id : Text)
deriving DecidableEq

namespace OriginNode

def step (cfg : OriginCfg) (n : OriginNode) : OriginAct → Option OriginNode
  | .connect c peerKey =>
      if (n.connections.get? c).isSome then none else some { n with connections := n.connections.set c ⟨peerKey, false⟩ }
  | .authenticate c peerKey keyFilters =>
      (n.connections.get? c).map fun _ =>
        { n with
          connections := n.connections.set c ⟨peerKey, true⟩
          connFilters := match keyFilters with
            | some f => n.connFilters.set c f
            | none => n.connFilters }
  | .closeConnection c => (n.connections.get? c).map fun conn => n.closeConnection c conn
  | .reload filters => some { n with filters := filters }
  | .frame c f =>
      (n.connections.get? c).map fun conn => if conn.authenticated then n.handleFrame cfg conn.peerKey f else n
  | .resumeOpen i now => n.opening[i]?.map fun o => n.resumeOpen i o now
  | .pump i ok => n.tasks[i]?.bind fun t => n.pumpStep i t ok
  | .incoming port data requireClients => some (n.handleIncomingPortData port data requireClients)
  | .poll port => some (n.updatePort port (·.updateBuffers .dequeue))
  | .mapSession slot proxy => some { n with sessionMap := n.sessionMap.set slot proxy }
  | .unmapSession slot => some { n with sessionMap := n.sessionMap.pop slot }
  | .localAttach port client =>
      if fedPrefix <+: client.clientId then none else some (n.updatePort port fun p => p.addClient client)
  | .localDetach port id => some (n.updatePort port fun p => p.removeClient id)
  | .localPromote port id => some (n.updatePort port fun p => (p.promoteClient id).1)
  | .localDemote port id => some (n.updatePort port fun p => p.demoteClient id)

end OriginNode

end OpenMux.Origin
