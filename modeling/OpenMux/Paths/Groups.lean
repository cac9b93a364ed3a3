import Mathlib
import OpenMux.Lib.Dict
import OpenMux.Lib.PyText
import OpenMux.Lib.Run

/-!
# The paths to a peer

The connections of a node and the multipath groups that they are in. A group is keyed by what is known of the peer. Each
operation here runs in one piece; what is written to the log, and the tables of proxies and of sequence numbers that follow
the groups, are left out.
-/

namespace OpenMux.Paths

open Py

/-- The record of a connection. The server id comes twice: with the handshake and on its own. -/
structure ConnRecord where
  handshakeServerId : Option Text := none
  serverId : Option Text := none
  instanceId : Option Text := none
  openedAt : ℚ
deriving DecidableEq

/-- What a group keeps of a path. -/
structure PathMeta where
  openedAt : ℚ
  pref : ℤ
  lastSeen : ℚ
  lastRxSeen : ℚ
deriving DecidableEq

structure Group where
  conns : Dict Text PathMeta := ∅
  primary : Option Text := none
  lastPrimaryChange : Option ℚ := none
deriving DecidableEq

structure Config where
  /-- `_mpath_derive_pref`. -/
  pref : Text → ℤ
  mpathPrimaryStaleSec : ℚ
  heartbeatInterval : ℚ
  mpathFailoverCheckSec : ℚ
  mpathNeighborIdleDropSec : ℚ
  mpathPreemptivePromote : Bool
  /-- `mpath_strategy == "best_pref"`. -/
  bestPref : Bool

structure Node where
  connections : Dict Text ConnRecord := ∅
  /-- `_mpath_groups`. -/
  groups : Dict Text Group := ∅
  /-- The `last_ack_ts` of `_hb_state`. -/
  lastAck : Dict Text ℚ≥0 := ∅
  /-- The connections that are frozen by fault injection. -/
  frozen : List Text := []
deriving DecidableEq

/-- `value or None`. -/
def orNone (t : Option Text) : Option Text := t.filter (· ≠ [])

namespace Node

/-- The key of an address, for a connection whose peer is not known. -/
def addressKey (connId : Text) : Text :=
  match split ':' connId.length connId with
  | direction :: host :: port :: _ :: _ =>
      if direction = "out".toList then host ++ ':' :: port else "host:".toList ++ host
  | _ => "unknown:0".toList

/-- `_derive_peer_key_from_conn_id`, of a record. -/
def keyOf (connId : Text) (conn : Option ConnRecord) : Text :=
  match (conn.bind fun c => orNone c.handshakeServerId), (conn.bind fun c => orNone c.serverId) with
  | some serverId, _ => "node:".toList ++ serverId
  | none, some serverId => "node:".toList ++ serverId
  | none, none => addressKey connId

/-- `_derive_peer_key_from_conn_id`. -/
def derivePeerKey (n : Node) (connId : Text) : Text := keyOf connId (n.connections.get? connId)

end Node

namespace Group

/-- The preference of a member, 0 of one that is missing. -/
def prefOf (g : Group) (connId : Text) : ℤ := ((g.conns.get? connId).map (·.pref)).getD 0

/-- `next(iter(conns), None)`. -/
def first (g : Group) : Option Text := g.conns.keys.head?

/-- Takes a member out; a primary that goes is succeeded by the first that is left. -/
def remove (g : Group) (connId : Text) : Group :=
  let left : Group := { g with conns := g.conns.pop connId }
  if g.primary = some connId then { left with primary := left.first } else left

/-- `_mpath_apply_promotion`. -/
def applyPromotion (cfg : Config) (g : Group) (connId : Text) : Group :=
  match g.primary with
  | none => g
  | some current =>
      if cfg.mpathPreemptivePromote ∧ current ≠ connId ∧ g.prefOf current < g.prefOf connId then { g with primary := some connId }
      else g

end Group

namespace Node

/-- A group that has become empty goes. -/
def putGroup (n : Node) (key : Text) (g : Group) : Node :=
  { n with groups := if g.conns.entries = [] then n.groups.pop key else n.groups.set key g }

/-- `_register_mpath_connection`. -/
def registerMpathConnection (cfg : Config) (now : ℚ) (n : Node) (connId : Text) : Node :=
  let key := n.derivePeerKey connId
  let grp := (n.groups.get? key).getD {}
  let info : PathMeta := {
    openedAt := ((n.connections.get? connId).map (·.openedAt)).getD 0
    pref := cfg.pref connId
    lastSeen := now
    lastRxSeen := now }
  let grp := { grp with conns := grp.conns.set connId info }
  match grp.primary with
  | none => { n with groups := n.groups.set key { grp with primary := some connId } }
  | some _ => { n with groups := n.groups.set key (grp.applyPromotion cfg connId) }

/-- `_rekey_find_current_key`. -/
def rekeyFindCurrentKey (n : Node) (connId : Text) : Option Text :=
  (n.groups.entries.find? fun e => (e.2.conns.get? connId).isSome).map Prod.fst

/-- `_rekey_mpath_connection`. -/
def rekeyMpathConnection (n : Node) (connId : Text) : Node :=
  let newKey := n.derivePeerKey connId
  match n.rekeyFindCurrentKey connId with
  | none => n
  | some currentKey =>
      if currentKey = newKey then n
      else match (n.groups.get? currentKey).bind fun g => (g.conns.get? connId).map fun info => (g, info) with
        | none => n
        | some (old, info) =>
            let n := n.putGroup currentKey (old.remove connId)
            let new := (n.groups.get? newKey).getD {}
            let new := { new with conns := new.conns.set connId info, primary := some (new.primary.getD connId) }
            { n with groups := n.groups.set newKey new }

/-- `_unregister_mpath_connection`. -/
def unregisterMpathConnection (n : Node) (connId : Text) : Node :=
  match n.groups.get? (n.derivePeerKey connId) with
  | none => n
  | some g => n.putGroup (n.derivePeerKey connId) (g.remove connId)

/-- `_close_connection`, up to its first suspension. -/
def closeConnection (n : Node) (connId : Text) : Node :=
  let n := n.unregisterMpathConnection connId
  { n with connections := n.connections.pop connId }

end Node

end OpenMux.Paths

/-!
## Generations of a peer

A peer that restarts keeps its server id and has a new instance id. Each handshake compares the connection with the others
and schedules closes, which run later. Between the record of a connection and its comparison other tasks may run, as the
challenge goes out in between. The id of a connection carries the address and the time, and is not used twice.
-/

namespace OpenMux.Paths

open Py

abbrev Entry := Text × ConnRecord

/-- The server id and the instance id, of a record that has both. -/
def ConnRecord.generation (conn : ConnRecord) : Option (Text × Text) :=
  match orNone conn.serverId, orNone conn.instanceId with
  | some serverId, some instanceId => some (serverId, instanceId)
  | _, _ => none

/-- The records are of one peer and of two generations. -/
def ConnRecord.Rivals (c d : ConnRecord) : Prop :=
  ∃ s i j, c.generation = some (s, i) ∧ d.generation = some (s, j) ∧ i ≠ j

structure Peers where
  connections : Dict Text ConnRecord := ∅
  /-- Those that are still to be compared. -/
  awaiting : List Text := []
  /-- The closes that are scheduled. -/
  closing : List Text := []
  /-- What a scheduled close has closed, and what was closed for another reason. -/
  retired : List Entry := []
  lost : List Entry := []

namespace Peers

/-- Another connection of the server, of another instance. -/
def isRival (connId s i : Text) (e : Entry) : Bool :=
  e.1 ≠ connId && e.2.serverId = some s && (orNone e.2.instanceId).isSome && e.2.instanceId ≠ some i

/-- The scan of `_retire_old_generation` over the connections. -/
def scan (connId : Text) (current : ConnRecord) (s i : Text) : List Entry → List Text → List Text
  | [], toClose => toClose
  | e :: rest, toClose =>
      if isRival connId s i e then
        if e.2.openedAt ≤ current.openedAt then scan connId current s i rest (toClose ++ [e.1]) else [connId]
      else scan connId current s i rest toClose

/-- `_retire_old_generation`: the connections whose close it schedules. -/
def retireOldGeneration (n : Peers) (connId : Text) : List Text :=
  match n.connections.get? connId with
  | none => []
  | some current => match current.generation with
    | none => []
    | some (s, i) => scan connId current s i n.connections.entries []

/-- Every connection there has been. -/
def known (n : Peers) : List Entry := n.connections.entries ++ n.retired ++ n.lost

end Peers

inductive PeerAct
  /-- The handshake stores the record. -/
  | greet (connId : Text) (conn : ConnRecord)
  | compare (connId : Text)
  /-- A scheduled close runs. -/
  | retire (connId : Text)
  /-- A close for another reason. -/
  | close (connId : Text)

namespace Peers

def step (n : Peers) : PeerAct → Option Peers
  | .greet connId conn =>
      if connId ∈ n.known.map Prod.fst then none
      else some { n with connections := n.connections.set connId conn, awaiting := n.awaiting ++ [connId] }
  | .compare connId =>
      if connId ∈ n.awaiting then
        some { n with awaiting := n.awaiting.erase connId, closing := n.closing ++ n.retireOldGeneration connId }
      else none
  | .retire connId =>
      if connId ∈ n.closing then
        match n.connections.get? connId with
        | none => some { n with closing := n.closing.erase connId }
        | some conn => some { n with
            closing := n.closing.erase connId
            connections := n.connections.pop connId
            retired := n.retired ++ [(connId, conn)] }
      else none
  | .close connId =>
      match n.connections.get? connId with
      | none => some n
      | some conn => some { n with connections := n.connections.pop connId, lost := n.lost ++ [(connId, conn)] }

/-- Every handshake is through and every scheduled close has run. -/
def Settled (n : Peers) : Prop := n.awaiting = [] ∧ n.closing = []

instance (n : Peers) : Decidable n.Settled := inferInstanceAs (Decidable (_ ∧ _))

/-- One generation is left of each peer, the one of the newest connection, and none of its connections was retired. -/
structure OneGeneration (n : Peers) : Prop where
  same : ∀ c ∈ n.connections.entries, ∀ d ∈ n.connections.entries, ¬ c.2.Rivals d.2
  newest : ∀ c ∈ n.connections.entries, ∀ s i, c.2.generation = some (s, i) →
    ∃ d ∈ n.connections.entries ++ n.retired, d.2.generation = some (s, i) ∧
      ∀ e ∈ n.connections.entries ++ n.retired, ∀ j, e.2.generation = some (s, j) → e.2.openedAt ≤ d.2.openedAt
  spared : ∀ c ∈ n.connections.entries, c.2.generation.isSome → ∀ d ∈ n.retired, d.2.generation ≠ c.2.generation

/-- A retired connection is no newer than one of its peer that is left or that was closed for another reason. -/
def Outlived (n : Peers) : Prop :=
  ∀ c ∈ n.retired, ∀ s i, c.2.generation = some (s, i) →
    ∃ d ∈ n.connections.entries ++ n.lost, (∃ j, d.2.generation = some (s, j)) ∧ c.2.openedAt ≤ d.2.openedAt

/-- A connection was retired for one of another generation that was opened no earlier. -/
def Superseded (n : Peers) : Prop := ∀ c ∈ n.retired, ∃ d ∈ n.known, c.2.Rivals d.2 ∧ c.2.openedAt ≤ d.2.openedAt

/-- A connection is compared before its own close is scheduled. -/
def Prompt (n : Peers) : PeerAct → Prop
  | .compare connId => connId ∉ n.closing
  | _ => True

instance Prompt.decidable (n : Peers) : (a : PeerAct) → Decidable (n.Prompt a)
  | .compare connId => inferInstanceAs (Decidable (connId ∉ n.closing))
  | .greet .. | .retire _ | .close _ => isTrue trivial

end Peers

end OpenMux.Paths
