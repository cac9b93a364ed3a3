import OpenMux.Paths.Failover

/-!
# Multipath groups over whole runs

The operations on the groups in any order, and the shape that the groups should have.
-/

namespace OpenMux.Paths

open Py

inductive Act
  /-- A handshake stores the record of a connection. -/
  | store (connId : Text) (conn : ConnRecord)
  | register (now : ℚ) (connId : Text)
  | rekey (connId : Text)
  | unregister (connId : Text)
  | close (connId : Text)
  | select (now : ℚ) (key : Text)
  | sweep (now : ℚ)
  /-- Frames and heartbeats of a member. -/
  | touch (key connId : Text) (info : PathMeta)
  | heartbeat (connId : Text) (ack : ℚ≥0)
  | freeze (frozen : List Text)

/-- The connection is a member of the group. -/
def Group.Has (g : Group) (connId : Text) : Prop := connId ∈ g.conns.keys

instance (g : Group) (connId : Text) : Decidable (g.Has connId) := inferInstanceAs (Decidable (_ ∈ _))

namespace Node

/-- New times for a member. -/
def touch (n : Node) (key connId : Text) (info : PathMeta) : Node :=
  match n.groups.get? key with
  | none => n
  | some g => if g.Has connId then { n with groups := n.groups.set key { g with conns := g.conns.set connId info } } else n

def step (cfg : Config) (n : Node) : Act → Option Node
  | .store connId conn => some { n with connections := n.connections.set connId conn }
  | .register now connId => some (n.registerMpathConnection cfg now connId)
  | .rekey connId => some (n.rekeyMpathConnection connId)
  | .unregister connId => some (n.unregisterMpathConnection connId)
  | .close connId => some (n.closeConnection connId)
  | .select now key => some (n.selectMpathConnection cfg now key)
  | .sweep now => some (n.mflSweepOnce cfg now)
  | .touch key connId info => some (n.touch key connId info)
  | .heartbeat connId ack => some { n with lastAck := n.lastAck.set connId ack }
  | .freeze frozen => some { n with frozen := frozen }

/-- The connection is a member of the group with the key. -/
def InGroup (n : Node) (key connId : Text) : Prop := ∃ g, n.groups.get? key = some g ∧ g.Has connId

instance InGroup.decidable (n : Node) (key connId : Text) : Decidable (n.InGroup key connId) :=
  decidable_of_iff (∃ g ∈ n.groups.get? key, g.Has connId) (by simp [InGroup])

/-- The shape of the groups: none is empty, each has a primary of its own, no connection is in two, a member is where its
record says, and a connection without a record is nowhere. -/
structure WellShaped (n : Node) : Prop where
  nonempty : ∀ key g, n.groups.get? key = some g → ∃ connId, g.Has connId
  primary : ∀ key g, n.groups.get? key = some g → ∃ connId, g.primary = some connId ∧ g.Has connId
  unique : ∀ key key' connId, n.InGroup key connId → n.InGroup key' connId → key = key'
  home : ∀ key connId, n.InGroup key connId → (n.connections.get? connId).isSome → key = n.derivePeerKey connId
  closed : ∀ key connId, n.connections.get? connId = none → ¬ n.InGroup key connId

/-- A connection is registered while it has a record, and a record is stored anew only for the peer of the old one. -/
def Timely (n : Node) : Act → Prop
  | .store connId conn => ∀ e ∈ n.groups.entries, e.2.Has connId → e.1 = keyOf connId (some conn)
  | .register _ connId => (n.connections.get? connId).isSome
  | _ => True

instance Timely.decidable (n : Node) : (a : Act) → Decidable (n.Timely a)
  | .store connId conn => inferInstanceAs (Decidable (∀ e ∈ n.groups.entries, e.2.Has connId → e.1 = keyOf connId (some conn)))
  | .register _ connId => inferInstanceAs (Decidable ((n.connections.get? connId).isSome = true))
  | .rekey _ | .unregister _ | .close _ | .select .. | .sweep _ | .touch .. | .heartbeat .. | .freeze _ => isTrue trivial

end Node

end OpenMux.Paths

/-!
## Connection ids and peers

The ids of dialled and accepted connections, and what is taken from them again.
-/

namespace OpenMux.Paths

open Py

/-- The id of a dialled connection. -/
def outboundId (host : Text) (port : UInt16) (now : ℕ) : Text :=
  "out:".toList ++ (host ++ ':' :: (decimal port.toNat ++ ':' :: decimal now))

/-- The id of an accepted connection, with the address of the peer if the socket has one. -/
def inboundId (peer : Option (Text × UInt16)) (now : ℕ) : Text :=
  match peer with
  | some (host, port) => "in:".toList ++ (host ++ ':' :: (decimal port.toNat ++ ':' :: decimal now))
  | none => "in:unknown:".toList ++ decimal now

structure FederationPeer where
  host : Text
  port : ℤ
  /-- `int(options.get("path_pref", 0))`. -/
  pathPref : ℤ

/-- The host and the port of an id. -/
def dialled (connId : Text) : Option (Text × ℤ) :=
  match split ':' connId.length connId with
  | _ :: host :: port :: _ :: _ => (int port).map fun port => (host, port)
  | _ => none

/-- `_mpath_derive_pref`, with the `listener_path_pref` of the record. -/
def mpathDerivePref (peers : List FederationPeer) (listenerPathPref : Option ℤ) (connId : Text) : ℤ :=
  if "out:".toList <+: connId then
    match dialled connId with
    | some (host, port) => ((peers.find? fun p => p.host = host ∧ p.port = port).map (·.pathPref)).getD 0
    | none => 0
  else if "in:".toList <+: connId then listenerPathPref.getD 0
  else 0

/-- The server id that a record names. -/
def ConnRecord.identity (conn : ConnRecord) : Option Text := (orNone conn.handshakeServerId).or (orNone conn.serverId)

/-- Parallel connections of one peer have one key and those of others another one, a dialled address is the one that the id was built
from, and a connection in the group of its address goes to the group of its peer. -/
structure OnePeerOneKey (host : Text) (port : UInt16) (now : ℕ) : Prop where
  keys : ∀ (connId connId' : Text) (conn conn' : ConnRecord) (serverId serverId' : Text), conn.identity = some serverId →
    conn'.identity = some serverId' → (Node.keyOf connId (some conn) = Node.keyOf connId' (some conn') ↔ serverId = serverId')
  address : dialled (outboundId host port now) = some (host, (port.toNat : ℤ))
  rekeyed : ∀ (n : Node) (connId : Text) (conn : ConnRecord) (serverId before : Text), n.connections.get? connId = some conn →
    conn.identity = some serverId → (∀ key, n.InGroup key connId ↔ key = before) →
    ∀ key, (n.rekeyMpathConnection connId).InGroup key connId ↔ key = Node.keyOf connId (some conn)

end OpenMux.Paths
