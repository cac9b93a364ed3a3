import OpenMux.Federation.Lemmas.Isolation

/-!
# Proxies that come back from the cache

What a proxy of the next process should have of the proxy that was saved, and what of the saved one is in the file at all.
-/

namespace OpenMux.Federation

open Py

/-- The proxy that was loaded has what the saved one had. -/
structure Restored (p q : Proxy) : Prop where
  origin : q.metadata.originServer = p.metadata.originServer
  lists : q.lists = p.lists
  capacity : q.maxReadWriteUsers = p.maxReadWriteUsers
  statusMessage : q.metadata.statusMessage = p.metadata.statusMessage
  readiness : q.metadata.readiness = p.metadata.readiness
  power : q.power = p.power
  feedStates : ∀ ref, q.feedStates.get? ref = p.feedStates.get? ref

/-- Not connected, and with a reason. -/
structure Down (p : Proxy) : Prop where
  disconnected : p.isConnected = false
  reason : p.linkReason ≠ ""

/-- The link was down when the proxy was saved, its origin has an id, and its own lists and feeds are those of its metadata, which
alone is written. -/
structure Kept (p : Proxy) : Prop where
  offline : p.isConnected = false
  origin : p.metadata.originServer ≠ ""
  lists : p.lists = ⟨p.metadata.readWriteGroups.getD [], p.metadata.readOnlyGroups.getD []⟩
  power : p.power = (initFeeds (p.metadata.power.getD [])).1
  feedStates : ∀ ref, p.feedStates.get? ref = (initFeeds (p.metadata.power.getD [])).2.get? ref

namespace Node

/-- The proxy that a peer has under a name. -/
def proxyOf (n : Node) (peer : PeerKey) (name : PortName) : Option Proxy := ((n.proxiesOf peer).get? name).map n.proxies

/-- The adapter saves its cache and a fresh one, in a process with these local ports, loads it. -/
def reloaded (cfg : NodeCfg) (n : Node) (locals : List PortName) : Node := (n.saveFederatedCache cfg).restart cfg locals

/-- No path to the peer is established: none of its frames arrive and it is not found alive. The other peers advertise only names
that are free or their own. -/
def Pathless (cfg : NodeCfg) (peer : PeerKey) (n : Node) : NodeAct → Prop
  | .frame q f => q ≠ peer ∧ Apart cfg n (q, f)
  | .liveState q live => q = peer → live = false
  | .offline _ | .save => True
  | .load | .restart _ => False

end Node

end OpenMux.Federation
