import OpenMux.Federation.Registry

/-!
# What the registry is for

Each peer has a table of its own: the proxy of each port it advertises. A frame of a peer changes that peer's table and
nothing else. `Table` states this purpose; the node keeps it as long as no two peers, and no peer and this node, use one
name.
-/

namespace OpenMux.Federation

open Py

/-- The proxies of one peer by name. -/
abbrev Table := PortName → Option Proxy

namespace Table

/-- One entry of an advertisement. -/
def register (cfg : NodeCfg) (peer : PeerKey) (t : Table) (pd : FedDict) : Table :=
  let m := metadataFromDict cfg.int pd
  Function.update t pd.portName (some (match t pd.portName with
    | some p => p.updateExisting cfg.int peer m
    | none => { Proxy.new cfg.int peer pd.portName m with dataCallback := true }))

/-- A frame of the peer that owns the table. -/
def handleFrame (cfg : NodeCfg) (peer : PeerKey) (t : Table) : Frame → Table
  | .portsFederated pds => fun name =>
      if name ∈ seenNames cfg peer pds then (pds.filter (cfg.accept peer)).foldl (register cfg peer) t name else none
  | .portStatus name statusMessage readiness =>
      Function.update t name ((t name).map fun p => { p with metadata := { p.metadata with
        statusMessage := strOrNone (some statusMessage)
        readiness := strOrNone (some readiness) } })
  | .powerState ref on => fun name => (t name).map fun p => Node.applyPowerState p ref on
  | .viewers name entries => Function.update t name ((t name).map fun p => { p with remoteViewers := entries })

/-- The table of a peer after a list of frames of any peers. -/
def run (cfg : NodeCfg) (peer : PeerKey) (t : Table) : List (PeerKey × Frame) → Table
  | [] => t
  | (q, f) :: fs => run cfg peer (if q = peer then t.handleFrame cfg peer f else t) fs

end Table

/-- The entries of the last advertisement of a peer. -/
def latestAdvertisement (peer : PeerKey) : List (PeerKey × Frame) → List FedDict → List FedDict
  | [], pds => pds
  | (q, .portsFederated pds') :: fs, pds => latestAdvertisement peer fs (if q = peer then pds' else pds)
  | _ :: fs, pds => latestAdvertisement peer fs pds

end OpenMux.Federation

/-!
## The power feeds of a port and their replica

What an origin tells its peers of the feeds of one port, and what a proxy of the port should show of them: the feeds that were
advertised last, each with the state that was told last.
-/

namespace OpenMux.Federation

open Py

/-- The feeds of a port in their local form, with the states of their outlets. -/
abbrev Feeds := Dict Text (Option Bool)

/-- `_slpl_feed_states`. -/
def slplFeedStates (serverId : String) (feeds : Feeds) : Option (List Feed) :=
  orNone (some (feeds.entries.map fun e => ⟨remoteRef serverId e.1, e.2⟩))

/-- What a frame of the origin says of the feeds of the port. -/
inductive FeedNews
  | advertised (feeds : Feeds)
  | withdrawn
  | state (ref : Text) (on : Option Bool)
  | nothing

namespace FeedNews

/-- The feeds that a peer knows of; `none` while it has no proxy of the port. -/
def apply (known : Option Feeds) : FeedNews → Option Feeds
  | advertised feeds => some feeds
  | withdrawn => none
  | state ref on => known.map fun feeds => if (feeds.get? ref).isSome then feeds.set ref on else feeds
  | nothing => known

def known (news : List FeedNews) : Option Feeds := news.foldl apply none

end FeedNews

variable (cfg : NodeCfg) (peer : PeerKey) (name : PortName) (sid : String)

/-- The frame says the news of the port. An advertisement of the port has one accepted entry for it, which is made of the feeds. -/
def Carries : Frame → FeedNews → Prop
  | .portsFederated pds, .advertised feeds => ∃ port pd, port.power = slplFeedStates sid feeds ∧
      (slplPortMeta cfg.int sid port).toFederationDict.overJson = some pd ∧ pd.givenName = some name ∧
      (pds.filter fun pd => cfg.accept peer pd ∧ pd.portName = name) = [pd]
  | .portsFederated pds, .withdrawn => name ∉ seenNames cfg peer pds
  | .powerState ref on, .state ref' on' => ref = ref' ∧ on = on'
  | .portStatus _ _ _, .nothing => True
  | .viewers _ _, .nothing => True
  | _, _ => False

/-- The feed list of the proxy is that of the origin in global form, and each feed has its state in both caches. -/
structure Replica (feeds : Feeds) (p : Proxy) : Prop where
  power : p.power = feeds.keys.map (remoteRef sid)
  feedStates : ∀ ref on, feeds.get? ref = some on → p.feedStates.get? (remoteRef sid ref) = some on
  metadata : p.metadata.power.getD [] = feeds.entries.map fun e => ⟨remoteRef sid e.1, e.2⟩

/-- The global form of each feed splits into the server id and the feed. -/
def WellFormed (feeds : Feeds) : Prop := ∀ ref ∈ feeds.keys, splitRemoteRef (remoteRef sid ref) = some (sid.toList, ref)

instance WellFormed.decidable (feeds : Feeds) : Decidable (WellFormed sid feeds) :=
  inferInstanceAs (Decidable (∀ ref ∈ feeds.keys, _))

/-- An advertisement of the port has well-formed feeds, and only has none when the proxy of the port shows none. -/
def FeedsClear (n : Node) (a : PeerKey × Frame) : Prop :=
  a.1 = peer → ∀ feeds, Carries cfg peer name sid a.2 (.advertised feeds) →
    WellFormed sid feeds ∧ (feeds.entries = [] → ∀ id, (n.proxiesOf peer).get? name = some id → (n.proxies id).power = [])

end OpenMux.Federation
