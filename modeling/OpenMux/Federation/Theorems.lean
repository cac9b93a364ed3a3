import OpenMux.Federation.Lemmas.AccessLists
import OpenMux.Federation.Lemmas.Feeds
import OpenMux.Federation.Lemmas.Restore
import OpenMux.Federation.Lemmas.Tables

/-!
# Federated ports on the receiving node

Write capacity, access lists, the separation of the peers, power feeds, and the cache.
-/

namespace OpenMux.Federation

open Py Transition

/-! ## Write capacity -/

section Capacity

variable {cfg : NodeCfg} {sid : String} {port : LocalPort} {v : Value} {m : WriteMode} {pd : FedDict}

/-- A fresh node that registers the entry. -/
theorem received_exists (cfg : NodeCfg) (pd : FedDict) : ∃ p, Received cfg pd p := by
  let n : Node := { proxies := fun _ => Proxy.new cfg.int "" pd.portName (metadataFromDict cfg.int pd) }
  have hn : n.Reachable cfg := ⟨n, [], [], rfl, rfl, rfl⟩
  rcases Node.register_cases cfg n "" pd (fun id hid => (hn.named _ id hid).1) with ⟨id, _, hr⟩ | ⟨_, hr⟩
  · have hp := hr.ports pd.portName
    rw [if_pos rfl] at hp
    exact ⟨_, Received.registered hn hp⟩
  · have hp := hr.ports pd.portName
    rw [if_pos rfl] at hp
    exact ⟨_, Received.registered hn hp⟩

/-- The mode of a port survives the advertisement exactly when it is `one`. -/
theorem write_capacity_federated (hv : port.maxReadWriteUsers = some v) (hm : parseWriteMode cfg.int v = some m)
    (hpd : (slplPortMeta cfg.int sid port).toFederationDict.overJson = some pd) :
    (∀ p, Received cfg pd p →
      p.maxReadWriteUsers = m ∧ writeCapacity cfg.int p.maxReadWriteUsers.value = writeCapacity cfg.int v) ↔
    m = .one := by
  have hwire := advertised_maxRwUsers hv hm hpd
  constructor
  · intro h
    obtain ⟨p, hp⟩ := received_exists cfg pd
    rw [← (h p hp).1, hp.mode hwire]
  · rintro rfl p hp
    refine ⟨hp.mode hwire, ?_⟩
    rw [hp.mode hwire]
    unfold writeCapacity
    rw [parseWriteMode_value, hm]

/-- A node that reads no numeric strings and accepts everything. -/
def openCfg : NodeCfg := { int := fun _ => none, accept := fun _ _ => true }

def portOf (v : Value) : LocalPort := { name := "tty0", maxReadWriteUsers := some v }

theorem write_capacity_federated_one : ∃ pd, (slplPortMeta openCfg.int "n1" (portOf (.int 1))).toFederationDict.overJson =
      some pd ∧
    ∀ p, Received openCfg pd p → p.maxReadWriteUsers = .one ∧
      writeCapacity openCfg.int p.maxReadWriteUsers.value = writeCapacity openCfg.int (.int 1) := by
  have hpd : (slplPortMeta openCfg.int "n1" (portOf (.int 1))).toFederationDict.overJson = some _ := rfl
  exact ⟨_, hpd, (write_capacity_federated rfl rfl hpd).mpr rfl⟩

/-- A port of unlimited writers arrives with one. -/
theorem write_capacity_federated_fails : ¬ ∀ (cfg : NodeCfg) (sid : String) (port : LocalPort) (v : Value) (m : WriteMode)
    (pd : FedDict) (p : Proxy), port.maxReadWriteUsers = some v → parseWriteMode cfg.int v = some m →
      (slplPortMeta cfg.int sid port).toFederationDict.overJson = some pd → Received cfg pd p →
        p.maxReadWriteUsers = m := by
  intro h
  have hpd : (slplPortMeta openCfg.int "n1" (portOf WriteMode.multiple.value)).toFederationDict.overJson = some _ := rfl
  obtain ⟨p, hp⟩ := received_exists openCfg _
  have hmode := h openCfg "n1" (portOf WriteMode.multiple.value) _ .multiple _ p rfl rfl hpd hp
  rw [hp.mode (m := .multiple) rfl] at hmode
  cases hmode

/-- Every normaliser reads a value as the parser does, exactly when it is no string of a negative number and no float of a count
other than one. -/
theorem one_capacity_iff (int : Text → Option Int) (v : Value) :
    OneCapacity int v ↔ ¬ NegativeText int v ∧ ¬ CountFloat v := by
  cases h : parseWriteMode int v with
  | none => rw [oneCapacity_rejected h, wireToMode_rejected h]
  | some m =>
      refine iff_of_true (oneCapacity_accepted h) ⟨?_, ?_⟩
      · rintro ⟨t, n, rfl, hmode, hn, hneg⟩
        have hnot : ¬ 0 ≤ n := Int.not_le.mpr hneg
        simp [parseWriteMode, hmode, hn, hnot] at h
      · rintro ⟨q, rfl, -⟩
        cases h

/-- A peer that sends the text of a negative number gets unlimited writers. -/
theorem one_capacity_fails : ¬ ∀ (int : Text → Option Int) (v : Value), OneCapacity int v := by
  intro h
  have hone := (h Py.int (.str ['-', '1'])).rejected (by decide)
  revert hone
  decide

end Capacity

/-! ## Access lists -/

section AccessLists

variable {cfg : NodeCfg} {n n₀ : Node} {peer : PeerKey} {pds : List FedDict} {acts : List NodeAct} {names : List PortName}

/-- The accepted entries of a frame that give the name they are registered under, the last for each name. -/
def lastEntries (cfg : NodeCfg) (peer : PeerKey) (pds : List FedDict) : List FedDict :=
  pds.filter fun pd => pd.givenName = some pd.portName ∧ lastEntry cfg peer pds pd.portName = some pd

/-- After an advertisement each port that it names has the lists of its entry, and gives every user the entitlement that
the lists of the origin give. -/
def ListsFollow (cfg : NodeCfg) (n : Node) : NodeAct → Prop
  | .frame peer (.portsFederated pds) => ∀ pd ∈ lastEntries cfg peer pds,
      (n.handlePortsFederated cfg peer pds).listsOf pd.portName = some pd.lists ∧
      ∀ sid port, (slplPortMeta cfg.int sid port).toFederationDict.overJson = some pd → ∀ policy permissions username,
        ((n.handlePortsFederated cfg peer pds).listsOf pd.portName).map
            (fun lists => takerEntitled policy lists permissions username) =
          some (takerEntitled policy port.lists permissions username)
  | _ => True

/-- The lists that a name has on arrival, or those of its first entry when no proxy is registered, are the advertised
ones. -/
def ListsKept (cfg : NodeCfg) (n : Node) : NodeAct → Prop
  | .frame peer (.portsFederated pds) => ∀ pd ∈ lastEntries cfg peer pds, ∀ pd₀ ∈ firstEntry cfg peer pds pd.portName,
      (n.listsOf pd.portName).getD pd₀.lists = pd.lists
  | _ => True

instance (cfg : NodeCfg) (n : Node) : (a : NodeAct) → Decidable (ListsKept cfg n a)
  | .frame peer (.portsFederated pds) => inferInstanceAs (Decidable (∀ pd ∈ lastEntries cfg peer pds,
      ∀ pd₀ ∈ firstEntry cfg peer pds pd.portName, (n.listsOf pd.portName).getD pd₀.lists = pd.lists))
  | .frame _ (.portStatus _ _ _) | .frame _ (.powerState _ _) | .frame _ (.viewers _ _) | .offline _ | .liveState _ _ | .save
  | .load | .restart _ => isTrue trivial

theorem listsFollow_iff (h : n.Named) (a : NodeAct) : ListsFollow cfg n a ↔ ListsKept cfg n a := by
  cases a with
  | offline => exact Iff.rfl
  | liveState => exact Iff.rfl
  | save => exact Iff.rfl
  | load => exact Iff.rfl
  | restart => exact Iff.rfl
  | frame peer f =>
      cases f with
      | portStatus => exact Iff.rfl
      | powerState => exact Iff.rfl
      | viewers => exact Iff.rfl
      | portsFederated pds =>
          simp only [ListsFollow, ListsKept, lastEntries, List.mem_filter, decide_eq_true_eq]
          refine forall_congr' fun pd => forall_congr' fun hpd => ?_
          obtain ⟨_, hname, hlast⟩ := hpd
          obtain ⟨pd₀, hfirst⟩ := firstEntry_of_lastEntry hlast
          have hafter := Node.handlePortsFederated_lists h hfirst (mem_seenNames hlast hname)
          simp only [hafter, hfirst, Option.some.injEq, Option.mem_def, forall_eq', Option.map_some]
          refine ⟨fun hl => hl.1, fun hl => ⟨hl, ?_⟩⟩
          intro sid port hport policy permissions username
          rw [hl, advertised_lists hport]

/-- In every run, with frames of any peers and the cache saved and loaded at any point, the lists follow the latest
advertisement exactly when no advertisement changes the lists of a port that has a proxy. -/
theorem access_lists_follow (hports : n₀.ports = Node.localPorts names) :
    Along (Node.step cfg) (ListsFollow cfg) n₀ acts ↔ Along (Node.step cfg) (ListsKept cfg) n₀ acts :=
  along_congr (I := Node.Named) (fun _ _ _ hn _ hs => Node.named_step hn hs) (fun _ a hn => listsFollow_iff hn a)
    (Node.named_of_localPorts hports)

/-- The entry of one port with its read-write groups. -/
def groupEntry (groups : List String) : FedDict :=
  { name := some "tty0", originServer := .object (some "n1") true, readWriteGroups := some groups }

def freshNode : Node := { proxies := fun _ => Proxy.new openCfg.int "" "" (metadataFromDict openCfg.int (groupEntry [])) }

/-- First contact, a restart with the cache, and an advertisement on the live link. -/
theorem access_lists_follow_unchanged : Along (Node.step openCfg) (ListsFollow openCfg) freshNode
    [.frame "a" (.portsFederated [groupEntry ["ops"]]), .offline "a", .restart [],
      .frame "a" (.portsFederated [groupEntry ["ops"]])] :=
  (access_lists_follow (show freshNode.ports = Node.localPorts [] from rfl)).mpr (by decide)

/-- A port that is closed to a group after it was advertised without one stays open on this node. -/
theorem access_lists_follow_fails : ¬ ∀ (cfg : NodeCfg) (names : List PortName) (n₀ : Node) (acts : List NodeAct),
    n₀.ports = Node.localPorts names → Along (Node.step cfg) (ListsFollow cfg) n₀ acts := by
  intro h
  have hrun := h openCfg [] freshNode
    [.frame "a" (.portsFederated [groupEntry []]), .frame "a" (.portsFederated [groupEntry ["ops"]])] rfl
  have hlists := (hrun.2.1 (groupEntry ["ops"]) (by decide)).1
  revert hlists
  decide

end AccessLists

/-! ## Separation of the peers -/

section Isolation

variable {cfg : NodeCfg} {n n₀ : Node} {names : List PortName} {frames : List (PeerKey × Frame)}

/-- In every run in which peers advertise only names that are free or their own, local ports stay, and each port of a
peer's latest advertisement has a proxy that is registered, sends to that peer, and is what this peer's own frames make
it. -/
theorem peers_isolated (hports : n₀.ports = Node.localPorts names) (hmaps : n₀.peerProxies = ∅)
    (hapart : Along (Node.frameStep cfg) (Node.Apart cfg) n₀ frames)
    (hrun : exec (Node.frameStep cfg) n₀ frames = some n) :
    (∀ name, n₀.ports.get? name = some .wrapper → n.ports.get? name = some .wrapper) ∧
    ∀ peer name pd, lastEntry cfg peer (latestAdvertisement peer frames []) name = some pd →
      pd.givenName = some name → ∃ id, n.ports.get? name = some (.proxy id) ∧
        (n.proxies id).FollowsEntry cfg peer pd ∧
        (∃ pd' ∈ advertised cfg peer frames, pd'.portName = name ∧ (n.proxies id).lists = pd'.lists) ∧
        Table.run cfg peer (fun _ => none) (frames.filter (·.1 = peer)) name = some (n.proxies id) := by
  obtain ⟨howned, href⟩ := Node.owned_initial hports hmaps
  obtain ⟨howned', href', hwrappers⟩ := howned.run href hapart hrun
  refine ⟨hwrappers, ?_⟩
  intro peer name pd hlast hname
  have hfollows := (Table.follows_initial cfg peer).run frames
  obtain ⟨p, hp, hpd⟩ := hfollows.latest name pd hlast hname
  have hmap : Table.run cfg peer (fun _ => none) frames name = _ := href' peer name
  rw [hp, eq_comm, Option.map_eq_some_iff] at hmap
  obtain ⟨id, hid, rfl⟩ := hmap
  refine ⟨id, howned'.registered peer name id hid, hpd, hfollows.lists name _ hp, ?_⟩
  rw [← Table.run_own, hp]

/-- Two peers with ports of their own, a refresh and a withdrawal. -/
def separateRun : List (PeerKey × Frame) :=
  [("a", .portsFederated [groupEntry ["ops"]]),
   ("b", .portsFederated [{ groupEntry [] with name := some "tty1" }]),
   ("b", .portStatus "tty0" "stolen" "down"),
   ("a", .portsFederated [groupEntry ["ops"]]),
   ("b", .portsFederated [])]

theorem peers_isolated_separate : ∃ n, exec (Node.frameStep openCfg) { freshNode with ports := Node.localPorts ["con"] }
      separateRun = some n ∧
    ∃ id, n.ports.get? "tty0" = some (.proxy id) ∧ (n.proxies id).FollowsEntry openCfg "a" (groupEntry ["ops"]) := by
  have hrun : exec (Node.frameStep openCfg) { freshNode with ports := Node.localPorts ["con"] } separateRun = some _ := rfl
  obtain ⟨id, hid, hpd, _⟩ := (peers_isolated rfl rfl (by decide) hrun).2 "a" "tty0" (groupEntry ["ops"]) (by decide)
    (by decide)
  exact ⟨_, hrun, id, hid, hpd⟩

/-- A second peer that advertises the name of the first takes its proxy over. -/
theorem peers_isolated_fails : ¬ ∀ (cfg : NodeCfg) (names : List PortName) (peer : PeerKey) (pds : List FedDict)
    (frames : List (PeerKey × Frame)) (n₀ n : Node), n₀.ports = Node.localPorts names → n₀.peerProxies = ∅ →
      exec (Node.frameStep cfg) n₀ ((peer, .portsFederated pds) :: frames) = some n →
        ∀ name pd, name ∉ names →
          lastEntry cfg peer (latestAdvertisement peer ((peer, .portsFederated pds) :: frames) []) name = some pd →
          pd.givenName = some name → ∃ id, n.ports.get? name = some (.proxy id) ∧ (n.proxies id).connectionId = peer := by
  intro h
  obtain ⟨id, hid, hconn⟩ := h openCfg [] "a" [groupEntry []] [("b", .portsFederated [groupEntry []])] freshNode _ rfl rfl
    rfl "tty0" (groupEntry []) (by decide) (by decide) (by decide)
  have hzero : some (PortObj.proxy 0) = some (PortObj.proxy id) := hid
  cases hzero
  revert hconn
  decide

end Isolation

/-! ## Power feeds -/

section Feeds

variable {cfg : NodeCfg} {n n₀ : Node} {peer : PeerKey} {name : PortName} {sid : String} {frames : List (PeerKey × Frame)}
  {news : List FeedNews}

/-- In every run in which peers advertise only names that are free or their own, and an advertisement without feeds only meets a
proxy without them, the proxy of a port shows the feeds that its origin advertised last with the states that it told last, and
the frames of other peers change none of them. -/
theorem power_feeds_converge (howned : n₀.Owned)
    (hnews : List.Forall₂ (Carries cfg peer name sid) ((frames.filter (·.1 = peer)).map Prod.snd) news)
    (hclear : Along (Node.frameStep cfg) (fun n a => Node.Apart cfg n a ∧ FeedsClear cfg peer name sid n a) n₀ frames)
    (hrun : exec (Node.frameStep cfg) n₀ frames = some n) :
    (∀ feeds, FeedNews.known news = some feeds →
      ∃ id, n.ports.get? name = some (.proxy id) ∧ Replica sid feeds (n.proxies id)) ∧
    ∀ q, (∀ a ∈ frames, a.1 ≠ q) → ∀ name, ((n.proxiesOf q).get? name).map n.proxies =
      ((n₀.proxiesOf q).get? name).map n₀.proxies := by
  have hT : n₀.Refines fun q name => ((n₀.proxiesOf q).get? name).map n₀.proxies := fun _ _ => rfl
  have hs : Shows sid none (((n₀.proxiesOf peer).get? name).map n₀.proxies) := nofun
  obtain ⟨T', hO, hR, hshown, hkept⟩ := howned.shows hT hs hnews hclear hrun
  constructor
  · intro feeds hk
    obtain ⟨-, p, hp, hr⟩ := hshown feeds hk
    rw [hR peer name, Option.map_eq_some_iff] at hp
    obtain ⟨id, hid, rfl⟩ := hp
    exact ⟨id, hO.registered peer name id hid, hr⟩
  · intro q hno name
    rw [← hR q name, hkept q hno]

def poweredPort (feeds : Feeds) : LocalPort := { name := "tty0", power := slplFeedStates "n1" feeds }

def poweredEntry (feeds : Feeds) : FedDict := (slplPortMeta openCfg.int "n1" (poweredPort feeds)).toFederationDict

def oneFeed (on : Option Bool) : Feeds := (∅ : Feeds).set "rack.1".toList on

theorem carries_poweredEntry (feeds : Feeds) :
    Carries openCfg "a" "tty0" "n1" (.portsFederated [poweredEntry feeds]) (.advertised feeds) :=
  ⟨poweredPort feeds, poweredEntry feeds, rfl, rfl, rfl, rfl⟩

theorem fresh_owned : freshNode.Owned := (Node.owned_initial (show freshNode.ports = Node.localPorts [] from rfl) rfl).1

/-- The feeds of an advertisement can be read off it. -/
theorem keys_of_carries {feeds feeds' : Feeds}
    (h : Carries openCfg "a" "tty0" "n1" (.portsFederated [poweredEntry feeds]) (.advertised feeds')) :
    feeds'.keys = feeds.keys := by
  obtain ⟨port, pd, hpower, hpd, -, hone⟩ := h
  have hpd' : pd = poweredEntry feeds := (List.cons.inj hone).1.symm
  rw [hpd'] at hpd
  exact keys_eq_of_wire hpower (show (poweredPort feeds).power = _ from rfl) hpd rfl

/-- The feed goes off at the origin and comes back with the next advertisement; another peer has an outlet of that name. -/
def poweredRun : List (PeerKey × Frame) :=
  [("a", .portsFederated [poweredEntry (oneFeed (some true))]), ("a", .powerState "rack.1".toList (some false)),
    ("b", .powerState "rack.1".toList (some true))]

theorem power_feeds_converge_one : ∃ n, exec (Node.frameStep openCfg) freshNode poweredRun = some n ∧
    ∃ id, n.ports.get? "tty0" = some (.proxy id) ∧ Replica "n1" (oneFeed (some false)) (n.proxies id) := by
  have hrun : exec (Node.frameStep openCfg) freshNode poweredRun = some _ := rfl
  have hclear : Along (Node.frameStep openCfg)
      (fun n a => Node.Apart openCfg n a ∧ FeedsClear openCfg "a" "tty0" "n1" n a) freshNode poweredRun := by
    refine ⟨⟨by decide, fun _ feeds hc => ?_⟩, ⟨by decide, fun _ feeds hc => hc.elim⟩, ⟨by decide, nofun⟩, trivial⟩
    have hk : feeds.keys = ["rack.1".toList] := keys_of_carries hc
    refine ⟨fun ref hm => ?_, fun he => ?_⟩
    · rw [hk, List.mem_singleton] at hm
      subst hm
      decide
    · rw [Dict.keys, he] at hk
      cases hk
  have hnews : List.Forall₂ (Carries openCfg "a" "tty0" "n1") ((poweredRun.filter (·.1 = "a")).map Prod.snd)
      [.advertised (oneFeed (some true)), .state "rack.1".toList (some false)] :=
    .cons (carries_poweredEntry _) (.cons ⟨rfl, rfl⟩ .nil)
  obtain ⟨id, hid, hr⟩ := (power_feeds_converge fresh_owned hnews hclear hrun).1 _ rfl
  exact ⟨_, hrun, id, hid, hr⟩

/-- An origin that takes the last feed from a port keeps its peers showing it. -/
theorem power_feeds_converge_fails : ¬ ∀ (cfg : NodeCfg) (n₀ n : Node) (peer : PeerKey) (name : PortName) (sid : String)
    (frames : List (PeerKey × Frame)) (news : List FeedNews), n₀.Owned → (∀ a ∈ frames, a.1 = peer) →
      List.Forall₂ (Carries cfg peer name sid) (frames.map Prod.snd) news →
      exec (Node.frameStep cfg) n₀ frames = some n → ∀ feeds, FeedNews.known news = some feeds →
        ∃ id, n.ports.get? name = some (.proxy id) ∧ (n.proxies id).power = feeds.keys.map (remoteRef sid) := by
  intro h
  obtain ⟨id, hid, hpower⟩ := h openCfg freshNode _ "a" "tty0" "n1"
    [("a", .portsFederated [poweredEntry (oneFeed (some true))]), ("a", .portsFederated [poweredEntry ∅])]
    [.advertised (oneFeed (some true)), .advertised ∅] fresh_owned (by decide)
    (.cons (carries_poweredEntry _) (.cons (carries_poweredEntry _) .nil)) rfl ∅ rfl
  have hzero : some (PortObj.proxy 0) = some (PortObj.proxy id) := hid
  cases hzero
  revert hpower
  decide

end Feeds

/-! ## The cache -/

section Cache

variable {cfg : NodeCfg} {n : Node}

/-- The proxies of any reachable node come back from the cache as they were, and are down while no path to their peer is there,
exactly when each was down when it was saved, has an origin id, and had no lists or feeds of its own. -/
theorem federated_cache_restored (h : n.Reachable cfg) (hc : cfg.cacheEnabled = true) (locals : List PortName) :
    ((∀ peer name p, n.proxyOf peer name = some p → ∃ q, (n.reloaded cfg locals).proxyOf peer name = some q ∧ Restored p q) ∧
      ∀ peer acts t, exec (Node.step cfg) (n.reloaded cfg locals) acts = some t →
        Along (Node.step cfg) (Node.Pathless cfg peer) (n.reloaded cfg locals) acts →
        ∀ name q, t.proxyOf peer name = some q → Down q) ↔
    ∀ peer name p, n.proxyOf peer name = some p → Kept p := by
  have hsane := h.allSane
  obtain ⟨hplaced, hloaded, hnone⟩ := hsane.reloaded hc locals
  constructor
  · rintro ⟨hrestored, hdown⟩ peer name p hp
    obtain ⟨q, hq, hr⟩ := hrestored peer name p hp
    obtain ⟨id, hid, rfl⟩ := Option.map_eq_some_iff.mp hp
    obtain ⟨rec, hrec, callback, hq'⟩ := hloaded peer name id hid
    rw [hq] at hq'
    cases hq'
    have hd := hdown peer [] _ rfl trivial name _ hq
    exact (restored_iff (hsane id (.inr ⟨peer, name, hid⟩)) hrec peer name).mp
      ((restored_callback _ _ callback).mp ⟨hr, hd⟩)
  · intro hkept
    have hback : ∀ peer name id, (n.proxiesOf peer).get? name = some id →
        ∃ q, (n.reloaded cfg locals).proxyOf peer name = some q ∧ Restored (n.proxies id) q ∧ Down q := by
      intro peer name id hid
      obtain ⟨rec, hrec, callback, hq⟩ := hloaded peer name id hid
      have hp : n.proxyOf peer name = some (n.proxies id) := by rw [Node.proxyOf, hid]; rfl
      obtain ⟨hr, hd⟩ := (restored_callback _ _ callback).mpr
        ((restored_iff (hsane id (.inr ⟨peer, name, hid⟩)) hrec peer name).mpr (hkept peer name _ hp))
      exact ⟨_, hq, hr, hd⟩
    constructor
    · intro peer name p hp
      obtain ⟨id, hid, rfl⟩ := Option.map_eq_some_iff.mp hp
      obtain ⟨q, hq, hr, -⟩ := hback peer name id hid
      exact ⟨q, hq, hr⟩
    · intro peer acts t hrun halong name q hq
      have haway : (n.reloaded cfg locals).Away peer := by
        refine ⟨?_, fun name id hid => ?_, hplaced.below peer, ?_⟩
        · exact Node.named_step (a := .restart locals) (Node.named_save h.named) rfl
        · have hp : (n.reloaded cfg locals).proxyOf peer name = some ((n.reloaded cfg locals).proxies id) := by
            rw [Node.proxyOf, hid]
            rfl
          cases hold : (n.proxiesOf peer).get? name with
          | none => 
              rw [hnone peer name hold] at hp
              cases hp
          | some id₀ =>
              obtain ⟨q, hq, -, hd⟩ := hback peer name id₀ hold
              rw [hp] at hq
              cases hq
              exact hd
        · exact fun name id q name' hid hq => (hplaced.unique q peer name' name id hq hid).1
      have haway' := exec_invariant (fun _ _ _ hI hC hs => Node.Away.step hI hC hs) haway halong hrun
      obtain ⟨id, hid, rfl⟩ := Option.map_eq_some_iff.mp hq
      exact haway'.down name id hid

/-- First contact with a peer. -/
def metNode : Node := freshNode.handlePortsFederated openCfg "a" [groupEntry ["ops"]]

theorem metNode_reachable : metNode.Reachable openCfg :=
  ⟨freshNode, [], [.frame "a" (.portsFederated [groupEntry ["ops"]])], rfl, rfl, rfl⟩

/-- The link of that peer is lost. -/
def lostNode : Node := metNode.ccProxiesOffline openCfg "a"

theorem lostNode_reachable : lostNode.Reachable openCfg :=
  ⟨freshNode, [], [.frame "a" (.portsFederated [groupEntry ["ops"]]), .offline "a"], rfl, rfl, rfl⟩

theorem lostNode_kept (peer : PeerKey) (name : PortName) (p : Proxy) (hp : lostNode.proxyOf peer name = some p) : Kept p := by
  have hmap : lostNode.peerProxies = (∅ : Dict PeerKey (Dict PortName ProxyId)).set "a" ((∅ : Dict PortName ProxyId).set "tty0" 0) := rfl
  have hid : p = lostNode.proxies 0 := by
    simp only [Node.proxyOf, Node.proxiesOf, hmap, Dict.get?_set, Dict.get?_empty] at hp
    by_cases hpeer : peer = "a"
    · by_cases hname : name = "tty0"
      · simpa [hpeer, hname, Dict.get?_set, eq_comm] using hp
      · simp [hpeer, hname, Dict.get?_set] at hp
    · simp [hpeer] at hp
  subst hid
  exact ⟨rfl, by decide, rfl, rfl, fun _ => rfl⟩

theorem federated_cache_restored_lost : ∃ q, (lostNode.reloaded openCfg ["con"]).proxyOf "a" "tty0" = some q ∧
    Restored (lostNode.proxies 0) q := by
  exact ((federated_cache_restored lostNode_reachable rfl ["con"]).mpr lostNode_kept).1 "a" "tty0" _ rfl

/-- A cache that is saved on a live link brings the proxy back as connected. -/
theorem federated_cache_restored_fails : ¬ ∀ (cfg : NodeCfg) (n : Node) (locals : List PortName) (peer : PeerKey)
    (name : PortName) (q : Proxy), n.Reachable cfg → cfg.cacheEnabled = true →
      (n.reloaded cfg locals).proxyOf peer name = some q → Down q := by
  intro h
  have hq : (metNode.reloaded openCfg []).proxyOf "a" "tty0" = some _ := rfl
  have hd := (h openCfg metNode [] "a" "tty0" _ metNode_reachable rfl hq).disconnected
  revert hd
  decide

end Cache

end OpenMux.Federation
