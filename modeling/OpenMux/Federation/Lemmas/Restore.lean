import OpenMux.Federation.Restore

/-!
# The federated cache and the next process

First what every proxy of a reachable node keeps to, so that its record can be written and read. Then what a load leaves in the
maps of the peers, and the state of a loaded proxy while its peer is away.
-/

namespace OpenMux.Federation

open Py

variable {cfg : NodeCfg} {int : Text → Option Int} {n n' : Node} {peer peer' : PeerKey} {name name' : PortName} {id : ProxyId}
  {p q : Proxy} {pd : FedDict} {pds : List FedDict} {rec : CacheRecord}

/-! ## What the registration path makes -/

/-- The mode is that of the wire value, which can be written, and texts and lists that are there are not empty. -/
structure Sane (int : Text → Option Int) (p : Proxy) : Prop where
  capacity : p.maxReadWriteUsers = wireToMode int p.metadata.maxRwUsers
  written : (dumps p.metadata.maxRwUsers).isSome
  statusMessage : strOrNone p.metadata.statusMessage = p.metadata.statusMessage
  readiness : strOrNone p.metadata.readiness = p.metadata.readiness
  readWrite : orNone p.metadata.readWriteGroups = p.metadata.readWriteGroups
  readOnly : orNone p.metadata.readOnlyGroups = p.metadata.readOnlyGroups

theorem strOrNone_idem (s : Option String) : strOrNone (strOrNone s) = strOrNone s := by
  cases s with
  | none => rfl
  | some s => by_cases h : s = "" <;> simp [strOrNone, h]

theorem orNone_idem {α : Type} (xs : Option (List α)) : orNone (orNone xs) = orNone xs := by
  cases xs with
  | none => rfl
  | some xs => cases xs <;> rfl

theorem dumps_float (x : FloatVal) : (dumps (.float x)).isSome := by cases x <;> rfl

theorem dumps_loads (j : Json) : (dumps (loads j)).isSome := by cases j <;> rfl

theorem Sane.new (int : Text → Option Int) (peer : PeerKey) (name : PortName) (pd : FedDict) :
    Sane int (Proxy.new int peer name (metadataFromDict int pd)) where
  capacity := rfl
  written := dumps_float _
  statusMessage := strOrNone_idem _
  readiness := strOrNone_idem _
  readWrite := orNone_idem _
  readOnly := orNone_idem _

theorem Sane.ofCache (int : Text → Option Int) (peer : PeerKey) (name : PortName) (rec : CacheRecord) :
    Sane int (Proxy.ofCache int peer name rec) where
  capacity := rfl
  written := dumps_loads _
  statusMessage := strOrNone_idem _
  readiness := strOrNone_idem _
  readWrite := orNone_idem _
  readOnly := orNone_idem _

/-- A write that leaves the mode and all of the metadata but its feeds. -/
theorem Sane.congr (h : Sane int p) (hmode : q.maxReadWriteUsers = p.maxReadWriteUsers)
    (hmeta : ∃ power, q.metadata = { p.metadata with power := power }) : Sane int q := by
  obtain ⟨power, hm⟩ := hmeta
  constructor
  · rw [hmode, hm]; exact h.capacity
  · rw [hm]; exact h.written
  · rw [hm]; exact h.statusMessage
  · rw [hm]; exact h.readiness
  · rw [hm]; exact h.readWrite
  · rw [hm]; exact h.readOnly

theorem Sane.callback (h : Sane int p) (callback : Bool) : Sane int { p with dataCallback := callback } := h.congr rfl ⟨_, rfl⟩

theorem Sane.updateExisting (p : Proxy) (peer : PeerKey) (pd : FedDict) :
    Sane int (p.updateExisting int peer (metadataFromDict int pd)) := by
  have hnew := Sane.new int peer p.remotePortName pd
  refine hnew.congr ?_ ?_
  · simp [Proxy.updateExisting, Proxy.updateMetaAndPower, Proxy.new]
  · exact applyPowerMeta_metadata (p := { p with
      connectionId := peer
      metadata := metadataFromDict int pd
      maxReadWriteUsers := wireToMode int (metadataFromDict int pd).maxRwUsers })

theorem Sane.portStatus (h : Sane int p) (statusMessage readiness : String) :
    Sane int { p with metadata := { p.metadata with
      statusMessage := strOrNone (some statusMessage)
      readiness := strOrNone (some readiness) } } :=
  ⟨h.capacity, h.written, strOrNone_idem (some statusMessage), strOrNone_idem (some readiness), h.readWrite, h.readOnly⟩

theorem Sane.applyPowerState (h : Sane int p) (ref : Text) (on : Option Bool) : Sane int (Node.applyPowerState p ref on) := by
  rw [Node.applyPowerState]
  split
  · exact h
  · exact h.congr rfl ⟨_, rfl⟩

theorem Sane.flip (h : Sane int p) (live : Bool) : Sane int (Node.flipProxyLiveState live p) := by
  rw [Node.flipProxyLiveState]
  split_ifs
  · exact h
  · exact h.congr rfl ⟨_, rfl⟩
  · exact h.congr rfl ⟨_, rfl⟩

namespace Node

/-- A proxy of the registry or of some peer's map. -/
def Refers (n : Node) (id : ProxyId) : Prop :=
  (∃ name, n.ports.get? name = some (.proxy id)) ∨ ∃ peer name, (n.proxiesOf peer).get? name = some id

def AllSane (int : Text → Option Int) (n : Node) : Prop := ∀ id, n.Refers id → Sane int (n.proxies id)

theorem AllSane.update (h : n.AllSane int) (hp : Sane int p) : (n.update id p).AllSane int := by
  intro id' hr
  rw [update_proxies, Function.update_apply]
  split
  · exact hp
  · exact h id' hr

theorem AllSane.updateProxies {f : Proxy → Proxy} (hf : ∀ p, Sane int p → Sane int (f p)) (h : n.AllSane int) (peer : PeerKey) :
    (n.updateProxies peer f).AllSane int := by
  have hfold : ∀ (es : List (PortName × ProxyId)) (m : Node), m.AllSane int → (∀ e ∈ es, m.Refers e.2) →
      (es.foldl (fun n e => n.update e.2 (f (n.proxies e.2))) m).AllSane int := by
    intro es
    induction es with
    | nil => exact fun m hm _ => hm
    | cons e es ih =>
        intro m hm hes
        exact ih _ (hm.update (hf _ (hm _ (hes e List.mem_cons_self)))) fun e' he => hes e' (List.mem_cons_of_mem e he)
  exact hfold _ n h fun e he => .inr ⟨peer, e.1, Dict.mem_entries.mp he⟩

theorem Registered.allSane (hr : Registered n peer pd n' id p) (h : n.AllSane int) (hp : Sane int p) : n'.AllSane int := by
  intro id' hid
  rw [hr.proxies, Function.update_apply]
  split
  · exact hp
  · rename_i hne
    refine h id' ?_
    rcases hid with ⟨name, hn⟩ | ⟨q, name, hn⟩
    · rw [hr.ports] at hn
      split at hn
      · cases hn; exact absurd rfl hne
      · exact .inl ⟨name, hn⟩
    · rw [hr.proxiesOf] at hn
      split at hn
      · cases hn; exact absurd rfl hne
      · exact .inr ⟨q, name, hn⟩

theorem AllSane.register (h : n.AllSane cfg.int) (hn : n.Named) (peer : PeerKey) (pd : FedDict) :
    (n.registerRemotePortFromDict cfg peer pd).AllSane cfg.int := by
  rcases register_cases cfg n peer pd (fun id hid => (hn _ id hid).1) with ⟨id, hp, hr⟩ | ⟨hno, hr⟩
  · exact hr.allSane h (.updateExisting _ peer pd)
  · exact hr.allSane h ((Sane.new cfg.int peer pd.portName pd).congr rfl ⟨_, rfl⟩)

theorem AllSane.registerPorts (h : n.AllSane cfg.int) (hn : n.Named) (peer : PeerKey) (pds : List FedDict) :
    (portsFederatedRegisterPorts cfg peer n pds).1.AllSane cfg.int := by
  induction pds generalizing n with
  | nil => exact h
  | cons pd pds ih =>
      cases ha : cfg.accept peer pd with
      | false =>
          simp only [portsFederatedRegisterPorts, ha]
          exact ih h hn
      | true =>
          simp only [portsFederatedRegisterPorts, ha, if_true]
          exact ih (h.register hn peer pd) (register_spec cfg peer pd hn).1

/-- Fewer references. -/
theorem AllSane.mono (h : n.AllSane int) (hp : n'.proxies = n.proxies) (hr : ∀ id, n'.Refers id → n.Refers id) : n'.AllSane int :=
  fun id hid => by rw [hp]; exact h id (hr id hid)

/-- Every name that the purge takes out is taken out of one map, and out of the registry at most. -/
theorem AllSane.purgeOne (h : n.AllSane int) (peer : PeerKey) (name : PortName) : (n.purgeOne peer name).AllSane int := by
  rw [Node.purgeOne]
  split
  · exact h
  · rename_i id hid
    have hsane := h id (.inr ⟨peer, name, hid⟩)
    have hmaps : ∀ ports : Dict PortName PortObj, (∀ name id, ports.get? name = some (.proxy id) → n.ports.get? name = some (.proxy id)) →
        ({ n with peerProxies := n.peerProxies.set peer ((n.proxiesOf peer).pop name), ports := ports } : Node).AllSane int := by
      intro ports hports
      refine h.mono rfl ?_
      rintro id' (⟨name', hn⟩ | ⟨q, name', hn⟩)
      · exact .inl ⟨name', hports name' id' hn⟩
      · simp only [proxiesOf, Dict.get?_set] at hn
        split at hn
        · exact .inr ⟨peer, name', Dict.get?_of_get?_pop hn⟩
        · exact .inr ⟨q, name', hn⟩
    rw [unregisterStale]
    dsimp only
    split
    · exact (hmaps _ fun name' id' hn => Dict.get?_of_get?_pop hn).update (hsane.congr rfl ⟨_, rfl⟩)
    · exact (hmaps _ fun name' id' hn => hn).update (hsane.congr rfl ⟨_, rfl⟩)

theorem AllSane.handlePortsFederated (h : n.AllSane cfg.int) (hn : n.Named) (peer : PeerKey) (pds : List FedDict) :
    (n.handlePortsFederated cfg peer pds).AllSane cfg.int := by
  have hfold : ∀ (names : List PortName) (m : Node), m.AllSane cfg.int →
      (names.foldl (fun n name => n.purgeOne peer name) m).AllSane cfg.int := by
    intro names
    induction names with
    | nil => exact fun m hm => hm
    | cons name names ih => exact fun m hm => ih _ (hm.purgeOne peer name)
  exact hfold _ _ (h.registerPorts hn peer pds)

theorem AllSane.handleFrame (h : n.AllSane cfg.int) (hn : n.Named) (peer : PeerKey) (f : Frame) :
    (n.handleFrame cfg peer f).AllSane cfg.int := by
  cases f with
  | portsFederated pds => exact h.handlePortsFederated hn peer pds
  | portStatus name msg ready =>
      simp only [Node.handleFrame, handlePortStatus]
      split
      · exact h
      · rename_i id hid
        exact h.update ((h id (.inr ⟨peer, name, hid⟩)).portStatus msg ready)
  | powerState ref on => exact h.updateProxies (fun _ hp => hp.applyPowerState ref on) peer
  | viewers name entries =>
      simp only [Node.handleFrame, handleViewers]
      split
      · exact h
      · rename_i id hid
        exact h.update ((h id (.inr ⟨peer, name, hid⟩)).congr rfl ⟨_, rfl⟩)

theorem AllSane.save (h : n.AllSane int) : (n.saveFederatedCache cfg).AllSane int :=
  h.mono save_proxies fun id hr => by simpa only [Refers, save_ports, save_proxiesOf] using hr

/-! ## One record of the cache -/

/-- What the load of one record leaves: a new proxy object, in the map of the peer and perhaps in the registry. -/
structure Loaded (cfg : NodeCfg) (n : Node) (peer : PeerKey) (name : PortName) (rec : CacheRecord) (n' : Node) : Prop where
  ports : ∀ name' id, n'.ports.get? name' = some (.proxy id) → id = n.nextId ∨ n.ports.get? name' = some (.proxy id)
  proxiesOf : ∀ q name', (n'.proxiesOf q).get? name' =
    if q = peer ∧ name' = name then some n.nextId else (n.proxiesOf q).get? name'
  proxies : ∃ callback, n'.proxies = Function.update n.proxies n.nextId { Proxy.ofCache cfg.int peer name rec with dataCallback := callback }
  nextId : n'.nextId = n.nextId + 1

theorem loadCachedPort_loaded (cfg : NodeCfg) (n : Node) (peer : PeerKey) (name : PortName) (rec : CacheRecord) :
    Loaded cfg n peer name rec (n.loadCachedPort cfg peer name rec) := by
  rw [loadCachedPort]
  dsimp only
  split
  · refine ⟨fun name' id hn => ?_, fun q name' => ?_, ⟨true, ?_⟩, rfl⟩
    · rw [setPeerProxy_ports, registerFederatedPort_ports, Dict.get?_set] at hn
      split at hn
      · cases hn; exact .inl rfl
      · exact .inr hn
    · rw [setPeerProxy_get?, registerFederatedPort_proxiesOf, alloc_proxiesOf, alloc_fst]
    · simp
  · refine ⟨fun name' id hn => .inr hn, fun q name' => ?_, ⟨false, rfl⟩, rfl⟩
    rw [setPeerProxy_get?, alloc_proxiesOf, alloc_fst]

theorem Loaded.allSane (hl : Loaded cfg n peer name rec n') (h : n.AllSane cfg.int) : n'.AllSane cfg.int := by
  obtain ⟨callback, hproxies⟩ := hl.proxies
  have hnew := (Sane.ofCache cfg.int peer name rec).callback callback
  intro id hid
  rw [hproxies, Function.update_apply]
  split
  · exact hnew
  · rename_i hne
    refine h id ?_
    rcases hid with ⟨name', hn⟩ | ⟨q, name', hn⟩
    · exact .inl ⟨name', (hl.ports name' id hn).resolve_left hne⟩
    · rw [hl.proxiesOf] at hn
      split at hn
      · cases hn; exact absurd rfl hne
      · exact .inr ⟨q, name', hn⟩

/-- The records of one peer. -/
def loadRecords (cfg : NodeCfg) (peer : PeerKey) (n : Node) (recs : List (PortName × CacheRecord)) : Node :=
  recs.foldl (fun n r => if ((n.proxiesOf peer).get? r.1).isSome then n else n.loadCachedPort cfg peer r.1 r.2) n

theorem loadFederatedCache_eq (cfg : NodeCfg) (n : Node) :
    n.loadFederatedCache cfg = (n.cache.getD []).foldl (fun n e => loadRecords cfg e.1 n e.2) n := rfl

/-- What every load of a record keeps, the loads of a cache keep. -/
theorem loadFederatedCache_induction {P : Node → Prop}
    (hstep : ∀ n peer name rec n', P n → Loaded cfg n peer name rec n' → P n') (h : P n) : P (n.loadFederatedCache cfg) := by
  have hrecords : ∀ (peer : PeerKey) (recs : List (PortName × CacheRecord)) (n : Node), P n → P (loadRecords cfg peer n recs) := by
    intro peer recs
    induction recs with
    | nil => exact fun n h => h
    | cons r recs ih =>
        intro n h
        rw [loadRecords, List.foldl_cons]
        refine ih _ ?_
        split
        · exact h
        · exact hstep n peer r.1 r.2 _ h (loadCachedPort_loaded cfg n peer r.1 r.2)
  rw [loadFederatedCache_eq]
  generalize n.cache.getD [] = peers
  induction peers generalizing n with
  | nil => exact h
  | cons e peers ih => exact ih (hrecords e.1 e.2 n h)

theorem allSane_fresh {locals : List PortName} (hports : n.ports = localPorts locals) (hmaps : n.peerProxies = ∅) : n.AllSane int := by
  rintro id (⟨name, hn⟩ | ⟨q, name, hn⟩)
  · rw [hports] at hn
    rcases localPorts_get? locals name with hno | hw
    · rw [hno] at hn; cases hn
    · rw [hw] at hn; cases hn
  · rw [proxiesOf_empty hmaps] at hn
    cases hn

theorem AllSane.step {a : NodeAct} (h : n.AllSane cfg.int) (hn : n.Named) (hs : n.step cfg a = some n') : n'.AllSane cfg.int := by
  cases a with
  | frame peer f => cases hs; exact h.handleFrame hn peer f
  | offline peer => cases hs; exact (h.updateProxies (f := ccMarkProxyDisconnected) (fun _ hp => hp.congr rfl ⟨_, rfl⟩) peer).save
  | liveState peer live => cases hs; exact h.updateProxies (fun _ hp => hp.flip live) peer
  | save => cases hs; exact h.save
  | load => cases hs; exact loadFederatedCache_induction (fun _ _ _ _ _ h hl => hl.allSane h) h
  | restart locals =>
      cases hs
      have hfresh : AllSane cfg.int { n with ports := localPorts locals, peerProxies := ∅ } := allSane_fresh rfl rfl
      rw [restart]
      split
      · exact loadFederatedCache_induction (fun _ _ _ _ _ h hl => hl.allSane h) hfresh
      · exact hfresh

theorem Reachable.allSane (h : n.Reachable cfg) : n.AllSane cfg.int := by
  obtain ⟨n₀, locals, acts, hports, hmaps, hrun⟩ := h
  have hinv : n.Named ∧ n.AllSane cfg.int :=
    Transition.exec_invariant' (I := fun n => n.Named ∧ n.AllSane cfg.int)
      (fun _ _ _ hI hs => ⟨named_step hI.1 hs, hI.2.step hI.1 hs⟩)
      ⟨named_of_localPorts hports, allSane_fresh hports hmaps⟩ hrun
  exact hinv.2

/-! ## The whole cache -/

/-- Every proxy of the maps is an object of its own. -/
structure Placed (n : Node) : Prop where
  below : ∀ q name id, (n.proxiesOf q).get? name = some id → id < n.nextId
  unique : ∀ q q' name name' id, (n.proxiesOf q).get? name = some id → (n.proxiesOf q').get? name' = some id → q = q' ∧ name = name'

/-- The proxy under the name is that of the record. -/
def IsLoaded (cfg : NodeCfg) (n : Node) (peer : PeerKey) (r : PortName × CacheRecord) : Prop :=
  ∃ callback, n.proxyOf peer r.1 = some { Proxy.ofCache cfg.int peer r.1 r.2 with dataCallback := callback }

theorem proxyOf_eq_none : n.proxyOf peer name = none ↔ (n.proxiesOf peer).get? name = none := Option.map_eq_none_iff

theorem Loaded.placed (hl : Loaded cfg n peer name rec n') (h : n.Placed) : n'.Placed where
  below := by
    intro q name' id hid
    rw [hl.proxiesOf] at hid
    rw [hl.nextId]
    split at hid
    · cases hid; exact Nat.lt_succ_self _
    · exact Nat.lt_succ_of_lt (h.below q name' id hid)
  unique := by
    intro q q' name₁ name₂ id h₁ h₂
    rw [hl.proxiesOf] at h₁ h₂
    split at h₁
    · cases h₁
      split at h₂
      · rename_i e₁ e₂
        exact ⟨e₁.1.trans e₂.1.symm, e₁.2.trans e₂.2.symm⟩
      · exact absurd (h.below q' name₂ _ h₂) (Nat.lt_irrefl _)
    · split at h₂
      · cases h₂
        exact absurd (h.below q name₁ _ h₁) (Nat.lt_irrefl _)
      · exact h.unique q q' name₁ name₂ id h₁ h₂

theorem Loaded.isLoaded (hl : Loaded cfg n peer name rec n') : IsLoaded cfg n' peer (name, rec) := by
  obtain ⟨callback, hproxies⟩ := hl.proxies
  refine ⟨callback, ?_⟩
  rw [proxyOf, hl.proxiesOf, if_pos ⟨rfl, rfl⟩, Option.map_some, hproxies, Function.update_self]

theorem Loaded.proxyOf_ne (hl : Loaded cfg n peer name rec n') (h : n.Placed) (hne : ¬ (peer' = peer ∧ name' = name)) :
    n'.proxyOf peer' name' = n.proxyOf peer' name' := by
  obtain ⟨callback, hproxies⟩ := hl.proxies
  rw [proxyOf, hl.proxiesOf, if_neg hne, proxyOf]
  cases hid : (n.proxiesOf peer').get? name' with
  | none => rfl
  | some id => rw [Option.map_some, Option.map_some, hproxies, Function.update_of_ne (Nat.ne_of_lt (h.below _ _ _ hid))]

/-- The records of a peer without proxies. -/
theorem loadRecords_spec (cfg : NodeCfg) (peer : PeerKey) (recs : List (PortName × CacheRecord)) (hn : (recs.map Prod.fst).Nodup) (h : n.Placed)
    (hnone : ∀ r ∈ recs, n.proxyOf peer r.1 = none) :
    (loadRecords cfg peer n recs).Placed ∧ (∀ r ∈ recs, IsLoaded cfg (loadRecords cfg peer n recs) peer r) ∧
      ∀ q name, ¬ (q = peer ∧ name ∈ recs.map Prod.fst) → (loadRecords cfg peer n recs).proxyOf q name = n.proxyOf q name := by
  induction recs generalizing n with
  | nil => exact ⟨h, fun _ hm => absurd hm List.not_mem_nil, fun _ _ _ => rfl⟩
  | cons r recs ih =>
      rw [List.map_cons, List.nodup_cons] at hn
      have hr : ((n.proxiesOf peer).get? r.1).isSome = false := by
        rw [proxyOf_eq_none.mp (hnone r List.mem_cons_self)]
        rfl
      have hstep : loadRecords cfg peer n (r :: recs) = loadRecords cfg peer (n.loadCachedPort cfg peer r.1 r.2) recs := by
        simp [loadRecords, hr]
      have hl := loadCachedPort_loaded cfg n peer r.1 r.2
      obtain ⟨hp, hall, hkept⟩ := ih hn.2 (hl.placed h) fun r' hm => by
        rw [hl.proxyOf_ne h fun he => hn.1 (he.2 ▸ List.mem_map_of_mem hm)]
        exact hnone r' (List.mem_cons_of_mem r hm)
      rw [hstep]
      refine ⟨hp, ?_, ?_⟩
      · intro r' hm
        obtain rfl | hm := List.mem_cons.mp hm
        · obtain ⟨callback, hc⟩ := hl.isLoaded
          exact ⟨callback, (hkept peer r'.1 fun he => hn.1 he.2).trans hc⟩
        · exact hall r' hm
      · intro q name hno
        rw [hkept q name fun he => hno ⟨he.1, List.mem_cons_of_mem _ he.2⟩]
        exact hl.proxyOf_ne h fun he => hno ⟨he.1, by rw [he.2]; exact List.mem_cons_self⟩

/-- The records of all peers, into maps without proxies. -/
theorem loadPeers_spec (cfg : NodeCfg) (peers : Cache) (hpeers : (peers.map Prod.fst).Nodup) (hrecs : ∀ e ∈ peers, (e.2.map Prod.fst).Nodup)
    (h : n.Placed) (hnone : ∀ e ∈ peers, ∀ name, n.proxyOf e.1 name = none) :
    (peers.foldl (fun n e => loadRecords cfg e.1 n e.2) n).Placed ∧
      (∀ e ∈ peers, ∀ r ∈ e.2, IsLoaded cfg (peers.foldl (fun n e => loadRecords cfg e.1 n e.2) n) e.1 r) ∧
      ∀ q name, (∀ e ∈ peers, ¬ (q = e.1 ∧ name ∈ e.2.map Prod.fst)) →
        (peers.foldl (fun n e => loadRecords cfg e.1 n e.2) n).proxyOf q name = n.proxyOf q name := by
  induction peers generalizing n with
  | nil => exact ⟨h, fun _ hm => absurd hm List.not_mem_nil, fun _ _ _ => rfl⟩
  | cons e peers ih =>
      rw [List.map_cons, List.nodup_cons] at hpeers
      obtain ⟨hp, hall, hkept⟩ := loadRecords_spec cfg e.1 e.2 (hrecs e List.mem_cons_self) h
        fun r _ => hnone e List.mem_cons_self r.1
      have hother : ∀ e' ∈ peers, e'.1 ≠ e.1 := fun e' hm he => hpeers.1 (he ▸ List.mem_map_of_mem hm)
      obtain ⟨hp', hall', hkept'⟩ := ih hpeers.2 (fun e' hm => hrecs e' (List.mem_cons_of_mem e hm)) hp fun e' hm name => by
        rw [hkept e'.1 name fun he => hother e' hm he.1]
        exact hnone e' (List.mem_cons_of_mem e hm) name
      rw [List.foldl_cons]
      refine ⟨hp', ?_, ?_⟩
      · intro e' hm r hr
        obtain rfl | hm := List.mem_cons.mp hm
        · obtain ⟨callback, hc⟩ := hall r hr
          exact ⟨callback, (hkept' e'.1 r.1 fun e'' hm he => hother e'' hm he.1.symm).trans hc⟩
        · exact hall' e' hm r hr
      · intro q name hno
        rw [hkept' q name fun e' hm => hno e' (List.mem_cons_of_mem e hm)]
        exact hkept q name (hno e List.mem_cons_self)

end Node

/-- Each value of a keyed list is written. -/
theorem mapM_keyed {κ α β : Type} {g : α → Option β} (es : List (κ × α)) (h : ∀ e ∈ es, (g e.2).isSome) :
    ∃ es', es.mapM (fun e => (g e.2).map fun b => (e.1, b)) = some es' ∧ es'.map Prod.fst = es.map Prod.fst ∧
      (∀ e ∈ es, ∃ b, g e.2 = some b ∧ (e.1, b) ∈ es') ∧ ∀ e' ∈ es', ∃ e ∈ es, e.1 = e'.1 ∧ g e.2 = some e'.2 := by
  induction es with
  | nil => exact ⟨[], rfl, rfl, nofun, nofun⟩
  | cons e es ih =>
      obtain ⟨b, hb⟩ := Option.isSome_iff_exists.mp (h e List.mem_cons_self)
      obtain ⟨es', hm, hk, hto, hof⟩ := ih fun e' he => h e' (List.mem_cons_of_mem e he)
      rw [← List.mapM'_eq_mapM] at hm ⊢
      refine ⟨(e.1, b) :: es', by simp [List.mapM'_cons, hb, hm], by simp [hk], ?_, ?_⟩
      · intro e' he
        obtain rfl | he := List.mem_cons.mp he
        · exact ⟨b, hb, List.mem_cons_self⟩
        · obtain ⟨b', hb', hm'⟩ := hto e' he
          exact ⟨b', hb', List.mem_cons_of_mem _ hm'⟩
      · intro e' he
        obtain rfl | he := List.mem_cons.mp he
        · exact ⟨e, List.mem_cons_self, rfl, hb⟩
        · obtain ⟨e₀, hm', hr⟩ := hof e' he
          exact ⟨e₀, List.mem_cons_of_mem _ hm', hr⟩

theorem Sane.record (h : Sane int p) : ∃ rec, p.cacheRecord = some rec := by
  obtain ⟨j, hj⟩ := Option.isSome_iff_exists.mp h.written
  exact ⟨_, by rw [Proxy.cacheRecord, hj]; rfl⟩

namespace Node

/-- The records of one map. -/
theorem AllSane.cacheRecords (h : n.AllSane int) (peer : PeerKey) : ∃ recs, n.cacheRecords (n.proxiesOf peer) = some recs ∧
    recs.map Prod.fst = (n.proxiesOf peer).keys ∧
    ∀ name id, (n.proxiesOf peer).get? name = some id → ∃ rec, (n.proxies id).cacheRecord = some rec ∧ (name, rec) ∈ recs := by
  obtain ⟨recs, hm, hk, hto, -⟩ := mapM_keyed (g := fun id => (n.proxies id).cacheRecord) (n.proxiesOf peer).entries
    fun e he => Option.isSome_iff_exists.mpr (h e.2 (.inr ⟨peer, e.1, Dict.mem_entries.mp he⟩)).record
  exact ⟨recs, hm, hk, fun name id hid => hto (name, id) (Dict.mem_entries.mpr hid)⟩

theorem proxiesOf_of_mem {names : Dict PortName ProxyId} (h : (peer, names) ∈ n.peerProxies.entries) : n.proxiesOf peer = names := by
  rw [proxiesOf, Dict.mem_entries.mp h]
  rfl

/-- A reachable node can write its cache, with a record for each proxy of the maps. -/
theorem AllSane.cacheData (h : n.AllSane int) : ∃ data, n.cacheData = some data ∧ (data.map Prod.fst).Nodup ∧
    (∀ e ∈ data, e.2.map Prod.fst = (n.proxiesOf e.1).keys) ∧
    ∀ peer name id, (n.proxiesOf peer).get? name = some id → ∃ recs rec, (peer, recs) ∈ data ∧ (name, rec) ∈ recs ∧
      (n.proxies id).cacheRecord = some rec := by
  obtain ⟨data, hm, hk, hto, hof⟩ := mapM_keyed (g := n.cacheRecords) n.peerProxies.entries fun e he => by
    obtain ⟨recs, hr, -⟩ := h.cacheRecords e.1
    rw [proxiesOf_of_mem he] at hr
    exact Option.isSome_iff_exists.mpr ⟨recs, hr⟩
  refine ⟨data, hm, by rw [hk]; exact n.peerProxies.nodup, ?_, ?_⟩
  · intro e' he'
    obtain ⟨e, he, hkey, hr⟩ := hof e' he'
    obtain ⟨recs, hrecs, hnames, -⟩ := h.cacheRecords e.1
    rw [proxiesOf_of_mem he, hr] at hrecs
    cases hrecs
    rw [← hkey, hnames]
  · intro peer name id hid
    have hpeer : ∃ names, (peer, names) ∈ n.peerProxies.entries := by
      cases hg : n.peerProxies.get? peer with
      | none =>
          rw [proxiesOf, hg] at hid
          cases hid
      | some names => exact ⟨names, Dict.mem_entries.mpr hg⟩
    obtain ⟨names, hnames⟩ := hpeer
    obtain ⟨recs, hrecs, hmem⟩ := hto _ hnames
    obtain ⟨recs', hrecs', -, hall⟩ := h.cacheRecords peer
    rw [proxiesOf_of_mem hnames, hrecs] at hrecs'
    cases hrecs'
    obtain ⟨rec, hrec, hin⟩ := hall name id hid
    exact ⟨recs, rec, hmem, hin, hrec⟩

/-- The fresh adapter has the proxies of the records, and no others. -/
theorem AllSane.reloaded (h : n.AllSane cfg.int) (hc : cfg.cacheEnabled = true) (locals : List PortName) :
    (n.reloaded cfg locals).Placed ∧
    (∀ peer name id, (n.proxiesOf peer).get? name = some id → ∃ rec, (n.proxies id).cacheRecord = some rec ∧
      IsLoaded cfg (n.reloaded cfg locals) peer (name, rec)) ∧
    ∀ peer name, (n.proxiesOf peer).get? name = none → (n.reloaded cfg locals).proxyOf peer name = none := by
  obtain ⟨data, hdata, hkeys, hnames, hrecs⟩ := h.cacheData
  let fresh : Node := { n with ports := localPorts locals, peerProxies := ∅, cache := some data }
  have hempty : ∀ q, fresh.proxiesOf q = ∅ := fun q => proxiesOf_empty rfl
  have heq : n.reloaded cfg locals = data.foldl (fun n e => loadRecords cfg e.1 n e.2) fresh := by
    simp [Node.reloaded, restart, saveFederatedCache, hc, hdata, loadFederatedCache_eq, fresh]
  have hplaced : fresh.Placed := by
    constructor
    · intro q name id hid
      rw [hempty q] at hid
      cases hid
    · intro q q' name name' id hid
      rw [hempty q] at hid
      cases hid
  have hnone : ∀ q name, fresh.proxyOf q name = none := fun q name => by rw [proxyOf_eq_none, hempty q]; rfl
  obtain ⟨hp, hall, hkept⟩ := loadPeers_spec cfg data hkeys
    (fun e he => by rw [hnames e he]; exact (n.proxiesOf e.1).nodup) hplaced fun e _ name => hnone e.1 name
  rw [heq]
  refine ⟨hp, ?_, ?_⟩
  · intro peer name id hid
    obtain ⟨recs, rec, hpeer, hin, hrec⟩ := hrecs peer name id hid
    exact ⟨rec, hrec, hall _ hpeer _ hin⟩
  · intro peer name hno
    rw [hkept peer name ?_, hnone peer name]
    rintro e he ⟨rfl, hm⟩
    rw [hnames e he, Dict.mem_keys] at hm
    obtain ⟨id, hid⟩ := hm
    rw [hno] at hid
    cases hid

end Node

/-! ## The proxy of a record -/

theorem origin_restored (s : String) : (strOrNone (some s)).getD "remote" = s ↔ s ≠ "" := by
  by_cases h : s = ""
  · subst h
    decide
  · simp [strOrNone, h]

theorem link_reason (s : String) : "MuxCon link to " ++ s ++ " is down" ≠ "" := by
  intro h
  have hl := congrArg String.length h
  simp only [String.length_append] at hl
  exact absurd hl (by simp)

/-- What a loaded proxy has, in terms of the saved one. -/
theorem ofCache_saved (int : Text → Option Int) (hrec : p.cacheRecord = some rec) (peer : PeerKey) (name : PortName) :
    (Proxy.ofCache int peer name rec).metadata.originServer = (strOrNone (some p.metadata.originServer)).getD "remote" ∧
    (Proxy.ofCache int peer name rec).lists = ⟨p.metadata.readWriteGroups.getD [], p.metadata.readOnlyGroups.getD []⟩ ∧
    (Proxy.ofCache int peer name rec).metadata.statusMessage = strOrNone p.metadata.statusMessage ∧
    (Proxy.ofCache int peer name rec).metadata.readiness = strOrNone p.metadata.readiness ∧
    (Proxy.ofCache int peer name rec).power = (initFeeds (p.metadata.power.getD [])).1 ∧
    (Proxy.ofCache int peer name rec).feedStates = (initFeeds (p.metadata.power.getD [])).2 ∧
    (Proxy.ofCache int peer name rec).isConnected = p.isConnected := by
  obtain ⟨j, -, rfl⟩ := Option.map_eq_some_iff.mp hrec
  rw [← orNone_getD p.metadata.readWriteGroups, ← orNone_getD p.metadata.readOnlyGroups, ← orNone_getD p.metadata.power]
  exact ⟨rfl, rfl, rfl, rfl, rfl, rfl, rfl⟩

theorem ofCache_reason (h : (Proxy.ofCache int peer name rec).isConnected = false) : (Proxy.ofCache int peer name rec).linkReason ≠ "" := by
  have hc : rec.connected = false := h
  rw [Proxy.ofCache, hc]
  exact link_reason _

/-- The data callback is none of the fields that come back. -/
theorem restored_callback (p q : Proxy) (callback : Bool) :
    Restored p { q with dataCallback := callback } ∧ Down { q with dataCallback := callback } ↔ Restored p q ∧ Down q := by
  constructor <;>
  · rintro ⟨⟨h₁, h₂, h₃, h₄, h₅, h₆, h₇⟩, ⟨h₈, h₉⟩⟩
    exact ⟨⟨h₁, h₂, h₃, h₄, h₅, h₆, h₇⟩, ⟨h₈, h₉⟩⟩

/-- The proxy of a record has what the saved one had, and is down, exactly when nothing of it was left out of the file. -/
theorem restored_iff (h : Sane int p) (hrec : p.cacheRecord = some rec) (peer : PeerKey) (name : PortName) :
    Restored p (Proxy.ofCache int peer name rec) ∧ Down (Proxy.ofCache int peer name rec) ↔ Kept p := by
  obtain ⟨horigin, hlists, hstatus, hready, hpower, hstates, hconn⟩ := ofCache_saved int hrec peer name
  have hcap : (Proxy.ofCache int peer name rec).maxReadWriteUsers = wireToMode int p.metadata.maxRwUsers :=
    ofCache_maxReadWriteUsers hrec
  have hreason := @ofCache_reason int peer name rec
  generalize Proxy.ofCache int peer name rec = q at *
  constructor
  · rintro ⟨hr, hd⟩
    refine ⟨hconn.symm.trans hd.disconnected, ?_, hr.lists.symm.trans hlists, hr.power.symm.trans hpower, fun ref => ?_⟩
    · exact (origin_restored _).mp (horigin.symm.trans hr.origin)
    · rw [← hstates]
      exact (hr.feedStates ref).symm
  · intro hk
    have hoff := hconn.trans hk.offline
    constructor
    · refine ⟨?_, hlists.trans hk.lists.symm, hcap.trans h.capacity.symm, hstatus.trans h.statusMessage,
        hready.trans h.readiness, hpower.trans hk.power.symm, fun ref => ?_⟩
      · exact horigin.trans ((origin_restored _).mpr hk.origin)
      · rw [hk.feedStates ref, ← hstates]
    · exact ⟨hoff, hreason hoff⟩

/-! ## While the peer is away -/

namespace Node

/-- The proxies of the peer are down, and they are in no other map. -/
structure Away (n : Node) (peer : PeerKey) : Prop where
  named : n.Named
  down : ∀ name id, (n.proxiesOf peer).get? name = some id → Down (n.proxies id)
  below : ∀ name id, (n.proxiesOf peer).get? name = some id → id < n.nextId
  own : ∀ name id q name', (n.proxiesOf peer).get? name = some id → (n.proxiesOf q).get? name' = some id → q = peer

/-- What leaves the map of the peer and its proxies. -/
theorem Away.congr (h : n.Away peer) (hnamed : n'.Named)
    (hmap : ∀ name, (n'.proxiesOf peer).get? name = (n.proxiesOf peer).get? name)
    (hproxies : ∀ name id, (n.proxiesOf peer).get? name = some id → n'.proxies id = n.proxies id)
    (hnext : n.nextId ≤ n'.nextId)
    (hothers : ∀ name id q name', (n.proxiesOf peer).get? name = some id → (n'.proxiesOf q).get? name' = some id → q = peer) :
    n'.Away peer where
  named := hnamed
  down name id hid := by
    rw [hmap] at hid
    rw [hproxies name id hid]
    exact h.down name id hid
  below name id hid := by
    rw [hmap] at hid
    exact Nat.lt_of_lt_of_le (h.below name id hid) hnext
  own name id q name' hid hq := by
    rw [hmap] at hid
    exact hothers name id q name' hid hq

/-- An entry of another peer, whose proxy is new or that peer's own. -/
theorem Away.registered (h : n.Away peer) (hne : peer' ≠ peer) (hnamed : n'.Named) (hr : Registered n peer' pd n' id p)
    (hid : ∀ name, (n.proxiesOf peer).get? name ≠ some id) : n'.Away peer := by
  refine h.congr hnamed (fun name => ?_) (fun name id' hm => ?_) ?_ fun name id' q name' hm hq => ?_
  · rw [hr.proxiesOf, if_neg fun he => hne he.1.symm]
  · have hne' : id' ≠ id := by
      rintro rfl
      exact hid name hm
    rw [hr.proxies, Function.update_of_ne hne']
  · rw [hr.nextId]
    split
    · exact Nat.le_succ _
    · exact le_rfl
  · rw [hr.proxiesOf] at hq
    split at hq
    · cases hq
      exact absurd hm (hid name)
    · exact h.own name id' q name' hm hq

theorem Away.register (cfg : NodeCfg) (h : n.Away peer) (hne : peer' ≠ peer) (hfree : n.Free peer' pd.portName) :
    (n.registerRemotePortFromDict cfg peer' pd).Away peer ∧
      ∀ name, n.Free peer' name → (n.registerRemotePortFromDict cfg peer' pd).Free peer' name := by
  have hnamed := (register_spec cfg peer' pd h.named).1
  have hkeeps : ∀ id p, Registered n peer' pd (n.registerRemotePortFromDict cfg peer' pd) id p →
      ∀ name, n.Free peer' name → (n.registerRemotePortFromDict cfg peer' pd).Free peer' name := by
    intro id p hr name hf
    rw [Free, hr.ports, hr.proxiesOf]
    by_cases hn : name = pd.portName
    · simp [hn]
    · simpa [Free, hn] using hf
  rcases register_cases cfg n peer' pd (fun id hid => (h.named _ id hid).1) with ⟨id, hp, hr⟩ | ⟨-, hr⟩
  · refine ⟨h.registered hne hnamed hr fun name hm => ?_, hkeeps _ _ hr⟩
    exact hne (h.own name id peer' pd.portName hm (hfree.owner hp))
  · refine ⟨h.registered hne hnamed hr fun name hm => ?_, hkeeps _ _ hr⟩
    exact Nat.lt_irrefl _ (h.below name _ hm)

theorem Away.registerPorts (h : n.Away peer) (hne : peer' ≠ peer)
    (hfree : ∀ pd ∈ pds, cfg.accept peer' pd → n.Free peer' pd.portName) :
    (portsFederatedRegisterPorts cfg peer' n pds).1.Away peer := by
  induction pds generalizing n with
  | nil => exact h
  | cons pd pds ih =>
      have hrest : ∀ pd' ∈ pds, cfg.accept peer' pd' → n.Free peer' pd'.portName :=
        fun pd' hm => hfree pd' (List.mem_cons_of_mem pd hm)
      cases ha : cfg.accept peer' pd with
      | false =>
          simp only [portsFederatedRegisterPorts, ha]
          exact ih h hrest
      | true =>
          obtain ⟨h', hkeeps⟩ := h.register cfg hne (hfree pd List.mem_cons_self ha)
          simp only [portsFederatedRegisterPorts, ha, if_true]
          exact ih h' fun pd' hm hacc => hkeeps _ (hrest pd' hm hacc)

theorem Away.purgeOne (h : n.Away peer) (hne : peer' ≠ peer) (name : PortName) : (n.purgeOne peer' name).Away peer := by
  have hnamed := (purgeOne_spec peer' name h.named).1
  rw [Node.purgeOne] at hnamed ⊢
  split at hnamed
  · exact h
  · rename_i id hid
    have hpeer : peer ≠ peer' := Ne.symm hne
    have hfresh : ∀ name', (n.proxiesOf peer).get? name' ≠ some id := fun name' hm => hne (h.own name' id peer' name hm hid)
    refine h.congr hnamed (fun name' => ?_) (fun name' id' hm => ?_) ?_ fun name' id' q name'' hm hq => ?_
    · rw [unregisterStale]
      dsimp only
      split <;> simp [proxiesOf, Dict.get?_set, hpeer]
    · have hne' : id' ≠ id := fun he => hfresh name' (he ▸ hm)
      rw [unregisterStale]
      dsimp only
      split <;> simp [hne']
    · rw [unregisterStale]
      dsimp only
      split <;> exact le_rfl
    · refine h.own name' id' q name'' hm ?_
      rw [unregisterStale] at hq
      dsimp only at hq
      split at hq <;>
      · rw [update_proxiesOf] at hq
        simp only [proxiesOf, Dict.get?_set] at hq
        split at hq
        · rename_i he
          subst he
          exact Dict.get?_of_get?_pop hq
        · exact hq

theorem Away.handlePortsFederated (h : n.Away peer) (hne : peer' ≠ peer)
    (hfree : ∀ pd ∈ pds, cfg.accept peer' pd → n.Free peer' pd.portName) : (n.handlePortsFederated cfg peer' pds).Away peer := by
  have hfold : ∀ (names : List PortName) (m : Node), m.Away peer → (names.foldl (fun n name => n.purgeOne peer' name) m).Away peer := by
    intro names
    induction names with
    | nil => exact fun m hm => hm
    | cons name names ih => exact fun m hm => ih _ (hm.purgeOne hne name)
  exact hfold _ _ (h.registerPorts hne hfree)

/-- A write to a proxy that keeps its name, and keeps it down if it is the peer's. -/
theorem Away.update (h : n.Away peer) (hname : p.remotePortName = (n.proxies id).remotePortName)
    (hd : ∀ name, (n.proxiesOf peer).get? name = some id → Down p) : (n.update id p).Away peer where
  named := h.named.update hname
  down name id' hm := by
    rw [update_proxies, Function.update_apply]
    split
    · subst_vars; exact hd name hm
    · exact h.down name id' hm
  below := h.below
  own := h.own

/-- Writes to the proxies of a peer, which keep proxies down if it is the one that is away. -/
theorem Away.updateProxies {f : Proxy → Proxy} (h : n.Away peer) (hname : ∀ p, (f p).remotePortName = p.remotePortName)
    (hd : peer' = peer → ∀ p, Down p → Down (f p)) : (n.updateProxies peer' f).Away peer := by
  have hfold : ∀ (es : List (PortName × ProxyId)) (m : Node), m.Away peer → (∀ e ∈ es, (m.proxiesOf peer').get? e.1 = some e.2) →
      (es.foldl (fun n e => n.update e.2 (f (n.proxies e.2))) m).Away peer := by
    intro es
    induction es with
    | nil => exact fun m hm _ => hm
    | cons e es ih =>
        intro m hm hes
        refine ih _ (hm.update (hname _) fun name hid => ?_) fun e' he => hes e' (List.mem_cons_of_mem e he)
        exact hd (hm.own name e.2 peer' e.1 hid (hes e List.mem_cons_self)) _ (hm.down name e.2 hid)
  exact hfold _ n h fun e he => Dict.mem_entries.mp he

theorem Away.save (h : n.Away peer) : (n.saveFederatedCache cfg).Away peer :=
  h.congr (named_save h.named) (fun name => by rw [save_proxiesOf]) (fun _ _ _ => by rw [save_proxies]) (by rw [save_nextId])
    fun name id q name' hm hq => h.own name id q name' hm (by rwa [save_proxiesOf] at hq)

theorem down_mark (p : Proxy) : Down (ccMarkProxyDisconnected p) := ⟨rfl, link_reason _⟩

theorem Away.step {a : NodeAct} (h : n.Away peer) (ha : Pathless cfg peer n a) (hs : n.step cfg a = some n') : n'.Away peer := by
  cases a with
  | frame q f =>
      obtain ⟨hne, hfree⟩ := ha
      cases hs
      cases f with
      | portsFederated pds => exact h.handlePortsFederated hne hfree
      | portStatus name msg ready =>
          simp only [Node.handleFrame, handlePortStatus]
          split
          · exact h
          · rename_i id hid
            exact h.update rfl fun name' hm => absurd (h.own name' id q name hm hid) hne
      | powerState ref on => exact h.updateProxies (fun _ => applyPowerState_remotePortName) fun he => absurd he hne
      | viewers name entries =>
          simp only [Node.handleFrame, handleViewers]
          split
          · exact h
          · rename_i id hid
            exact h.update rfl fun name' hm => absurd (h.own name' id q name hm hid) hne
  | offline q =>
      cases hs
      have hmarked : (n.updateProxies q ccMarkProxyDisconnected).Away peer := h.updateProxies (fun _ => rfl) fun _ p _ => down_mark p
      exact hmarked.save
  | liveState q live =>
      cases hs
      refine h.updateProxies (fun _ => flipProxyLiveState_remotePortName) fun he p hp => ?_
      rw [flipProxyLiveState, ha he, if_pos hp.disconnected]
      exact hp
  | save =>
      cases hs
      exact h.save
  | load => exact ha.elim
  | restart => exact ha.elim

end Node

end OpenMux.Federation
