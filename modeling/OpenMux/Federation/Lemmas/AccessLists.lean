import OpenMux.Federation.Lemmas.Registry
import OpenMux.Federation.Registry

/-!
# Group lists after an advertisement

Every registered proxy is under its own name, so that the registration of one entry leaves the proxies of the other names
alone.
-/

namespace OpenMux.Federation

open Py

variable {cfg : NodeCfg} {n n' : Node} {peer : PeerKey} {name : PortName} {id : ProxyId} {p : Proxy} {pd : FedDict}
  {pds : List FedDict}

theorem orNone_getD {α : Type} (xs : Option (List α)) : (orNone xs).getD [] = xs.getD [] := by
  cases xs with
  | none => rfl
  | some xs => cases xs <;> rfl

/-- An advertisement of a local port has the lists of the port. -/
theorem advertised_lists {int} {sid : String} {port : LocalPort}
    (h : (slplPortMeta int sid port).toFederationDict.overJson = some pd) : pd.lists = port.lists := by
  have hlists : (slplPortMeta int sid port).toFederationDict.lists = port.lists := by
    simp [FedDict.lists, LocalPort.lists, PortMetadata.toFederationDict, slplPortMeta, orNone_getD]
  rw [← hlists]
  unfold FedDict.overJson at h
  split at h
  · cases h; rfl
  · obtain ⟨j, _, rfl⟩ := Option.map_eq_some_iff.mp h
    rfl

/-! ## Entries of a frame -/

theorem lastEntry_spec (h : lastEntry cfg peer pds name = some pd) :
    pd ∈ pds ∧ cfg.accept peer pd = true ∧ pd.portName = name := by
  unfold lastEntry at h
  rw [List.findRev?_eq_find?_reverse] at h
  exact ⟨List.mem_reverse.mp (List.mem_of_find?_eq_some h), by simpa using List.find?_some h⟩

theorem firstEntry_of_lastEntry (h : lastEntry cfg peer pds name = some pd) :
    ∃ pd₀, firstEntry cfg peer pds name = some pd₀ := by
  obtain ⟨hmem, hpd⟩ := lastEntry_spec h
  rw [← Option.isSome_iff_exists, firstEntry, List.find?_isSome]
  exact ⟨pd, hmem, by simpa using hpd⟩

/-- A name that an accepted entry gives is among the names seen. -/
theorem mem_seenNames (h : lastEntry cfg peer pds name = some pd) (hname : pd.givenName = some name) :
    name ∈ seenNames cfg peer pds := by
  obtain ⟨hmem, hacc, _⟩ := lastEntry_spec h
  unfold seenNames
  rw [List.mem_flatMap]
  exact ⟨pd, List.mem_filter.mpr ⟨hmem, hacc⟩, by simp [hname]⟩

theorem Proxy.new_lists (int : Text → Option Int) (peer : PeerKey) (name : PortName) (pd : FedDict) : (Proxy.new int peer name (metadataFromDict int pd)).lists = pd.lists := by
  simp [Proxy.lists, FedDict.lists, Proxy.new, metadataFromDict, orNone_getD]

/-- The refresh of a proxy leaves its lists. -/
theorem Proxy.updateExisting_lists {int} {m : PortMetadata} : (p.updateExisting int peer m).lists = p.lists := by
  simp [Proxy.lists, Proxy.updateExisting, Proxy.updateMetaAndPower]

namespace Node

/-- A registered proxy is registered under its own name. -/
def Named (n : Node) : Prop :=
  ∀ name id, n.ports.get? name = some (.proxy id) → id < n.nextId ∧ (n.proxies id).remotePortName = name

theorem listsOf_proxy (id : ProxyId) (h : n.ports.get? name = some (.proxy id)) : n.listsOf name = some (n.proxies id).lists := by
  simp only [listsOf, h]

theorem listsOf_none (h : ∀ id, n.ports.get? name ≠ some (.proxy id)) : n.listsOf name = none := by
  unfold listsOf
  split
  · rename_i id hid
    exact absurd hid (h id)
  · rfl

theorem listsOf_congr (hports : n'.ports.get? name = n.ports.get? name)
    (hproxies : ∀ id, (n'.proxies id).lists = (n.proxies id).lists) : n'.listsOf name = n.listsOf name := by
  unfold listsOf
  rw [hports]
  split
  · rw [hproxies]
  · rfl

/-! ## One entry of an advertisement -/

theorem Registered.named (h : n.Named) (hr : Registered n peer pd n' id p) (hp : p.remotePortName = pd.portName)
    (hid : id ≤ n.nextId) (hold : ∀ name, n.ports.get? name = some (.proxy id) → name = pd.portName) : n'.Named := by
  intro name id' hn
  rw [hr.ports] at hn
  have hnext : id < n'.nextId ∧ n.nextId ≤ n'.nextId := by
    rw [hr.nextId]
    split
    · subst_vars; exact ⟨Nat.lt_succ_self _, Nat.le_succ _⟩
    · exact ⟨Nat.lt_of_le_of_ne hid ‹_›, Nat.le_refl _⟩
  split at hn
  · cases hn
    subst_vars
    exact ⟨hnext.1, by rw [hr.proxies, Function.update_self, hp]⟩
  · obtain ⟨hlt, hname⟩ := h name id' hn
    refine ⟨Nat.lt_of_lt_of_le hlt hnext.2, ?_⟩
    have hne : id' ≠ id := by rintro rfl; exact ‹name ≠ pd.portName› (hold name hn)
    rw [hr.proxies, Function.update_of_ne hne, hname]

/-- One entry leaves the lists of the other names. -/
theorem Registered.listsOf_ne (h : n.Named) (hr : Registered n peer pd n' id p) (hne : name ≠ pd.portName)
    (hold : n.ports.get? name ≠ some (.proxy id)) : n'.listsOf name = n.listsOf name := by
  have hports : n'.ports.get? name = n.ports.get? name := by rw [hr.ports, if_neg hne]
  unfold listsOf
  rw [hports]
  split
  · rename_i id' hn
    have hid : id' ≠ id := by rintro rfl; exact hold hn
    rw [hr.proxies, Function.update_of_ne hid]
  · rfl

/-- One entry: its name keeps the lists of the proxy that is registered, and takes those of the entry when none is. -/
theorem register_spec (cfg : NodeCfg) (peer : PeerKey) (pd : FedDict) (h : n.Named) :
    (n.registerRemotePortFromDict cfg peer pd).Named ∧
    (n.registerRemotePortFromDict cfg peer pd).listsOf pd.portName = some ((n.listsOf pd.portName).getD pd.lists) ∧
    ∀ name, name ≠ pd.portName → (n.registerRemotePortFromDict cfg peer pd).listsOf name = n.listsOf name := by
  rcases register_cases cfg n peer pd (fun id hid => (h _ id hid).1) with ⟨id, hp, hr⟩ | ⟨hno, hr⟩
  · have hnamed := h _ id hp
    have hold : ∀ name, n.ports.get? name = some (.proxy id) → name = pd.portName := by
      intro name hn
      rw [← (h name id hn).2, hnamed.2]
    refine ⟨?_, ?_, fun name hne => hr.listsOf_ne h hne (fun hn => hne (hold name hn))⟩
    · refine hr.named h ?_ (Nat.le_of_lt hnamed.1) hold
      simpa [Proxy.updateExisting, Proxy.updateMetaAndPower] using hnamed.2
    · rw [listsOf_proxy id (by rw [hr.ports, if_pos rfl]), listsOf_proxy id hp, hr.proxies, Function.update_self,
        Proxy.updateExisting_lists, Option.getD_some]
  · have hfresh : ∀ name, n.ports.get? name ≠ some (.proxy n.nextId) := by
      intro name hn
      exact Nat.lt_irrefl _ (h name _ hn).1
    refine ⟨?_, ?_, fun name hne => hr.listsOf_ne h hne (hfresh name)⟩
    · exact hr.named h rfl (Nat.le_refl _) (fun name hn => absurd hn (hfresh name))
    · rw [listsOf_proxy n.nextId (by rw [hr.ports, if_pos rfl]), listsOf_none hno, hr.proxies,
        Function.update_self, Option.getD_none]
      exact congrArg some (Proxy.new_lists cfg.int peer pd.portName pd)

theorem firstEntry_cons (ha : cfg.accept peer pd = true) : firstEntry cfg peer (pd :: pds) name =
    if pd.portName = name then some pd else firstEntry cfg peer pds name := by
  unfold firstEntry
  rw [List.find?_cons]
  by_cases hn : pd.portName = name
  · simp [ha, hn]
  · simp [hn]

/-- A frame: each name keeps the lists it had, and a name that had none takes those of its first accepted entry. -/
theorem registerPorts_spec (cfg : NodeCfg) (peer : PeerKey) (pds : List FedDict) (h : n.Named) :
    (portsFederatedRegisterPorts cfg peer n pds).1.Named ∧
    ∀ name, (portsFederatedRegisterPorts cfg peer n pds).1.listsOf name =
      match firstEntry cfg peer pds name with
      | none => n.listsOf name
      | some pd => some ((n.listsOf name).getD pd.lists) := by
  induction pds generalizing n with
  | nil => exact ⟨h, fun _ => rfl⟩
  | cons pd pds ih =>
      cases ha : cfg.accept peer pd with
      | false =>
          have hfirst : ∀ name, firstEntry cfg peer (pd :: pds) name = firstEntry cfg peer pds name := by
            intro name
            simp [firstEntry, ha]
          simp only [portsFederatedRegisterPorts, ha, hfirst]
          exact ih h
      | true =>
          obtain ⟨hnamed, hlists, hother⟩ := register_spec cfg peer pd h
          obtain ⟨ih₁, ih₂⟩ := ih hnamed
          simp only [portsFederatedRegisterPorts, ha, if_true]
          refine ⟨ih₁, ?_⟩
          intro name
          rw [ih₂ name, firstEntry_cons ha]
          split_ifs with hn
          · subst hn
            rw [hlists]
            -- a later entry for the name finds the lists that this one left
            cases firstEntry cfg peer pds pd.portName <;> rfl
          · rw [hother name (fun he => hn he.symm)]

theorem Named.update (h : n.Named) (hp : p.remotePortName = (n.proxies id).remotePortName) : (n.update id p).Named := by
  intro name id' hn
  obtain ⟨hlt, hname⟩ := h name id' hn
  refine ⟨hlt, ?_⟩
  rw [update_proxies, Function.update_apply]
  split
  · rename_i he
    subst he
    rw [hp, hname]
  · exact hname

/-! ## The purge -/

/-- The purge of one name leaves the lists of the other names. -/
theorem purgeOne_spec (peer : PeerKey) (name : PortName) (h : n.Named) :
    (n.purgeOne peer name).Named ∧
    ∀ name', name' ≠ name → (n.purgeOne peer name).listsOf name' = n.listsOf name' := by
  unfold purgeOne
  split
  · exact ⟨h, fun _ _ => rfl⟩
  · rename_i id hid
    have hproxies : ∀ id', (Function.update n.proxies id { n.proxies id with isConnected := false } id').lists =
        (n.proxies id').lists := by
      intro id'
      rw [Function.update_apply]
      split
      · subst_vars; rfl
      · rfl
    unfold unregisterStale
    dsimp only
    split
    · refine ⟨?_, ?_⟩
      · refine Named.update (n := { n with peerProxies := _, ports := n.ports.pop name }) ?_ rfl
        intro name' id' hn
        exact h name' id' (Dict.get?_of_get?_pop hn)
      · intro name' hne
        exact listsOf_congr (Dict.get?_pop_ne _ hne) hproxies
    · exact ⟨Named.update (n := { n with peerProxies := _ }) h rfl, fun _ _ => listsOf_congr rfl hproxies⟩

theorem purgeAll_spec (peer : PeerKey) (names : List PortName) (h : n.Named) :
    (names.foldl (fun n name => n.purgeOne peer name) n).Named ∧
    ∀ name, name ∉ names → (names.foldl (fun n name => n.purgeOne peer name) n).listsOf name = n.listsOf name := by
  induction names generalizing n with
  | nil => exact ⟨h, fun _ _ => rfl⟩
  | cons name names ih =>
      obtain ⟨h₁, h₂⟩ := purgeOne_spec peer name h
      obtain ⟨ih₁, ih₂⟩ := ih h₁
      refine ⟨ih₁, ?_⟩
      intro name' hn
      rw [List.mem_cons, not_or] at hn
      rw [List.foldl_cons, ih₂ name' hn.2, h₂ name' hn.1]

theorem registerPorts_seen : (portsFederatedRegisterPorts cfg peer n pds).2 = seenNames cfg peer pds := by
  induction pds generalizing n with
  | nil => rfl
  | cons pd pds ih =>
      cases ha : cfg.accept peer pd with
      | false => simpa [portsFederatedRegisterPorts, seenNames, ha] using ih
      | true => simpa [portsFederatedRegisterPorts, seenNames, ha] using ih

/-- After the frame a name it shows has the lists it had before, and otherwise those of its first accepted entry. -/
theorem handlePortsFederated_lists (h : n.Named) (hf : firstEntry cfg peer pds name = some pd)
    (hseen : name ∈ seenNames cfg peer pds) :
    (n.handlePortsFederated cfg peer pds).listsOf name = some ((n.listsOf name).getD pd.lists) := by
  obtain ⟨h₁, h₂⟩ := registerPorts_spec cfg peer pds h
  obtain ⟨_, hlists⟩ := purgeAll_spec peer
    ((((portsFederatedRegisterPorts cfg peer n pds).1.proxiesOf peer).keys.filter
      (· ∉ (portsFederatedRegisterPorts cfg peer n pds).2))) h₁
  have hkept := hlists name (by simp [registerPorts_seen, hseen])
  rw [h₂ name, hf] at hkept
  exact hkept

/-! ## The registry stays named -/

theorem named_handlePortsFederated (h : n.Named) : (n.handlePortsFederated cfg peer pds).Named :=
  (purgeAll_spec peer _ (registerPorts_spec cfg peer pds h).1).1

/-- Writes that leave the names of the proxies. -/
theorem named_updateProxies {f : Proxy → Proxy} (hf : ∀ p, (f p).remotePortName = p.remotePortName) (h : n.Named) :
    (n.updateProxies peer f).Named := by
  unfold updateProxies
  generalize (n.proxiesOf peer).entries = es
  induction es generalizing n with
  | nil => exact h
  | cons e es ih => exact ih (h.update (hf _))

theorem applyPowerState_remotePortName {ref : Text} {on : Option Bool} :
    (applyPowerState p ref on).remotePortName = p.remotePortName := by
  unfold applyPowerState; split <;> rfl

theorem flipProxyLiveState_remotePortName {live : Bool} :
    (flipProxyLiveState live p).remotePortName = p.remotePortName := by
  unfold flipProxyLiveState; split_ifs <;> rfl

theorem named_handleFrame (h : n.Named) (f : Frame) : (n.handleFrame cfg peer f).Named := by
  cases f with
  | portsFederated pds => exact named_handlePortsFederated h
  | portStatus name msg ready =>
      simp only [handleFrame, handlePortStatus]
      split
      · exact h
      · exact h.update rfl
  | powerState ref on => exact named_updateProxies (fun _ => applyPowerState_remotePortName) h
  | viewers name entries =>
      simp only [handleFrame, handleViewers]
      split
      · exact h
      · exact h.update rfl

theorem named_save (h : n.Named) : (n.saveFederatedCache cfg).Named := by
  intro name id hn
  rw [save_ports] at hn
  rw [save_nextId, save_proxies]
  exact h name id hn

theorem named_alloc (h : n.Named) : (n.alloc p).2.Named := by
  intro name id hn
  obtain ⟨hlt, hname⟩ := h name id hn
  refine ⟨Nat.lt_succ_of_lt hlt, ?_⟩
  rw [alloc_proxies, Function.update_of_ne (Nat.ne_of_lt hlt), hname]

theorem named_registerFederatedPort {m : PortMetadata} (h : n.Named) (hid : id < n.nextId)
    (hname : (n.proxies id).remotePortName = m.name) : (n.registerFederatedPort m id).Named := by
  have hupd : (n.update id { n.proxies id with dataCallback := true }).Named := h.update rfl
  intro name id' hn
  rw [registerFederatedPort_ports, Dict.get?_set] at hn
  split at hn
  · rename_i he
    cases hn
    refine ⟨hid, ?_⟩
    rw [registerFederatedPort_proxies, Function.update_self, he]
    exact hname
  · exact hupd name id' hn

theorem named_loadCachedPort (h : n.Named) {rec : CacheRecord} : (n.loadCachedPort cfg peer name rec).Named := by
  have halloc := named_alloc (p := Proxy.ofCache cfg.int peer name rec) h
  unfold loadCachedPort
  dsimp only
  split
  · exact named_registerFederatedPort halloc (Nat.lt_succ_self _)
      (by rw [alloc_fst, alloc_proxies, Function.update_self]; rfl)
  · exact halloc

theorem named_loadFederatedCache (h : n.Named) : (n.loadFederatedCache cfg).Named := by
  have hrecs : ∀ (peer : PeerKey) (recs : List (PortName × CacheRecord)) (n : Node), n.Named →
      (recs.foldl (fun n r => if ((n.proxiesOf peer).get? r.1).isSome then n else n.loadCachedPort cfg peer r.1 r.2)
        n).Named := by
    intro peer recs
    induction recs with
    | nil => exact fun n h => h
    | cons r recs ih =>
        intro n h
        rw [List.foldl_cons]
        apply ih
        split
        · exact h
        · exact named_loadCachedPort h
  unfold loadFederatedCache
  generalize n.cache.getD [] = peers
  induction peers generalizing n with
  | nil => exact h
  | cons e peers ih => exact ih (hrecs e.1 e.2 n h)

theorem localPorts_get? (names : List PortName) (name : PortName) :
    (localPorts names).get? name = none ∨ (localPorts names).get? name = some .wrapper := by
  have hfold : ∀ d : Dict PortName PortObj, (∀ name, d.get? name = none ∨ d.get? name = some .wrapper) →
      ∀ name, (names.foldl (fun d name => d.set name .wrapper) d).get? name = none ∨
        (names.foldl (fun d name => d.set name .wrapper) d).get? name = some .wrapper := by
    induction names with
    | nil => exact fun d hd => hd
    | cons x xs ih =>
        intro d hd
        refine ih _ ?_
        intro name
        rw [Dict.get?_set]
        split
        · exact Or.inr rfl
        · exact hd name
  exact hfold ∅ (fun _ => Or.inl rfl) name

theorem named_of_localPorts {names : List PortName} (h : n.ports = localPorts names) : n.Named := by
  intro name id hn
  rw [h] at hn
  rcases localPorts_get? names name with hno | hw
  · rw [hno] at hn; cases hn
  · rw [hw] at hn; cases hn

theorem named_step {a : NodeAct} (h : n.Named) (hs : n.step cfg a = some n') : n'.Named := by
  cases a with
  | frame peer f => cases hs; exact named_handleFrame h f
  | offline peer => cases hs; exact named_save (named_updateProxies (fun _ => rfl) h)
  | liveState peer live => cases hs; exact named_updateProxies (fun _ => flipProxyLiveState_remotePortName) h
  | save => cases hs; exact named_save h
  | load => cases hs; exact named_loadFederatedCache h
  | restart locals =>
      cases hs
      have hlocal : Named { n with ports := localPorts locals, peerProxies := ∅ } := named_of_localPorts rfl
      unfold restart
      dsimp only
      split
      · exact named_loadFederatedCache hlocal
      · exact hlocal

theorem Reachable.named (h : n.Reachable cfg) : n.Named := by
  obtain ⟨n₀, locals, acts, hports, _, hrun⟩ := h
  exact Transition.exec_invariant' (fun _ _ _ hn hs => named_step hn hs) (named_of_localPorts hports) hrun

end Node

end OpenMux.Federation

/-!
## The capacity of a received proxy
-/

namespace OpenMux.Federation

open Py

variable {cfg : NodeCfg} {int : Text → Option Int} {sid : String} {port : LocalPort} {v : Value} {m : WriteMode}
  {pd : FedDict} {p : Proxy} {n : Node} {peer : PeerKey} {id : ProxyId}

/-- A proxy that stands for an advertised entry: as the node registers or refreshes it, and as it comes out of the cache. -/
inductive Received (cfg : NodeCfg) (pd : FedDict) : Proxy → Prop
  | registered {n : Node} {peer : PeerKey} {id : ProxyId} (hn : n.Reachable cfg)
      (hp : (n.registerRemotePortFromDict cfg peer pd).ports.get? pd.portName = some (.proxy id)) :
      Received cfg pd ((n.registerRemotePortFromDict cfg peer pd).proxies id)
  | cached {p : Proxy} {rec : CacheRecord} {peer : PeerKey} {name : PortName} (hp : Received cfg pd p)
      (hrec : p.cacheRecord = some rec) : Received cfg pd (Proxy.ofCache cfg.int peer name rec)

/-- The wire integer is what arrives. -/
theorem advertised_maxRwUsers (hv : port.maxReadWriteUsers = some v) (hm : parseWriteMode int v = some m)
    (hpd : (slplPortMeta int sid port).toFederationDict.overJson = some pd) :
    pd.maxRwUsers = some (.int (wireCapacity m)) := by
  have hwire : (slplPortMeta int sid port).toFederationDict.maxRwUsers = some (.int (wireCapacity m)) := by
    simp [PortMetadata.toFederationDict, slplPortMeta, hv, capacityToWire, hm]
  unfold FedDict.overJson at hpd
  rw [hwire] at hpd
  obtain ⟨j, hj, rfl⟩ := Option.map_eq_some_iff.mp hpd
  rw [loads_dumps hj]

/-- Every wire integer of a mode ends as the mode `one`: zero is replaced by the default, and infinity is no count. -/
theorem metadata_mode (h : pd.maxRwUsers = some (.int (wireCapacity m))) :
    wireToMode int (metadataFromDict int pd).maxRwUsers = .one := by
  cases m <;> simp only [metadataFromDict, h] <;> rfl

theorem register_metadata (hn : n.Named)
    (hp : (n.registerRemotePortFromDict cfg peer pd).ports.get? pd.portName = some (.proxy id)) :
    ((n.registerRemotePortFromDict cfg peer pd).proxies id).metadata.maxRwUsers = (metadataFromDict cfg.int pd).maxRwUsers ∧
    ((n.registerRemotePortFromDict cfg peer pd).proxies id).maxReadWriteUsers =
      wireToMode cfg.int (metadataFromDict cfg.int pd).maxRwUsers := by
  rcases Node.register_cases cfg n peer pd (fun id hid => (hn _ id hid).1) with ⟨id', _, hr⟩ | ⟨_, hr⟩
  · rw [hr.ports, if_pos rfl] at hp
    cases hp
    rw [hr.proxies, Function.update_self]
    obtain ⟨power, hmeta⟩ := applyPowerMeta_metadata
      (p := { n.proxies id with connectionId := peer, metadata := metadataFromDict cfg.int pd,
                                maxReadWriteUsers := wireToMode cfg.int (metadataFromDict cfg.int pd).maxRwUsers })
    exact ⟨by simp only [Proxy.updateExisting, Proxy.updateMetaAndPower, hmeta],
      by simp [Proxy.updateExisting, Proxy.updateMetaAndPower]⟩
  · rw [hr.ports, if_pos rfl] at hp
    cases hp
    rw [hr.proxies, Function.update_self]
    exact ⟨rfl, rfl⟩

/-- The capacity value of the metadata stays through the cache, and the mode of the proxy is read from it. -/
theorem Received.maxRwUsers (h : Received cfg pd p) :
    p.metadata.maxRwUsers = (metadataFromDict cfg.int pd).maxRwUsers ∧
    p.maxReadWriteUsers = wireToMode cfg.int (metadataFromDict cfg.int pd).maxRwUsers := by
  induction h with
  | registered hn hp => exact register_metadata hn.named hp
  | cached hp hrec ih =>
      refine ⟨?_, by rw [ofCache_maxReadWriteUsers hrec, ih.1]⟩
      rw [ofCache_metadata_maxRwUsers _ _ _ hrec, ih.1]

/-- Whatever the origin's mode is, the proxy has the mode `one`. -/
theorem Received.mode (h : Received cfg pd p) (hwire : pd.maxRwUsers = some (.int (wireCapacity m))) :
    p.maxReadWriteUsers = .one := by
  rw [h.maxRwUsers.2, metadata_mode hwire]

end OpenMux.Federation
