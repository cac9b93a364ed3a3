import OpenMux.Federation.Registry

/-!
# What the registry operations change

One lemma for each operation and each part of the node, and from them what the registration of one entry and the purge of
one name do.
-/

namespace OpenMux.Federation.Node

open Py

variable {cfg : NodeCfg} {n : Node} {peer peer' : PeerKey} {name name' : PortName} {id : ProxyId} {p : Proxy}
  {m : PortMetadata} {pd : FedDict}

/-! ## Parts that an operation leaves -/

@[simp] theorem update_ports : (n.update id p).ports = n.ports := rfl
@[simp] theorem update_peerProxies : (n.update id p).peerProxies = n.peerProxies := rfl
@[simp] theorem update_proxies : (n.update id p).proxies = Function.update n.proxies id p := rfl
@[simp] theorem update_nextId : (n.update id p).nextId = n.nextId := rfl
@[simp] theorem update_proxiesOf : (n.update id p).proxiesOf peer = n.proxiesOf peer := rfl

@[simp] theorem alloc_fst : (n.alloc p).1 = n.nextId := rfl
@[simp] theorem alloc_ports : (n.alloc p).2.ports = n.ports := rfl
@[simp] theorem alloc_proxies : (n.alloc p).2.proxies = Function.update n.proxies n.nextId p := rfl
@[simp] theorem alloc_nextId : (n.alloc p).2.nextId = n.nextId + 1 := rfl
@[simp] theorem alloc_proxiesOf : (n.alloc p).2.proxiesOf peer = n.proxiesOf peer := rfl

@[simp] theorem setPeerProxy_ports : (n.setPeerProxy peer name id).ports = n.ports := rfl
@[simp] theorem setPeerProxy_proxies : (n.setPeerProxy peer name id).proxies = n.proxies := rfl
@[simp] theorem setPeerProxy_nextId : (n.setPeerProxy peer name id).nextId = n.nextId := rfl

@[simp] theorem registerFederatedPort_ports : (n.registerFederatedPort m id).ports = n.ports.set m.name (.proxy id) := rfl
@[simp] theorem registerFederatedPort_proxies : (n.registerFederatedPort m id).proxies =
    Function.update n.proxies id { n.proxies id with dataCallback := true } := rfl
@[simp] theorem registerFederatedPort_nextId : (n.registerFederatedPort m id).nextId = n.nextId := rfl
@[simp] theorem registerFederatedPort_proxiesOf :
    (n.registerFederatedPort m id).proxiesOf peer = n.proxiesOf peer := rfl

@[simp] theorem save_ports : (n.saveFederatedCache cfg).ports = n.ports := by
  unfold saveFederatedCache; split <;> rfl

@[simp] theorem save_proxies : (n.saveFederatedCache cfg).proxies = n.proxies := by
  unfold saveFederatedCache; split <;> rfl

@[simp] theorem save_nextId : (n.saveFederatedCache cfg).nextId = n.nextId := by
  unfold saveFederatedCache; split <;> rfl

@[simp] theorem save_proxiesOf : (n.saveFederatedCache cfg).proxiesOf peer = n.proxiesOf peer := by
  unfold saveFederatedCache; split <;> rfl

theorem setPeerProxy_proxiesOf :
    (n.setPeerProxy peer name id).proxiesOf peer' =
      if peer' = peer then (n.proxiesOf peer).set name id else n.proxiesOf peer' := by
  simp only [proxiesOf, setPeerProxy, Dict.get?_set]
  split <;> rfl

theorem setPeerProxy_get? : ((n.setPeerProxy peer name id).proxiesOf peer').get? name' =
    if peer' = peer ∧ name' = name then some id else (n.proxiesOf peer').get? name' := by
  rw [setPeerProxy_proxiesOf]
  by_cases hp : peer' = peer
  · subst hp; simp [Dict.get?_set]
  · simp [hp]

/-! ## One entry of an advertisement -/

/-- What the registration of one entry leaves: one proxy object, registered under the name and in the peer's map. -/
structure Registered (n : Node) (peer : PeerKey) (pd : FedDict) (n' : Node) (id : ProxyId) (p : Proxy) : Prop where
  ports : ∀ name, n'.ports.get? name = if name = pd.portName then some (.proxy id) else n.ports.get? name
  proxiesOf : ∀ peer' name, (n'.proxiesOf peer').get? name =
    if peer' = peer ∧ name = pd.portName then some id else (n.proxiesOf peer').get? name
  proxies : n'.proxies = Function.update n.proxies id p
  nextId : n'.nextId = if id = n.nextId then n.nextId + 1 else n.nextId

theorem Registered.save {n' : Node} (h : Registered n peer pd n' id p) :
    Registered n peer pd (n'.saveFederatedCache cfg) id p := by
  obtain ⟨h₁, h₂, h₃, h₄⟩ := h
  exact ⟨by simpa using h₁, by simpa using h₂, by simpa using h₃, by simpa using h₄⟩

@[simp] theorem metadataFromDict_name {int} : (metadataFromDict int pd).name = pd.portName := rfl

theorem rpUpdateExisting_registered (hp : n.ports.get? pd.portName = some (.proxy id)) (hid : id < n.nextId) :
    Registered n peer pd (n.rpUpdateExisting cfg peer pd.portName id (metadataFromDict cfg.int pd)) id
      ((n.proxies id).updateExisting cfg.int peer (metadataFromDict cfg.int pd)) := by
  have hne : id ≠ n.nextId := Nat.ne_of_lt hid
  have hports : ∀ name, n.ports.get? name = if name = pd.portName then some (.proxy id) else n.ports.get? name := by
    intro name
    split
    · subst_vars; exact hp
    · rfl
  cases hcb : (n.proxies id).dataCallback with
  | true =>
      refine ⟨?_, ?_, ?_, ?_⟩
      · simpa [rpUpdateExisting, hcb] using hports
      · intro peer' name'; simp [rpUpdateExisting, hcb, setPeerProxy_get?]
      · simp [rpUpdateExisting, hcb]
      · simp [rpUpdateExisting, hcb, hne]
  | false =>
      refine ⟨?_, ?_, ?_, ?_⟩
      · intro name; simp [rpUpdateExisting, hcb, Dict.get?_set]
      · intro peer' name'; simp [rpUpdateExisting, hcb, setPeerProxy_get?]
      · simp [rpUpdateExisting, hcb]
      · simp [rpUpdateExisting, hcb, hne]

theorem rpRegisterNew_registered (hp : ∀ id, n.ports.get? pd.portName ≠ some (.proxy id)) :
    Registered n peer pd (n.rpRegisterNew cfg peer pd.portName (metadataFromDict cfg.int pd)) n.nextId
      { Proxy.new cfg.int peer pd.portName (metadataFromDict cfg.int pd) with dataCallback := true } := by
  have hdup : ∀ q o, (n.alloc q).2.rpRegisterDuplicate pd.portName o = false := by
    intro q o
    unfold rpRegisterDuplicate
    split
    · rename_i id hid; exact absurd hid (hp id)
    · rfl
  refine ⟨?_, ?_, ?_, ?_⟩
  · intro name; simp [rpRegisterNew, hdup, Dict.get?_set]
  · intro peer' name'; simp [rpRegisterNew, hdup, setPeerProxy_get?]
  · simp [rpRegisterNew, hdup]
  · simp [rpRegisterNew, hdup]

/-- A proxy that is registered under the name is refreshed; otherwise a new one is made. -/
theorem register_cases (cfg : NodeCfg) (n : Node) (peer : PeerKey) (pd : FedDict)
    (hid : ∀ id, n.ports.get? pd.portName = some (.proxy id) → id < n.nextId) :
    (∃ id, n.ports.get? pd.portName = some (.proxy id) ∧
      Registered n peer pd (n.registerRemotePortFromDict cfg peer pd) id
        ((n.proxies id).updateExisting cfg.int peer (metadataFromDict cfg.int pd))) ∨
    ((∀ id, n.ports.get? pd.portName ≠ some (.proxy id)) ∧
      Registered n peer pd (n.registerRemotePortFromDict cfg peer pd) n.nextId
        { Proxy.new cfg.int peer pd.portName (metadataFromDict cfg.int pd) with dataCallback := true }) := by
  have hmake : (∀ id, n.ports.get? pd.portName ≠ some (.proxy id)) → n.registerRemotePortFromDict cfg peer pd =
      n.rpRegisterNew cfg peer pd.portName (metadataFromDict cfg.int pd) := by
    intro hno
    simp only [registerRemotePortFromDict, metadataFromDict_name]
  cases hp : n.ports.get? pd.portName with
  | none =>
      have hno : ∀ id, n.ports.get? pd.portName ≠ some (.proxy id) := by intro id h; rw [hp] at h; cases h
      rw [hmake hno]
      exact Or.inr ⟨by simp, rpRegisterNew_registered hno⟩
  | some obj =>
      cases obj with
      | wrapper =>
          have hno : ∀ id, n.ports.get? pd.portName ≠ some (.proxy id) := by intro id h; rw [hp] at h; cases h
          rw [hmake hno]
          exact Or.inr ⟨by simp, rpRegisterNew_registered hno⟩
      | proxy id =>
          refine Or.inl ⟨id, rfl, ?_⟩
          have hreg : n.registerRemotePortFromDict cfg peer pd =
              (n.rpUpdateExisting cfg peer pd.portName id (metadataFromDict cfg.int pd)).saveFederatedCache cfg := by
            simp [registerRemotePortFromDict, hp]
          rw [hreg]
          exact (rpUpdateExisting_registered hp (hid id hp)).save

end OpenMux.Federation.Node
