import OpenMux.Federation.Isolation
import OpenMux.Federation.Lemmas.AccessLists

/-!
# The node refines the tables of its peers

Under the condition that a peer advertises only names that are free or its own, each peer's map of proxies is its table.
-/

namespace OpenMux.Federation

open Py

namespace Node

variable {cfg : NodeCfg} {n n' : Node} {peer peer' : PeerKey} {name name' : PortName} {id : ProxyId} {p : Proxy}
  {pd : FedDict} {pds : List FedDict}

/-- Registered proxies and the peers' maps agree, and a proxy sends over the peer whose map it is in. -/
structure Owned (n : Node) : Prop where
  named : n.Named
  registered : ∀ peer name id, (n.proxiesOf peer).get? name = some id → n.ports.get? name = some (.proxy id)
  mapped : ∀ name id, n.ports.get? name = some (.proxy id) → ∃ peer, (n.proxiesOf peer).get? name = some id
  connection : ∀ peer name id, (n.proxiesOf peer).get? name = some id → (n.proxies id).connectionId = peer

/-- A proxy is in one place of one map. -/
theorem Owned.unique (h : n.Owned) (h₁ : (n.proxiesOf peer).get? name = some id)
    (h₂ : (n.proxiesOf peer').get? name' = some id) : peer = peer' ∧ name = name' := by
  constructor
  · rw [← h.connection _ _ _ h₁, h.connection _ _ _ h₂]
  · rw [← (h.named _ _ (h.registered _ _ _ h₁)).2, (h.named _ _ (h.registered _ _ _ h₂)).2]

/-- The node's maps are the given tables. -/
def Refines (n : Node) (T : PeerKey → Table) : Prop :=
  ∀ peer name, T peer name = ((n.proxiesOf peer).get? name).map n.proxies

/-- The name is free, or the peer's own. -/
def Free (n : Node) (peer : PeerKey) (name : PortName) : Prop :=
  match n.ports.get? name with
  | none => True
  | some .wrapper => False
  | some (.proxy id) => (n.proxiesOf peer).get? name = some id

instance (n : Node) (peer : PeerKey) (name : PortName) : Decidable (n.Free peer name) := by
  unfold Free; split <;> infer_instance

/-- Local ports stay local. -/
def KeepsWrappers (n n' : Node) : Prop :=
  ∀ name, n.ports.get? name = some .wrapper → n'.ports.get? name = some .wrapper

/-! ## Writes to the fields of one proxy -/

/-- A write to a proxy of a peer that leaves its name and connection changes one place of one table. -/
theorem Owned.update (h : n.Owned) (hid : (n.proxiesOf peer).get? name = some id)
    (hname : p.remotePortName = (n.proxies id).remotePortName) (hconn : p.connectionId = (n.proxies id).connectionId)
    {T : PeerKey → Table} (hT : n.Refines T) :
    (n.update id p).Owned ∧ (n.update id p).Refines (Function.update T peer (Function.update (T peer) name (some p))) := by
  refine ⟨⟨h.named.update hname, h.registered, h.mapped, ?_⟩, ?_⟩
  · intro peer' name' id' hm
    rw [update_proxies, Function.update_apply]
    split
    · subst_vars
      rw [hconn]
      exact h.connection _ _ _ hm
    · exact h.connection _ _ _ hm
  · intro peer' name'
    by_cases he : peer' = peer ∧ name' = name
    · obtain ⟨rfl, rfl⟩ := he
      simp [hid]
    · have hold : Function.update T peer (Function.update (T peer) name (some p)) peer' name' = T peer' name' := by
        by_cases hp : peer' = peer
        · subst hp
          have hn : name' ≠ name := fun hn => he ⟨rfl, hn⟩
          simp [hn]
        · simp [hp]
      rw [hold, hT peer' name', update_proxiesOf]
      cases hm : (n.proxiesOf peer').get? name' with
      | none => rfl
      | some id' =>
          have hne : id' ≠ id := by
            rintro rfl
            exact he (h.unique hm hid)
          simp [hne]

/-! ## One entry of an advertisement -/

theorem Free.owner (hfree : n.Free peer name) (hp : n.ports.get? name = some (.proxy id)) :
    (n.proxiesOf peer).get? name = some id := by
  simpa [Free, hp] using hfree

theorem Free.not_wrapper (hfree : n.Free peer name) : n.ports.get? name ≠ some .wrapper := by
  intro hp
  simp [Free, hp] at hfree

/-- An entry whose proxy is new or the peer's own changes one place of the peer's table. -/
theorem Registered.owned (hr : Registered n peer pd n' id p) (h : n.Owned) (hnamed : n'.Named)
    (hfree : n.Free peer pd.portName) (hconn : p.connectionId = peer)
    (hown : ∀ q name, (n.proxiesOf q).get? name = some id → q = peer ∧ name = pd.portName) :
    n'.Owned ∧
    (∀ T : PeerKey → Table, n.Refines T →
      n'.Refines (Function.update T peer (Function.update (T peer) pd.portName (some p)))) ∧
    n.KeepsWrappers n' ∧ ∀ name, n.Free peer name → n'.Free peer name := by
  have hother : ∀ q name id', ¬ (q = peer ∧ name = pd.portName) → (n.proxiesOf q).get? name = some id' →
      n'.proxies id' = n.proxies id' := by
    intro q name id' hne hm
    have hid : id' ≠ id := by rintro rfl; exact hne (hown q name hm)
    rw [hr.proxies, Function.update_of_ne hid]
  refine ⟨⟨hnamed, ?_, ?_, ?_⟩, ?_, ?_, ?_⟩
  · intro q name id' hm
    rw [hr.proxiesOf] at hm
    rw [hr.ports]
    split at hm
    · rename_i he
      cases hm
      rw [if_pos he.2]
    · rename_i hne
      have hp := h.registered q name id' hm
      rw [if_neg, hp]
      rintro rfl
      exact hne ⟨(h.unique hm (hfree.owner hp)).1, rfl⟩
  · intro name id' hp
    rw [hr.ports] at hp
    split at hp
    · rename_i he
      cases hp
      exact ⟨peer, by rw [hr.proxiesOf, if_pos ⟨rfl, he⟩]⟩
    · rename_i hne
      obtain ⟨q, hm⟩ := h.mapped name id' hp
      exact ⟨q, by rw [hr.proxiesOf, if_neg (fun he => hne he.2), hm]⟩
  · intro q name id' hm
    rw [hr.proxiesOf] at hm
    split at hm
    · rename_i he
      cases hm
      rw [hr.proxies, Function.update_self, hconn, he.1]
    · rename_i hne
      rw [hother q name id' hne hm]
      exact h.connection q name id' hm
  · intro T hT q name
    rw [hr.proxiesOf]
    by_cases he : q = peer ∧ name = pd.portName
    · obtain ⟨rfl, rfl⟩ := he
      simp [hr.proxies]
    · rw [if_neg he]
      have hold : Function.update T peer (Function.update (T peer) pd.portName (some p)) q name = T q name := by
        by_cases hq : q = peer
        · subst hq
          simp [show name ≠ pd.portName from fun hn => he ⟨rfl, hn⟩]
        · simp [hq]
      rw [hold, hT q name]
      cases hm : (n.proxiesOf q).get? name with
      | none => rfl
      | some id' => simp [hother q name id' he hm]
  · intro name hw
    rw [hr.ports, if_neg, hw]
    rintro rfl
    exact hfree.not_wrapper hw
  · intro name hf
    unfold Free
    rw [hr.ports, hr.proxiesOf]
    by_cases hn : name = pd.portName
    · simp [hn]
    · simpa [hn, Free] using hf

theorem Owned.register (cfg : NodeCfg) (h : n.Owned) (hfree : n.Free peer pd.portName) {T : PeerKey → Table} (hT : n.Refines T) :
    (n.registerRemotePortFromDict cfg peer pd).Owned ∧
    (n.registerRemotePortFromDict cfg peer pd).Refines (Function.update T peer ((T peer).register cfg peer pd)) ∧
    n.KeepsWrappers (n.registerRemotePortFromDict cfg peer pd) ∧
    ∀ name, n.Free peer name → (n.registerRemotePortFromDict cfg peer pd).Free peer name := by
  have hnamed := (register_spec cfg peer pd h.named).1
  rcases register_cases cfg n peer pd (fun id hid => (h.named _ id hid).1) with ⟨id, hp, hr⟩ | ⟨hno, hr⟩
  · have hm := hfree.owner hp
    obtain ⟨h₁, h₂, h₃⟩ := hr.owned h hnamed hfree (by simp [Proxy.updateExisting, Proxy.updateMetaAndPower])
      (fun q name hq => h.unique hq hm)
    refine ⟨h₁, ?_, h₃⟩
    have htab : T peer pd.portName = some (n.proxies id) := by rw [hT, hm]; rfl
    simpa [Table.register, htab] using h₂ T hT
  · have hfresh : ∀ q name, (n.proxiesOf q).get? name = some n.nextId → q = peer ∧ name = pd.portName := by
      intro q name hq
      exact absurd (h.named name _ (h.registered q name _ hq)).1 (Nat.lt_irrefl _)
    obtain ⟨h₁, h₂, h₃⟩ := hr.owned h hnamed hfree rfl hfresh
    refine ⟨h₁, ?_, h₃⟩
    have htab : T peer pd.portName = none := by
      rw [hT]
      cases hm : (n.proxiesOf peer).get? pd.portName with
      | none => rfl
      | some id => exact absurd (h.registered _ _ _ hm) (hno id)
    simpa [Table.register, htab] using h₂ T hT

/-- All entries of a frame. -/
theorem Owned.registerPorts (h : n.Owned) (hfree : ∀ pd ∈ pds, cfg.accept peer pd → n.Free peer pd.portName)
    {T : PeerKey → Table} (hT : n.Refines T) :
    (portsFederatedRegisterPorts cfg peer n pds).1.Owned ∧
    (portsFederatedRegisterPorts cfg peer n pds).1.Refines
      (Function.update T peer ((pds.filter (cfg.accept peer)).foldl (Table.register cfg peer) (T peer))) ∧
    n.KeepsWrappers (portsFederatedRegisterPorts cfg peer n pds).1 := by
  induction pds generalizing n T with
  | nil =>
      refine ⟨h, ?_, fun _ hw => hw⟩
      simpa [portsFederatedRegisterPorts] using hT
  | cons pd pds ih =>
      cases ha : cfg.accept peer pd with
      | false =>
          simp only [portsFederatedRegisterPorts, ha, List.filter_cons]
          exact ih h (fun pd' hpd => hfree pd' (List.mem_cons_of_mem _ hpd)) hT
      | true =>
          obtain ⟨h₁, h₂, h₃, h₄⟩ := h.register cfg (hfree pd List.mem_cons_self ha) hT
          obtain ⟨ih₁, ih₂, ih₃⟩ := ih h₁
            (fun pd' hpd hacc => h₄ _ (hfree pd' (List.mem_cons_of_mem _ hpd) hacc)) h₂
          simp only [portsFederatedRegisterPorts, ha, List.filter_cons, if_true, List.foldl_cons]
          refine ⟨ih₁, by simpa using ih₂, fun name hw => ih₃ name (h₃ name hw)⟩

/-! ## The purge -/

/-- The purge of one name takes it out of the peer's table. -/
theorem Owned.purgeOne (peer : PeerKey) (name : PortName) (h : n.Owned) {T : PeerKey → Table} (hT : n.Refines T) :
    (n.purgeOne peer name).Owned ∧
    (n.purgeOne peer name).Refines (Function.update T peer (Function.update (T peer) name none)) ∧
    n.KeepsWrappers (n.purgeOne peer name) := by
  have hnamed := (purgeOne_spec peer name h.named).1
  unfold Node.purgeOne at hnamed ⊢
  cases hm : (n.proxiesOf peer).get? name with
  | none =>
      refine ⟨h, ?_, fun _ hw => hw⟩
      intro q name'
      rw [← hT q name']
      by_cases hq : q = peer
      · subst hq
        by_cases hn : name' = name
        · subst hn; simp [hT q name', hm]
        · simp [hn]
      · simp [hq]
  | some id =>
      have hp := h.registered peer name id hm
      rw [hm] at hnamed
      simp only at hnamed ⊢
      generalize hn' : Node.unregisterStale _ name id = n' at hnamed ⊢
      have hports : n'.ports = n.ports.pop name := by
        rw [← hn']
        simp [unregisterStale, hp]
      have hmaps : ∀ q name', (n'.proxiesOf q).get? name' =
          if q = peer ∧ name' = name then none else (n.proxiesOf q).get? name' := by
        intro q name'
        have hset : n'.proxiesOf q =
            if q = peer then (n.proxiesOf peer).pop name else n.proxiesOf q := by
          rw [← hn']
          simp only [unregisterStale, proxiesOf, hp, if_true, update_peerProxies, Dict.get?_set]
          split <;> rfl
        rw [hset]
        by_cases hq : q = peer
        · subst hq; simp [Dict.get?_pop]
        · simp [hq]
      have hprox : ∀ id', id' ≠ id → n'.proxies id' = n.proxies id' := by
        intro id' hne
        rw [← hn']
        simp [unregisterStale, hp, hne]
      have hrest : ∀ q name' id', (n'.proxiesOf q).get? name' = some id' →
          (n.proxiesOf q).get? name' = some id' ∧ n'.proxies id' = n.proxies id' ∧ name' ≠ name := by
        intro q name' id' hq
        rw [hmaps] at hq
        split at hq
        · cases hq
        · rename_i hne
          refine ⟨hq, hprox id' ?_, ?_⟩
          · rintro rfl
            exact hne (h.unique hq hm)
          · rintro rfl
            have hid := h.registered q name' id' hq
            rw [hp] at hid
            cases hid
            exact hne ⟨(h.unique hq hm).1, rfl⟩
      refine ⟨⟨hnamed, ?_, ?_, ?_⟩, ?_, ?_⟩
      · intro q name' id' hq
        obtain ⟨hold, _, hne⟩ := hrest q name' id' hq
        rw [hports, Dict.get?_pop_ne _ hne]
        exact h.registered q name' id' hold
      · intro name' id' hq
        rw [hports, Dict.get?_pop] at hq
        split at hq
        · cases hq
        · rename_i hne
          obtain ⟨q, hq'⟩ := h.mapped name' id' hq
          exact ⟨q, by rw [hmaps, if_neg (fun he => hne he.2), hq']⟩
      · intro q name' id' hq
        obtain ⟨hold, hsame, _⟩ := hrest q name' id' hq
        rw [hsame]
        exact h.connection q name' id' hold
      · intro q name'
        rw [hmaps]
        by_cases he : q = peer ∧ name' = name
        · obtain ⟨rfl, rfl⟩ := he
          simp
        · rw [if_neg he]
          have hold : Function.update T peer (Function.update (T peer) name none) q name' = T q name' := by
            by_cases hq : q = peer
            · subst hq
              simp [show name' ≠ name from fun hn => he ⟨rfl, hn⟩]
            · simp [hq]
          rw [hold, hT q name']
          cases hq : (n.proxiesOf q).get? name' with
          | none => rfl
          | some id' =>
              have hne : id' ≠ id := by rintro rfl; exact he (h.unique hq hm)
              simp [hprox id' hne]
      · intro name' hw
        rw [hports, Dict.get?_pop_ne, hw]
        rintro rfl
        rw [hp] at hw
        cases hw

theorem Owned.purgeAll (peer : PeerKey) (names : List PortName) (h : n.Owned) {T : PeerKey → Table} (hT : n.Refines T) :
    (names.foldl (fun n name => n.purgeOne peer name) n).Owned ∧
    (names.foldl (fun n name => n.purgeOne peer name) n).Refines
      (Function.update T peer fun name => if name ∈ names then none else T peer name) ∧
    n.KeepsWrappers (names.foldl (fun n name => n.purgeOne peer name) n) := by
  induction names generalizing n T with
  | nil => exact ⟨h, by simpa using hT, fun _ hw => hw⟩
  | cons name names ih =>
      obtain ⟨h₁, h₂, h₃⟩ := h.purgeOne peer name hT
      obtain ⟨ih₁, ih₂, ih₃⟩ := ih h₁ h₂
      refine ⟨ih₁, ?_, fun name' hw => ih₃ name' (h₃ name' hw)⟩
      rw [List.foldl_cons]
      convert ih₂ using 1
      rw [Function.update_idem]
      congr 1
      funext name'
      simp only [Function.update_self, List.mem_cons]
      by_cases hn : name' = name
      · simp [hn]
      · simp [hn]

theorem Owned.handlePortsFederated (h : n.Owned) (hfree : ∀ pd ∈ pds, cfg.accept peer pd → n.Free peer pd.portName)
    {T : PeerKey → Table} (hT : n.Refines T) :
    (n.handlePortsFederated cfg peer pds).Owned ∧
    (n.handlePortsFederated cfg peer pds).Refines
      (Function.update T peer ((T peer).handleFrame cfg peer (.portsFederated pds))) ∧
    n.KeepsWrappers (n.handlePortsFederated cfg peer pds) := by
  obtain ⟨h₁, h₂, h₃⟩ := h.registerPorts hfree hT
  obtain ⟨h₄, h₅, h₆⟩ := h₁.purgeAll peer
    (((portsFederatedRegisterPorts cfg peer n pds).1.proxiesOf peer).keys.filter
      (· ∉ (portsFederatedRegisterPorts cfg peer n pds).2)) h₂
  refine ⟨h₄, ?_, fun name hw => h₆ name (h₃ name hw)⟩
  show Refines (List.foldl _ _ _) _
  convert h₅ using 1
  rw [Function.update_idem]
  congr 1
  funext name
  simp only [Table.handleFrame, Function.update_self, registerPorts_seen, List.mem_filter, decide_not,
    Bool.not_eq_true', decide_eq_false_iff_not]
  -- a name in no map has no entry in the table
  have hdom : name ∉ ((portsFederatedRegisterPorts cfg peer n pds).1.proxiesOf peer).keys →
      (pds.filter (cfg.accept peer)).foldl (Table.register cfg peer) (T peer) name = none := by
    intro hno
    have ht := h₂ peer name
    rw [Function.update_self] at ht
    rw [ht]
    cases hm : ((portsFederatedRegisterPorts cfg peer n pds).1.proxiesOf peer).get? name with
    | none => rfl
    | some id => exact absurd (Dict.mem_keys.mpr ⟨id, hm⟩) hno
  by_cases hs : name ∈ seenNames cfg peer pds
  · simp [hs]
  · by_cases hk : name ∈ ((portsFederatedRegisterPorts cfg peer n pds).1.proxiesOf peer).keys
    · simp [hs, hk]
    · simp [hs, hk, hdom hk]

/-! ## The other frames -/

theorem applyPowerState_connectionId {ref : Text} {on : Option Bool} :
    (applyPowerState p ref on).connectionId = p.connectionId := by
  unfold applyPowerState; split <;> rfl

theorem Owned.updateEntries {f : Proxy → Proxy} (hname : ∀ p, (f p).remotePortName = p.remotePortName)
    (hconn : ∀ p, (f p).connectionId = p.connectionId) (es : List (PortName × ProxyId)) (h : n.Owned)
    {T : PeerKey → Table} (hT : n.Refines T) (hes : ∀ e ∈ es, (n.proxiesOf peer).get? e.1 = some e.2)
    (hnodup : (es.map Prod.fst).Nodup) :
    (es.foldl (fun n e => n.update e.2 (f (n.proxies e.2))) n).Owned ∧
    (es.foldl (fun n e => n.update e.2 (f (n.proxies e.2))) n).Refines
      (Function.update T peer fun name => if name ∈ es.map Prod.fst then (T peer name).map f else T peer name) ∧
    (es.foldl (fun n e => n.update e.2 (f (n.proxies e.2))) n).ports = n.ports := by
  induction es generalizing n T with
  | nil => exact ⟨h, by simpa using hT, rfl⟩
  | cons e es ih =>
      rw [List.map_cons, List.nodup_cons] at hnodup
      have he := hes e List.mem_cons_self
      obtain ⟨h₁, h₂⟩ := h.update (p := f (n.proxies e.2)) he (hname _) (hconn _) hT
      obtain ⟨ih₁, ih₂, ih₃⟩ := ih h₁ h₂ (fun e' he' => hes e' (List.mem_cons_of_mem _ he')) hnodup.2
      refine ⟨ih₁, ?_, ih₃⟩
      rw [List.foldl_cons]
      convert ih₂ using 1
      rw [Function.update_idem]
      congr 1
      funext name
      simp only [Function.update_self, List.map_cons, List.mem_cons]
      by_cases hn : name = e.1
      · subst hn
        have ht : T peer e.1 = some (n.proxies e.2) := by rw [hT, he]; rfl
        simp [hnodup.1, ht]
      · simp only [hn, false_or, Function.update_of_ne (show name ≠ e.1 from hn)]

/-- Writes to all proxies of a peer change its table and no other. -/
theorem Owned.updateProxies {f : Proxy → Proxy} (hname : ∀ p, (f p).remotePortName = p.remotePortName)
    (hconn : ∀ p, (f p).connectionId = p.connectionId) (h : n.Owned) {T : PeerKey → Table} (hT : n.Refines T) :
    (n.updateProxies peer f).Owned ∧
    (n.updateProxies peer f).Refines (Function.update T peer fun name => (T peer name).map f) ∧
    n.KeepsWrappers (n.updateProxies peer f) := by
  obtain ⟨h₁, h₂, h₃⟩ := h.updateEntries hname hconn (n.proxiesOf peer).entries hT
    (fun e he => Dict.mem_entries.mp he) (n.proxiesOf peer).nodup
  unfold Node.updateProxies
  refine ⟨h₁, ?_, fun name hw => by rw [h₃, hw]⟩
  convert h₂ using 1
  congr 1
  funext name
  split
  · rfl
  · rename_i hno
    have hk : (n.proxiesOf peer).get? name = none := by
      cases hm : (n.proxiesOf peer).get? name with
      | none => rfl
      | some id => exact absurd (Dict.mem_keys.mpr ⟨id, hm⟩) hno
    rw [hT, hk]
    rfl

/-- A frame that writes to the proxy of one name. -/
theorem Owned.updateNamed (name : PortName) (f : Proxy → Proxy) (hname : ∀ p, (f p).remotePortName = p.remotePortName)
    (hconn : ∀ p, (f p).connectionId = p.connectionId) (h : n.Owned) {T : PeerKey → Table} (hT : n.Refines T)
    (hn' : n' = match (n.proxiesOf peer).get? name with
      | none => n
      | some id => n.update id (f (n.proxies id))) :
    n'.Owned ∧ n'.Refines (Function.update T peer (Function.update (T peer) name ((T peer name).map f))) ∧
    n.KeepsWrappers n' := by
  cases hm : (n.proxiesOf peer).get? name with
  | none =>
      rw [hm] at hn'
      subst hn'
      refine ⟨h, ?_, fun _ hw => hw⟩
      have ht : T peer name = none := by rw [hT, hm]; rfl
      rw [ht, Option.map_none, ← ht, Function.update_eq_self, Function.update_eq_self]
      exact hT
  | some id =>
      rw [hm] at hn'
      subst hn'
      obtain ⟨h₁, h₂⟩ := h.update (p := f (n.proxies id)) hm (hname _) (hconn _) hT
      have ht : T peer name = some (n.proxies id) := by rw [hT, hm]; rfl
      exact ⟨h₁, by simpa [ht] using h₂, fun _ hw => hw⟩

/-! ## Runs -/

/-- A peer advertises only names that are free or its own. -/
def Apart (cfg : NodeCfg) (n : Node) : PeerKey × Frame → Prop
  | (peer, .portsFederated pds) => ∀ pd ∈ pds, cfg.accept peer pd → n.Free peer pd.portName
  | _ => True

instance (cfg : NodeCfg) (n : Node) (a : PeerKey × Frame) : Decidable (Apart cfg n a) := by
  obtain ⟨peer, f⟩ := a
  cases f <;> unfold Apart <;> infer_instance

/-- The node takes frames of its peers, in any order. -/
def frameStep (cfg : NodeCfg) (n : Node) (a : PeerKey × Frame) : Option Node := some (n.handleFrame cfg a.1 a.2)

theorem proxiesOf_empty (h : n.peerProxies = ∅) : n.proxiesOf peer = ∅ := by
  unfold proxiesOf
  rw [h]
  rfl

/-- A node without peers. -/
theorem owned_initial {names : List PortName} (hports : n.ports = localPorts names) (hmaps : n.peerProxies = ∅) :
    n.Owned ∧ n.Refines (fun _ _ => none) := by
  refine ⟨⟨named_of_localPorts hports, ?_, ?_, ?_⟩, ?_⟩
  · intro peer name id hm
    rw [proxiesOf_empty hmaps] at hm
    cases hm
  · intro name id hp
    rw [hports] at hp
    rcases localPorts_get? names name with hno | hw
    · rw [hno] at hp; cases hp
    · rw [hw] at hp; cases hp
  · intro peer name id hm
    rw [proxiesOf_empty hmaps] at hm
    cases hm
  · intro peer name
    rw [proxiesOf_empty hmaps]
    rfl

/-- One frame changes the table of its sender as `Table.handleFrame` says, and no other table. -/
theorem Owned.handleFrame {f : Frame} (h : n.Owned) (hC : Apart cfg n (peer, f)) {T : PeerKey → Table}
    (hT : n.Refines T) :
    (n.handleFrame cfg peer f).Owned ∧
    (n.handleFrame cfg peer f).Refines (Function.update T peer ((T peer).handleFrame cfg peer f)) ∧
    n.KeepsWrappers (n.handleFrame cfg peer f) := by
  cases f with
  | portsFederated pds => exact h.handlePortsFederated hC hT
  | portStatus name statusMessage readiness =>
      exact h.updateNamed name (fun p => { p with metadata := { p.metadata with
        statusMessage := strOrNone (some statusMessage)
        readiness := strOrNone (some readiness) } }) (fun _ => rfl) (fun _ => rfl) hT rfl
  | powerState ref on =>
      exact h.updateProxies (fun _ => applyPowerState_remotePortName) (fun _ => applyPowerState_connectionId) hT
  | viewers name entries =>
      exact h.updateNamed name (fun p => { p with remoteViewers := entries }) (fun _ => rfl) (fun _ => rfl) hT rfl

/-- After every run along the condition each peer's map is the table of that peer's own frames. -/
theorem Owned.run {frames : List (PeerKey × Frame)} (h : n.Owned) {T : PeerKey → Table} (hT : n.Refines T)
    (hC : Transition.Along (frameStep cfg) (Apart cfg) n frames)
    (hrun : Transition.exec (frameStep cfg) n frames = some n') :
    n'.Owned ∧ n'.Refines (fun peer => Table.run cfg peer (T peer) frames) ∧ n.KeepsWrappers n' := by
  induction frames generalizing n T with
  | nil => cases hrun; exact ⟨h, hT, fun _ hw => hw⟩
  | cons a frames ih =>
      obtain ⟨q, f⟩ := a
      obtain ⟨n₁, h₁, hrest⟩ := Transition.exec_cons_inv hrun
      obtain ⟨hca, hC'⟩ := (Transition.along_cons h₁).mp hC
      cases h₁
      obtain ⟨hO, hR, hW⟩ := h.handleFrame hca hT
      obtain ⟨hO', hR', hW'⟩ := ih hO hR hC' hrest
      refine ⟨hO', ?_, fun name hw => hW' name (hW name hw)⟩
      convert hR' using 1
      funext peer
      rw [Table.run]
      by_cases hq : q = peer
      · subst hq; simp
      · simp [hq, Ne.symm hq]

end Node

end OpenMux.Federation
