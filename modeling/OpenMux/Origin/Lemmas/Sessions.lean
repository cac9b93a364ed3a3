import OpenMux.Origin.Sessions

/-!
# What exists for a slot was permitted

Every record of a pseudo-client, slot, pump, write and switch on a local port goes back to an OPEN of that slot. No other
frame adds one.
-/

namespace OpenMux.Origin

open Py Federation Streams

/-! ## Records of pseudo-clients -/

namespace Port

variable {p p' p'' : Port} {id : Text} {c : Client} {cs : List Client} {slot : Slot} {spec : TakeSpec}

/-- Every pseudo-client of `p'` is one of `p`. -/
def NoNew (p p' : Port) : Prop :=
  ∀ c' ∈ p'.connectedClients, fedPrefix <+: c'.clientId → ∃ c ∈ p.connectedClients, c.clientId = c'.clientId

theorem NoNew.refl (p : Port) : p.NoNew p := fun c hc _ => ⟨c, hc, rfl⟩

theorem NoNew.trans (h : p.NoNew p') (h' : p'.NoNew p'') : p.NoNew p'' := by
  intro c'' hc'' hfed
  obtain ⟨c', hc', hid'⟩ := h' c'' hc'' hfed
  obtain ⟨c, hc, hid⟩ := h c' hc' (hid' ▸ hfed)
  exact ⟨c, hc, hid.trans hid'⟩

theorem mem_updateClient {f : Client → Client} (hc : c ∈ updateClient id f cs) :
    c ∈ cs ∨ ∃ d ∈ cs, d.clientId = id ∧ c = f d := by
  induction cs with
  | nil => cases hc
  | cons d cs ih =>
      rw [updateClient] at hc
      split at hc
      · rename_i he
        rcases List.mem_cons.mp hc with rfl | hc
        · exact Or.inr ⟨d, List.mem_cons_self, he, rfl⟩
        · exact Or.inl (List.mem_cons_of_mem _ hc)
      · rcases List.mem_cons.mp hc with rfl | hc
        · exact Or.inl List.mem_cons_self
        · rcases ih hc with h | ⟨d', hd', h⟩
          · exact Or.inl (List.mem_cons_of_mem _ h)
          · exact Or.inr ⟨d', List.mem_cons_of_mem _ hd', h⟩

theorem NoNew.updateClient {f : Client → Client} (hf : ∀ c, (f c).clientId = c.clientId) :
    p.NoNew { p with connectedClients := updateClient id f p.connectedClients } := by
  intro c' hc' _
  rcases mem_updateClient hc' with h | ⟨d, hd, _, rfl⟩
  · exact ⟨c', h, rfl⟩
  · exact ⟨d, hd, (hf d).symm⟩

theorem noNew_promote : p.NoNew (p.promoteClient id).1 := by
  unfold promoteClient
  split
  · exact NoNew.refl p
  · exact NoNew.updateClient (fun _ => rfl)

theorem noNew_demote : p.NoNew (p.demoteClient id) := NoNew.updateClient (fun _ => rfl)

theorem noNew_remove : p.NoNew (p.removeClient id) := fun c hc _ => ⟨c, List.mem_of_mem_eraseP hc, rfl⟩

theorem noNew_take : p.NoNew (handleFedrwTake p slot spec) := by
  unfold handleFedrwTake
  dsimp only
  split
  · split
    · exact noNew_promote
    · exact NoNew.refl p
  · rename_i victim _
    have hdem : p.NoNew (p.demoteClient victim.clientId) := noNew_demote
    split
    · exact hdem.trans noNew_promote
    · exact (hdem.trans noNew_promote).trans noNew_promote

/-- A client that attaches is the only new one. -/
theorem mem_addClient {c' : Client} (hc' : c' ∈ (p.addClient c).connectedClients) : c' ∈ p.connectedClients ∨ c' = c := by
  unfold addClient at hc'
  split at hc'
  · exact Or.inl hc'
  · split at hc'
    · rcases mem_updateClient hc' with h | ⟨_, _, _, rfl⟩
      · exact Or.inl h
      · exact Or.inr rfl
    · rcases List.mem_append.mp hc' with h | h
      · exact Or.inl h
      · exact Or.inr (List.mem_singleton.mp h)

theorem noNew_attach (hc : ¬ fedPrefix <+: c.clientId) : p.NoNew (p.addClient c) := by
  intro c' hc' hfed
  rcases mem_addClient hc' with h | rfl
  · exact ⟨c', h, rfl⟩
  · exact absurd hfed hc

end Port

theorem fedPrefix_fedClientId (peerKey : Text) (sid : Int) : fedPrefix <+: fedClientId peerKey sid :=
  List.prefix_append _ _

namespace OriginNode

variable {cfg : OriginCfg} {n n' : OriginNode} {slot : Slot} {name payload id : Text} {f : Port → Port} {o : Opening}
  {a : OriginAct} {peerKey : Text}

def IsLocal (n : OriginNode) (name : Text) : Prop := (n.ports.get? name).isSome

/-- A session slot, a pump, a pseudo-client in either mode, a write or a switch of an outlet exists for a local port only if
the slot was opened to that port while the filters allowed the port for a connection of the peer. -/
structure Closed (n : OriginNode) : Prop where
  session : ∀ slot name, n.localSessionMap.get? slot = some name → n.IsLocal name → (slot, name) ∈ n.permitted
  pump : ∀ t ∈ n.tasks, t.stage ≠ .done → n.IsLocal t.portName → (t.slot, t.portName) ∈ n.permitted
  client : ∀ slot name p, n.ports.get? name = some p →
    (∃ c ∈ p.connectedClients, c.clientId = fedClientId slot.1 slot.2) → (slot, name) ∈ n.permitted
  write : ∀ slot name data, (slot, name, data) ∈ n.writes → (slot, name) ∈ n.permitted
  switch : ∀ slot name, (slot, name) ∈ n.switched → (slot, name) ∈ n.permitted

/-- The same, with the OPEN handlers that have yet to add a client or a pump. -/
structure Guarded (n : OriginNode) : Prop extends n.Closed where
  opening : ∀ o ∈ n.opening, n.IsLocal o.portName → (o.slot, o.portName) ∈ n.permitted

/-- `n'` has no pseudo-client that `n` has not. -/
def PortsLe (n n' : OriginNode) : Prop :=
  ∀ name p', n'.ports.get? name = some p' → ∃ p, n.ports.get? name = some p ∧ p.NoNew p'

theorem PortsLe.refl (n : OriginNode) : n.PortsLe n := fun _ p hp => ⟨p, hp, .refl p⟩

theorem PortsLe.isLocal (h : n.PortsLe n') (hl : n'.IsLocal name) : n.IsLocal name := by
  obtain ⟨p', hp'⟩ := Option.isSome_iff_exists.mp hl
  obtain ⟨p, hp, _⟩ := h name p' hp'
  exact Option.isSome_iff_exists.mpr ⟨p, hp⟩

theorem updatePort_ports (name' : Text) : (n.updatePort name f).ports.get? name' =
    if name' = name then (n.ports.get? name).map f else n.ports.get? name' := by
  unfold OriginNode.updatePort
  cases hp : n.ports.get? name with
  | some p => exact Dict.get?_set ..
  | none =>
      dsimp only
      split
      · subst_vars; exact hp
      · rfl

/-- Every pump of `n'` that runs is one of `n`. -/
def TasksLe (n n' : OriginNode) : Prop :=
  ∀ t' ∈ n'.tasks, t'.stage ≠ .done → ∃ t ∈ n.tasks, t.stage ≠ .done ∧ t.slot = t'.slot ∧ t.portName = t'.portName

theorem TasksLe.of_eq (h : n'.tasks = n.tasks) : n.TasksLe n' := fun t ht hd => ⟨t, h ▸ ht, hd, rfl, rfl⟩

theorem TasksLe.of_modify {i : Nat} (h : n'.tasks = n.tasks.modify i Pump.cancel) : n.TasksLe n' := by
  intro t' ht' hd
  rw [h] at ht'
  obtain ⟨j, hj⟩ := List.mem_iff_getElem?.mp ht'
  rw [List.getElem?_modify] at hj
  obtain ⟨t, ht, rfl⟩ := Option.map_eq_some_iff.mp hj
  refine ⟨t, List.mem_of_getElem? ht, ?_, ?_⟩
  · split at hd <;> exact hd
  · split <;> exact ⟨rfl, rfl⟩

theorem TasksLe.of_set {i : Nat} {t t₁ : Pump} (ht : n.tasks[i]? = some t) (hd : t.stage ≠ .done)
    (hslot : t₁.slot = t.slot) (hport : t₁.portName = t.portName) (h : n'.tasks = n.tasks.set i t₁) : n.TasksLe n' := by
  intro t' ht' hd'
  rw [h] at ht'
  rcases List.mem_or_eq_of_mem_set ht' with ht' | rfl
  · exact ⟨t', ht', hd', rfl, rfl⟩
  · exact ⟨t, List.mem_of_getElem? ht, hd, hslot.symm, hport.symm⟩

theorem portsLe_updatePort (hf : ∀ p : Port, p.NoNew (f p)) : n.PortsLe (n.updatePort name f) := by
  intro name' p' hp'
  rw [updatePort_ports] at hp'
  split at hp'
  · obtain ⟨p, hp, rfl⟩ := Option.map_eq_some_iff.mp hp'
    exact ⟨p, by rw [‹name' = name›, hp], hf p⟩
  · exact ⟨p', hp', .refl p'⟩

/-- Less is guarded as well. -/
theorem Guarded.mono (h : n.Guarded) (hports : n.PortsLe n')
    (hsession : ∀ slot name, n'.localSessionMap.get? slot = some name → n.localSessionMap.get? slot = some name)
    (hpump : n.TasksLe n')
    (hopening : ∀ o' ∈ n'.opening, ∃ o ∈ n.opening, o.slot = o'.slot ∧ o.portName = o'.portName)
    (hperm : ∀ x ∈ n.permitted, x ∈ n'.permitted)
    (hwrites : n'.writes = n.writes) (hswitched : n'.switched = n.switched) : n'.Guarded where
  session slot name hs hl := hperm _ (h.session slot name (hsession slot name hs) (hports.isLocal hl))
  pump t' ht' hd hl := by
    obtain ⟨t, ht, hd', hslot, hport⟩ := hpump t' ht' hd
    have hperm' := hperm _ (h.pump t ht hd' (hport ▸ hports.isLocal hl))
    rw [hslot, hport] at hperm'
    exact hperm'
  client slot name p' hp' hc := by
    obtain ⟨p, hp, hnew⟩ := hports name p' hp'
    obtain ⟨c', hc', hid⟩ := hc
    obtain ⟨c, hc, hid'⟩ := hnew c' hc' (hid ▸ fedPrefix_fedClientId _ _)
    exact hperm _ (h.client slot name p hp ⟨c, hc, hid'.trans hid⟩)
  write slot name data hw := hperm _ (h.write slot name data (hwrites ▸ hw))
  switch slot name hw := hperm _ (h.switch slot name (hswitched ▸ hw))
  opening o' ho' hl := by
    obtain ⟨o, ho, hslot, hport⟩ := hopening o' ho'
    have hperm' := hperm _ (h.opening o ho (hport ▸ hports.isLocal hl))
    rw [hslot, hport] at hperm'
    exact hperm'

theorem Guarded.updatePort (h : n.Guarded) (hf : ∀ p : Port, p.NoNew (f p)) : (n.updatePort name f).Guarded :=
  h.mono (portsLe_updatePort hf) (fun _ _ hs => hs) (.of_eq rfl) (fun o ho => ⟨o, ho, rfl, rfl⟩) (fun _ hx => hx) rfl rfl

/-- A port takes the pseudo-client of a slot that was permitted. -/
theorem Guarded.addClient {c : Client} (h : n.Guarded) (hc : c.clientId = fedClientId slot.1 slot.2)
    (hmem : n.IsLocal name → (slot, name) ∈ n.permitted) : (n.updatePort name fun p => p.addClient c).Guarded := by
  have hlocal : ∀ name', (n.updatePort name fun p => p.addClient c).IsLocal name' → n.IsLocal name' := by
    intro name' hl
    unfold IsLocal at hl ⊢
    rw [updatePort_ports] at hl
    split at hl
    · subst_vars; simpa using hl
    · exact hl
  constructor
  · constructor
    · exact fun slot name hs hl => h.session slot name hs (hlocal name hl)
    · exact fun t ht hd hl => h.pump t ht hd (hlocal _ hl)
    · intro slot' name' p' hp' hc'
      rw [updatePort_ports] at hp'
      split at hp'
      · obtain ⟨p, hp, rfl⟩ := Option.map_eq_some_iff.mp hp'
        subst_vars
        obtain ⟨c', hc', hid⟩ := hc'
        rcases Port.mem_addClient hc' with hold | rfl
        · exact h.client slot' name' p hp ⟨c', hold, hid⟩
        · obtain ⟨hpeer, hsid⟩ := fedClientId_injective (hc.symm.trans hid)
          rw [← show slot = slot' from Prod.ext hpeer hsid]
          exact hmem (Option.isSome_iff_exists.mpr ⟨p, hp⟩)
      · exact h.client slot' name' p' hp' hc'
    · exact h.write
    · exact h.switch
  · exact fun o ho hl => h.opening o ho (hlocal _ hl)

/-! ## Sessions -/

theorem tasksLe_claimSlot : n.TasksLe (n.claimSlot slot) := by
  cases hp : n.pumpTasks.get? slot with
  | some i => exact .of_modify (i := i) (by simp only [claimSlot, hp])
  | none => exact .of_eq (by simp only [claimSlot, hp])

theorem Guarded.claimSlot (h : n.Guarded) (slot : Slot) : (n.claimSlot slot).Guarded :=
  h.mono (PortsLe.refl n) (fun _ _ hs => Dict.get?_of_get?_pop hs) tasksLe_claimSlot
    (fun o ho => ⟨o, ho, rfl, rfl⟩) (fun _ hx => hx) rfl rfl

/-- A change outside the ports, slots, pumps and handlers. -/
theorem Guarded.outside (h : n.Guarded) (hports : n'.ports = n.ports) (hsession : n'.localSessionMap = n.localSessionMap)
    (htasks : n'.tasks = n.tasks) (hopening : n'.opening = n.opening) (hperm : n'.permitted = n.permitted)
    (hwrites : n'.writes = n.writes) (hswitched : n'.switched = n.switched) : n'.Guarded := by
  refine h.mono ?_ ?_ (.of_eq htasks) ?_ ?_ hwrites hswitched
  · intro name p hp
    exact ⟨p, hports ▸ hp, .refl p⟩
  · rw [hsession]; exact fun _ _ hs => hs
  · rw [hopening]; exact fun o ho => ⟨o, ho, rfl, rfl⟩
  · rw [hperm]; exact fun _ hx => hx

theorem freeClient_ports : n.PortsLe (n.freeClient slot name) ∧
    ∀ name', n.IsLocal name' → (n.freeClient slot name).IsLocal name' := by
  unfold freeClient
  split
  · exact ⟨PortsLe.refl n, fun _ hl => hl⟩
  · refine ⟨portsLe_updatePort (fun _ => Port.noNew_remove), ?_⟩
    intro name' hl
    unfold IsLocal
    rw [updatePort_ports]
    split
    · subst_vars; rw [Option.isSome_map]; exact hl
    · exact hl

theorem Guarded.freeClient (h : n.Guarded) (slot : Slot) (name : Text) : (n.freeClient slot name).Guarded := by
  unfold OriginNode.freeClient
  split
  · exact h
  · exact h.updatePort (fun _ => Port.noNew_remove)

theorem Guarded.stopLocalSession (h : n.Guarded) (slot : Slot) : (n.stopLocalSession slot).Guarded := by
  unfold OriginNode.stopLocalSession
  split
  · exact ((h.claimSlot slot).freeClient slot _).outside rfl rfl rfl rfl rfl rfl rfl
  · exact h.claimSlot slot

theorem stopLocalSession_ports : n.PortsLe (n.stopLocalSession slot) ∧
    ∀ name, n.IsLocal name → (n.stopLocalSession slot).IsLocal name := by
  unfold stopLocalSession
  split
  · exact freeClient_ports (n := n.claimSlot slot)
  · exact ⟨PortsLe.refl n, fun _ hl => hl⟩

theorem stopLocalSession_permitted : (n.stopLocalSession slot).permitted = n.permitted := by
  unfold stopLocalSession closeView freeClient
  split
  · split <;> rfl
  · rfl

theorem Guarded.cleanup (h : n.Guarded) (peerKey : Text) : (n.cleanupPeerLocalSessions peerKey).Guarded := by
  have hstops : ∀ slots : List Slot, (slots.foldl OriginNode.stopLocalSession n).Guarded := by
    intro slots
    induction slots generalizing n with
    | nil => exact h
    | cons slot slots ih => exact ih (h.stopLocalSession slot)
  exact (hstops _).outside rfl rfl rfl rfl rfl rfl rfl

theorem Guarded.rlHandleClose (h : n.Guarded) (slot : Slot) : (n.rlHandleClose slot).Guarded := by
  refine Guarded.stopLocalSession (n := { n with sessionMap := n.sessionMap.pop slot }) ?_ slot
  exact h.outside rfl rfl rfl rfl rfl rfl rfl

/-! ## The frames -/

theorem Guarded.writeToPort (h : n.Guarded) {data : List UInt8} (hs : n.sessionPort slot = some name) :
    (n.writeToPort slot name data).Guarded := by
  unfold OriginNode.writeToPort
  split
  · rename_i p hp
    split
    · have hperm := h.session slot name hs (Option.isSome_iff_exists.mpr ⟨p, hp⟩)
      refine { h with write := ?_ }
      intro slot' name' data' hw
      rcases List.mem_append.mp hw with hw | hw
      · exact h.write slot' name' data' hw
      · cases List.mem_singleton.mp hw
        exact hperm
    · exact h
  · exact h

theorem Guarded.routeDataFrame (h : n.Guarded) {data : List UInt8} : (n.routeDataFrame slot data).Guarded := by
  unfold OriginNode.routeDataFrame
  split
  · exact h
  · split
    · split
      · exact h
      · exact h.writeToPort ‹_›
    · exact h

theorem Guarded.handleFedrw {action : FedrwAction} (h : n.Guarded) : (n.handleFedrwRequest slot name action).Guarded := by
  unfold handleFedrwRequest
  split
  · exact h
  · refine h.updatePort ?_
    intro p
    cases action with
    | request => exact Port.noNew_promote
    | release => exact Port.noNew_demote
    | take spec => exact Port.noNew_take
    | force => exact Port.noNew_take
    | unknown => exact .refl p

theorem Guarded.handlePowerSwitch {outletOk : Bool} (h : n.Guarded) :
    (n.handlePowerSwitch slot name outletOk).Guarded := by
  unfold OriginNode.handlePowerSwitch
  split
  · exact h
  · rename_i hs
    split
    · rename_i p hp
      split
      · have hperm := h.session slot name (not_not.mp hs) (Option.isSome_iff_exists.mpr ⟨p, hp⟩)
        refine { h with switch := ?_ }
        intro slot' name' hw
        rcases List.mem_append.mp hw with hw | hw
        · exact h.switch slot' name' hw
        · cases List.mem_singleton.mp hw
          exact hperm
      · exact h
    · exact h

/-! ## The OPEN handler -/

/-- An OPEN of a local port is allowed, or repeats one that was. -/
def OpenPermittedAt (cfg : OriginCfg) (n : OriginNode) (slot : Slot) (name : Text) : Prop :=
  ∀ p ∈ n.ports.get? name, n.allowedForPeer cfg slot.1 name p ∨ (slot, name) ∈ n.permitted

theorem permitted_recordPermitted (x : Slot × Text) (hx : x ∈ n.permitted) :
    x ∈ (n.recordPermitted cfg slot name).permitted := by
  simp only [recordPermitted]
  split
  · split
    · exact List.mem_cons_of_mem _ hx
    · exact hx
  · exact hx

/-- The history has the slot exactly when the OPEN is permitted. -/
theorem mem_recordPermitted (hl : n.IsLocal name) :
    (slot, name) ∈ (n.recordPermitted cfg slot name).permitted ↔ n.OpenPermittedAt cfg slot name := by
  obtain ⟨p, hp⟩ := Option.isSome_iff_exists.mp hl
  simp only [recordPermitted, OpenPermittedAt, hp, Option.mem_def, Option.some.injEq, forall_eq']
  split
  · rename_i hallow
    simp [hallow]
  · rename_i hallow
    simp [hallow]

theorem Guarded.recordPermitted (cfg : OriginCfg) (slot : Slot) (name : Text) (h : n.Guarded) :
    (n.recordPermitted cfg slot name).Guarded :=
  h.mono (PortsLe.refl n) (fun _ _ hs => hs) (.of_eq rfl) (fun o ho => ⟨o, ho, rfl, rfl⟩) permitted_recordPermitted rfl rfl

/-- The slot of an OPEN is set, after the session that it had for another port is stopped. -/
theorem rlHandleOpen_session : (n.rlHandleOpen cfg slot payload).localSessionMap.get? slot = some (strip payload) :=
  Dict.get?_set_self ..

theorem stopReused_spec (slot : Slot) (name : Text) (h : n.Guarded) : (n.stopReused slot name).Guarded ∧
    (n.stopReused slot name).permitted = n.permitted ∧ n.PortsLe (n.stopReused slot name) := by
  unfold stopReused
  split
  · exact ⟨h.stopLocalSession slot, stopLocalSession_permitted, stopLocalSession_ports.1⟩
  · exact ⟨h, rfl, PortsLe.refl n⟩

theorem rlHandleOpen_permitted (h : n.Guarded) :
    (n.rlHandleOpen cfg slot payload).permitted = (n.recordPermitted cfg slot (strip payload)).permitted :=
  (stopReused_spec slot _ (h.recordPermitted cfg slot _)).2.1

theorem Guarded.rlHandleOpen (h : n.Guarded) (hp : n.OpenPermittedAt cfg slot (strip payload)) :
    (n.rlHandleOpen cfg slot payload).Guarded := by
  obtain ⟨hg, hperm, hle⟩ := stopReused_spec slot (strip payload) (h.recordPermitted cfg slot (strip payload))
  have hown : ((n.recordPermitted cfg slot (strip payload)).stopReused slot (strip payload)).IsLocal (strip payload) →
      (slot, strip payload) ∈ ((n.recordPermitted cfg slot (strip payload)).stopReused slot (strip payload)).permitted := by
    intro hl
    rw [hperm]
    exact (mem_recordPermitted (n := n) (hle.isLocal hl)).mpr hp
  exact
    { hg with
      session := by
        intro slot' name hs hl
        simp only [OriginNode.rlHandleOpen, Dict.get?_set] at hs
        split at hs
        · cases hs
          subst_vars
          exact hown hl
        · exact hg.session slot' name hs hl
      opening := by
        intro o ho hl
        rcases List.mem_append.mp ho with ho | ho
        · exact hg.opening o ho hl
        · cases List.mem_singleton.mp ho
          exact hown hl }

theorem isLocal_rlHandleOpen (hl : n.IsLocal name) : (n.rlHandleOpen cfg slot payload).IsLocal name := by
  show ((n.recordPermitted cfg slot (strip payload)).stopReused slot (strip payload)).IsLocal name
  unfold stopReused
  split
  · exact stopLocalSession_ports.2 _ hl
  · exact hl

theorem Guarded.createPump (h : n.Guarded) (hmem : n.IsLocal name → (slot, name) ∈ n.permitted) :
    (n.createPump slot name).Guarded := by
  refine { h with pump := ?_ }
  intro t ht hd hl
  rcases List.mem_append.mp ht with ht | ht
  · exact h.pump t ht hd hl
  · cases List.mem_singleton.mp ht
    exact hmem hl

theorem Guarded.rlEnsureOpenPump (h : n.Guarded) (hmem : n.IsLocal o.portName → (o.slot, o.portName) ∈ n.permitted) :
    (n.rlEnsureOpenPump o).Guarded := by
  unfold OriginNode.rlEnsureOpenPump
  split
  · exact h
  · split
    · rename_i i _
      split
      · exact h
      · have hcancelled : OriginNode.Guarded { n with tasks := n.tasks.modify i Pump.cancel } :=
          h.mono (PortsLe.refl n) (fun _ _ hs => hs) (.of_modify rfl) (fun o ho => ⟨o, ho, rfl, rfl⟩) (fun _ hx => hx) rfl rfl
        exact hcancelled.createPump hmem
    · exact h.createPump hmem

theorem Guarded.resumeOpen {i now : Nat} (h : n.Guarded) (ho : n.opening[i]? = some o) : (n.resumeOpen i o now).Guarded := by
  have hmem := h.opening o (List.mem_of_getElem? ho)
  unfold OriginNode.resumeOpen
  split
  · have hrest : OriginNode.Guarded { n with opening := n.opening.eraseIdx i } :=
      { h with opening := fun o' ho' hl => h.opening o' (List.mem_of_mem_eraseIdx ho') hl }
    exact hrest.rlEnsureOpenPump hmem
  · have hrest : OriginNode.Guarded { n with opening := n.opening.set i { o with clientAdded := true } } := by
      refine { h with opening := ?_ }
      intro o' ho' hl
      rcases List.mem_or_eq_of_mem_set ho' with ho' | rfl
      · exact h.opening o' ho' hl
      · exact hmem hl
    unfold rlOpenClient
    split
    · exact hrest
    · exact hrest.addClient (c := ⟨fedClientId o.slot.1 o.slot.2, fedUsername o.slot.1, .readOnly, now⟩) rfl hmem

/-! ## Pumps -/

/-- A pump changes the buffers of its port, the views and its own stage; it may give up its slot. -/
theorem Guarded.relay (t₁ : Pump) {i : Nat} {t : Pump} {b : Buffers → Buffers} (h : n.Guarded) (ht : n.tasks[i]? = some t)
    (hd : t.stage ≠ .done) (hslot : t₁.slot = t.slot) (hport : t₁.portName = t.portName)
    (hports : n'.ports = (n.updatePort name (·.updateBuffers b)).ports)
    (hsession : ∀ slot name, n'.localSessionMap.get? slot = some name → n.localSessionMap.get? slot = some name)
    (htasks : n'.tasks = n.tasks.set i t₁) (hopening : n'.opening = n.opening) (hperm : n'.permitted = n.permitted)
    (hwrites : n'.writes = n.writes) (hswitched : n'.switched = n.switched) : n'.Guarded := by
  refine h.mono ?_ hsession (.of_set ht hd hslot hport htasks) ?_ ?_ hwrites hswitched
  · intro name' p' hp'
    rw [hports] at hp'
    exact portsLe_updatePort (f := (·.updateBuffers b)) (fun p => .refl p) name' p' hp'
  · rw [hopening]; exact fun o ho => ⟨o, ho, rfl, rfl⟩
  · rw [hperm]; exact fun _ hx => hx

theorem Guarded.setTask {i : Nat} {t t₁ : Pump} (h : n.Guarded) (ht : n.tasks[i]? = some t) (hd : t.stage ≠ .done)
    (hslot : t₁.slot = t.slot) (hport : t₁.portName = t.portName) : (n.setTask i t₁).Guarded :=
  h.mono (PortsLe.refl n) (fun _ _ hs => hs) (.of_set ht hd hslot hport rfl) (fun o ho => ⟨o, ho, rfl, rfl⟩)
    (fun _ hx => hx) rfl rfl

theorem Guarded.endLocalPumpCleanup {i : Nat} {t : Pump} (h : n.Guarded) (ht : n.tasks[i]? = some t)
    (hd : t.stage ≠ .done) : (n.endLocalPumpCleanup i t).Guarded := by
  unfold OriginNode.endLocalPumpCleanup
  dsimp only
  split
  · exact h.relay { t with stage := .done } ht hd rfl rfl rfl (fun _ _ hs => Dict.get?_of_get?_pop hs) rfl rfl rfl
      rfl rfl
  · exact h.relay { t with stage := .done } ht hd rfl rfl rfl (fun _ _ hs => hs) rfl rfl rfl rfl rfl

theorem Guarded.pumpStep {i : Nat} {t : Pump} {ok : Bool} (h : n.Guarded) (ht : n.tasks[i]? = some t)
    (hs : n.pumpStep i t ok = some n') : n'.Guarded := by
  have hchunk : ∀ data, t.stage ≠ .done → (n.pumpChunk i t data ok).Guarded := fun data hd =>
    h.relay { t with stage := .looping } ht hd rfl rfl rfl (fun _ _ hs => hs) rfl rfl rfl rfl rfl
  unfold OriginNode.pumpStep at hs
  split at hs
  · rename_i hstage
    have hd : t.stage ≠ .done := by simp [hstage]
    split at hs <;> cases hs
    · exact h.setTask ht hd rfl rfl
    · exact h.relay { t with stage := .seeding _ } ht hd rfl rfl rfl (fun _ _ hs => hs) rfl rfl rfl rfl rfl
  · rename_i rest hstage
    have hd : t.stage ≠ .done := by simp [hstage]
    split at hs <;> cases hs
    · exact h.setTask ht hd rfl rfl
    · unfold pumpSeed
      split
      · exact h.setTask ht hd rfl rfl
      · exact Guarded.setTask (n := n.sendData _ _ _ _) (h.outside rfl rfl rfl rfl rfl rfl rfl) ht hd rfl rfl
  · rename_i hstage
    have hd : t.stage ≠ .done := by simp [hstage]
    split at hs
    · cases hs
      exact h.endLocalPumpCleanup ht hd
    · split at hs <;> cases hs
      · exact hchunk _ hd
      · split
        · exact h.setTask ht hd rfl rfl
        · exact h
  · rename_i hstage
    have hd : t.stage ≠ .done := by simp [hstage]
    split at hs
    · cases hs
      exact h.endLocalPumpCleanup ht hd
    · obtain ⟨data, _, rfl⟩ := Option.map_eq_some_iff.mp hs
      exact hchunk data hd
  · cases hs

theorem Guarded.handleIncoming {data : Chunk} {requireClients : Option Bool} (h : n.Guarded) :
    (n.handleIncomingPortData name data requireClients).Guarded := by
  have hport : (n.updatePort name fun p => p.handleIncomingPortData data requireClients).Guarded := by
    refine h.updatePort ?_
    intro p
    unfold Port.handleIncomingPortData
    split <;> exact .refl p
  exact hport.outside rfl rfl rfl rfl rfl rfl rfl

/-! ## Every step -/

/-- The condition on the OPEN frames of authenticated connections. -/
def OpenPermitted (cfg : OriginCfg) (n : OriginNode) : OriginAct → Prop
  | .frame c (.openStream sid payload) => ∀ conn ∈ n.connections.get? c, conn.authenticated →
      n.OpenPermittedAt cfg (conn.peerKey, sid) (strip payload)
  | _ => True

instance (cfg : OriginCfg) (n : OriginNode) (slot : Slot) (name : Text) : Decidable (n.OpenPermittedAt cfg slot name) := by
  unfold OpenPermittedAt
  infer_instance

instance (cfg : OriginCfg) (n : OriginNode) : (a : OriginAct) → Decidable (n.OpenPermitted cfg a)
  | .frame c (.openStream sid payload) => inferInstanceAs (Decidable (∀ conn ∈ n.connections.get? c, conn.authenticated →
      n.OpenPermittedAt cfg (conn.peerKey, sid) (strip payload)))
  | .frame _ (.close _) | .frame _ (.data _ _) | .frame _ (.fedrw _ _ _) | .frame _ (.powerSwitch _ _ _)
  | .connect _ _ | .authenticate _ _ _ | .closeConnection _ | .reload _ | .resumeOpen _ _ | .pump _ _ | .incoming _ _ _
  | .poll _ | .mapSession _ _ | .unmapSession _ | .localAttach _ _ | .localDetach _ _ | .localPromote _ _ | .localDemote _ _ => isTrue trivial

theorem Guarded.handleFrame {f : Frame} (h : n.Guarded)
    (hp : ∀ sid payload, f = .openStream sid payload → n.OpenPermittedAt cfg (peerKey, sid) (strip payload)) :
    (n.handleFrame cfg peerKey f).Guarded := by
  cases f with
  | openStream sid payload => exact h.rlHandleOpen (hp sid payload rfl)
  | close sid => exact h.rlHandleClose (peerKey, sid)
  | data sid data => exact h.routeDataFrame
  | fedrw port sid action => exact h.handleFedrw
  | powerSwitch port sid outletOk => exact h.handlePowerSwitch

theorem Guarded.step (h : n.Guarded) (hp : n.OpenPermitted cfg a) (hs : n.step cfg a = some n') : n'.Guarded := by
  cases a with
  | connect c peerKey =>
      simp only [OriginNode.step] at hs
      split at hs
      · cases hs
      · cases hs; exact h.outside rfl rfl rfl rfl rfl rfl rfl
  | authenticate c peerKey keyFilters =>
      obtain ⟨conn, _, rfl⟩ := Option.map_eq_some_iff.mp hs
      exact h.outside rfl rfl rfl rfl rfl rfl rfl
  | closeConnection c =>
      obtain ⟨conn, _, rfl⟩ := Option.map_eq_some_iff.mp hs
      have hrest : OriginNode.Guarded
          { n with connections := n.connections.pop c, connFilters := n.connFilters.pop c } :=
        h.outside rfl rfl rfl rfl rfl rfl rfl
      unfold OriginNode.closeConnection
      dsimp only
      split
      · exact hrest
      · exact hrest.cleanup conn.peerKey
  | reload filters => cases hs; exact h.outside rfl rfl rfl rfl rfl rfl rfl
  | frame c f =>
      obtain ⟨conn, hconn, rfl⟩ := Option.map_eq_some_iff.mp hs
      split
      · rename_i hauth
        refine h.handleFrame ?_
        rintro sid payload rfl
        exact hp conn hconn hauth
      · exact h
  | resumeOpen i now =>
      obtain ⟨o, ho, rfl⟩ := Option.map_eq_some_iff.mp hs
      exact h.resumeOpen ho
  | pump i ok =>
      obtain ⟨t, ht, hstep⟩ := Option.bind_eq_some_iff.mp hs
      exact h.pumpStep ht hstep
  | incoming port data requireClients => cases hs; exact h.handleIncoming
  | poll port => cases hs; exact h.updatePort (fun p => .refl p)
  | mapSession slot proxy => cases hs; exact h.outside rfl rfl rfl rfl rfl rfl rfl
  | unmapSession slot => cases hs; exact h.outside rfl rfl rfl rfl rfl rfl rfl
  | localAttach port client =>
      simp only [OriginNode.step] at hs
      split at hs
      · cases hs
      · rename_i hfed
        cases hs
        exact h.updatePort (fun _ => Port.noNew_attach hfed)
  | localDetach port id => cases hs; exact h.updatePort (fun _ => Port.noNew_remove)
  | localPromote port id => cases hs; exact h.updatePort (fun _ => Port.noNew_promote)
  | localDemote port id => cases hs; exact h.updatePort (fun _ => Port.noNew_demote)

/-- An OPEN that breaks the condition leaves a slot that was not permitted. -/
theorem Guarded.permitted_of_closed (h : n.Guarded) (hc : ∀ n', n.step cfg a = some n' → n'.Closed) :
    n.OpenPermitted cfg a := by
  cases a with
  | frame c f =>
      cases f with
      | openStream sid payload =>
          intro conn hconn hauth p hp
          have hs : n.step cfg (.frame c (.openStream sid payload)) =
              some (n.rlHandleOpen cfg (conn.peerKey, sid) payload) := by
            simp only [OriginNode.step, Option.mem_def.mp hconn, Option.map_some, if_pos hauth]
            rfl
          have hlocal : n.IsLocal (strip payload) := Option.isSome_iff_exists.mpr ⟨p, hp⟩
          have hmem := (hc _ hs).session (conn.peerKey, sid) (strip payload) rlHandleOpen_session
            (isLocal_rlHandleOpen hlocal)
          rw [rlHandleOpen_permitted h] at hmem
          exact (mem_recordPermitted hlocal).mp hmem p hp
      | _ => trivial
  | _ => trivial

/-- A node that serves no peer yet. -/
structure Fresh (n : OriginNode) : Prop where
  session : n.localSessionMap = ∅
  pumpTasks : n.pumpTasks = ∅
  tasks : n.tasks = []
  opening : n.opening = []
  writes : n.writes = []
  switched : n.switched = []
  views : n.views = ∅
  client : ∀ name p, n.ports.get? name = some p → ∀ c ∈ p.connectedClients, ¬ fedPrefix <+: c.clientId

theorem Fresh.guarded (h : n.Fresh) : n.Guarded where
  session slot name hs _ := by simp [h.session] at hs
  pump t ht _ _ := by simp [h.tasks] at ht
  client slot name p hp hc := by
    obtain ⟨c, hmem, hid⟩ := hc
    exact absurd (hid ▸ fedPrefix_fedClientId _ _) (h.client name p hp c hmem)
  write slot name data hw := by simp [h.writes] at hw
  switch slot name hw := by simp [h.switched] at hw
  opening o ho _ := by simp [h.opening] at ho

end OriginNode

end OpenMux.Origin
