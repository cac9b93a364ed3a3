import OpenMux.Lib.Run
import OpenMux.Web.Reload

/-!
# What a reload leaves
-/

namespace OpenMux.Web

open Py Transition

variable {α : Type} {s t : Consoles} {client c name n : Text} {id : ℕ} {w : PortWrapper}

namespace Consoles

/-! ## The port objects -/

/-- The port object with a name. -/
def portId (s : Consoles) (name : Text) : Option ℕ := (s.ports.get? name).map PortWrapper.id

theorem portId_of_get? (h : s.ports.get? n = some w) : s.portId n = some w.id := by rw [portId, h, Option.map_some]

theorem portId_inv (h : s.portId n = some id) : ∃ w, s.ports.get? n = some w ∧ w.id = id := Option.map_eq_some_iff.mp h

theorem get?_removeClientFromPort : (s.removeClientFromPort name client).ports.get? n =
    (s.ports.get? n).map fun w => if n = name then { w with connectedClients := w.connectedClients.erase client } else w := by
  unfold removeClientFromPort
  cases h : s.ports.get? name with
  | none => by_cases hn : n = name <;> simp [hn, h]
  | some w => by_cases hn : n = name <;> simp [hn, h, Dict.get?_set_ne]

@[simp] theorem clientPortMap_removeClientFromPort : (s.removeClientFromPort name client).clientPortMap = s.clientPortMap := by
  unfold removeClientFromPort
  cases s.ports.get? name <;> rfl

@[simp] theorem attachedTo_removeClientFromPort : (s.removeClientFromPort name client).attachedTo = s.attachedTo := by
  unfold removeClientFromPort
  cases s.ports.get? name <;> rfl

@[simp] theorem next_removeClientFromPort : (s.removeClientFromPort name client).next = s.next := by
  unfold removeClientFromPort
  cases s.ports.get? name <;> rfl

@[simp] theorem portId_removeClientFromPort : (s.removeClientFromPort name client).portId n = s.portId n := by
  rw [portId, get?_removeClientFromPort, portId, Option.map_map]
  congr 1
  funext w
  by_cases hn : n = name <;> simp [hn]

@[simp] theorem next_disconnectClientFromPort : (s.disconnectClientFromPort client name).next = s.next := by
  unfold disconnectClientFromPort
  split <;> simp

@[simp] theorem portId_disconnectClientFromPort : (s.disconnectClientFromPort client name).portId n = s.portId n := by
  unfold disconnectClientFromPort
  split
  · exact portId_removeClientFromPort
  · rfl

@[simp] theorem next_leave : (s.leave client).next = s.next := by
  unfold leave
  split <;> simp

@[simp] theorem portId_leave : (s.leave client).portId n = s.portId n := by
  unfold leave
  split <;> simp

@[simp] theorem next_addClientToPort : (s.addClientToPort client name).next = s.next := by
  unfold addClientToPort
  split <;> rfl

theorem get?_addClientToPort : (s.addClientToPort client name).ports.get? n =
    (s.ports.get? n).map fun w => if n = name then { w with connectedClients := w.connectedClients ++ [client] } else w := by
  unfold addClientToPort
  cases h : s.ports.get? name with
  | none => by_cases hn : n = name <;> simp [hn, h]
  | some w => by_cases hn : n = name <;> simp [hn, h, Dict.get?_set_ne]

@[simp] theorem portId_addClientToPort : (s.addClientToPort client name).portId n = s.portId n := by
  rw [portId, get?_addClientToPort, portId, Option.map_map]
  congr 1
  funext w
  by_cases hn : n = name <;> simp [hn]

@[simp] theorem next_connectClientToPort : (s.connectClientToPort client name).next = s.next := by simp [connectClientToPort]

@[simp] theorem portId_connectClientToPort : (s.connectClientToPort client name).portId n = s.portId n := by
  simp [connectClientToPort]

@[simp] theorem next_registerUnifiedPort : (s.registerUnifiedPort name).next = s.next + 1 := rfl

@[simp] theorem next_unregisterUnifiedPort : (s.unregisterUnifiedPort name).next = s.next := rfl

theorem portId_registerUnifiedPort : (s.registerUnifiedPort name).portId n = if n = name then some s.next else s.portId n := by
  by_cases hn : n = name <;> simp [portId, registerUnifiedPort, Dict.get?_set, hn]

theorem portId_unregisterUnifiedPort : (s.unregisterUnifiedPort name).portId n = if n = name then none else s.portId n := by
  by_cases hn : n = name <;> simp [portId, unregisterUnifiedPort, Dict.get?_pop, hn]

/-! ## Who is where -/

/-- A port object has one name, and its list has the clients that were attached to it, under that name. -/
structure Inv (s : Consoles) : Prop where
  fresh : ∀ n id, s.portId n = some id → id < s.next
  known : ∀ c id, s.attachedTo.get? c = some id → id < s.next
  single : ∀ n n' id, s.portId n = some id → s.portId n' = some id → n = n'
  nodup : ∀ n w, s.ports.get? n = some w → w.connectedClients.Nodup
  listed : ∀ n w c, s.ports.get? n = some w → (c ∈ w.connectedClients ↔ s.attachedTo.get? c = some w.id)
  named : ∀ n id c, s.portId n = some id → s.attachedTo.get? c = some id → s.clientPortMap.get? c = some n

theorem inv_initial : Inv {} := by
  constructor <;> simp [portId]

theorem Inv.disconnectClientFromPort (hI : s.Inv) (client name : Text) : (s.disconnectClientFromPort client name).Inv := by
  by_cases hmap : s.clientPortMap.get? client = some name
  · have heq : s.disconnectClientFromPort client name = { s.removeClientFromPort name client with
        clientPortMap := s.clientPortMap.pop client
        attachedTo := s.attachedTo.pop client } := if_pos hmap
    have hid : ∀ n, (s.disconnectClientFromPort client name).portId n = s.portId n := fun n => portId_disconnectClientFromPort
    constructor
    · intro n id h
      rw [hid] at h
      simpa using hI.fresh n id h
    · intro c id h
      rw [heq] at h ⊢
      simpa using hI.known c id (Dict.get?_of_get?_pop h)
    · intro n n' id h h'
      rw [hid] at h h'
      exact hI.single n n' id h h'
    · intro n w h
      rw [heq] at h
      obtain ⟨w', hw', rfl⟩ := Option.map_eq_some_iff.mp (get?_removeClientFromPort ▸ h)
      have hnodup := hI.nodup n w' hw'
      by_cases hn : n = name
      · simpa [hn] using hnodup.erase client
      · simpa [hn] using hnodup
    · intro n w c h
      rw [heq] at h ⊢
      obtain ⟨w', hw', rfl⟩ := Option.map_eq_some_iff.mp (get?_removeClientFromPort ▸ h)
      have hlisted := hI.listed n w' c hw'
      have hnodup := hI.nodup n w' hw'
      by_cases hn : n = name
      · simp only [hn, if_true, hnodup.mem_erase_iff, Dict.get?_pop, hlisted]
        by_cases hc : c = client <;> simp [hc]
      · simp only [hn, if_false, Dict.get?_pop, hlisted]
        by_cases hc : c = client
        · subst hc
          simp only [if_true]
          refine iff_of_false (fun hat => hn ?_) (by simp)
          exact Option.some.inj ((hI.named n w'.id c (portId_of_get? hw') hat).symm.trans hmap)
        · simp [hc]
    · intro n id c h h'
      rw [hid] at h
      rw [heq] at h' ⊢
      have hne : c ≠ client := by
        rintro rfl
        simp at h'
      exact (Dict.get?_pop_ne _ hne).trans (hI.named n id c h (Dict.get?_of_get?_pop h'))
  · rwa [Consoles.disconnectClientFromPort, if_neg hmap]

theorem Inv.leave (hI : s.Inv) (client : Text) : (s.leave client).Inv := by
  unfold Consoles.leave
  split
  · exact hI.disconnectClientFromPort client _
  · exact hI

/-- A client that has left is at no port. -/
theorem Inv.not_attached_leave (hI : s.Inv) (h : s.portId n = some id) : (s.leave client).attachedTo.get? client ≠ some id := by
  intro hat
  unfold Consoles.leave at hat
  cases hmap : s.clientPortMap.get? client with
  | none =>
      rw [hmap] at hat
      cases hmap.symm.trans (hI.named n id client h hat)
  | some name => simp [hmap, Consoles.disconnectClientFromPort] at hat

theorem Inv.addClientToPort (hI : s.Inv) (hfree : ∀ n id, s.portId n = some id → s.attachedTo.get? client ≠ some id) (name : Text) :
    (s.addClientToPort client name).Inv := by
  cases hport : s.ports.get? name with
  | none =>
      have heq : s.addClientToPort client name = s := by simp only [Consoles.addClientToPort, hport]
      rwa [heq]
  | some w =>
      have heq : s.addClientToPort client name = { s with
          ports := s.ports.set name { w with connectedClients := w.connectedClients ++ [client] }
          clientPortMap := s.clientPortMap.set client name
          attachedTo := s.attachedTo.set client w.id } := by simp only [Consoles.addClientToPort, hport]
      have hid : ∀ n, (s.addClientToPort client name).portId n = s.portId n := fun n => portId_addClientToPort
      have hw := portId_of_get? hport
      constructor
      · intro n id h
        rw [hid] at h
        simpa using hI.fresh n id h
      · intro c id h
        rw [heq, Dict.get?_set] at h
        rw [next_addClientToPort]
        split at h
        · cases h
          exact hI.fresh name w.id hw
        · exact hI.known c id h
      · intro n n' id h h'
        rw [hid] at h h'
        exact hI.single n n' id h h'
      · intro n w' h
        obtain ⟨w', hw', rfl⟩ := Option.map_eq_some_iff.mp (get?_addClientToPort ▸ h)
        have hnodup := hI.nodup n w' hw'
        have hnot : client ∉ w'.connectedClients := fun hmem =>
          hfree n w'.id (portId_of_get? hw') ((hI.listed n w' client hw').mp hmem)
        by_cases hn : n = name
        · simpa [hn, List.nodup_append] using ⟨hnodup, fun a ha hac => hnot (hac ▸ ha)⟩
        · simpa [hn] using hnodup
      · intro n w' c h
        obtain ⟨w', hw', rfl⟩ := Option.map_eq_some_iff.mp (get?_addClientToPort ▸ h)
        have hlisted := hI.listed n w' c hw'
        have hw'id := portId_of_get? hw'
        rw [heq, Dict.get?_set]
        by_cases hn : n = name
        · subst hn
          cases hport.symm.trans hw'
          by_cases hc : c = client <;> simp [hc, hlisted]
        · simp only [hn, if_false, hlisted]
          by_cases hc : c = client
          · subst hc
            simp only [if_true]
            refine iff_of_false (hfree n w'.id hw'id) (fun hid' => hn ?_)
            exact hI.single n name w'.id hw'id (hw.trans hid')
          · simp [hc]
      · intro n id c h h'
        rw [hid] at h
        rw [heq, Dict.get?_set] at h' ⊢
        split at h'
        · cases h'
          rename_i hc
          rw [if_pos hc, hI.single n name w.id h hw]
        · rename_i hc
          rw [if_neg hc]
          exact hI.named n id c h h'

theorem Inv.connectClientToPort (hI : s.Inv) (client name : Text) : (s.connectClientToPort client name).Inv := by
  refine (hI.leave client).addClientToPort (fun n id h => ?_) name
  rw [portId_leave] at h
  exact hI.not_attached_leave h

theorem Inv.registerUnifiedPort (hI : s.Inv) (name : Text) : (s.registerUnifiedPort name).Inv := by
  have hne : ∀ c, s.attachedTo.get? c ≠ some s.next := fun c h => lt_irrefl _ (hI.known c s.next h)
  have hnone : ∀ n, s.portId n ≠ some s.next := fun n h => lt_irrefl _ (hI.fresh n s.next h)
  constructor
  · intro n id h
    rw [portId_registerUnifiedPort] at h
    rw [next_registerUnifiedPort]
    split at h
    · cases h
      exact Nat.lt_succ_self _
    · exact Nat.lt_succ_of_lt (hI.fresh n id h)
  · intro c id h
    exact Nat.lt_succ_of_lt (hI.known c id h)
  · intro n n' id h h'
    rw [portId_registerUnifiedPort] at h h'
    split at h <;> split at h'
    · simp_all
    · cases h
      exact absurd h' (hnone n')
    · cases h'
      exact absurd h (hnone n)
    · exact hI.single n n' id h h'
  · intro n w h
    rw [Consoles.registerUnifiedPort, Dict.get?_set] at h
    split at h
    · cases h
      exact List.nodup_nil
    · exact hI.nodup n w h
  · intro n w c h
    rw [Consoles.registerUnifiedPort, Dict.get?_set] at h
    split at h
    · cases h
      exact iff_of_false (by simp) (hne c)
    · exact hI.listed n w c h
  · intro n id c h h'
    rw [portId_registerUnifiedPort] at h
    split at h
    · cases h
      exact absurd h' (hne c)
    · exact hI.named n id c h h'

theorem Inv.unregisterUnifiedPort (hI : s.Inv) (name : Text) : (s.unregisterUnifiedPort name).Inv := by
  have hid : ∀ n id, (s.unregisterUnifiedPort name).portId n = some id → s.portId n = some id := by
    intro n id h
    rw [portId_unregisterUnifiedPort] at h
    split at h
    · cases h
    · exact h
  have hget : ∀ n w, (s.unregisterUnifiedPort name).ports.get? n = some w → s.ports.get? n = some w :=
    fun n w h => Dict.get?_of_get?_pop h
  exact {
    fresh := fun n id h => hI.fresh n id (hid n id h)
    known := hI.known
    single := fun n n' id h h' => hI.single n n' id (hid n id h) (hid n' id h')
    nodup := fun n w h => hI.nodup n w (hget n w h)
    listed := fun n w c h => hI.listed n w c (hget n w h)
    named := fun n id c h => hI.named n id c (hid n id h) }

theorem Inv.step {a : ConsolesAct} (hI : s.Inv) (h : s.step a = some t) : t.Inv := by
  cases a with
  | attach client name => cases h; exact hI.connectClientToPort client name
  | detach client => cases h; exact hI.leave client
  | register name => cases h; exact hI.registerUnifiedPort name
  | unregister name => cases h; exact hI.unregisterUnifiedPort name

/-! ## A client that is where its port says -/

/-- A client whose port has the name is at the port object with the name. -/
def Present (s : Consoles) (client name : Text) : Prop :=
  s.clientPortMap.get? client = some name → ∃ id, s.portId name = some id ∧ s.attachedTo.get? client = some id

theorem Inv.present (hI : s.Inv) (h : s.ports.get? name = some w) (hc : c ∈ w.connectedClients) : s.Present c name :=
  fun _ => ⟨w.id, portId_of_get? h, (hI.listed name w c h).mp hc⟩

theorem Present.disconnectClientFromPort (h : s.Present c n) (client name : Text) :
    (s.disconnectClientFromPort client name).Present c n := by
  intro hmap
  rw [portId_disconnectClientFromPort]
  unfold Consoles.disconnectClientFromPort at hmap ⊢
  split at hmap
  · rename_i hname
    have hne : c ≠ client := by
      rintro rfl
      simp at hmap
    rw [if_pos hname]
    simp only [Dict.get?_pop_ne _ hne]
    exact h (Dict.get?_of_get?_pop hmap)
  · rename_i hname
    rw [if_neg hname]
    exact h hmap

theorem Present.leave (h : s.Present c n) (client : Text) : (s.leave client).Present c n := by
  unfold Consoles.leave
  split
  · exact h.disconnectClientFromPort client _
  · exact h

theorem Present.addClientToPort (h : s.Present c n) (client name : Text) : (s.addClientToPort client name).Present c n := by
  intro hmap
  rw [portId_addClientToPort]
  cases hport : s.ports.get? name with
  | none =>
      simp only [Consoles.addClientToPort, hport] at hmap ⊢
      exact h hmap
  | some w =>
      simp only [Consoles.addClientToPort, hport, Dict.get?_set] at hmap ⊢
      by_cases hc : c = client
      · rw [if_pos hc] at hmap ⊢
        cases hmap
        exact ⟨w.id, portId_of_get? hport, rfl⟩
      · rw [if_neg hc] at hmap ⊢
        exact h hmap

theorem Present.connectClientToPort (h : s.Present c n) (client name : Text) : (s.connectClientToPort client name).Present c n :=
  (h.leave client).addClientToPort client name

end Consoles

/-! ## The reload -/

namespace Reload

open Consoles

variable {before : Sections α} {s t : Reload α}

/-- What holds in each phase. -/
def Stage (before : Sections α) (s : Reload α) : Prop :=
  match s.phase with
  | .received _ _ => s.config = before ∧ s.disconnected = [] ∧ s.results = ∅ ∧ s.gone = []
  | .applying todo _ => s.config = before ∧ s.disconnected = [] ∧ ∀ e ∈ todo, s.wants.get? e.1 = some e.2
  | .disconnecting clients _ => s.config = before ∧ ∀ e ∈ clients, s.consoles.Present e.1 e.2
  | .done => True

/-- Port objects that are gone do not come back, and only sections that were asked for have a result. -/
structure Inv (before : Sections α) (s : Reload α) : Prop where
  consoles : s.consoles.Inv
  gone : ∀ id ∈ s.gone, id < s.consoles.next ∧ ∀ n, s.consoles.portId n ≠ some id
  asked : ∀ k r, s.results.get? k = some r → ∃ lst, s.wants.get? k = some lst
  stage : s.Stage before

/-- No client was disconnected from a port object that is not gone, and a reload that is over was truthful. -/
def Sound (before : Sections α) (s : Reload α) : Prop :=
  (∀ d ∈ s.disconnected, d.2 ∈ s.gone) ∧ (s.phase = .done → s.Truthful before)

theorem sound_iff_of_ne_done (h : s.phase ≠ .done) : s.Sound before ↔ ∀ d ∈ s.disconnected, d.2 ∈ s.gone :=
  and_iff_left fun hdone => absurd hdone h

theorem inv_start {consoles : Consoles} (h : consoles.Inv) (caller : Caller) (body : Body α) :
    (start consoles before caller body).Inv before where
  consoles := h
  gone := by simp [start]
  asked := by simp [start]
  stage := ⟨rfl, rfl, rfl, rfl⟩

theorem sound_start {consoles : Consoles} (caller : Caller) (body : Body α) : (start consoles before caller body).Sound before :=
  (sound_iff_of_ne_done (by simp [start])).mpr (by simp [start])

theorem gone_or_removed {consoles : Consoles} (hI : consoles.Inv) {gone : List ℕ}
    (hgone : ∀ id ∈ gone, id < consoles.next ∧ ∀ n, consoles.portId n ≠ some id) {id : ℕ} {name : Text}
    (h : id ∈ gone ++ (consoles.portId name).toList) : id < consoles.next ∧ ∀ n, n ≠ name → consoles.portId n ≠ some id := by
  rcases List.mem_append.mp h with hid | hid
  · exact ⟨(hgone id hid).1, fun n _ => (hgone id hid).2 n⟩
  · have hport : consoles.portId name = some id := by simpa using hid
    exact ⟨hI.fresh name id hport, fun n hn hn' => hn (hI.single n name id hn' hport)⟩

/-- A port object that is gone stays away. -/
theorem gone_step {consoles consoles' : Consoles} {a : ConsolesAct} (hI : consoles.Inv) (h : consoles.step a = some consoles')
    {gone : List ℕ} (hgone : ∀ id ∈ gone, id < consoles.next ∧ ∀ n, consoles.portId n ≠ some id) :
    ∀ id ∈ gone ++ removedBy consoles a, id < consoles'.next ∧ ∀ n, consoles'.portId n ≠ some id := by
  intro id hid
  cases a with
  | attach client name =>
      cases h
      simpa [removedBy] using hgone id (by simpa [removedBy] using hid)
  | detach client =>
      cases h
      simpa [removedBy] using hgone id (by simpa [removedBy] using hid)
  | register name =>
      cases h
      have hold := gone_or_removed hI hgone hid
      refine ⟨Nat.lt_succ_of_lt hold.1, fun n => ?_⟩
      rw [portId_registerUnifiedPort]
      split
      · exact fun heq => lt_irrefl _ (Option.some.inj heq ▸ hold.1)
      · rename_i hn
        exact hold.2 n hn
  | unregister name =>
      cases h
      have hold := gone_or_removed hI hgone hid
      refine ⟨hold.1, fun n => ?_⟩
      rw [portId_unregisterUnifiedPort]
      split
      · simp
      · rename_i hn
        exact hold.2 n hn

/-- Clients that are where their port says stay so while no port changes. -/
theorem present_step {consoles consoles' : Consoles} {a : ConsolesAct} (h : consoles.step a = some consoles') {client name : Text}
    (hregister : ∀ n, a ≠ .register n) (hunregister : ∀ n, a ≠ .unregister n) (hpresent : consoles.Present client name) :
    consoles'.Present client name := by
  cases a with
  | attach c n => cases h; exact hpresent.connectClientToPort c n
  | detach c => cases h; exact hpresent.leave c
  | register n => exact absurd rfl (hregister n)
  | unregister n => exact absurd rfl (hunregister n)

/-- Ports change only while a section is reconciled. -/
theorem allows_inv {a : ConsolesAct} (h : s.Allows a = true) :
    (∃ todo, s.phase = .applying todo true) ∨ s.phase ≠ .done ∧ (∀ n, a ≠ .register n) ∧ (∀ n, a ≠ .unregister n) := by
  cases a <;> cases hphase : s.phase <;> simp_all [Allows]

/-- An act of a client or an adapter. -/
theorem Inv.step_console {a : ConsolesAct} (hI : s.Inv before) (h : s.step (.console a) = some t) :
    t.Inv before ∧ (t.Sound before ↔ s.Sound before) := by
  simp only [step, Option.ite_none_right_eq_some, Option.map_eq_some_iff] at h
  obtain ⟨hallows, consoles, hstep, rfl⟩ := h
  have hconsoles := hI.consoles.step hstep
  have hgone := gone_step hI.consoles hstep hI.gone
  have hstage := hI.stage
  rcases allows_inv hallows with ⟨todo, hphase⟩ | ⟨hdone, hregister, hunregister⟩
  · simp only [Stage, hphase] at hstage
    refine ⟨⟨hconsoles, hgone, hI.asked, by simpa only [Stage, hphase] using hstage⟩, ?_⟩
    rw [sound_iff_of_ne_done (by simp [hphase]), sound_iff_of_ne_done (by simp [hphase])]
    simp [hstage.2.1]
  · have hremoved : removedBy s.consoles a = [] := by
      cases a <;> simp_all [removedBy]
    rw [hremoved, List.append_nil] at hgone ⊢
    refine ⟨⟨hconsoles, hgone, hI.asked, ?_⟩, ?_⟩
    · cases hphase : s.phase with
      | disconnecting clients names =>
          simp only [Stage, hphase] at hstage ⊢
          exact ⟨hstage.1, fun e he => present_step hstep hregister hunregister (hstage.2 e he)⟩
      | received caller body => simpa only [Stage, hphase] using hstage
      | applying todo reconciling => simpa only [Stage, hphase] using hstage
      | done => exact absurd hphase hdone
    · rw [sound_iff_of_ne_done hdone]
      exact sound_iff_of_ne_done hdone

/-- A request that is refused leaves everything as it is. -/
theorem Inv.step_read (hI : s.Inv before) (h : s.step .read = some t) :
    t.Inv before ∧ (t.Sound before ↔ s.Sound before ∧ s.Clean .read) := by
  have hstage := hI.stage
  cases hphase : s.phase with
  | received caller body =>
      simp only [Stage, hphase] at hstage
      obtain ⟨hconfig, hdisconnected, hresults, hgone⟩ := hstage
      have hsound : s.Sound before := (sound_iff_of_ne_done (by simp [hphase])).mpr (by simp [hdisconnected])
      cases hreq : wantsOf caller body with
      | error refusal =>
          simp only [step, hphase, hreq, Option.some.injEq] at h
          subst h
          refine ⟨⟨hI.consoles, hI.gone, hI.asked, trivial⟩, ?_⟩
          simp only [hsound, true_and, Clean, hphase, hreq, Except.isOk, Except.toBool, forall_const]
          constructor
          · intro ht
            exact (ht.2 rfl).names
          · intro hnames
            refine ⟨by simp [hdisconnected], fun _ => ⟨fun k => ?_, ?_, by simp [hdisconnected], hnames⟩⟩
            · simp [Applied, hresults, hconfig]
            · simp [hgone]
      | ok wants =>
          simp only [step, hphase, hreq, Option.some.injEq] at h
          subst h
          refine ⟨⟨hI.consoles, hI.gone, by simp [hresults], ⟨hconfig, hdisconnected, fun e he => Dict.mem_entries.mp he⟩⟩, ?_⟩
          refine iff_of_true ?_ ⟨hsound, by simp [Clean, hphase, hreq, Except.isOk, Except.toBool]⟩
          exact (sound_iff_of_ne_done (by simp)).mpr (by simp [hdisconnected])
  | applying todo reconciling => simp [step, hphase] at h
  | disconnecting clients names => simp [step, hphase] at h
  | done => simp [step, hphase] at h

theorem asked_set {k : Section} {lst : List (PortItem α)} (hI : s.Inv before) (hk : s.wants.get? k = some lst) (result : Summary) :
    ∀ k' r, (s.results.set k result).get? k' = some r → ∃ lst, s.wants.get? k' = some lst := by
  intro k' r hr
  by_cases hk' : k' = k
  · exact ⟨lst, hk' ▸ hk⟩
  · exact hI.asked k' r (by rwa [Dict.get?_set_ne _ _ hk'] at hr)

/-- While sections are applied nobody is disconnected. -/
theorem sound_applying {todo : List (Section × List (PortItem α))} {reconciling : Bool} (hI : s.Inv before)
    (hphase : s.phase = .applying todo reconciling) : s.Sound before := by
  have hstage := hI.stage
  simp only [Stage, hphase] at hstage
  exact (sound_iff_of_ne_done (by simp [hphase])).mpr (by simp [hstage.2.1])

/-- The result of the section in turn. -/
theorem Inv.record {k : Section} {lst : List (PortItem α)} {todo : List (Section × List (PortItem α))} {reconciling : Bool}
    (hI : s.Inv before) (hphase : s.phase = .applying ((k, lst) :: todo) reconciling) (result : Summary) :
    Inv before { s with phase := .applying todo false, results := s.results.set k result } := by
  have hstage := hI.stage
  simp only [Stage, hphase] at hstage
  obtain ⟨hconfig, hdisconnected, hwants⟩ := hstage
  exact ⟨hI.consoles, hI.gone, asked_set hI (hwants (k, lst) List.mem_cons_self) result, hconfig, hdisconnected,
    fun e he => hwants e (List.mem_cons_of_mem _ he)⟩

theorem Inv.step_apply {aobj : Option SectionAdapter} (hI : s.Inv before) (h : s.step (.apply aobj) = some t) :
    t.Inv before ∧ (t.Sound before ↔ s.Sound before) := by
  simp only [step] at h
  split at h
  · rename_i k lst todo hphase
    have hsound := sound_applying hI hphase
    cases hone : applyOne aobj k lst with
    | some result =>
        simp only [hone, Option.some.injEq] at h
        subst h
        have hI' := hI.record hphase result
        exact ⟨hI', iff_of_true (sound_applying hI' rfl) hsound⟩
    | none =>
        simp only [hone, Option.some.injEq] at h
        subst h
        have hI' : Inv before { s with phase := .applying ((k, lst) :: todo) true } :=
          ⟨hI.consoles, hI.gone, hI.asked, by simpa only [Stage, hphase] using hI.stage⟩
        exact ⟨hI', iff_of_true (sound_applying hI' rfl) hsound⟩
  · cases h

theorem Inv.step_reconciled {result : Option Summary} (hI : s.Inv before) (h : s.step (.reconciled result) = some t) :
    t.Inv before ∧ (t.Sound before ↔ s.Sound before) := by
  simp only [step] at h
  split at h
  · rename_i k lst todo hphase
    cases h
    have hI' := hI.record hphase (result.getD (.failure "Apply failed".toList))
    exact ⟨hI', iff_of_true (sound_applying hI' rfl) (sound_applying hI hphase)⟩
  · cases h

/-- Whoever the disconnect phase disconnects was at a port object that is there. -/
theorem Inv.step_disconnect (hI : s.Inv before) (h : s.step .disconnect = some t) :
    t.Inv before ∧ (t.Sound before ↔ s.Sound before ∧ s.Clean .disconnect) := by
  simp only [step] at h
  split at h
  · rename_i client name clients names hphase
    have hstage := hI.stage
    simp only [Stage, hphase] at hstage
    obtain ⟨hconfig, hclients⟩ := hstage
    cases h
    refine ⟨⟨hI.consoles.disconnectClientFromPort client name, by simpa using hI.gone, hI.asked, hconfig, fun e he => ?_⟩, ?_⟩
    · exact (hclients e (List.mem_cons_of_mem _ he)).disconnectClientFromPort client name
    · rw [sound_iff_of_ne_done (by simp), sound_iff_of_ne_done (by simp [hphase])]
      simp only [Clean, hphase]
      by_cases hmap : s.consoles.clientPortMap.get? client = some name
      · obtain ⟨id, hport, hat⟩ := hclients (client, name) List.mem_cons_self hmap
        have hthere : id ∉ s.gone := fun hgone => (hI.gone id hgone).2 name hport
        refine iff_of_false (fun hall => hthere ?_) (fun hclean => hclean.2 hmap)
        exact hall (client, id) (by simp [hmap, hat])
      · simp [hmap]
  · cases h

/-- The snapshot is right exactly if it is settled. -/
theorem truthful_iff_settled {s : Reload α} (hI : s.Inv before) (hconfig : s.config = before)
    (honly : ∀ d ∈ s.disconnected, d.2 ∈ s.gone) :
    Truthful before { s with config := s.config.update s.wants, phase := .done } ↔ s.Settled := by
  have hsection : ∀ k, (s.config.update s.wants).get? k = (if s.Applied k then s.wants.get? k else before.get? k) ↔
      ∀ lst, s.wants.get? k = some lst → s.Applied k ∨ s.config.get? k = some lst := by
    intro k
    rw [Dict.get?_update, hconfig]
    cases hwants : s.wants.get? k with
    | none =>
        have hnot : ¬ s.Applied k := by
          intro happlied
          cases hr : s.results.get? k with
          | none => simp [Applied, hr] at happlied
          | some r =>
              obtain ⟨lst, hlst⟩ := hI.asked k r hr
              cases hwants.symm.trans hlst
        simp [hnot]
    | some lst =>
        by_cases happlied : s.Applied k
        · simp [happlied]
        · simp [happlied, eq_comm]
  constructor
  · intro h
    refine ⟨fun e he => ?_, fun e he => ?_, h.names⟩
    · exact (hsection e.1).mp (h.config e.1) e.2 (Dict.mem_entries.mp he)
    · exact h.left e.1 e.2 (Dict.mem_entries.mp he)
  · rintro ⟨happlied, hleft, hnames⟩
    refine ⟨fun k => ?_, fun c id hc => ?_, honly, hnames⟩
    · exact (hsection k).mpr fun lst hlst => happlied (k, lst) (Dict.mem_entries.mpr hlst)
    · exact hleft (c, id) (Dict.mem_entries.mpr hc)

theorem Inv.step_proceed (hI : s.Inv before) (h : s.step .proceed = some t) :
    t.Inv before ∧ (t.Sound before ↔ s.Sound before ∧ s.Clean .proceed) := by
  have hstage := hI.stage
  simp only [step] at h
  split at h
  · rename_i hphase
    simp only [Stage, hphase] at hstage
    cases h
    refine ⟨⟨hI.consoles, hI.gone, hI.asked, hstage.1, by simp⟩, ?_⟩
    exact iff_of_true ((sound_iff_of_ne_done (by simp)).mpr (by simp [hstage.2.1])) ⟨sound_applying hI hphase, by simp [Clean, hphase]⟩
  · rename_i name names hphase
    simp only [Stage, hphase] at hstage
    cases h
    refine ⟨⟨hI.consoles, hI.gone, hI.asked, hstage.1, fun e he => ?_⟩, ?_⟩
    · cases hport : s.consoles.ports.get? name with
      | none => simp [clientsOf, hport] at he
      | some w =>
          simp only [clientsOf, hport, List.mem_map] at he
          obtain ⟨c, hc, rfl⟩ := he
          exact hI.consoles.present hport hc
    · rw [sound_iff_of_ne_done (by simp), sound_iff_of_ne_done (by simp [hphase])]
      simp [Clean, hphase]
  · rename_i hphase
    simp only [Stage, hphase] at hstage
    cases h
    refine ⟨⟨hI.consoles, hI.gone, hI.asked, trivial⟩, ?_⟩
    have hsound : s.Sound before ↔ _ := sound_iff_of_ne_done (by simp [hphase])
    rw [hsound]
    simp only [Clean, hphase]
    constructor
    · intro ht
      exact ⟨ht.1, (truthful_iff_settled hI hstage.1 ht.1).mp (ht.2 rfl)⟩
    · rintro ⟨honly, hsettled⟩
      exact ⟨honly, fun _ => (truthful_iff_settled hI hstage.1 honly).mpr hsettled⟩
  · cases h

/-- A step loses the truth exactly where it is not clean. -/
theorem Inv.step {a : ReloadAct} (hI : s.Inv before) (h : s.step a = some t) :
    t.Inv before ∧ (t.Sound before ↔ s.Sound before ∧ s.Clean a) := by
  cases a with
  | console a => simpa [Clean] using hI.step_console h
  | read => exact hI.step_read h
  | apply aobj => simpa [Clean] using hI.step_apply h
  | reconciled result => simpa [Clean] using hI.step_reconciled h
  | disconnect => exact hI.step_disconnect h
  | proceed => exact hI.step_proceed h

end Reload

end OpenMux.Web
