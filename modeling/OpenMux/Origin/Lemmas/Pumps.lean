import OpenMux.Origin.Relay

/-!
# The registry of pumps

Along clean steps a session slot has at most one pump that is not cancelled; it is the one that `_pump_tasks` has for the
slot, and the session map has its port.
-/

namespace OpenMux.Origin

open Py Streams

/-- Setting an entry does not change what a function gives, if it gives the same for the new entry. -/
theorem map_set_of_eq {α β : Type} {l : List α} {f : α → β} {i : Nat} {a a' : α} (ha : l[i]? = some a) (h : f a' = f a) :
    (l.set i a').map f = l.map f := by
  refine List.ext_getElem? fun j => ?_
  rw [List.getElem?_map, List.getElem?_map, List.getElem?_set]
  split
  · rename_i hij
    subst hij
    rw [ha, if_pos (List.getElem?_eq_some_iff.mp ha).1]
    exact congrArg some h
  · rfl

namespace Pump

variable {t : Pump} {peerKey port : Text}

theorem live_of_running (h : t.running) : t.live := by
  unfold running held at h
  unfold live
  split at h <;> simp_all

theorem serves_iff : t.serves peerKey port ↔ t.running ∧ t.slot.1 = peerKey ∧ t.portName = port := by
  simp [serves, and_assoc]

@[simp] theorem live_cancel : t.cancel.live = false := by simp [cancel, live]

@[simp] theorem serves_cancel : t.cancel.serves peerKey port = false := by simp [cancel, serves, running]

@[simp] theorem cancel_slot : t.cancel.slot = t.slot := rfl

@[simp] theorem cancel_portName : t.cancel.portName = t.portName := rfl

@[simp] theorem cancel_held : t.cancel.held = t.held := rfl

end Pump

namespace OriginNode

variable {cfg : OriginCfg} {n n' : OriginNode} {slot : Slot} {name payload : Text} {i j : Nat} {t t₁ : Pump} {o : Opening}

structure Registry (n : OriginNode) : Prop where
  opening : ∀ o ∈ n.opening, n.sessionPort o.slot = some o.portName
  openingDistinct : (n.opening.map Opening.slot).Nodup
  openingNew : ∀ o ∈ n.opening, o.existing ≠ some o.portName → ∀ t ∈ n.tasks, t.live → t.slot ≠ o.slot
  slots : ∀ slot i, n.pumpTasks.get? slot = some i → ∃ t, n.tasks[i]? = some t ∧ t.slot = slot
  registered : ∀ i t, n.tasks[i]? = some t → t.live →
    n.pumpTasks.get? t.slot = some i ∧ n.sessionPort t.slot = some t.portName
  released : ∀ i t, n.tasks[i]? = some t → t.cancelled → n.pumpTasks.get? t.slot ≠ some i

/-- A registry in which every session has its pump, or a handler. -/
structure Managed (n : OriginNode) : Prop extends n.Registry where
  backed : ∀ slot port, n.sessionPort slot = some port → port ≠ [] → (∃ o ∈ n.opening, o.slot = slot) ∨
    ∃ t ∈ n.tasks, t.live ∧ t.slot = slot ∧ t.portName = port

theorem Managed.outside (h : n.Managed) (hopening : n'.opening = n.opening) (htasks : n'.tasks = n.tasks)
    (hpump : n'.pumpTasks = n.pumpTasks) (hsession : n'.localSessionMap = n.localSessionMap) : n'.Managed := by
  have hport : ∀ slot, n'.sessionPort slot = n.sessionPort slot := fun slot => by rw [sessionPort, hsession]; rfl
  refine { opening := ?_, openingDistinct := ?_, openingNew := ?_, slots := ?_, registered := ?_, released := ?_, backed := ?_ }
  · intro o ho
    rw [hport]
    exact h.opening o (hopening ▸ ho)
  · rw [hopening]; exact h.openingDistinct
  · rw [hopening, htasks]; exact h.openingNew
  · rw [hpump, htasks]; exact h.slots
  · intro i t ht hl
    rw [hpump, hport]
    exact h.registered i t (htasks ▸ ht) hl
  · rw [hpump, htasks]; exact h.released
  · intro slot port hs hne
    rw [hopening, htasks]
    exact h.backed slot port (hport slot ▸ hs) hne

/-- The pump of a session is the only one of its slot. -/
theorem Registry.live_unique {t' : Pump} (h : n.Registry) (ht : n.tasks[i]? = some t) (ht' : n.tasks[j]? = some t')
    (hl : t.live) (hl' : t'.live) (hslot : t.slot = t'.slot) : i = j := by
  have hi := (h.registered i t ht hl).1
  rw [hslot, (h.registered j t' ht' hl').1, Option.some.injEq] at hi
  exact hi.symm

/-! ## Steps of pumps -/

/-- A pump that stays as it is but for its stage. -/
theorem Managed.setTask (t₁ : Pump) (h : n.Managed) (ht : n.tasks[i]? = some t) (hslot : t₁.slot = t.slot)
    (hport : t₁.portName = t.portName) (hcancelled : t₁.cancelled = t.cancelled) (hlive : t₁.live = t.live)
    (hopening : n'.opening = n.opening) (htasks : n'.tasks = n.tasks.set i t₁)
    (hpump : n'.pumpTasks = n.pumpTasks) (hsession : n'.localSessionMap = n.localSessionMap) : n'.Managed := by
  have hsame : ∀ slot, n'.sessionPort slot = n.sessionPort slot := fun slot => by rw [sessionPort, hsession]; rfl
  have hback : ∀ (j : Nat) (t' : Pump), n'.tasks[j]? = some t' → ∃ t : Pump, n.tasks[j]? = some t ∧ t'.slot = t.slot ∧
      t'.portName = t.portName ∧ t'.cancelled = t.cancelled ∧ t'.live = t.live := by
    intro j t' hj
    rw [htasks, List.getElem?_set] at hj
    split at hj
    · split at hj
      · cases hj
        subst_vars
        exact ⟨t, ht, hslot, hport, hcancelled, hlive⟩
      · cases hj
    · exact ⟨t', hj, rfl, rfl, rfl, rfl⟩
  have hfront : ∀ (j : Nat) (t : Pump), n.tasks[j]? = some t → ∃ t' : Pump, n'.tasks[j]? = some t' ∧ t'.slot = t.slot ∧
      t'.portName = t.portName ∧ t'.live = t.live := by
    intro j t' hj
    rw [htasks, List.getElem?_set]
    split
    · subst_vars
      rw [ht, Option.some.injEq] at hj
      subst hj
      rw [if_pos (List.getElem?_eq_some_iff.mp ht).1]
      exact ⟨t₁, rfl, hslot, hport, hlive⟩
    · exact ⟨t', hj, rfl, rfl, rfl⟩
  refine { opening := ?_, openingDistinct := ?_, openingNew := ?_, slots := ?_, registered := ?_, released := ?_, backed := ?_ }
  · intro o ho
    rw [hsame]
    exact h.opening o (hopening ▸ ho)
  · rw [hopening]; exact h.openingDistinct
  · intro o ho hne t' ht' hl
    obtain ⟨j, hj⟩ := List.mem_iff_getElem?.mp ht'
    obtain ⟨t, htj, hs, _, _, hlv⟩ := hback j t' hj
    rw [hs]
    exact h.openingNew o (hopening ▸ ho) hne t (List.mem_of_getElem? htj) (hlv ▸ hl)
  · intro slot j hj
    obtain ⟨t, htj, hs⟩ := h.slots slot j (hpump ▸ hj)
    obtain ⟨t', htj', hs', _⟩ := hfront j t htj
    exact ⟨t', htj', hs'.trans hs⟩
  · intro j t' hj hl
    obtain ⟨t, htj, hs, hp, _, hlv⟩ := hback j t' hj
    rw [hpump, hsame, hs, hp]
    exact h.registered j t htj (hlv ▸ hl)
  · intro j t' hj hc
    obtain ⟨t, htj, hs, _, hcc, _⟩ := hback j t' hj
    rw [hpump, hs]
    exact h.released j t htj (hcc ▸ hc)
  · intro slot port hs hne
    rw [hopening]
    rcases h.backed slot port (hsame slot ▸ hs) hne with ho | ⟨t, htm, hl, hts, htp⟩
    · exact Or.inl ho
    · obtain ⟨j, hj⟩ := List.mem_iff_getElem?.mp htm
      obtain ⟨t', htj', hs', hp', hl'⟩ := hfront j t hj
      exact Or.inr ⟨t', List.mem_of_getElem? htj', hl' ▸ hl, hs'.trans hts, hp'.trans htp⟩

/-! ## Sessions -/

/-- The tasks after the slot is claimed. -/
theorem claimSlot_tasks (j : Nat) : (n.claimSlot slot).tasks[j]? =
    (n.tasks[j]?).map fun t => if n.pumpTasks.get? slot = some j then t.cancel else t := by
  cases hp : n.pumpTasks.get? slot with
  | some i =>
      simp only [claimSlot, hp, List.getElem?_modify, Option.some.injEq]
      rfl
  | none => simp [claimSlot, hp]

/-- A pump that the claim leaves alive is a pump of another slot. -/
theorem Registry.of_claimSlot (h : n.Registry) (ht : (n.claimSlot slot).tasks[j]? = some t) (hl : t.live) :
    n.tasks[j]? = some t ∧ t.slot ≠ slot := by
  rw [claimSlot_tasks] at ht
  obtain ⟨t', ht', rfl⟩ := Option.map_eq_some_iff.mp ht
  split at hl
  · simp at hl
  · rename_i hne
    rw [if_neg hne]
    refine ⟨ht', ?_⟩
    rintro rfl
    exact hne (h.registered j t' ht' hl).1

/-- A pump of another slot is left as it is. -/
theorem Registry.claimSlot_other (h : n.Registry) (ht : n.tasks[j]? = some t) (hslot : t.slot ≠ slot) :
    (n.claimSlot slot).tasks[j]? = some t := by
  rw [claimSlot_tasks, ht, Option.map_some, if_neg]
  intro hp
  obtain ⟨t', ht', hs⟩ := h.slots slot j hp
  rw [ht, Option.some.injEq] at ht'
  exact hslot (ht' ▸ hs)

theorem Managed.claimSlot (h : n.Managed) (hs : n.Settled slot) : (n.claimSlot slot).Managed where
  opening o ho := by
    show (n.localSessionMap.pop slot).get? o.slot = _
    rw [Dict.get?_pop_ne _ (hs o ho)]
    exact h.opening o ho
  openingDistinct := h.openingDistinct
  openingNew o ho hne t ht hl := by
    obtain ⟨j, hj⟩ := List.mem_iff_getElem?.mp ht
    exact h.openingNew o ho hne t (List.mem_of_getElem? (h.of_claimSlot hj hl).1) hl
  slots slot' j hj := by
    obtain ⟨t, ht, hslot⟩ := h.slots slot' j (Dict.get?_of_get?_pop hj)
    refine ⟨_, by rw [claimSlot_tasks, ht, Option.map_some], ?_⟩
    split <;> exact hslot
  registered j t ht hl := by
    obtain ⟨ht', hne⟩ := h.of_claimSlot ht hl
    obtain ⟨hp, hport⟩ := h.registered j t ht' hl
    exact ⟨(Dict.get?_pop_ne _ hne).trans hp, (Dict.get?_pop_ne _ hne).trans hport⟩
  released j t ht hc := by
    intro hp
    have hp' := Dict.get?_of_get?_pop hp
    rw [claimSlot_tasks] at ht
    obtain ⟨t', ht', rfl⟩ := Option.map_eq_some_iff.mp ht
    split at hc
    · rename_i hi
      obtain ⟨t₂, ht₂, hslot⟩ := h.slots slot j hi
      rw [ht', Option.some.injEq] at ht₂
      subst ht₂
      rw [if_pos hi, Pump.cancel_slot, hslot] at hp
      exact absurd hp (by show (n.pumpTasks.pop slot).get? slot ≠ _; simp)
    · rename_i hi
      rw [if_neg hi] at hp'
      exact h.released j t' ht' hc hp'
  backed slot' port hport hne := by
    have hport' : n.sessionPort slot' = some port := Dict.get?_of_get?_pop hport
    have hslot : slot' ≠ slot := by
      rintro rfl
      exact absurd hport (by show (n.localSessionMap.pop slot').get? slot' ≠ _; simp)
    rcases h.backed slot' port hport' hne with ho | ⟨t, ht, hl, hts, htp⟩
    · exact Or.inl ho
    · obtain ⟨j, hj⟩ := List.mem_iff_getElem?.mp ht
      exact Or.inr ⟨t, List.mem_of_getElem? (h.claimSlot_other hj (hts ▸ hslot)), hl, hts, htp⟩

/-- A stop leaves the registry that the claim leaves. -/
theorem stopLocalSession_same (n : OriginNode) (slot : Slot) : (n.stopLocalSession slot).opening = n.opening ∧
    (n.stopLocalSession slot).tasks = (n.claimSlot slot).tasks ∧
    (n.stopLocalSession slot).pumpTasks = n.pumpTasks.pop slot ∧
    (n.stopLocalSession slot).localSessionMap = n.localSessionMap.pop slot := by
  unfold stopLocalSession closeView freeClient
  split
  · split <;> exact ⟨rfl, rfl, rfl, rfl⟩
  · exact ⟨rfl, rfl, rfl, rfl⟩

theorem Managed.stopLocalSession (h : n.Managed) (hs : n.Settled slot) : (n.stopLocalSession slot).Managed := by
  obtain ⟨h₁, h₂, h₃, h₄⟩ := stopLocalSession_same n slot
  exact (h.claimSlot hs).outside h₁ h₂ h₃ h₄

/-! ## The OPEN handler -/

theorem stopReused_session (slot : Slot) (name : Text) : (n.stopReused slot name).sessionPort slot = none ∨
    (n.stopReused slot name).sessionPort slot = some name ∧ n.sessionPort slot = some name := by
  unfold stopReused
  split
  · left
    unfold sessionPort
    rw [(stopLocalSession_same _ _).2.2.2, Dict.get?_pop_self]
  · rename_i h
    cases hs : n.sessionPort slot with
    | none => exact Or.inl rfl
    | some port =>
        have heq : port = name := by simpa [hs] using h
        exact Or.inr ⟨by rw [heq], by rw [heq]⟩

theorem Managed.stopReused (h : n.Managed) (hs : n.Settled slot) (name : Text) : (n.stopReused slot name).Managed ∧
    (n.stopReused slot name).opening = n.opening := by
  unfold OriginNode.stopReused
  split
  · exact ⟨h.stopLocalSession hs, (stopLocalSession_same _ _).1⟩
  · exact ⟨h, rfl⟩

/-- A slot that is free, or open to the port already, is mapped to the port. -/
theorem Managed.mapSlot {existing : Option Text} (h : n.Managed) (hs : n.Settled slot)
    (hfree : n.sessionPort slot = none ∨ n.sessionPort slot = some name ∧ existing = some name) :
    OriginNode.Managed { n with
      localSessionMap := n.localSessionMap.set slot name
      opening := n.opening ++ [⟨slot, name, existing, false⟩] } := by
  have hport : ∀ slot', slot' ≠ slot → (n.localSessionMap.set slot name).get? slot' = n.sessionPort slot' :=
    fun slot' hne => Dict.get?_set_ne _ _ hne
  refine { opening := ?_, openingDistinct := ?_, openingNew := ?_, slots := ?_, registered := ?_, released := ?_, backed := ?_ }
  · intro o ho
    rcases List.mem_append.mp ho with ho | ho
    · exact (hport o.slot (hs o ho)).trans (h.opening o ho)
    · cases List.mem_singleton.mp ho
      exact Dict.get?_set_self ..
  · rw [List.map_append, List.nodup_append]
    refine ⟨h.openingDistinct, List.nodup_singleton _, ?_⟩
    intro a ha b hb
    obtain ⟨o, ho, rfl⟩ := List.mem_map.mp ha
    cases List.mem_singleton.mp hb
    exact hs o ho
  · intro o ho hne t ht hl
    rcases List.mem_append.mp ho with ho | ho
    · exact h.openingNew o ho hne t ht hl
    · cases List.mem_singleton.mp ho
      rintro rfl
      obtain ⟨j, hj⟩ := List.mem_iff_getElem?.mp ht
      have hreg := (h.registered j t hj hl).2
      rcases hfree with hfree | hfree
      · rw [hfree] at hreg; cases hreg
      · exact hne hfree.2
  · exact h.slots
  · intro j t hj hl
    obtain ⟨hp, hreg⟩ := h.registered j t hj hl
    refine ⟨hp, ?_⟩
    by_cases hslot : t.slot = slot
    · rw [hslot] at hreg
      rcases hfree with hfree | hfree
      · rw [hfree] at hreg; cases hreg
      · rw [hfree.1] at hreg
        show (n.localSessionMap.set slot name).get? t.slot = _
        rw [hslot, Dict.get?_set_self, hreg]
    · exact (hport t.slot hslot).trans hreg
  · exact h.released
  · intro slot' port hp hne
    by_cases hslot : slot' = slot
    · exact Or.inl ⟨_, List.mem_append_right _ List.mem_cons_self, hslot.symm⟩
    · rcases h.backed slot' port ((hport slot' hslot).symm.trans hp) hne with ⟨o, ho, hos⟩ | ht
      · exact Or.inl ⟨o, List.mem_append_left _ ho, hos⟩
      · exact Or.inr ht

theorem Managed.rlHandleOpen (h : n.Managed) (hs : n.Settled slot) : (n.rlHandleOpen cfg slot payload).Managed := by
  have hrecorded : (n.recordPermitted cfg slot (strip payload)).Managed := h.outside rfl rfl rfl rfl
  obtain ⟨hstopped, hopening⟩ := hrecorded.stopReused hs (strip payload)
  refine hstopped.mapSlot ?_ (stopReused_session slot (strip payload))
  intro o ho
  exact hs o (hopening ▸ ho)

theorem createPump_tasks : (n.createPump slot name).tasks[j]? = some t ↔
    n.tasks[j]? = some t ∨ j = n.tasks.length ∧ t = { slot := slot, portName := name } := by
  show (n.tasks ++ [_])[j]? = some t ↔ _
  rw [List.getElem?_append]
  split
  · rename_i hlt
    simp [Nat.ne_of_lt hlt]
  · rename_i hge
    rw [List.getElem?_singleton, List.getElem?_eq_none (Nat.le_of_not_lt hge)]
    split
    · rename_i hz
      have heq : j = n.tasks.length := by omega
      simp [heq, eq_comm]
    · rename_i hz
      have hne : j ≠ n.tasks.length := by omega
      simp [hne]

/-- A slot without a pump gets one when its handler ends. -/
theorem Registry.createPump (h : n.Registry) (hport : n.sessionPort slot = some name) (hs : n.Settled slot)
    (hnew : ∀ t ∈ n.tasks, t.live → t.slot ≠ slot) : (n.createPump slot name).Registry where
  opening := h.opening
  openingDistinct := h.openingDistinct
  openingNew o ho hne t ht hl := by
    obtain ⟨j, hj⟩ := List.mem_iff_getElem?.mp ht
    rcases createPump_tasks.mp hj with hj | ⟨_, rfl⟩
    · exact h.openingNew o ho hne t (List.mem_of_getElem? hj) hl
    · exact (hs o ho).symm
  slots slot' j hj := by
    replace hj : (n.pumpTasks.set slot n.tasks.length).get? slot' = some j := hj
    rw [Dict.get?_set] at hj
    split at hj
    · cases hj
      subst_vars
      exact ⟨_, createPump_tasks.mpr (Or.inr ⟨rfl, rfl⟩), rfl⟩
    · obtain ⟨t, ht, hts⟩ := h.slots slot' j hj
      exact ⟨t, createPump_tasks.mpr (Or.inl ht), hts⟩
  registered j t ht hl := by
    rcases createPump_tasks.mp ht with ht | ⟨rfl, rfl⟩
    · obtain ⟨hp, hreg⟩ := h.registered j t ht hl
      exact ⟨(Dict.get?_set_ne _ _ (hnew t (List.mem_of_getElem? ht) hl)).trans hp, hreg⟩
    · exact ⟨Dict.get?_set_self .., hport⟩
  released j t ht hc := by
    rcases createPump_tasks.mp ht with ht | ⟨rfl, rfl⟩
    · intro hp
      replace hp : (n.pumpTasks.set slot n.tasks.length).get? t.slot = some j := hp
      rw [Dict.get?_set] at hp
      split at hp
      · cases hp
        exact absurd (List.getElem?_eq_some_iff.mp ht).1 (Nat.lt_irrefl _)
      · exact h.released j t ht hc hp
    · cases hc

/-- A handler finds a pump only if its slot was open to the port already. -/
theorem Managed.found (h : n.Managed) (ho : o ∈ n.opening) (hj : n.existingTask o.slot = some j) :
    o.existing = some o.portName ∧ ∃ t ∈ n.tasks, t.live ∧ t.slot = o.slot ∧ t.portName = o.portName := by
  obtain ⟨hp, hdone⟩ := Option.filter_eq_some_iff.mp hj
  obtain ⟨t, ht, hslot⟩ := h.slots o.slot j hp
  have hl : t.live := by
    have hcancelled : t.cancelled ≠ true := fun hc => h.released j t ht hc (hslot ▸ hp)
    have hstage : t.stage ≠ .done := by simpa [ht] using hdone
    simp [Pump.live, hstage, hcancelled]
  have hport := (h.registered j t ht hl).2
  rw [hslot, h.opening o ho, Option.some.injEq] at hport
  refine ⟨?_, t, List.mem_of_getElem? ht, hl, hslot, hport.symm⟩
  by_contra hne
  exact h.openingNew o ho hne t (List.mem_of_getElem? ht) hl hslot

/-- A handler that ends leaves its slot to the pump that it creates or keeps. -/
theorem Managed.rlEnsureOpenPump (h : n.Managed) (ho : n.opening[i]? = some o) :
    ({ n with opening := n.opening.eraseIdx i }.rlEnsureOpenPump o).Managed := by
  have hmem := List.mem_of_getElem? ho
  have hport := h.opening o hmem
  have hothers : ∀ o' ∈ n.opening.eraseIdx i, o' ∈ n.opening ∧ o'.slot ≠ o.slot := by
    intro o' ho'
    obtain ⟨k, hk, hok⟩ := List.mem_eraseIdx_iff_getElem?.mp ho'
    refine ⟨List.mem_of_getElem? hok, fun heq => hk ?_⟩
    have hlt : k < (n.opening.map Opening.slot).length := by
      rw [List.length_map]
      exact (List.getElem?_eq_some_iff.mp hok).1
    refine (List.getElem?_inj hlt h.openingDistinct).mp ?_
    rw [List.getElem?_map, List.getElem?_map, hok, ho, Option.map_some, Option.map_some, heq]
  have hrest : ∀ o' ∈ n.opening, o'.slot = o.slot ∨ o' ∈ n.opening.eraseIdx i := by
    intro o' ho'
    obtain ⟨k, hok⟩ := List.mem_iff_getElem?.mp ho'
    by_cases hk : k = i
    · rw [hk, ho, Option.some.injEq] at hok
      exact Or.inl (hok ▸ rfl)
    · exact Or.inr (List.mem_eraseIdx_iff_getElem?.mpr ⟨k, hk, hok⟩)
  -- a pump of the slot that is alive is the one that the handler finds
  have hfound : ∀ t ∈ n.tasks, t.live → t.slot = o.slot → ∃ j, n.existingTask o.slot = some j := by
    intro t ht hl hslot
    obtain ⟨j, hj⟩ := List.mem_iff_getElem?.mp ht
    have hp := (h.registered j t hj hl).1
    rw [hslot] at hp
    have hdone : t.stage ≠ .done := by
      intro hd
      simp [Pump.live, hd] at hl
    exact ⟨j, by simp [existingTask, hp, Option.filter, hj, hdone]⟩
  have hreg : OriginNode.Registry { n with opening := n.opening.eraseIdx i } :=
    { h.toRegistry with
      opening := fun o' ho' => h.opening o' (hothers o' ho').1
      openingDistinct := h.openingDistinct.sublist ((List.eraseIdx_sublist ..).map _)
      openingNew := fun o' ho' => h.openingNew o' (hothers o' ho').1 }
  have hsettled : OriginNode.Settled { n with opening := n.opening.eraseIdx i } o.slot := fun o' ho' => (hothers o' ho').2
  -- whatever backs the slot of the handler, the other slots are backed as before
  have hback : ∀ n' : OriginNode, n'.Registry → n'.opening = n.opening.eraseIdx i → n'.localSessionMap = n.localSessionMap →
      (∀ t ∈ n.tasks, t ∈ n'.tasks) → (o.portName ≠ [] → ∃ t ∈ n'.tasks, t.live ∧ t.slot = o.slot ∧ t.portName = o.portName) →
      n'.Managed := by
    intro n' hn' hopening hsession htasks hown
    refine { hn' with backed := ?_ }
    intro slot port hs hne
    replace hs : n.sessionPort slot = some port := by rw [← hs, sessionPort, sessionPort, hsession]
    rcases h.backed slot port hs hne with ⟨o', ho', hslot⟩ | ⟨t, ht, hl⟩
    · rcases hrest o' ho' with heq | hin
      · rw [← hslot, heq, hport, Option.some.injEq] at hs
        subst hs
        rw [← hslot, heq]
        exact Or.inr (hown hne)
      · exact Or.inl ⟨o', hopening ▸ hin, hslot⟩
    · exact Or.inr ⟨t, htasks t ht, hl⟩
  unfold OriginNode.rlEnsureOpenPump
  split
  · rename_i hempty
    exact hback _ hreg rfl rfl (fun _ ht => ht) (fun hne => absurd hempty hne)
  · split
    · rename_i j hexisting
      obtain ⟨hsame, hlive⟩ := h.found hmem hexisting
      rw [if_pos hsame]
      exact hback _ hreg rfl rfl (fun _ ht => ht) (fun _ => hlive)
    · rename_i hexisting
      refine hback _ (hreg.createPump hport hsettled ?_) rfl rfl (fun _ ht => List.mem_append_left _ ht) ?_
      · intro t ht hl hslot
        obtain ⟨j, hj⟩ := hfound t ht hl hslot
        rw [show n.existingTask o.slot = none from hexisting] at hj
        cases hj
      · exact fun _ => ⟨_, List.mem_append_right _ List.mem_cons_self, rfl, rfl, rfl⟩

/-- A handler cancels no pump. -/
theorem Managed.rlEnsureOpenPump_eq (h : n.Managed) (ho : o ∈ n.opening) :
    { n with opening := n.opening.eraseIdx i }.rlEnsureOpenPump o = { n with opening := n.opening.eraseIdx i } ∨
    { n with opening := n.opening.eraseIdx i }.rlEnsureOpenPump o =
      { n with opening := n.opening.eraseIdx i }.createPump o.slot o.portName := by
  unfold OriginNode.rlEnsureOpenPump
  split
  · exact Or.inl rfl
  · split
    · rename_i j hexisting
      rw [if_pos (h.found ho hexisting).1]
      exact Or.inl rfl
    · exact Or.inr rfl

/-- The client of a handler is added. -/
theorem Managed.setOpening (h : n.Managed) (ho : n.opening[i]? = some o) :
    OriginNode.Managed { n with opening := n.opening.set i { o with clientAdded := true } } := by
  have hmem := List.mem_of_getElem? ho
  have hold : ∀ o' ∈ n.opening.set i { o with clientAdded := true },
      ∃ o₀ ∈ n.opening, o₀.slot = o'.slot ∧ o₀.portName = o'.portName ∧ o₀.existing = o'.existing := by
    intro o' ho'
    rcases List.mem_or_eq_of_mem_set ho' with ho' | rfl
    · exact ⟨o', ho', rfl, rfl, rfl⟩
    · exact ⟨o, hmem, rfl, rfl, rfl⟩
  have hslots : (n.opening.set i { o with clientAdded := true }).map Opening.slot = n.opening.map Opening.slot :=
    map_set_of_eq ho rfl
  refine { h with opening := ?_, openingDistinct := ?_, openingNew := ?_, backed := ?_ }
  · intro o' ho'
    obtain ⟨o₀, ho₀, hs, hp, _⟩ := hold o' ho'
    rw [← hs, ← hp]
    exact h.opening o₀ ho₀
  · rw [hslots]; exact h.openingDistinct
  · intro o' ho' hne t ht hl
    obtain ⟨o₀, ho₀, hs, hp, he⟩ := hold o' ho'
    rw [← hs]
    exact h.openingNew o₀ ho₀ (by rw [he, hp]; exact hne) t ht hl
  · intro slot port hs hne
    rcases h.backed slot port hs hne with ⟨o', ho', hslot⟩ | ht
    · have hin : slot ∈ (n.opening.set i { o with clientAdded := true }).map Opening.slot := by
        rw [hslots]
        exact List.mem_map.mpr ⟨o', ho', hslot⟩
      obtain ⟨o₁, ho₁, hs₁⟩ := List.mem_map.mp hin
      exact Or.inl ⟨o₁, ho₁, hs₁⟩
    · exact Or.inr ht

theorem Managed.resumeOpen {now : Nat} (h : n.Managed) (ho : n.opening[i]? = some o) :
    (n.resumeOpen i o now).Managed := by
  unfold OriginNode.resumeOpen
  split
  · exact h.rlEnsureOpenPump ho
  · unfold rlOpenClient
    split
    · exact h.setOpening ho
    · exact (h.setOpening ho).outside rfl rfl rfl rfl

/-! ## Every step -/

/-- A pump whose session has gone was cancelled. -/
theorem Registry.cancelled (h : n.Registry) (ht : n.tasks[i]? = some t) (hd : t.stage ≠ .done)
    (hs : n.sessionPort t.slot ≠ some t.portName) : t.cancelled := by
  by_contra hc
  exact hs (h.registered i t ht (by simp [Pump.live, hd, hc])).2

theorem Managed.endLocalPumpCleanup (h : n.Managed) (ht : n.tasks[i]? = some t) (hc : t.cancelled) :
    (n.endLocalPumpCleanup i t).Managed := by
  unfold OriginNode.endLocalPumpCleanup
  dsimp only
  rw [if_neg (h.released i t ht hc)]
  exact h.setTask { t with stage := .done } ht rfl rfl rfl (by simp [Pump.live, hc]) rfl rfl rfl rfl

theorem Managed.pumpStep {ok : Bool} (h : n.Managed) (ht : n.tasks[i]? = some t) (hs : n.pumpStep i t ok = some n') :
    n'.Managed := by
  have hstaged : ∀ (stage : PumpStage) (n' : OriginNode), t.stage ≠ .done → (t.cancelled ∨ stage ≠ .done) →
      n'.opening = n.opening → n'.tasks = n.tasks.set i { t with stage := stage } → n'.pumpTasks = n.pumpTasks →
      n'.localSessionMap = n.localSessionMap → n'.Managed := by
    intro stage n' hd hstage
    refine h.setTask { t with stage := stage } ht rfl rfl rfl ?_
    rcases hstage with hc | hne
    · simp [Pump.live, hc]
    · simp [Pump.live, hd, hne]
  unfold OriginNode.pumpStep at hs
  split at hs
  · rename_i hstage
    split at hs <;> cases hs
    · exact hstaged .done _ (by simp [hstage]) (Or.inl ‹_›) rfl rfl rfl rfl
    · exact hstaged (.seeding _) _ (by simp [hstage]) (Or.inr nofun) rfl rfl rfl rfl
  · rename_i rest hstage
    split at hs <;> cases hs
    · exact hstaged .done _ (by simp [hstage]) (Or.inl ‹_›) rfl rfl rfl rfl
    · unfold pumpSeed
      split
      · exact hstaged .looping _ (by simp [hstage]) (Or.inr nofun) rfl rfl rfl rfl
      · exact hstaged (if ok then .seeding _ else .looping) _ (by simp [hstage]) (Or.inr (by split <;> simp)) rfl rfl rfl rfl
  · rename_i hstage
    have hd : t.stage ≠ .done := by simp [hstage]
    split at hs
    · rename_i hexit
      cases hs
      rcases hexit with hc | hport
      · exact h.endLocalPumpCleanup ht hc
      · exact h.endLocalPumpCleanup ht (h.cancelled ht hd hport)
    · split at hs <;> cases hs
      · exact hstaged .looping _ hd (Or.inr nofun) rfl rfl rfl rfl
      · split
        · exact hstaged .waiting _ hd (Or.inr nofun) rfl rfl rfl rfl
        · exact h
  · rename_i hstage
    split at hs
    · cases hs
      exact h.endLocalPumpCleanup ht ‹_›
    · obtain ⟨data, _, rfl⟩ := Option.map_eq_some_iff.mp hs
      exact hstaged .looping _ (by simp [hstage]) (Or.inr nofun) rfl rfl rfl rfl
  · cases hs

theorem Managed.stopSlots {slots : List Slot} (h : n.Managed) (hs : ∀ slot ∈ slots, n.Settled slot) :
    (slots.foldl OriginNode.stopLocalSession n).Managed := by
  induction slots generalizing n with
  | nil => exact h
  | cons slot slots ih =>
      refine ih (h.stopLocalSession (hs slot List.mem_cons_self)) ?_
      intro slot' hslot' o ho
      rw [(stopLocalSession_same _ _).1] at ho
      exact hs slot' (List.mem_cons_of_mem _ hslot') o ho

theorem peer_of_mem {peerKey : Text} {slots : List Slot} (h : slot ∈ slots.filter (·.1 = peerKey)) : slot.1 = peerKey := by
  simpa using (List.mem_filter.mp h).2

/-- No handler of the peer is suspended. -/
theorem settled_of_peer {peerKey : Text} {slots : List Slot} (hs : ∀ o ∈ n.opening, o.slot.1 ≠ peerKey) :
    ∀ slot ∈ slots.filter (·.1 = peerKey), n.Settled slot := fun _ hslot o ho heq => hs o ho (heq ▸ peer_of_mem hslot)

theorem Managed.cleanup {peerKey : Text} (h : n.Managed) (hs : ∀ o ∈ n.opening, o.slot.1 ≠ peerKey) :
    (n.cleanupPeerLocalSessions peerKey).Managed :=
  (h.stopSlots (settled_of_peer hs)).outside rfl rfl rfl rfl

theorem Managed.handleFrame {peerKey : Text} {f : Frame} (h : n.Managed) (hc : n.FrameClean peerKey f) :
    (n.handleFrame cfg peerKey f).Managed := by
  cases f with
  | openStream sid payload => exact h.rlHandleOpen hc.1
  | close sid =>
      have hpopped : OriginNode.Managed { n with sessionMap := n.sessionMap.pop (peerKey, sid) } := h.outside rfl rfl rfl rfl
      exact hpopped.stopLocalSession hc.1
  | data sid data =>
      show (n.routeDataFrame (peerKey, sid) data).Managed
      unfold routeDataFrame writeToPort
      repeat' split
      all_goals exact h.outside rfl rfl rfl rfl
  | fedrw port sid action =>
      show (n.handleFedrwRequest (peerKey, sid) port action).Managed
      unfold handleFedrwRequest
      split
      · exact h
      · exact h.outside rfl rfl rfl rfl
  | powerSwitch port sid outletOk =>
      show (n.handlePowerSwitch (peerKey, sid) port outletOk).Managed
      unfold handlePowerSwitch
      repeat' split
      all_goals exact h.outside rfl rfl rfl rfl

end OriginNode

end OpenMux.Origin
