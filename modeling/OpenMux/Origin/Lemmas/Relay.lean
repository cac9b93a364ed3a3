import OpenMux.Origin.Lemmas.Views

/-!
# Pumps keep views whole
-/

namespace OpenMux.Origin

open Py Transition Streams

namespace OriginNode

variable {cfg : OriginCfg} {n n' : OriginNode} {slot : Slot} {name payload peerKey port : Text} {i j : Nat}
  {t t₁ : Pump} {o : Opening} {ok : Bool} {X : Text → Prop}

/-! ## The queue -/

theorem nextChunk_eq {data : Chunk} (h : n.nextChunk name = some data) :
    ∃ p, n.ports.get? name = some p ∧ p.buffers.dataQueue.head? = some data := Option.bind_eq_some_iff.mp h

/-- An empty queue stays as it is. -/
theorem sameBuffers_dequeue (h : n.nextChunk name = none) : n.SameBuffers (n.updatePort name (·.updateBuffers .dequeue)) := by
  intro name'
  rw [updatePort_ports]
  split
  · subst_vars
    cases hp : n.ports.get? name' with
    | none => rfl
    | some p =>
        have hempty : p.buffers.dataQueue = [] := by simpa [nextChunk, hp] using h
        have hsame : p.buffers.dequeue = p.buffers := by rw [Buffers.dequeue, hempty, List.tail_nil, ← hempty]
        exact congrArg some hsame
  · rfl

/-- A chunk leaves the queue of the port. It is empty, or it is sent to the only peer that views the port. -/
theorem Relaying.take {data : Chunk} (ok : Bool) (peerKey : Text) (h : n.Relaying X) (hq : n.nextChunk name = some data)
    (hports : n'.ports = (n.updatePort name (·.updateBuffers .dequeue)).ports) (htasks : n'.tasks = n.tasks)
    (hviews : ∀ k, n'.views.get? k =
      (n.views.get? k).map fun v => if ok ∧ k = (peerKey, name) then { v with sent := v.sent ++ data } else v)
    (hsession : n'.localSessionMap = n.localSessionMap)
    (hclean : ∀ peerKey' v, n.views.get? (peerKey', name) = some v →
      data = [] ∨ ok ∧ peerKey' = peerKey ∧ n.inHand peerKey name = []) : n'.Relaying X := by
  have hport : ∀ name', n'.ports.get? name' = if name' = name then (n.ports.get? name).map (·.updateBuffers .dequeue)
      else n.ports.get? name' := fun name' => by rw [hports, updatePort_ports]
  have hold : ∀ {name' p'}, n'.ports.get? name' = some p' → ∃ p, n.ports.get? name' = some p ∧
      p'.buffers.federationViewerCount = p.buffers.federationViewerCount := by
    intro name' p' hp'
    rw [hport] at hp'
    split at hp'
    · obtain ⟨p, hp, rfl⟩ := Option.map_eq_some_iff.mp hp'
      subst_vars
      exact ⟨p, hp, rfl⟩
    · exact ⟨p', hp', rfl⟩
  have hview : ∀ {k v}, n'.views.get? k = some v → ∃ v, n.views.get? k = some v := by
    intro k v hv
    rw [hviews] at hv
    obtain ⟨v, hv, _⟩ := Option.map_eq_some_iff.mp hv
    exact ⟨v, hv⟩
  obtain ⟨p₀, hp₀, hhead⟩ := nextChunk_eq hq
  constructor
  · intro name' p' hp'
    obtain ⟨p, hp, hcount⟩ := hold hp'
    rw [htasks, hcount]
    exact h.held name' p hp
  · intro t ht hr p' hp'
    obtain ⟨p, hp, _⟩ := hold hp'
    obtain ⟨v, hv⟩ := h.viewed t (htasks ▸ ht) hr p hp
    exact ⟨_, by rw [hviews, hv, Option.map_some]⟩
  · intro peerKey port v hv
    obtain ⟨v', hv'⟩ := hview hv
    obtain ⟨slot, hpeer, hs⟩ := h.streamed peerKey port v' hv'
    exact ⟨slot, hpeer, by rw [← hs, sessionPort, sessionPort, hsession]⟩
  · rw [htasks]; exact h.seeds
  · intro peerKey port v hx hv
    obtain ⟨v', hv'⟩ := hview hv
    rw [htasks]
    exact h.pumped peerKey port v' hx hv'
  · intro peerKey' port v' hx hv
    have hhand : n'.inHand peerKey' port = n.inHand peerKey' port := by rw [inHand, htasks]; rfl
    rw [hhand]
    rw [hviews] at hv
    obtain ⟨v, hv₀, rfl⟩ := Option.map_eq_some_iff.mp hv
    obtain ⟨p, hp, hw⟩ := h.whole peerKey' port v hx hv₀
    by_cases hname : port = name
    · subst hname
      rw [hp₀, Option.some.injEq] at hp
      subst hp
      refine ⟨p₀.updateBuffers .dequeue, by rw [hport, if_pos rfl, hp₀]; rfl, ?_⟩
      rcases hclean peerKey' v hv₀ with rfl | ⟨hok, rfl, hempty⟩
      · have hsame : (if ok ∧ (peerKey', port) = (peerKey, port) then { v with sent := v.sent ++ [] } else v) = v := by
          split <;> simp
        rw [hsame]
        exact hw.dequeue hhead (by simp)
      · rw [if_pos ⟨hok, rfl⟩]
        exact hw.dequeue hhead (by simp [hempty])
    · refine ⟨p, by rw [hport, if_neg hname, hp], ?_⟩
      rw [if_neg fun hk => hname (Prod.ext_iff.mp hk.2).2]
      exact hw

/-- The pump of a view has its hold. -/
theorem countP_of_serves (ht : t ∈ n.tasks) (hserves : t.serves peerKey port) :
    0 < n.tasks.countP (fun t => t.held && t.portName = port) := by
  obtain ⟨hr, _, hport⟩ := Pump.serves_iff.mp hserves
  simp only [Pump.running, Bool.and_eq_true] at hr
  exact List.countP_pos_iff.mpr ⟨t, ht, by simp [hr.1, hport]⟩

/-- A hold is released while another one is left, if there is a view. -/
theorem Relaying.removeHold (h : n.Relaying X) (hcount : ∀ p, n.ports.get? name = some p →
    n.tasks.countP (fun t => t.held && t.portName = name) < p.buffers.federationViewerCount) :
    (n.updatePort name (·.updateBuffers .removeFederationBufferingHold)).Relaying X := by
  have hrelease : ∀ b : Buffers, b.removeFederationBufferingHold.federationViewerCount = b.federationViewerCount - 1 ∧
      b.removeFederationBufferingHold.droppedChunks = b.droppedChunks ∧
      (1 < b.federationViewerCount → b.removeFederationBufferingHold.dataQueue = b.dataQueue) := by
    intro b
    unfold Buffers.removeFederationBufferingHold
    dsimp only
    split
    · exact ⟨rfl, rfl, fun _ => by omega⟩
    · exact ⟨rfl, rfl, fun _ => rfl⟩
  have hold : ∀ {name' p'}, (n.updatePort name (·.updateBuffers .removeFederationBufferingHold)).ports.get? name' = some p' →
      ∃ p, n.ports.get? name' = some p ∧
        (p' = p ∨ name' = name ∧ p' = p.updateBuffers .removeFederationBufferingHold) := by
    intro name' p' hp'
    rw [updatePort_ports] at hp'
    split at hp'
    · obtain ⟨p, hp, rfl⟩ := Option.map_eq_some_iff.mp hp'
      subst_vars
      exact ⟨p, hp, Or.inr ⟨rfl, rfl⟩⟩
    · exact ⟨p', hp', Or.inl rfl⟩
  constructor
  · intro name' p' hp'
    obtain ⟨p, hp, rfl | ⟨rfl, rfl⟩⟩ := hold hp'
    · exact h.held name' p' hp
    · have := hcount p hp
      show _ ≤ p.buffers.removeFederationBufferingHold.federationViewerCount
      rw [(hrelease p.buffers).1]
      exact Nat.le_sub_one_of_lt this
  · intro t ht hr p' hp'
    obtain ⟨p, hp, _⟩ := hold hp'
    exact h.viewed t ht hr p hp
  · exact h.streamed
  · exact h.seeds
  · exact h.pumped
  · intro peerKey port v hx hv
    obtain ⟨p, hp, hw⟩ := h.whole peerKey port v hx hv
    by_cases hname : port = name
    · subst hname
      refine ⟨p.updateBuffers .removeFederationBufferingHold, by rw [updatePort_ports, if_pos rfl, hp]; rfl, ?_⟩
      obtain ⟨t, ht, hserves⟩ := h.pumped peerKey port v hx hv
      have hmore : 1 < p.buffers.federationViewerCount :=
        Nat.lt_of_le_of_lt (countP_of_serves ht hserves) (hcount p hp)
      exact hw.congr ((hrelease _).2.2 hmore) (hrelease _).2.1 rfl
    · exact ⟨p, by rw [updatePort_ports, if_neg hname, hp], hw⟩

/-- A chunk that arrives is queued if the port has a view. -/
theorem Relaying.handleIncoming {data : Chunk} {requireClients : Option Bool} (h : n.Relaying X) :
    (n.handleIncomingPortData name data requireClients).Relaying X := by
  have hport : ∀ name', (n.handleIncomingPortData name data requireClients).ports.get? name' =
      if name' = name then (n.ports.get? name).map fun p => p.handleIncomingPortData data requireClients
      else n.ports.get? name' := fun name' => updatePort_ports name'
  have hcount : ∀ p : Port, (p.handleIncomingPortData data requireClients).buffers.federationViewerCount =
      p.buffers.federationViewerCount := by
    intro p
    have hrecord : (p.buffers.record data).federationViewerCount = p.buffers.federationViewerCount := by
      unfold Buffers.record
      split <;> rfl
    unfold Port.handleIncomingPortData
    split
    · show ((p.buffers.record data).enqueue data).federationViewerCount = _
      unfold Buffers.enqueue
      split <;> exact hrecord
    · exact hrecord
  have hold : ∀ {name' p'}, (n.handleIncomingPortData name data requireClients).ports.get? name' = some p' →
      ∃ p, n.ports.get? name' = some p ∧ p'.buffers.federationViewerCount = p.buffers.federationViewerCount := by
    intro name' p' hp'
    rw [hport] at hp'
    split at hp'
    · obtain ⟨p, hp, rfl⟩ := Option.map_eq_some_iff.mp hp'
      subst_vars
      exact ⟨p, hp, hcount p⟩
    · exact ⟨p', hp', rfl⟩
  have hview : ∀ k, (n.handleIncomingPortData name data requireClients).views.get? k =
      (n.views.get? k).map fun v => if k.2 = name then { v with arrived := v.arrived ++ [data] } else v :=
    fun k => Dict.get?_mapValues ..
  constructor
  · intro name' p' hp'
    obtain ⟨p, hp, hc⟩ := hold hp'
    rw [hc]
    exact h.held name' p hp
  · intro t ht hr p' hp'
    obtain ⟨p, hp, _⟩ := hold hp'
    obtain ⟨v, hv⟩ := h.viewed t ht hr p hp
    exact ⟨_, by rw [hview, hv, Option.map_some]⟩
  · intro peerKey port v hv
    rw [hview] at hv
    obtain ⟨v', hv', _⟩ := Option.map_eq_some_iff.mp hv
    exact h.streamed peerKey port v' hv'
  · exact h.seeds
  · intro peerKey port v hx hv
    rw [hview] at hv
    obtain ⟨v', hv', _⟩ := Option.map_eq_some_iff.mp hv
    exact h.pumped peerKey port v' hx hv'
  · intro peerKey port v' hx hv
    rw [hview] at hv
    obtain ⟨v, hv₀, rfl⟩ := Option.map_eq_some_iff.mp hv
    obtain ⟨p, hp, hw⟩ := h.whole peerKey port v hx hv₀
    by_cases hname : port = name
    · subst hname
      refine ⟨p.handleIncomingPortData data requireClients, by rw [hport, if_pos rfl, hp]; rfl, ?_⟩
      obtain ⟨t, ht, hserves⟩ := h.pumped peerKey port v hx hv₀
      have henqueue : p.shouldEnqueue requireClients := by
        have hpos := Nat.lt_of_lt_of_le (countP_of_serves ht hserves) (h.held port p hp)
        simp [Port.shouldEnqueue, hpos]
      rw [if_pos rfl, Port.handleIncomingPortData, if_pos henqueue]
      exact hw.enqueue
    · refine ⟨p, by rw [hport, if_neg hname, hp], ?_⟩
      rw [if_neg hname]
      exact hw

/-! ## The pump -/

/-- A pump sends a part of what it has in hand. -/
theorem Relaying.sendHand {data : Chunk} (h : n.Relaying X) (ht : n.tasks[i]? = some t) (hslot : t₁.slot = t.slot)
    (hport : t₁.portName = t.portName) (hheld : t₁.held → t.held) (hrunning : t₁.running = t.running) (hr : t.running)
    (hne : t.rest ≠ []) (hrest : data ++ t₁.rest = t.rest) :
    ((n.sendData t.slot.1 t.portName data true).setTask i t₁).Relaying X := by
  have hview : ∀ k, (n.sendData t.slot.1 t.portName data true).views.get? k = (n.views.get? k).map fun v =>
      if true ∧ k = (t.slot.1, t.portName) then { v with sent := v.sent ++ data } else v := fun k => Dict.get?_mapValues ..
  obtain ⟨hlt, _⟩ := List.getElem?_eq_some_iff.mp ht
  refine h.repump ht hslot hport hheld hrunning (fun he => absurd he hne) rfl rfl ?_ rfl ?_
  · intro k
    show ((n.sendData t.slot.1 t.portName data true).views.get? k).isSome = _
    rw [hview, Option.isSome_map]
  · intro peerKey port v' hx hv
    replace hv : (n.sendData t.slot.1 t.portName data true).views.get? (peerKey, port) = some v' := hv
    rw [hview] at hv
    obtain ⟨v, hv₀, rfl⟩ := Option.map_eq_some_iff.mp hv
    obtain ⟨p, hp, hw⟩ := h.whole peerKey port v hx hv₀
    refine ⟨p, hp, ?_⟩
    by_cases hkey : (peerKey, port) = (t.slot.1, t.portName)
    · obtain ⟨rfl, rfl⟩ := Prod.ext_iff.mp hkey
      rw [if_pos ⟨rfl, rfl⟩]
      have hserves : t.serves t.slot.1 t.portName := Pump.serves_iff.mpr ⟨hr, rfl, rfl⟩
      have hserves₁ : t₁.serves t.slot.1 t.portName := Pump.serves_iff.mpr ⟨hrunning ▸ hr, by rw [hslot], hport⟩
      have hhand : t.hand t.slot.1 t.portName = t.rest := if_pos hserves
      have hhand₁ : t₁.hand t.slot.1 t.portName = t₁.rest := if_pos hserves₁
      -- the seed of no other pump of the peer is under way
      have hsole : ∀ (j : Nat) (t' : Pump), n.tasks[j]? = some t' → t'.hand t.slot.1 t.portName ≠ [] → j = i :=
        fun j t' hj hne' => (h.seeds i j t t' _ _ ht hj (hhand ▸ hne) hne').symm
      have hbefore : n.inHand t.slot.1 t.portName = t.rest := (flatMap_of_sole ht hsole).trans hhand
      have hafter : ((n.sendData t.slot.1 t.portName data true).setTask i t₁).inHand t.slot.1 t.portName = t₁.rest := by
        refine (flatMap_of_sole (List.getElem?_set_self hlt) fun j t' hj hne' => ?_).trans hhand₁
        by_contra hji
        rw [List.getElem?_set_ne (Ne.symm hji)] at hj
        exact hji (hsole j t' hj hne')
      refine hw.congr rfl rfl ?_
      rw [hafter, hbefore, List.append_assoc, hrest]
    · have hhand : t.hand peerKey port = [] := by
        by_contra hne'
        obtain ⟨_, hpeer, htp⟩ := hand_key hne'
        exact hkey (Prod.ext hpeer.symm htp.symm)
      have hhand₁ : t₁.hand peerKey port = [] := by
        by_contra hne'
        obtain ⟨_, hpeer, htp⟩ := hand_key hne'
        exact hkey (Prod.ext (hpeer.symm.trans (by rw [hslot])) (htp.symm.trans hport))
      rw [if_neg fun hk => hkey hk.2,
        inHand_set ((n.sendData t.slot.1 t.portName data true).setTask i t₁) ht rfl (hhand₁.trans hhand.symm)]
      exact hw

theorem openView_get? (k : Text × Text) : (n.openView peerKey port).views.get? k =
    match n.views.get? k with
    | some v => some v
    | none => if k = (peerKey, port) then
        (n.ports.get? port).map fun p => ⟨p.buffers.scrollback, p.buffers.droppedChunks, [], []⟩
      else none := by
  unfold openView
  dsimp only
  split
  · rename_i p hp hnone
    rw [Dict.get?_set]
    split
    · subst_vars
      rw [hnone, hp]
      rfl
    · split <;> simp_all
  · rename_i hother
    cases hk : n.views.get? k with
    | some v => rfl
    | none =>
        dsimp only
        split
        · subst_vars
          cases hp : n.ports.get? port with
          | none => rfl
          | some p => exact absurd hk (hother p hp)
        · rfl

/-- The snapshot of a port. -/
def seedOf (n : OriginNode) (portName : Text) : List UInt8 :=
  match n.ports.get? portName with
  | some p => p.buffers.scrollback
  | none => []

/-- A pump takes its hold and its snapshot. -/
theorem Relaying.pumpStart (h : n.Relaying X) (ht : n.tasks[i]? = some t) (hstage : t.stage = .created)
    (hc : t.cancelled = false) (hsession : n.sessionPort t.slot = some t.portName)
    (hclean : ∀ p, n.ports.get? t.portName = some p →
      if (n.views.get? (t.slot.1, t.portName)).isSome then p.buffers.scrollback = [] else p.buffers.dataQueue = []) :
    (n.pumpStart i t).Relaying X := by
  obtain ⟨seed, hseed⟩ : ∃ seed, seed = n.seedOf t.portName := ⟨_, rfl⟩
  obtain ⟨t₁, ht₁⟩ : ∃ t₁ : Pump, t₁ = { t with stage := .seeding seed } := ⟨_, rfl⟩
  obtain ⟨n', hn'⟩ : ∃ n', n' = n.pumpStart i t := ⟨_, rfl⟩
  rw [← hn']
  have htasks : n'.tasks = n.tasks.set i t₁ := by rw [hn', ht₁, hseed]; rfl
  have hlocals : n'.localSessionMap = n.localSessionMap := by rw [hn']; rfl
  have hports : ∀ name, n'.ports.get? name = if name = t.portName then
      (n.ports.get? t.portName).map (·.updateBuffers .addFederationBufferingHold) else n.ports.get? name := by
    intro name
    rw [hn']
    exact updatePort_ports name
  have hviews : ∀ k, n'.views.get? k = match n.views.get? k with
      | some v => some v
      | none => if k = (t.slot.1, t.portName) then
          (n.ports.get? t.portName).map fun p => ⟨p.buffers.scrollback, p.buffers.droppedChunks, [], []⟩
        else none := by
    intro k
    rw [hn']
    refine (openView_get? (n := n.updatePort t.portName (·.updateBuffers .addFederationBufferingHold)) k).trans ?_
    rw [updatePort_ports, if_pos rfl, Option.map_map]
    rfl
  have hidle : t.held = false := by simp [Pump.held, hstage]
  have hquiet : ∀ peerKey port, t.hand peerKey port = [] := fun _ _ => by simp [Pump.hand, Pump.serves, Pump.running, hidle]
  have hserves₁ : t₁.serves t.slot.1 t.portName := by rw [ht₁]; simp [Pump.serves, Pump.running, Pump.held, hc]
  have hhand₁ : t₁.hand t.slot.1 t.portName = seed := by rw [Pump.hand, if_pos hserves₁, ht₁]; rfl
  have hnobody : ∀ p, n.ports.get? t.portName = some p → n.views.get? (t.slot.1, t.portName) = none →
      ∀ (j : Nat) (t' : Pump), n.tasks[j]? = some t' → t'.hand t.slot.1 t.portName = [] := by
    intro p hp hnone j t' hj
    by_contra hne'
    obtain ⟨hr, hpeer, hport⟩ := hand_key hne'
    obtain ⟨v, hv⟩ := h.viewed t' (List.mem_of_getElem? hj) hr p (by rw [hport, hp])
    rw [hpeer, hport, hnone] at hv
    cases hv
  -- only a first pump of the peer has a seed
  have hfirst : seed ≠ [] → n.views.get? (t.slot.1, t.portName) = none ∧
      ∀ (j : Nat) (t' : Pump), n.tasks[j]? = some t' → t'.hand t.slot.1 t.portName = [] := by
    intro hne
    cases hp : n.ports.get? t.portName with
    | none => rw [seedOf, hp] at hseed; exact absurd hseed hne
    | some p =>
        rw [seedOf, hp] at hseed
        have hnone : n.views.get? (t.slot.1, t.portName) = none := by
          by_contra hsome
          have hcl := hclean p hp
          rw [if_pos (Option.isSome_iff_ne_none.mpr hsome)] at hcl
          exact hne (hseed.trans hcl)
        exact ⟨hnone, hnobody p hp hnone⟩
  obtain ⟨hlt, heq⟩ := List.getElem?_eq_some_iff.mp ht
  have hslot : t₁.slot = t.slot := by rw [ht₁]
  have hport : t₁.portName = t.portName := by rw [ht₁]
  have hself : n'.tasks[i]? = some t₁ := by rw [htasks, List.getElem?_set_self hlt]
  have hother : ∀ j, j ≠ i → n'.tasks[j]? = n.tasks[j]? := fun j hji => by rw [htasks, List.getElem?_set_ne (Ne.symm hji)]
  have hhand_other : ∀ peerKey port, (peerKey, port) ≠ (t.slot.1, t.portName) → t₁.hand peerKey port = [] := by
    intro peerKey port hkey
    by_contra hne
    obtain ⟨_, hpeer, htp⟩ := hand_key hne
    exact hkey (Prod.ext (hpeer.symm.trans (by rw [hslot])) (htp.symm.trans hport))
  have hview : ∀ {k v}, n.views.get? k = some v → n'.views.get? k = some v := by
    intro k v hv
    rw [hviews, hv]
  constructor
  · intro name p' hp'
    rw [hports] at hp'
    rw [htasks, List.countP_set hlt, heq, hidle, hport]
    split at hp'
    · rename_i hname
      subst hname
      obtain ⟨p, hp, rfl⟩ := Option.map_eq_some_iff.mp hp'
      refine Nat.add_le_add ?_ (by split <;> omega)
      simpa using h.held t.portName p hp
    · rename_i hne
      have hneq : ¬ t.portName = name := fun he => hne he.symm
      simpa [hneq] using h.held name p' hp'
  · intro t' ht' hr p' hp'
    obtain ⟨j, hj⟩ := List.mem_iff_getElem?.mp ht'
    by_cases hji : j = i
    · subst hji
      rw [hself, Option.some.injEq] at hj
      subst hj
      rw [hport, hports, if_pos rfl] at hp'
      obtain ⟨p, hp, _⟩ := Option.map_eq_some_iff.mp hp'
      rw [hslot, hport, hviews, if_pos rfl, hp]
      split <;> exact ⟨_, rfl⟩
    · rw [hother j hji] at hj
      have hlocal : ∃ p, n.ports.get? t'.portName = some p := by
        rw [hports] at hp'
        split at hp'
        · rename_i he
          obtain ⟨p, hp, _⟩ := Option.map_eq_some_iff.mp hp'
          exact ⟨p, by rw [he, hp]⟩
        · exact ⟨p', hp'⟩
      obtain ⟨p, hp⟩ := hlocal
      obtain ⟨v, hv⟩ := h.viewed t' (List.mem_of_getElem? hj) hr p hp
      exact ⟨v, hview hv⟩
  · intro peerKey port v hv
    have hsame : ∀ slot, n'.sessionPort slot = n.sessionPort slot := fun slot => by rw [sessionPort, hlocals]; rfl
    rw [hviews] at hv
    split at hv
    · obtain ⟨slot, hpeer, hs⟩ := h.streamed peerKey port _ ‹_›
      exact ⟨slot, hpeer, (hsame slot).trans hs⟩
    · split at hv
      · rename_i hkey
        obtain ⟨rfl, rfl⟩ := Prod.ext_iff.mp hkey
        exact ⟨t.slot, rfl, (hsame t.slot).trans hsession⟩
      · cases hv
  · intro j k t' t'' peerKey port hj hk hne hne'
    -- the new seed is the only one of its key
    have hsole : ∀ (k : Nat) (t'' : Pump), t₁.hand peerKey port ≠ [] → n'.tasks[k]? = some t'' →
        t''.hand peerKey port ≠ [] → k = i := by
      intro k t'' hne₁ hk hne'
      by_contra hki
      rw [hother k hki] at hk
      have hkey : (peerKey, port) = (t.slot.1, t.portName) := by
        by_contra hkey
        exact hne₁ (hhand_other peerKey port hkey)
      obtain ⟨rfl, rfl⟩ := Prod.ext_iff.mp hkey
      exact hne' ((hfirst (hhand₁ ▸ hne₁)).2 k t'' hk)
    by_cases hji : j = i
    · subst hji
      rw [hself, Option.some.injEq] at hj
      subst hj
      exact (hsole k t'' hne hk hne').symm
    · by_cases hki : k = i
      · subst hki
        rw [hself, Option.some.injEq] at hk
        subst hk
        exact hsole j t' hne' hj hne
      · rw [hother j hji] at hj
        rw [hother k hki] at hk
        exact h.seeds j k t' t'' peerKey port hj hk hne hne'
  · intro peerKey port v hx hv
    rw [hviews] at hv
    split at hv
    · obtain ⟨t', ht', hserves⟩ := h.pumped peerKey port _ hx ‹_›
      obtain ⟨j, hj⟩ := List.mem_iff_getElem?.mp ht'
      have hji : j ≠ i := by
        rintro rfl
        rw [ht, Option.some.injEq] at hj
        subst hj
        simp [Pump.serves, Pump.running, hidle] at hserves
      exact ⟨t', List.mem_of_getElem? ((hother j hji).trans hj), hserves⟩
    · split at hv
      · rename_i hkey
        obtain ⟨rfl, rfl⟩ := Prod.ext_iff.mp hkey
        exact ⟨t₁, List.mem_of_getElem? hself, hserves₁⟩
      · cases hv
  · intro peerKey port v hx hv
    rw [hviews] at hv
    split at hv
    · rename_i v₀ hv₀
      cases hv
      obtain ⟨p, hp, hw⟩ := h.whole peerKey port v hx hv₀
      have hsame : t₁.hand peerKey port = t.hand peerKey port := by
        rw [hquiet]
        by_contra hne
        have hkey : (peerKey, port) = (t.slot.1, t.portName) := by
          by_contra hkey
          exact hne (hhand_other peerKey port hkey)
        obtain ⟨rfl, rfl⟩ := Prod.ext_iff.mp hkey
        rw [(hfirst (hhand₁ ▸ hne)).1] at hv₀
        cases hv₀
      rw [inHand_set n' ht htasks hsame]
      rw [hports]
      split
      · rename_i hname
        rw [← hname, hp]
        exact ⟨_, rfl, hw⟩
      · exact ⟨p, hp, hw⟩
    · rename_i hnone
      split at hv
      · rename_i hkey
        obtain ⟨rfl, rfl⟩ := Prod.ext_iff.mp hkey
        obtain ⟨p, hp, rfl⟩ := Option.map_eq_some_iff.mp hv
        have hqueue := hclean p hp
        rw [hnone, if_neg (by simp)] at hqueue
        refine ⟨p.updateBuffers .addFederationBufferingHold, by rw [hports, if_pos rfl, hp]; rfl, [], ?_, ?_, le_refl _, ?_⟩
        · have hhand : n'.inHand t.slot.1 t.portName = seed := by
            refine (flatMap_of_sole hself fun j t' hj hne' => ?_).trans hhand₁
            by_contra hji
            rw [hother j hji] at hj
            exact hne' (hnobody p hp hnone j t' hj)
          rw [hhand, hseed, seedOf, hp]
          simp
        · show ([] ++ p.buffers.dataQueue).Sublist []
          rw [hqueue]
          exact List.Sublist.refl _
        · show ([] ++ p.buffers.dataQueue).length + (p.buffers.droppedChunks - p.buffers.droppedChunks) = 0
          simp [hqueue]
      · cases hv

theorem Relaying.endLocalPumpCleanup (h : n.Relaying X) (hm : n.Managed) (ht : n.tasks[i]? = some t) (hheld : t.held)
    (hc : t.cancelled) : (n.endLocalPumpCleanup i t).Relaying X := by
  have hrunning : t.running = false := by simp [Pump.running, hc]
  have hdone : (n.setTask i { t with stage := .done }).Relaying X :=
    h.restage ht rfl rfl (by simp [Pump.held]) (by simp [Pump.running, Pump.held, hc])
      (fun hr => absurd hr (by simp [hrunning])) rfl
  have hcount : ∀ p, (n.setTask i { t with stage := .done }).ports.get? t.portName = some p →
      (n.setTask i { t with stage := .done }).tasks.countP (fun t' => t'.held && t'.portName = t.portName) <
        p.buffers.federationViewerCount := by
    intro p hp
    obtain ⟨hlt, heq⟩ := List.getElem?_eq_some_iff.mp ht
    have hle := h.held t.portName p hp
    have hpos : 0 < n.tasks.countP (fun t' => t'.held && t'.portName = t.portName) :=
      List.countP_pos_iff.mpr ⟨t, List.mem_of_getElem? ht, by simp [hheld]⟩
    show (n.tasks.set i { t with stage := .done }).countP _ < _
    rw [List.countP_set hlt, heq]
    simp only [hheld, decide_true, Bool.and_self, if_true]
    simp only [Pump.held, Bool.false_and, Bool.false_eq_true, if_false] at hle hpos ⊢
    omega
  have hreleased := hdone.removeHold hcount
  unfold OriginNode.endLocalPumpCleanup
  dsimp only
  rw [if_neg (hm.released i t ht hc)]
  exact hreleased.outside (fun _ => rfl) rfl rfl (fun _ _ hs => hs)

theorem Relaying.pumpChunk {data : Chunk} (h : n.Relaying X) (ht : n.tasks[i]? = some t)
    (hstage : t.stage = .looping ∨ t.stage = .waiting) (hq : n.nextChunk t.portName = some data)
    (hclean : data = [] ∨ ok ∧ (∀ k ∈ n.views.keys, k.2 = t.portName → k.1 = t.slot.1) ∧
      n.inHand t.slot.1 t.portName = []) : (n.pumpChunk i t data ok).Relaying X := by
  have htaken : ((n.updatePort t.portName (·.updateBuffers .dequeue)).sendData t.slot.1 t.portName data ok).Relaying X := by
    refine h.take ok t.slot.1 hq rfl rfl (fun k => Dict.get?_mapValues ..) rfl ?_
    intro peerKey v hv
    exact hclean.imp_right fun hcl => ⟨hcl.1, hcl.2.1 _ (Dict.mem_keys.mpr ⟨v, hv⟩) rfl, hcl.2.2⟩
  refine htaken.restage ht rfl rfl ?_ ?_ ?_ rfl
  · rcases hstage with hs | hs <;> simp [Pump.held, hs]
  · rcases hstage with hs | hs <;> simp [Pump.running, Pump.held, hs]
  · rcases hstage with hs | hs <;> simp [Pump.rest, hs]

theorem Relaying.pumpStep (h : n.Relaying X) (hm : n.Managed) (ht : n.tasks[i]? = some t) (hclean : n.PumpClean t ok)
    (hs : n.pumpStep i t ok = some n') : n'.Relaying X := by
  have hretire : t.cancelled → t.stage ≠ .done → (n.setTask i { t with stage := .done }).Relaying X := by
    intro hc _
    have hrunning : t.running = false := by simp [Pump.running, hc]
    exact h.restage ht rfl rfl (by simp [Pump.held]) (by simp [Pump.running, Pump.held, hc])
      (fun hr => absurd hr (by simp [hrunning])) rfl
  unfold PumpClean at hclean
  unfold OriginNode.pumpStep at hs
  split at hs
  · rename_i hstage
    split at hs <;> cases hs
    · exact hretire ‹_› (by simp [hstage])
    · rename_i hc
      have hlive : t.live := by simp [Pump.live, hstage, hc]
      rw [hstage] at hclean
      exact h.pumpStart ht hstage (by simpa using hc) (hm.registered i t ht hlive).2 (hclean.resolve_left hc)
  · rename_i rest hstage
    split at hs <;> cases hs
    · exact hretire ‹_› (by simp [hstage])
    · rename_i hc
      rw [hstage] at hclean
      have hrest : t.rest = rest := by simp [Pump.rest, hstage]
      unfold OriginNode.pumpSeed
      split
      · rename_i hempty
        exact h.restage ht rfl rfl (by simp [Pump.held, hstage]) (by simp [Pump.running, Pump.held, hstage])
          (fun _ => hrest.trans hempty) rfl
      · rename_i hne
        obtain rfl : ok = true := (hclean.resolve_left hc).resolve_left hne
        exact h.sendHand ht rfl rfl (by simp [Pump.held, hstage]) (by simp [Pump.running, Pump.held, hstage])
          (by simp [Pump.running, Pump.held, hstage, hc]) (by rw [hrest]; exact hne)
          (hrest ▸ List.take_append_drop seedFrame rest)
  · rename_i hstage
    have hheld : t.held := by simp [Pump.held, hstage]
    rw [hstage] at hclean
    split at hs
    · rename_i hexit
      cases hs
      rcases hexit with hc | hport
      · exact h.endLocalPumpCleanup hm ht hheld hc
      · exact h.endLocalPumpCleanup hm ht hheld (hm.cancelled ht (by simp [hstage]) hport)
    · rename_i hstay
      have hc : ¬ t.cancelled := fun hc => hstay (Or.inl hc)
      split at hs <;> cases hs
      · rename_i data hq
        exact h.pumpChunk ht (Or.inl hstage) hq (hclean.resolve_left hc data hq)
      · split
        · exact h.restage ht rfl rfl (by simp [Pump.held, hstage]) (by simp [Pump.running, Pump.held, hstage])
            (fun _ => by simp [Pump.rest, hstage]) rfl
        · exact h
  · rename_i hstage
    rw [hstage] at hclean
    split at hs
    · rename_i hc
      cases hs
      exact h.endLocalPumpCleanup hm ht (by simp [Pump.held, hstage]) hc
    · rename_i hc
      obtain ⟨data, hq, rfl⟩ := Option.map_eq_some_iff.mp hs
      exact h.pumpChunk ht (Or.inr hstage) hq (hclean.resolve_left hc data hq)
  · cases hs

end OriginNode

end OpenMux.Origin
