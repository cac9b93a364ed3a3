import OpenMux.Origin.Lemmas.Relay

/-!
# Sessions that open and close keep views whole
-/

namespace OpenMux.Origin

open Py Transition Streams

namespace OriginNode

variable {cfg : OriginCfg} {n n' : OriginNode} {slot : Slot} {name payload peerKey port : Text} {i j : Nat}
  {t t₁ : Pump} {o : Opening} {ok : Bool} {X : Text → Prop}

/-! ## Sessions -/

theorem sameBuffers_freeClient : n.SameBuffers (n.freeClient slot port) := by
  unfold freeClient
  split
  · exact fun _ => rfl
  · exact sameBuffers_updatePort fun _ => rfl

theorem hasStream_iff : n.hasStream peerKey port ↔ ∃ slot : Slot, slot.1 = peerKey ∧ n.sessionPort slot = some port := by
  unfold hasStream
  rw [List.any_eq_true]
  constructor
  · rintro ⟨⟨slot, port'⟩, he, hk⟩
    obtain ⟨hpeer, rfl⟩ := of_decide_eq_true hk
    exact ⟨slot, hpeer, Dict.mem_entries.mp he⟩
  · rintro ⟨slot, hpeer, hs⟩
    exact ⟨(slot, port), Dict.mem_entries.mpr hs, by simp [hpeer]⟩

/-- The slot is not the last one that the peer has for the port of the view. -/
def KeepsView (n : OriginNode) (slot : Slot) (k : Text × Text) : Prop :=
  n.sessionPort slot = some k.2 → k.1 = slot.1 →
    ∃ slot' : Slot, slot' ≠ slot ∧ slot'.1 = k.1 ∧ n.sessionPort slot' = some k.2

/-- A stop ends at most the view of its peer on its port. -/
theorem stopLocalSession_views {k : Text × Text} {v : View} :
    (n.stopLocalSession slot).views.get? k = some v ↔ n.views.get? k = some v ∧ n.KeepsView slot k := by
  unfold OriginNode.stopLocalSession KeepsView
  split
  · rename_i port hs
    have hfree : ((n.claimSlot slot).freeClient slot port).views = n.views ∧
        ((n.claimSlot slot).freeClient slot port).localSessionMap = n.localSessionMap.pop slot := by
      unfold freeClient
      split <;> exact ⟨rfl, rfl⟩
    have hstream : ((n.claimSlot slot).freeClient slot port).hasStream slot.1 port ↔
        ∃ slot' : Slot, slot' ≠ slot ∧ slot'.1 = slot.1 ∧ n.sessionPort slot' = some port := by
      rw [hasStream_iff]
      simp only [sessionPort, hfree.2, Dict.get?_pop]
      constructor
      · rintro ⟨slot', hpeer, hs'⟩
        split at hs'
        · cases hs'
        · exact ⟨slot', ‹_›, hpeer, hs'⟩
      · rintro ⟨slot', hne, hpeer, hs'⟩
        exact ⟨slot', hpeer, by rw [if_neg hne]; exact hs'⟩
    simp only [closeView, hfree.1, hs, Option.some.injEq]
    split
    · rename_i hmore
      obtain ⟨slot', hne, hpeer, hs'⟩ := hstream.mp hmore
      exact ⟨fun hv => ⟨hv, fun hport hk => ⟨slot', hne, hpeer.trans hk.symm, hport ▸ hs'⟩⟩, And.left⟩
    · rename_i hlast
      rw [Dict.get?_pop]
      split
      · rename_i hk
        subst hk
        refine ⟨fun hv => (by cases hv), fun hv => ?_⟩
        exact absurd (hstream.mpr (hv.2 rfl rfl)) hlast
      · rename_i hk
        exact ⟨fun hv => ⟨hv, fun hport hpeer => absurd (Prod.ext hpeer hport.symm) hk⟩, And.left⟩
  · rename_i hs
    exact ⟨fun hv => ⟨hv, fun hport => by rw [hs] at hport; cases hport⟩, And.left⟩

/-- What a function of the pumps gives is the same when it is the same at every index. -/
theorem map_tasks {α : Type} (n n' : OriginNode) (f : Pump → α) (h : ∀ j : Nat, (n'.tasks[j]?).map f = (n.tasks[j]?).map f) :
    n'.tasks.map f = n.tasks.map f := by
  refine List.ext_getElem? fun j => ?_
  rw [List.getElem?_map, List.getElem?_map, h]

/-- The pump that a stop cancels is a pump of the session. -/
theorem Managed.stopped (hm : n.Managed) (hp : n.pumpTasks.get? slot = some j) (ht : n.tasks[j]? = some t) :
    t.slot = slot ∧ (t.running → n.sessionPort slot = some t.portName) := by
  obtain ⟨t', ht', hslot⟩ := hm.slots slot j hp
  rw [ht, Option.some.injEq] at ht'
  subst ht'
  exact ⟨hslot, fun hr => hslot ▸ (hm.registered j t ht (Pump.live_of_running hr)).2⟩

/-- A session is stopped. Its pump had nothing to send, or the view ends. -/
theorem Relaying.stopLocalSession (h : n.Relaying X) (hm : n.Managed) (hclean : X slot.1 ∨ n.StopsClean slot) :
    (n.stopLocalSession slot).Relaying X := by
  have htask : ∀ j : Nat, (n.stopLocalSession slot).tasks[j]? =
      (n.tasks[j]?).map fun t => if n.pumpTasks.get? slot = some j then t.cancel else t := by
    intro j
    rw [(stopLocalSession_same _ _).2.1, claimSlot_tasks]
  have hbuffers : n.SameBuffers (n.stopLocalSession slot) := by
    unfold OriginNode.stopLocalSession
    split
    · exact sameBuffers_freeClient (n := n.claimSlot slot)
    · exact fun _ => rfl
  have hport : ∀ slot', (n.stopLocalSession slot).sessionPort slot' = if slot' = slot then none else n.sessionPort slot' := by
    intro slot'
    rw [sessionPort, (stopLocalSession_same _ _).2.2.2, Dict.get?_pop]
    rfl
  -- a pump that runs on is a pump of another slot
  have hrunning : ∀ {j : Nat} {t : Pump}, (n.stopLocalSession slot).tasks[j]? = some t → t.running →
      n.tasks[j]? = some t ∧ t.slot ≠ slot := by
    intro j t ht hr
    rw [(stopLocalSession_same _ _).2.1] at ht
    exact hm.of_claimSlot ht (Pump.live_of_running hr)
  have hother : ∀ {j : Nat} {t : Pump}, n.tasks[j]? = some t → t.slot ≠ slot →
      (n.stopLocalSession slot).tasks[j]? = some t := by
    intro j t ht hne
    rw [(stopLocalSession_same _ _).2.1]
    exact hm.claimSlot_other ht hne
  -- what the condition gives for a view that stays
  have hstay : ∀ {peerKey port v}, ¬ X peerKey → (n.stopLocalSession slot).views.get? (peerKey, port) = some v →
      peerKey = slot.1 → n.sessionPort slot = some port →
      (∃ t ∈ n.tasks, t.slot ≠ slot ∧ t.serves peerKey port) ∧ ∀ t ∈ n.tasks, t.slot = slot → t.hand peerKey port = [] := by
    rintro peerKey port v hx hv rfl hs
    obtain ⟨hv₀, hkeep⟩ := stopLocalSession_views.mp hv
    rcases (hclean.resolve_left hx) port hs (Option.isSome_iff_exists.mpr ⟨v, hv₀⟩) with hsole | hcl
    · obtain ⟨slot', hne, hpeer, hs'⟩ := hkeep hs rfl
      exact absurd (hsole _ (Dict.mem_entries.mpr hs') hpeer rfl) hne
    · exact hcl
  constructor
  · intro name p' hp'
    obtain ⟨p, hp, hb⟩ := hbuffers.symm.exists hp'
    have hcount : (n.stopLocalSession slot).tasks.countP (fun t => t.held && t.portName = name) =
        n.tasks.countP (fun t => t.held && t.portName = name) := by
      have hmap := map_tasks n (n.stopLocalSession slot) (fun t => t.held && decide (t.portName = name)) (by
        intro j
        rw [htask, Option.map_map]
        congr 1
        funext t
        simp only [Function.comp_apply]
        split <;> rfl)
      have hcomp := congrArg (List.countP id) hmap
      rwa [List.countP_map, List.countP_map] at hcomp
    rw [hcount, ← hb]
    exact h.held name p hp
  · intro t ht hr p' hp'
    obtain ⟨j, hj⟩ := List.mem_iff_getElem?.mp ht
    obtain ⟨hj₀, hne⟩ := hrunning hj hr
    obtain ⟨p, hp, _⟩ := hbuffers.symm.exists hp'
    obtain ⟨v, hv⟩ := h.viewed t (List.mem_of_getElem? hj₀) hr p hp
    have hreg := (hm.registered j t hj₀ (Pump.live_of_running hr)).2
    exact ⟨v, stopLocalSession_views.mpr ⟨hv, fun _ _ => ⟨t.slot, hne, rfl, hreg⟩⟩⟩
  · intro peerKey port v hv
    obtain ⟨hv₀, hkeep⟩ := stopLocalSession_views.mp hv
    obtain ⟨slot', hpeer, hs⟩ := h.streamed peerKey port v hv₀
    by_cases heq : slot' = slot
    · subst heq
      obtain ⟨slot₂, hne, hpeer₂, hs₂⟩ := hkeep hs hpeer.symm
      exact ⟨slot₂, hpeer₂, by rw [hport, if_neg hne, hs₂]⟩
    · exact ⟨slot', hpeer, by rw [hport, if_neg heq, hs]⟩
  · intro i j t t' peerKey port hi hj hne hne'
    obtain ⟨hi₀, _⟩ := hrunning hi (hand_key hne).1
    obtain ⟨hj₀, _⟩ := hrunning hj (hand_key hne').1
    exact h.seeds i j t t' peerKey port hi₀ hj₀ hne hne'
  · intro peerKey port v hx hv
    obtain ⟨hv₀, _⟩ := stopLocalSession_views.mp hv
    obtain ⟨t, ht, hserves⟩ := h.pumped peerKey port v hx hv₀
    obtain ⟨hr, hpeer, htp⟩ := Pump.serves_iff.mp hserves
    obtain ⟨j, hj⟩ := List.mem_iff_getElem?.mp ht
    by_cases hslot : t.slot = slot
    · have hreg := (hm.registered j t hj (Pump.live_of_running hr)).2
      rw [hslot, htp] at hreg
      obtain ⟨⟨t', ht', hne', hserves'⟩, _⟩ := hstay hx hv (hpeer ▸ hslot ▸ rfl) hreg
      obtain ⟨k, hk⟩ := List.mem_iff_getElem?.mp ht'
      exact ⟨t', List.mem_of_getElem? (hother hk hne'), hserves'⟩
    · exact ⟨t, List.mem_of_getElem? (hother hj hslot), hserves⟩
  · intro peerKey port v hx hv
    obtain ⟨hv₀, _⟩ := stopLocalSession_views.mp hv
    obtain ⟨p, hp, hw⟩ := h.whole peerKey port v hx hv₀
    obtain ⟨p', hp', hb⟩ := hbuffers.exists hp
    have hhand : (n.stopLocalSession slot).inHand peerKey port = n.inHand peerKey port := by
      unfold inHand
      rw [List.flatMap_def, List.flatMap_def, map_tasks]
      intro j
      rw [htask, Option.map_map]
      cases ht : n.tasks[j]? with
      | none => rfl
      | some t =>
          simp only [Option.map_some, Function.comp_apply, Option.some.injEq]
          split
          · rename_i hp
            obtain ⟨hslot, hsession⟩ := hm.stopped hp ht
            have hcancel : t.cancel.hand peerKey port = [] := by simp [Pump.hand]
            rw [hcancel]
            by_contra hne
            obtain ⟨hr, hpeer, htp⟩ := hand_key (Ne.symm hne)
            refine hne (((hstay hx hv ?_ ?_).2 t (List.mem_of_getElem? ht) hslot).symm)
            · rw [← hpeer, hslot]
            · rw [hsession hr, htp]
          · rfl
    exact ⟨p', hp', by rw [hb, hhand]; exact hw⟩

theorem Relaying.createPump (h : n.Relaying X) : (n.createPump slot name).Relaying X := by
  have hquiet : ∀ peerKey port, Pump.hand { slot := slot, portName := name } peerKey port = [] := fun _ _ => by
    simp [Pump.hand, Pump.serves, Pump.running, Pump.held]
  constructor
  · intro name' p hp
    show (n.tasks ++ [_]).countP _ ≤ _
    rw [List.countP_append]
    simpa [Pump.held] using h.held name' p hp
  · intro t ht hr
    rcases List.mem_append.mp ht with ht | ht
    · exact h.viewed t ht hr
    · cases List.mem_singleton.mp ht
      simp [Pump.running, Pump.held] at hr
  · exact h.streamed
  · intro i j t t' peerKey port hi hj hne hne'
    rcases createPump_tasks.mp hi with hi | ⟨_, rfl⟩
    · rcases createPump_tasks.mp hj with hj | ⟨_, rfl⟩
      · exact h.seeds i j t t' peerKey port hi hj hne hne'
      · exact absurd (hquiet _ _) hne'
    · exact absurd (hquiet _ _) hne
  · intro peerKey port v hx hv
    obtain ⟨t, ht, hserves⟩ := h.pumped peerKey port v hx hv
    exact ⟨t, List.mem_append_left _ ht, hserves⟩
  · intro peerKey port v hx hv
    have hhand : (n.createPump slot name).inHand peerKey port = n.inHand peerKey port := by
      show (n.tasks ++ [_]).flatMap _ = _
      rw [List.flatMap_append, List.flatMap_singleton, hquiet, List.append_nil]
      rfl
    rw [hhand]
    exact h.whole peerKey port v hx hv

theorem Relaying.rlHandleOpen (h : n.Relaying X) (hm : n.Managed)
    (hclean : n.sessionPort slot = some (strip payload) ∨ n.StopsClean slot) : (n.rlHandleOpen cfg slot payload).Relaying X := by
  have hrecorded : (n.recordPermitted cfg slot (strip payload)).Relaying X :=
    h.outside (fun _ => rfl) rfl rfl (fun _ _ hs => hs)
  have hm' : (n.recordPermitted cfg slot (strip payload)).Managed := hm.outside rfl rfl rfl rfl
  have hstopped : ((n.recordPermitted cfg slot (strip payload)).stopReused slot (strip payload)).Relaying X := by
    unfold stopReused
    split
    · rename_i hreused
      exact hrecorded.stopLocalSession hm' (Or.inr (hclean.resolve_left hreused.2))
    · exact hrecorded
  refine hstopped.outside (fun _ => rfl) rfl rfl ?_
  intro slot' port hs
  show (Dict.set _ slot (strip payload)).get? slot' = some port
  rw [Dict.get?_set]
  split
  · subst_vars
    rcases stopReused_session (n := n.recordPermitted cfg slot' (strip payload)) slot' (strip payload) with hnone | ⟨hsome, _⟩
    · rw [hnone] at hs; cases hs
    · rw [← hs, hsome]
  · exact hs

theorem Relaying.resumeOpen {now : Nat} (h : n.Relaying X) (hm : n.Managed) (ho : n.opening[i]? = some o) :
    (n.resumeOpen i o now).Relaying X := by
  unfold OriginNode.resumeOpen
  split
  · have hrest : OriginNode.Relaying X { n with opening := n.opening.eraseIdx i } :=
      h.outside (fun _ => rfl) rfl rfl (fun _ _ hs => hs)
    rcases hm.rlEnsureOpenPump_eq (i := i) (List.mem_of_getElem? ho) with heq | heq <;> rw [heq]
    · exact hrest
    · exact hrest.createPump
  · unfold rlOpenClient
    split
    · exact h.outside (fun _ => rfl) rfl rfl (fun _ _ hs => hs)
    · refine h.outside ?_ rfl rfl (fun _ _ hs => hs)
      exact sameBuffers_updatePort (n := { n with opening := n.opening.set i { o with clientAdded := true } }) fun _ =>
        Port.buffers_addClient

/-- All sessions of a peer are stopped; its views end with them. -/
theorem Relaying.stopSlots {slots : List Slot} (h : n.Relaying X) (hm : n.Managed)
    (hx : ∀ slot ∈ slots, X slot.1 ∧ n.Settled slot) : (slots.foldl OriginNode.stopLocalSession n).Relaying X := by
  induction slots generalizing n with
  | nil => exact h
  | cons slot slots ih =>
      obtain ⟨hx₀, hs₀⟩ := hx slot List.mem_cons_self
      refine ih (h.stopLocalSession hm (Or.inl hx₀)) (hm.stopLocalSession hs₀) ?_
      intro slot' hslot'
      obtain ⟨hx', hs'⟩ := hx slot' (List.mem_cons_of_mem _ hslot')
      refine ⟨hx', fun o ho => hs' o ?_⟩
      rwa [(stopLocalSession_same _ _).1] at ho

theorem stopSlots_session {slots : List Slot} {slot' : Slot} {port : Text}
    (hs : (slots.foldl OriginNode.stopLocalSession n).sessionPort slot' = some port) :
    n.sessionPort slot' = some port ∧ slot' ∉ slots := by
  induction slots generalizing n with
  | nil => exact ⟨hs, List.not_mem_nil⟩
  | cons slot slots ih =>
      obtain ⟨hs', hnot⟩ := ih hs
      rw [sessionPort, (stopLocalSession_same _ _).2.2.2, Dict.get?_pop] at hs'
      split at hs'
      · cases hs'
      · rename_i hne
        exact ⟨hs', fun hmem => (List.mem_cons.mp hmem).elim hne hnot⟩

theorem Relaying.mono (h : n.Relaying X) (Y : Text → Prop) (hxy : ∀ peerKey, X peerKey → Y peerKey) : n.Relaying Y :=
  { h with
    pumped := fun peerKey port v hy => h.pumped peerKey port v fun hx => hy (hxy _ hx)
    whole := fun peerKey port v hy => h.whole peerKey port v fun hx => hy (hxy _ hx) }

theorem Relaying.cleanup (h : n.Relaying X) (hm : n.Managed) (hs : ∀ o ∈ n.opening, o.slot.1 ≠ peerKey) :
    (n.cleanupPeerLocalSessions peerKey).Relaying X := by
  have hall : ∀ slot ∈ (n.pumpTasks.keys ++ n.localSessionMap.keys).filter (·.1 = peerKey),
      (X slot.1 ∨ slot.1 = peerKey) ∧ n.Settled slot :=
    fun slot hslot => ⟨Or.inr (peer_of_mem hslot), settled_of_peer hs slot hslot⟩
  have hstopped := (h.mono (fun k => X k ∨ k = peerKey) (fun _ => Or.inl)).stopSlots hm hall
  -- no view of the peer is left
  have hnone : ∀ port v, ((List.filter (·.1 = peerKey) (n.pumpTasks.keys ++ n.localSessionMap.keys)).foldl
      OriginNode.stopLocalSession n).views.get? (peerKey, port) ≠ some v := by
    intro port v hv
    obtain ⟨slot, hpeer, hs'⟩ := hstopped.streamed peerKey port v hv
    obtain ⟨hs₀, hnot⟩ := stopSlots_session hs'
    refine hnot (List.mem_filter.mpr ⟨List.mem_append_right _ (Dict.mem_keys.mpr ⟨port, hs₀⟩), by simpa using hpeer⟩)
  have hrest : ((List.filter (·.1 = peerKey) (n.pumpTasks.keys ++ n.localSessionMap.keys)).foldl
      OriginNode.stopLocalSession n).Relaying X :=
    { hstopped with
      pumped := fun peerKey' port v hx hv =>
        hstopped.pumped peerKey' port v (fun hy => hy.elim hx fun heq => hnone port v (heq ▸ hv)) hv
      whole := fun peerKey' port v hx hv =>
        hstopped.whole peerKey' port v (fun hy => hy.elim hx fun heq => hnone port v (heq ▸ hv)) hv }
  exact hrest.outside (fun _ => rfl) rfl rfl (fun _ _ hs => hs)

/-! ## Every step -/

theorem Relaying.handleFrame {f : Frame} (h : n.Relaying X) (hm : n.Managed) (hclean : n.FrameClean peerKey f) :
    (n.handleFrame cfg peerKey f).Relaying X := by
  cases f with
  | openStream sid payload => exact h.rlHandleOpen hm hclean.2
  | close sid =>
      have hpopped : OriginNode.Relaying X { n with sessionMap := n.sessionMap.pop (peerKey, sid) } :=
        h.outside (fun _ => rfl) rfl rfl (fun _ _ hs => hs)
      exact hpopped.stopLocalSession (hm.outside rfl rfl rfl rfl) (Or.inr hclean.2)
  | data sid data =>
      show (n.routeDataFrame (peerKey, sid) data).Relaying X
      unfold routeDataFrame writeToPort
      repeat' split
      all_goals exact h.outside (fun _ => rfl) rfl rfl (fun _ _ hs => hs)
  | fedrw port sid action =>
      show (n.handleFedrwRequest (peerKey, sid) port action).Relaying X
      unfold handleFedrwRequest
      split
      · exact h
      · refine h.outside (sameBuffers_updatePort fun p => ?_) rfl rfl (fun _ _ hs => hs)
        cases action with
        | request => exact Port.buffers_promote
        | release => rfl
        | take spec => exact Port.buffers_take
        | force => exact Port.buffers_take
        | unknown => rfl
  | powerSwitch port sid outletOk =>
      show (n.handlePowerSwitch (peerKey, sid) port outletOk).Relaying X
      unfold handlePowerSwitch
      repeat' split
      all_goals exact h.outside (fun _ => rfl) rfl rfl (fun _ _ hs => hs)

/-- The invariant of a node along clean steps. -/
structure RelayInv (n : OriginNode) : Prop where
  managed : n.Managed
  relaying : n.Relaying fun _ => False

theorem RelayInv.outside (h : n.RelayInv) (hports : n.SameBuffers n') (htasks : n'.tasks = n.tasks)
    (hviews : n'.views = n.views) (hopening : n'.opening = n.opening) (hpump : n'.pumpTasks = n.pumpTasks)
    (hsession : n'.localSessionMap = n.localSessionMap) : n'.RelayInv where
  managed := h.managed.outside hopening htasks hpump hsession
  relaying := h.relaying.outside hports htasks hviews fun slot port hs => by rw [← hs, sessionPort, sessionPort, hsession]

theorem RelayInv.closeConnection {c : ConnId} {conn : Conn} (h : n.RelayInv)
    (hclean : (∃ e ∈ n.connections.entries, e.1 ≠ c ∧ e.2.peerKey = conn.peerKey) ∨
      ∀ o ∈ n.opening, o.slot.1 ≠ conn.peerKey) : (n.closeConnection c conn).RelayInv := by
  have hrest : OriginNode.RelayInv { n with connections := n.connections.pop c, connFilters := n.connFilters.pop c } :=
    h.outside (fun _ => rfl) rfl rfl rfl rfl rfl
  unfold OriginNode.closeConnection
  dsimp only
  split
  · exact hrest
  · rename_i hlast
    have hsettled : ∀ o ∈ n.opening, o.slot.1 ≠ conn.peerKey := by
      refine hclean.resolve_left ?_
      rintro ⟨e, he, hne, hpeer⟩
      refine hlast (List.any_eq_true.mpr ⟨e, ?_, by simpa using hpeer⟩)
      exact List.mem_filter.mpr ⟨he, by simpa using hne⟩
    exact ⟨hrest.managed.cleanup hsettled, hrest.relaying.cleanup hrest.managed hsettled⟩

theorem RelayInv.step {a : OriginAct} (h : n.RelayInv) (hclean : n.RelayClean a) (hs : n.step cfg a = some n') :
    n'.RelayInv := by
  cases a with
  | connect c peerKey =>
      simp only [OriginNode.step] at hs
      split at hs
      · cases hs
      · cases hs; exact h.outside (fun _ => rfl) rfl rfl rfl rfl rfl
  | authenticate c peerKey keyFilters =>
      obtain ⟨conn, _, rfl⟩ := Option.map_eq_some_iff.mp hs
      exact h.outside (fun _ => rfl) rfl rfl rfl rfl rfl
  | closeConnection c =>
      obtain ⟨conn, hconn, rfl⟩ := Option.map_eq_some_iff.mp hs
      exact h.closeConnection (hclean conn hconn)
  | reload filters => cases hs; exact h.outside (fun _ => rfl) rfl rfl rfl rfl rfl
  | frame c f =>
      obtain ⟨conn, hconn, rfl⟩ := Option.map_eq_some_iff.mp hs
      split
      · rename_i hauth
        have hframe := hclean conn hconn hauth
        exact ⟨h.managed.handleFrame hframe, h.relaying.handleFrame h.managed hframe⟩
      · exact h
  | resumeOpen i now =>
      obtain ⟨o, ho, rfl⟩ := Option.map_eq_some_iff.mp hs
      exact ⟨h.managed.resumeOpen ho, h.relaying.resumeOpen h.managed ho⟩
  | pump i ok =>
      obtain ⟨t, ht, hstep⟩ := Option.bind_eq_some_iff.mp hs
      exact ⟨h.managed.pumpStep ht hstep, h.relaying.pumpStep h.managed ht (hclean t ht) hstep⟩
  | incoming port data requireClients =>
      cases hs
      exact ⟨h.managed.outside rfl rfl rfl rfl, h.relaying.handleIncoming⟩
  | poll port =>
      cases hs
      refine ⟨h.managed.outside rfl rfl rfl rfl, ?_⟩
      cases hq : n.nextChunk port with
      | none =>
          refine h.relaying.outside (sameBuffers_dequeue hq) rfl rfl (fun _ _ hs => hs)
      | some data =>
          refine h.relaying.take false [] hq rfl rfl (fun k => ?_) rfl ?_
          · show n.views.get? k = _
            simp
          · intro peerKey v hv
            refine (hclean data hq).imp_right fun hno => absurd rfl (hno _ (Dict.mem_keys.mpr ⟨v, hv⟩))
  | mapSession slot proxy => cases hs; exact h.outside (fun _ => rfl) rfl rfl rfl rfl rfl
  | unmapSession slot => cases hs; exact h.outside (fun _ => rfl) rfl rfl rfl rfl rfl
  | localAttach port client =>
      simp only [OriginNode.step] at hs
      split at hs
      · cases hs
      · cases hs; exact h.outside (sameBuffers_updatePort fun p => Port.buffers_addClient) rfl rfl rfl rfl rfl
  | localDetach port id => cases hs; exact h.outside (sameBuffers_updatePort fun _ => rfl) rfl rfl rfl rfl rfl
  | localPromote port id =>
      cases hs; exact h.outside (sameBuffers_updatePort fun p => Port.buffers_promote) rfl rfl rfl rfl rfl
  | localDemote port id => cases hs; exact h.outside (sameBuffers_updatePort fun _ => rfl) rfl rfl rfl rfl rfl

theorem Fresh.relayInv (h : n.Fresh) : n.RelayInv where
  managed :=
    { opening := by simp [h.opening]
      openingDistinct := by simp [h.opening]
      openingNew := by simp [h.opening]
      slots := by simp [h.pumpTasks]
      registered := by simp [h.tasks]
      released := by simp [h.tasks]
      backed := by simp [sessionPort, h.session] }
  relaying :=
    { held := by simp [h.tasks]
      viewed := by simp [h.tasks]
      streamed := by simp [h.views]
      seeds := by simp [h.tasks]
      pumped := by simp [h.views]
      whole := by simp [h.views] }

theorem RelayInv.relayed (h : n.RelayInv) : n.Relayed where
  backed := h.managed.backed
  viewed := h.relaying.viewed
  pumped peerKey port v := h.relaying.pumped peerKey port v not_false
  whole peerKey port v := h.relaying.whole peerKey port v not_false

end OriginNode

end OpenMux.Origin
