import OpenMux.Origin.Lemmas.Pumps
import OpenMux.Origin.Lemmas.Sessions

/-!
# Whole views
-/

namespace OpenMux.Origin

open Py Transition Streams

/-! ## Buffers -/

variable {v : View} {b : Buffers} {hand hand' sent' : List UInt8} {data : Chunk}

/-- The queue takes a chunk that arrives. -/
theorem View.Whole.enqueue (h : v.Whole b hand) :
    View.Whole { v with arrived := v.arrived ++ [data] } ((b.record data).enqueue data) hand := by
  obtain ⟨taken, hsent, hsub, hle, hlen⟩ := h
  refine ⟨taken, hsent, ?_⟩
  have hrecord : (b.record data).dataQueue = b.dataQueue ∧ (b.record data).droppedChunks = b.droppedChunks := by
    unfold Buffers.record
    split <;> exact ⟨rfl, rfl⟩
  unfold Buffers.enqueue
  rw [hrecord.1, hrecord.2]
  split
  · refine ⟨?_, by simpa only [hrecord.2] using hle, ?_⟩
    · rw [← List.append_assoc]
      exact hsub.append (List.Sublist.refl _)
    · simp only [List.length_append] at hlen ⊢
      omega
  · rename_i hfull
    obtain ⟨c, q, hq⟩ : ∃ c q, b.dataQueue = c :: q := by
      cases hq : b.dataQueue with
      | nil => simp [hq, dataQueueSize] at hfull
      | cons c q => exact ⟨c, q, rfl⟩
    refine ⟨?_, by simp only; omega, ?_⟩
    · rw [hq] at hsub ⊢
      rw [← List.append_assoc]
      refine List.Sublist.append (List.Sublist.trans ?_ hsub) (List.Sublist.refl _)
      exact (List.Sublist.refl taken).append (List.sublist_cons_self c q)
    · simp only [hq, List.tail_cons, List.length_append, List.length_cons, List.length_nil] at hlen ⊢
      omega

/-- A chunk is taken from the queue; whatever is not sent of it is empty. -/
theorem View.Whole.dequeue (h : v.Whole b hand) (hq : b.dataQueue.head? = some data)
    (hsent : sent' ++ hand' = v.sent ++ hand ++ data) : View.Whole { v with sent := sent' } b.dequeue hand' := by
  obtain ⟨taken, htaken, hsub, hle, hlen⟩ := h
  obtain ⟨q, hq⟩ := List.head?_eq_some_iff.mp hq
  rw [hq] at hsub hlen
  have hsame : taken ++ [data] ++ b.dequeue.dataQueue = taken ++ data :: q := by simp [Buffers.dequeue, hq]
  refine ⟨taken ++ [data], ?_, ?_, hle, ?_⟩
  · rw [hsent, htaken, List.flatten_append, List.flatten_singleton, List.append_assoc]
  · rw [hsame]; exact hsub
  · rw [hsame]; exact hlen

theorem View.Whole.congr {b' : Buffers} (h : v.Whole b hand) (hq : b'.dataQueue = b.dataQueue)
    (hd : b'.droppedChunks = b.droppedChunks) (hsent : sent' ++ hand' = v.sent ++ hand) :
    View.Whole { v with sent := sent' } b' hand' := by
  obtain ⟨taken, htaken, hrest⟩ := h
  exact ⟨taken, hsent.trans htaken, by rw [hq, hd]; exact hrest⟩

namespace Port

variable {p : Port} {c : Client} {id : Text} {slot : Slot} {spec : TakeSpec}

theorem buffers_addClient : (p.addClient c).buffers = p.buffers := by
  unfold addClient
  repeat' split
  all_goals rfl

theorem buffers_promote : (p.promoteClient id).1.buffers = p.buffers := by
  unfold promoteClient
  split <;> rfl

theorem buffers_take : (handleFedrwTake p slot spec).buffers = p.buffers := by
  unfold handleFedrwTake
  dsimp only
  split
  · split
    · exact buffers_promote
    · rfl
  · split
    · exact buffers_promote.trans rfl
    · exact buffers_promote.trans (buffers_promote.trans rfl)

end Port

/-! ## What is in hand -/

/-- All but one part of a list are empty. -/
theorem flatMap_of_sole {α β : Type} {l : List α} {f : α → List β} {i : Nat} {a : α} (ha : l[i]? = some a)
    (h : ∀ j b, l[j]? = some b → f b ≠ [] → j = i) : l.flatMap f = f a := by
  induction l generalizing i with
  | nil => cases ha
  | cons x l ih =>
      rw [List.flatMap_cons]
      cases i with
      | zero =>
          cases ha
          rw [List.flatMap_eq_nil_iff.mpr ?_, List.append_nil]
          intro b hb
          obtain ⟨j, hj⟩ := List.mem_iff_getElem?.mp hb
          by_contra hne
          exact absurd (h (j + 1) b hj hne) (Nat.succ_ne_zero j)
      | succ i =>
          have hx : f x = [] := by
            by_contra hne
            exact absurd (h 0 x rfl hne) (Nat.succ_ne_zero i).symm
          rw [hx, List.nil_append]
          exact ih ha fun j b hj hne => Nat.succ.inj (h (j + 1) b hj hne)

namespace OriginNode

variable {cfg : OriginCfg} {n n' : OriginNode} {slot : Slot} {name payload peerKey port : Text} {i j : Nat}
  {t t₁ : Pump} {o : Opening} {ok : Bool} {X : Text → Prop}

/-- A pump changes, but not what it has in hand. -/
theorem inHand_set (n' : OriginNode) (ht : n.tasks[i]? = some t) (htasks : n'.tasks = n.tasks.set i t₁)
    (hhand : t₁.hand peerKey port = t.hand peerKey port) : n'.inHand peerKey port = n.inHand peerKey port := by
  unfold inHand
  rw [htasks, List.flatMap_def, List.flatMap_def, map_set_of_eq ht hhand]

/-- The invariant, but for the views of peers in `X`, whose sessions are being stopped. -/
structure Relaying (X : Text → Prop) (n : OriginNode) : Prop where
  held : ∀ name p, n.ports.get? name = some p →
    n.tasks.countP (fun t => t.held && t.portName = name) ≤ p.buffers.federationViewerCount
  viewed : ∀ t ∈ n.tasks, t.running → ∀ p, n.ports.get? t.portName = some p →
    ∃ v, n.views.get? (t.slot.1, t.portName) = some v
  streamed : ∀ peerKey port v, n.views.get? (peerKey, port) = some v →
    ∃ slot : Slot, slot.1 = peerKey ∧ n.sessionPort slot = some port
  seeds : ∀ (i j : Nat) (t t' : Pump) (peerKey port : Text), n.tasks[i]? = some t → n.tasks[j]? = some t' → t.hand peerKey port ≠ [] →
    t'.hand peerKey port ≠ [] → i = j
  pumped : ∀ peerKey port v, ¬ X peerKey → n.views.get? (peerKey, port) = some v → ∃ t ∈ n.tasks, t.serves peerKey port
  whole : ∀ peerKey port v, ¬ X peerKey → n.views.get? (peerKey, port) = some v →
    ∃ p, n.ports.get? port = some p ∧ v.Whole p.buffers (n.inHand peerKey port)

/-- The same buffers of the same ports. -/
def SameBuffers (n n' : OriginNode) : Prop :=
  ∀ name, (n'.ports.get? name).map Port.buffers = (n.ports.get? name).map Port.buffers

theorem SameBuffers.exists (h : n.SameBuffers n') {p : Port} (hp : n.ports.get? name = some p) :
    ∃ p', n'.ports.get? name = some p' ∧ p'.buffers = p.buffers := by
  have hname := h name
  rw [hp, Option.map_some] at hname
  exact Option.map_eq_some_iff.mp hname

theorem SameBuffers.symm (h : n.SameBuffers n') : n'.SameBuffers n := fun name => (h name).symm

theorem sameBuffers_updatePort {f : Port → Port} (hf : ∀ p, (f p).buffers = p.buffers) :
    n.SameBuffers (n.updatePort name f) := by
  intro name'
  rw [updatePort_ports]
  split
  · subst_vars
    rw [Option.map_map, show Port.buffers ∘ f = Port.buffers from funext hf]
  · rfl

/-- A change outside the buffers, views and pumps; no stream is closed. -/
theorem Relaying.outside (h : n.Relaying X) (hports : n.SameBuffers n') (htasks : n'.tasks = n.tasks)
    (hviews : n'.views = n.views) (hsession : ∀ slot port, n.sessionPort slot = some port → n'.sessionPort slot = some port) :
    n'.Relaying X := by
  have hhand : ∀ peerKey port, n'.inHand peerKey port = n.inHand peerKey port := fun _ _ => by rw [inHand, htasks]; rfl
  constructor
  · intro name p' hp'
    obtain ⟨p, hp, hb⟩ := hports.symm.exists hp'
    rw [htasks, ← hb]
    exact h.held name p hp
  · intro t ht hr p' hp'
    obtain ⟨p, hp, _⟩ := hports.symm.exists hp'
    rw [hviews]
    exact h.viewed t (htasks ▸ ht) hr p hp
  · intro peerKey port v hv
    obtain ⟨slot, hpeer, hs⟩ := h.streamed peerKey port v (hviews ▸ hv)
    exact ⟨slot, hpeer, hsession slot port hs⟩
  · rw [htasks]; exact h.seeds
  · rw [htasks, hviews]; exact h.pumped
  · intro peerKey port v hx hv
    obtain ⟨p, hp, hw⟩ := h.whole peerKey port v hx (hviews ▸ hv)
    obtain ⟨p', hp', hb⟩ := hports.exists hp
    exact ⟨p', hp', by rw [hb, hhand]; exact hw⟩

theorem hand_key (h : t.hand peerKey port ≠ []) : t.running ∧ t.slot.1 = peerKey ∧ t.portName = port := by
  unfold Pump.hand at h
  split at h
  · exact Pump.serves_iff.mp ‹_›
  · exact absurd rfl h

/-- A pump goes on with the same port and may lose its hold; the caller shows that the views stay whole. -/
theorem Relaying.repump (h : n.Relaying X) (ht : n.tasks[i]? = some t) (hslot : t₁.slot = t.slot)
    (hport : t₁.portName = t.portName) (hheld : t₁.held → t.held) (hrunning : t₁.running = t.running)
    (hrest : t.rest = [] → t₁.rest = []) (htasks : n'.tasks = n.tasks.set i t₁) (hports : n'.ports = n.ports)
    (hviews : ∀ k, (n'.views.get? k).isSome = (n.views.get? k).isSome) (hsession : n'.localSessionMap = n.localSessionMap)
    (hwhole : ∀ peerKey port v, ¬ X peerKey → n'.views.get? (peerKey, port) = some v →
      ∃ p, n.ports.get? port = some p ∧ v.Whole p.buffers (n'.inHand peerKey port)) : n'.Relaying X := by
  have hserves : ∀ peerKey port, t₁.serves peerKey port = t.serves peerKey port := fun _ _ => by
    unfold Pump.serves
    rw [hrunning, hslot, hport]
  have hhand : ∀ peerKey port, t.hand peerKey port = [] → t₁.hand peerKey port = [] := by
    intro peerKey port
    unfold Pump.hand
    rw [hserves]
    split
    · exact hrest
    · exact fun _ => rfl
  have hview : ∀ {k v}, n'.views.get? k = some v → ∃ v, n.views.get? k = some v := fun hv =>
    Option.isSome_iff_exists.mp ((hviews _).symm.trans (Option.isSome_iff_exists.mpr ⟨_, hv⟩))
  obtain ⟨hlt, heq⟩ := List.getElem?_eq_some_iff.mp ht
  have hold : ∀ (j : Nat) (t' : Pump), n'.tasks[j]? = some t' → ∃ t₀ : Pump, n.tasks[j]? = some t₀ ∧
      t'.slot = t₀.slot ∧ t'.portName = t₀.portName ∧ t'.running = t₀.running ∧
      ∀ peerKey port, t₀.hand peerKey port = [] → t'.hand peerKey port = [] := by
    intro j t' hj
    rw [htasks, List.getElem?_set] at hj
    split at hj
    · rename_i hij
      cases hj
      exact ⟨t, hij ▸ ht, hslot, hport, hrunning, hhand⟩
    · exact ⟨t', hj, rfl, rfl, rfl, fun _ _ hn => hn⟩
  constructor
  · intro name p hp
    refine le_trans ?_ (h.held name p (hports ▸ hp))
    rw [htasks, List.countP_set hlt, heq, hport]
    have hpos : (t.held && t.portName = name) = true → 0 < n.tasks.countP (fun t => t.held && t.portName = name) :=
      fun hp => List.countP_pos_iff.mpr ⟨t, List.mem_of_getElem? ht, hp⟩
    by_cases hp' : (t.held && t.portName = name) = true
    · have := hpos hp'
      simp only [hp', if_true]
      split <;> omega
    · have hp₁ : ¬ (t₁.held && t.portName = name) = true := by
        simp only [Bool.and_eq_true] at hp' ⊢
        exact fun hh => hp' ⟨hheld hh.1, hh.2⟩
      simp [hp', hp₁]
  · intro t' ht' hr p hp
    obtain ⟨j, hj⟩ := List.mem_iff_getElem?.mp ht'
    obtain ⟨t₀, ht₀, hs, hp', hrun, _⟩ := hold j t' hj
    rw [hs, hp']
    obtain ⟨v, hv⟩ := h.viewed t₀ (List.mem_of_getElem? ht₀) (hrun ▸ hr) p (by rw [← hports, ← hp', hp])
    exact Option.isSome_iff_exists.mp ((hviews _).trans (Option.isSome_iff_exists.mpr ⟨v, hv⟩))
  · intro peerKey port v hv
    obtain ⟨v', hv'⟩ := hview hv
    obtain ⟨slot, hpeer, hs⟩ := h.streamed peerKey port v' hv'
    exact ⟨slot, hpeer, by rw [← hs, sessionPort, sessionPort, hsession]⟩
  · intro j k t' t'' peerKey port hj hk hne hne'
    obtain ⟨t₀, ht₀, _, _, _, hh⟩ := hold j t' hj
    obtain ⟨t₀', ht₀', _, _, _, hh'⟩ := hold k t'' hk
    exact h.seeds j k t₀ t₀' peerKey port ht₀ ht₀' (fun hn => hne (hh _ _ hn)) (fun hn => hne' (hh' _ _ hn))
  · intro peerKey port v hx hv
    obtain ⟨v', hv'⟩ := hview hv
    obtain ⟨t₀, ht₀, hs⟩ := h.pumped peerKey port v' hx hv'
    obtain ⟨j, hj⟩ := List.mem_iff_getElem?.mp ht₀
    rw [htasks]
    by_cases hji : j = i
    · subst hji
      rw [ht, Option.some.injEq] at hj
      subst hj
      exact ⟨t₁, List.mem_of_getElem? (List.getElem?_set_self hlt), (hserves ..).trans hs⟩
    · exact ⟨t₀, List.mem_of_getElem? ((List.getElem?_set_ne (Ne.symm hji)).trans hj), hs⟩
  · intro peerKey port v hx hv
    rw [hports]
    exact hwhole peerKey port v hx hv

theorem hand_of_rest (h : t.running → t.rest = []) : t.hand peerKey port = [] := by
  unfold Pump.hand
  split
  · exact h (Pump.serves_iff.mp ‹_›).1
  · rfl

/-- A pump that has nothing in hand goes on. -/
theorem Relaying.restage (h : n.Relaying X) (ht : n.tasks[i]? = some t) (hslot : t₁.slot = t.slot)
    (hport : t₁.portName = t.portName) (hheld : t₁.held → t.held) (hrunning : t₁.running = t.running)
    (hrest : t.running → t.rest = []) (hrest₁ : t₁.rest = []) : (n.setTask i t₁).Relaying X := by
  refine h.repump ht hslot hport hheld hrunning (fun _ => hrest₁) rfl rfl (fun _ => rfl) rfl ?_
  intro peerKey port v hx hv
  have hhand : t₁.hand peerKey port = t.hand peerKey port := by
    rw [hand_of_rest hrest, hand_of_rest fun _ => hrest₁]
  rw [inHand_set (n.setTask i t₁) ht rfl hhand]
  exact h.whole peerKey port v hx hv

end OriginNode

end OpenMux.Origin
