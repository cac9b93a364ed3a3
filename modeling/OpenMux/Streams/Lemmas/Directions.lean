import OpenMux.Streams.Session

/-!
# The maps hold what was opened

A node maps a stream of its own to the proxy that opened it, and a stream of the peer to the port that its OPEN named.
-/

namespace OpenMux.Streams

open Py

/-- Ids that were allocated stay allocated. -/
def Extends (d d' : Dict StreamId Text) : Prop := ∀ sid p, d.get? sid = some p → d'.get? sid = some p

variable {n n' : StreamNode} {peer peer' own own' : Dict StreamId Text} {sid : StreamId} {proxy payload : Text} {key : String}
  {i : Nat} {l l' : Link} {s : Side} {f : Frame}

theorem Extends.refl (d : Dict StreamId Text) : Extends d d := fun _ _ h => h

/-! ## One node -/

/-- The maps of a node agree with what it and its peer opened. -/
structure StreamNode.Mapped (n : StreamNode) (peer : Dict StreamId Text) : Prop where
  fresh : ∀ sid p, n.opened.get? sid = some p → sid ≤ n.nextStreamId
  session : ∀ sid p, n.sessionMap.get? sid = some p → n.opened.get? sid = some p
  opening : ∀ o ∈ n.opening, n.opened.get? o.sid = some o.proxy
  client : ∀ p k sid, n.clientSessions.get? (p, k) = some sid → n.opened.get? sid = some p
  served : ∀ sid port, n.localSessionMap.get? sid = some port → ∃ p, peer.get? sid = some p ∧ port = strip p

namespace StreamNode

theorem Mapped.mono (h : n.Mapped peer) (hp : Extends peer peer') : n.Mapped peer' where
  fresh := h.fresh
  session := h.session
  opening := h.opening
  client := h.client
  served := by
    intro sid port hs
    obtain ⟨p, hpeer, heq⟩ := h.served sid port hs
    exact ⟨p, hp sid p hpeer, heq⟩

/-- An allocated id is new. -/
theorem Mapped.ensureSession (h : n.Mapped peer) (he : n.ensureSession proxy key = some (sid, n')) :
    n'.Mapped peer ∧ Extends n.opened n'.opened ∧ n'.opened.get? sid = some proxy := by
  unfold StreamNode.ensureSession at he
  split at he
  · cases he
  · cases he
    have hext : Extends n.opened (n.opened.set (n.nextStreamId + 1) proxy) := by
      intro sid p hs
      have hne : sid ≠ n.nextStreamId + 1 := Nat.ne_of_lt (Nat.lt_succ_of_le (h.fresh sid p hs))
      rw [Dict.get?_set_ne _ _ hne, hs]
    refine ⟨⟨?_, ?_, ?_, ?_, h.served⟩, hext, Dict.get?_set_self ..⟩
    · intro sid p hs
      simp only [Dict.get?_set] at hs
      split at hs
      · exact Nat.le_of_eq ‹_›
      · exact Nat.le_succ_of_le (h.fresh sid p hs)
    · exact fun sid p hs => hext sid p (h.session sid p hs)
    · intro o ho
      simp only [List.mem_append, List.mem_singleton] at ho
      rcases ho with ho | rfl
      · exact hext _ _ (h.opening o ho)
      · exact Dict.get?_set_self ..
    · exact fun p k sid hs => hext sid p (h.client p k sid hs)

theorem Mapped.mapSession (h : n.Mapped peer) (he : n.mapSession i = some n') :
    n'.Mapped peer ∧ n'.opened = n.opened := by
  unfold StreamNode.mapSession at he
  obtain ⟨o, hi, rfl⟩ := Option.map_eq_some_iff.mp he
  have ho := h.opening o (List.mem_of_getElem? hi)
  refine ⟨⟨h.fresh, ?_, ?_, ?_, h.served⟩, rfl⟩
  · intro sid p hs
    rw [Dict.get?_set] at hs
    split at hs
    · rename_i he
      cases hs
      rw [he, ho]
    · exact h.session sid p hs
  · exact fun o' ho' => h.opening o' (List.mem_of_mem_eraseIdx ho')
  · intro p k sid hs
    rw [Dict.get?_set] at hs
    split at hs
    · rename_i he
      cases he
      cases hs
      exact ho
    · exact h.client p k sid hs

theorem Mapped.closeStream (h : n.Mapped peer) (he : n.closeStreamForClient proxy key = some (sid, n')) :
    n'.Mapped peer ∧ n'.opened = n.opened := by
  unfold closeStreamForClient at he
  obtain ⟨sid, hs, he⟩ := Option.map_eq_some_iff.mp he
  cases he
  refine ⟨⟨h.fresh, ?_, h.opening, ?_, h.served⟩, rfl⟩
  · exact fun sid' p hs' => h.session sid' p (Dict.get?_of_get?_pop hs')
  · exact fun p k sid' hs' => h.client p k sid' (Dict.get?_of_get?_pop hs')

theorem Mapped.stopLocalSession (h : n.Mapped peer) : (n.stopLocalSession sid).Mapped peer where
  fresh := h.fresh
  session := h.session
  opening := h.opening
  client := h.client
  served := fun sid' port hs => h.served sid' port (Dict.get?_of_get?_pop hs)

theorem Mapped.rlHandleOpen (h : n.Mapped peer) (hp : peer.get? sid = some payload) :
    (n.rlHandleOpen sid payload).Mapped peer ∧ (n.rlHandleOpen sid payload).opened = n.opened := by
  have hreused : (n.stopReused sid (strip payload)).Mapped peer ∧ (n.stopReused sid (strip payload)).opened = n.opened := by
    unfold stopReused
    split
    · split
      · exact ⟨h, rfl⟩
      · exact ⟨h.stopLocalSession, rfl⟩
    · exact ⟨h, rfl⟩
  obtain ⟨hm, hopened⟩ := hreused
  refine ⟨⟨hm.fresh, hm.session, hm.opening, hm.client, ?_⟩, hopened⟩
  intro sid' port hs
  simp only [StreamNode.rlHandleOpen, Dict.get?_set] at hs
  split at hs
  · rename_i he
    cases hs
    exact ⟨payload, by rw [he, hp], rfl⟩
  · exact hm.served sid' port hs

theorem Mapped.rlHandleClose (h : n.Mapped peer) : (n.rlHandleClose sid).Mapped peer := by
  refine Mapped.stopLocalSession ⟨h.fresh, ?_, h.opening, h.client, h.served⟩
  exact fun sid' p hs => h.session sid' p (Dict.get?_of_get?_pop hs)

end StreamNode

/-! ## The link -/

/-- A frame under way to the node that opened `own` names a stream that its sender may name. -/
def Frame.Sent (own peer : Dict StreamId Text) : Frame → Prop
  | .openStream sid payload => peer.get? sid = some payload
  | .data sid _ .input => ∃ p, peer.get? sid = some p
  | .data sid _ .output => ∃ p, own.get? sid = some p
  | .close _ => True

theorem Frame.Sent.mono (h : f.Sent own peer) (ho : Extends own own') (hp : Extends peer peer') : f.Sent own' peer' := by
  cases f with
  | openStream sid payload => exact hp _ _ h
  | data sid data dir =>
      cases dir with
      | input => obtain ⟨p, hs⟩ := h; exact ⟨p, hp _ _ hs⟩
      | output => obtain ⟨p, hs⟩ := h; exact ⟨p, ho _ _ hs⟩
  | close => trivial

namespace Link

structure Mapped (l : Link) : Prop where
  node : ∀ s, (l.node s).Mapped (l.node s.other).opened
  wire : ∀ s, ∀ f ∈ l.wire s, f.Sent (l.node s).opened (l.node s.other).opened

theorem mapped_initial : Mapped {} where
  node := by
    intro s
    refine ⟨?_, ?_, ?_, ?_, ?_⟩
    · intro sid p h; cases h
    · intro sid p h; cases h
    · intro o h; cases h
    · intro p k sid h; cases h
    · intro sid port h; cases h
  wire := by intro s f h; cases h

/-- A node that goes on as before, with more ids allocated. -/
theorem Mapped.setNode (h : l.Mapped) (hn : n.Mapped (l.node s.other).opened) (hext : Extends (l.node s).opened n.opened) :
    (l.setNode s n).Mapped := by
  have hall : ∀ t, Extends (l.node t).opened ((l.setNode s n).node t).opened := by
    intro t
    by_cases ht : t = s
    · subst ht
      rw [setNode_self]
      exact hext
    · rw [setNode_ne ht]
      exact Extends.refl _
  constructor
  · intro t
    by_cases ht : t = s
    · subst ht
      rw [setNode_self, setNode_ne (Side.other_ne _)]
      exact hn
    · rw [setNode_ne ht]
      exact (h.node t).mono (hall t.other)
  · exact fun t f hf => (h.wire t f hf).mono (hall t) (hall t.other)

theorem Mapped.send (h : l.Mapped) (hf : f.Sent (l.node s.other).opened (l.node s).opened) : (l.send s f).Mapped where
  node := h.node
  wire := by
    intro t f' hf'
    by_cases ht : t = s.other
    · subst ht
      simp only [Link.send, Function.update_self, List.mem_append, List.mem_singleton] at hf'
      rcases hf' with hf' | rfl
      · exact h.wire _ f' hf'
      · rw [send_node, Side.other_other]
        exact hf
    · simp only [Link.send, Function.update_of_ne ht] at hf'
      exact h.wire t f' hf'

theorem Mapped.drop (h : l.Mapped) : (l.drop s i).Mapped where
  node := h.node
  wire := by
    intro t f' hf'
    by_cases ht : t = s
    · subst ht
      simp only [Link.drop, Function.update_self] at hf'
      exact h.wire t f' (List.mem_of_mem_eraseIdx hf')
    · simp only [Link.drop, Function.update_of_ne ht] at hf'
      exact h.wire t f' hf'

theorem Mapped.handleFrame (h : l.Mapped) (hf : f.Sent (l.node s).opened (l.node s.other).opened) :
    (handleFrame (l.node s) f).Mapped (l.node s.other).opened ∧
      (handleFrame (l.node s) f).opened = (l.node s).opened := by
  cases f with
  | openStream sid payload => exact (h.node s).rlHandleOpen hf
  | data => exact ⟨h.node s, rfl⟩
  | close sid => exact ⟨(h.node s).rlHandleClose, rfl⟩

theorem Mapped.step {a : LinkAct} (h : l.Mapped) (hs : l.step a = some l') : l'.Mapped := by
  cases a with
  | ensureSession s proxy key =>
      obtain ⟨⟨sid, n⟩, he, rfl⟩ := Option.map_eq_some_iff.mp hs
      obtain ⟨hn, hext, hnew⟩ := (h.node s).ensureSession he
      refine (h.setNode hn hext).send ?_
      rw [setNode_self]
      exact hnew
  | mapSession s i =>
      obtain ⟨n, he, rfl⟩ := Option.map_eq_some_iff.mp hs
      obtain ⟨hn, hopened⟩ := (h.node s).mapSession he
      exact h.setNode hn (by rw [hopened]; exact Extends.refl _)
  | write s proxy key data =>
      obtain ⟨sid, he, rfl⟩ := Option.map_eq_some_iff.mp hs
      exact h.send ⟨proxy, (h.node s).client proxy key sid he⟩
  | closeStream s proxy key =>
      obtain ⟨⟨sid, n⟩, he, rfl⟩ := Option.map_eq_some_iff.mp hs
      obtain ⟨hn, hopened⟩ := (h.node s).closeStream he
      exact (h.setNode hn (by rw [hopened]; exact Extends.refl _)).send trivial
  | resendClose s sid =>
      simp only [Link.step] at hs
      split at hs
      · cases hs; exact h.send trivial
      · cases hs
  | pump s sid data =>
      simp only [Link.step] at hs
      split at hs
      · rename_i hserves
        cases hs
        obtain ⟨port, hport, _⟩ := hserves
        obtain ⟨p, hp, _⟩ := (h.node s).served sid port hport
        exact h.send ⟨p, hp⟩
      · cases hs
  | deliver s i =>
      obtain ⟨f, hi, rfl⟩ := Option.map_eq_some_iff.mp hs
      obtain ⟨hn, hopened⟩ := h.handleFrame (h.wire s f (List.mem_of_getElem? hi))
      exact h.drop.setNode hn (by rw [hopened]; exact Extends.refl _)
  | lose s i =>
      obtain ⟨f, hi, rfl⟩ := Option.map_eq_some_iff.mp hs
      exact h.drop

end Link

end OpenMux.Streams
