import OpenMux.Mpath.Lemmas.Accepted

/-!
# Acknowledgements over a run of a link

The receiver's half holds on every run. The sender's half needs that a send is cancelled only after its acknowledgement.
-/

namespace OpenMux.Mpath

variable {t t' : Tx} {out : List Nat} {i acked n : Nat} {now rto : Int} {cid : Option ConnId} {pl : Payload}

/-! ## The sender -/

/-- Every number of the list waits for its write, or is in the send buffer. -/
def Tx.Tracked (t : Tx) (out : List Nat) : Prop :=
  ∀ n ∈ out, (∃ p ∈ t.pending, p.frame.seq = n) ∨ ∃ e, t.sendbuf.get? n = some e

namespace Tx.Tracked

theorem mem_eraseIdx {α : Type*} {xs : List α} {x : α} (h : x ∈ xs) (i : Nat) :
    x ∈ xs.eraseIdx i ∨ xs[i]? = some x := by
  obtain ⟨j, hj⟩ := List.mem_iff_getElem?.mp h
  rcases eq_or_ne j i with rfl | hne
  · exact Or.inr hj
  · exact Or.inl (List.mem_eraseIdx_iff_getElem?.mpr ⟨j, hne, hj⟩)

/-- A larger send buffer tracks as much. -/
theorem of_sendbuf (h : t.Tracked out) (hp : t'.pending = t.pending)
    (hb : ∀ n e, t.sendbuf.get? n = some e → ∃ e', t'.sendbuf.get? n = some e') : t'.Tracked out := by
  intro n hn
  rcases h n hn with hpend | ⟨e, he⟩
  · exact Or.inl (by rw [hp]; exact hpend)
  · exact Or.inr (hb n e he)

theorem set_keeps {d : Dict Nat SendEntry} {k : Nat} {v : SendEntry} (n : Nat) (e : SendEntry)
    (h : d.get? n = some e) : ∃ e', (d.set k v).get? n = some e' := by
  rw [Dict.get?_set]
  split
  · exact ⟨v, rfl⟩
  · exact ⟨e, h⟩

theorem sendDataMpath (h : t.Tracked out) : (t.sendDataMpath cid pl).2.Tracked
    (out ++ ((t.sendDataMpath cid pl).1.toList.map Prod.snd).map DataFrame.seq) := by
  cases cid with
  | none => simpa [Tx.sendDataMpath] using h
  | some c =>
      intro n hn
      rcases List.mem_append.mp hn with hold | hnew
      · rcases h n hold with ⟨p, hp, hseq⟩ | hbuf
        · exact Or.inl ⟨p, List.mem_append_left _ hp, hseq⟩
        · exact Or.inr hbuf
      · refine Or.inl ⟨⟨c, ⟨t.txSeq, pl⟩⟩, List.mem_append_right _ (List.mem_singleton_self _), ?_⟩
        simp [Tx.sendDataMpath, Tx.nextPeerSeq] at hnew
        exact hnew.symm

theorem sendDone (h : t.Tracked out) (hd : t.sendDone i now = some t') : t'.Tracked out := by
  obtain ⟨p, hp, rfl⟩ := Option.map_eq_some_iff.mp hd
  intro n hn
  rcases h n hn with ⟨q, hq, hseq⟩ | ⟨e, he⟩
  · rcases mem_eraseIdx hq i with hleft | hi
    · exact Or.inl ⟨q, hleft, hseq⟩
    · -- the send that ends here enters the buffer
      rw [hp, Option.some.injEq] at hi
      subst hi
      refine Or.inr ⟨⟨p.connId, p.frame.payload, now⟩, ?_⟩
      simp [hseq]
  · exact Or.inr (set_keeps n e he)

theorem sendCancel (h : t.Tracked out) (hd : t.sendCancel i = some t')
    (hacked : ∀ p ∈ t.pending[i]?, p.frame.seq ∉ out) : t'.Tracked out := by
  obtain ⟨p, hp, rfl⟩ := Option.map_eq_some_iff.mp hd
  intro n hn
  rcases h n hn with ⟨q, hq, hseq⟩ | hbuf
  · rcases mem_eraseIdx hq i with hleft | hi
    · exact Or.inl ⟨q, hleft, hseq⟩
    · exact absurd (hseq ▸ hn) (hacked q hi)
  · exact Or.inr hbuf

theorem handleAck (h : t.Tracked out) : (t.handleAck acked).Tracked (out.filter (· ≠ acked)) := by
  intro n hn
  obtain ⟨hmem, hne⟩ := List.mem_filter.mp hn
  rcases h n hmem with hpend | ⟨e, he⟩
  · exact Or.inl hpend
  · refine Or.inr ⟨e, ?_⟩
    simp only [Tx.handleAck]
    rw [Dict.get?_pop_ne _ (by simpa using hne)]
    exact he

theorem retxScan (h : t.Tracked out) (hd : t.retxScan now rto = some t') : t'.Tracked out := by
  unfold Tx.retxScan at hd
  split at hd <;> cases hd
  exact h

theorem retxNext (h : t.Tracked out) {o} (hd : t.retxNext cid = some (o, t')) : t'.Tracked out := by
  unfold Tx.retxNext at hd
  split at hd
  · cases hd
  · split at hd
    · cases hd
    · cases hd; exact h
    · split at hd
      · cases hd; exact h
      · cases cid <;> cases hd <;> exact h

theorem retxDone (h : t.Tracked out) (hd : t.retxDone = some t') : t'.Tracked out := by
  unfold Tx.retxDone at hd
  split at hd
  · cases hd
  · split at hd
    · cases hd
    · simp only at hd
      split at hd
      · cases hd; exact h.of_sendbuf rfl (fun n e he => set_keeps n e he)
      · cases hd; exact h

end Tx.Tracked

namespace Link

open Transition

variable {cfg : LinkCfg} {l l' : Link} {a : LinkAct} {c : ConnId}

/-- A send is cancelled in its awaited write only after its number was acknowledged. -/
def CancelAcked (l : Link) : LinkAct → Prop
  | .sendCancel i => ∀ p ∈ l.tx.pending[i]?, p.frame.seq ∉ l.outstanding
  | _ => True

instance (l : Link) : (a : LinkAct) → Decidable (CancelAcked l a)
  | .sendCancel i => inferInstanceAs (Decidable (∀ p ∈ l.tx.pending[i]?, p.frame.seq ∉ l.outstanding))
  | .send _ _ | .sendDone _ _ | .retxScan _ _ | .retxNext _ | .retxDone | .recv _ _ _ | .resume _ | .cancel _ | .recvAck _
  | .lose _ => isTrue trivial

theorem tracked_step (h : l.tx.Tracked l.outstanding) (hC : CancelAcked l a) (hs : step cfg l a = some l') :
    l'.tx.Tracked l'.outstanding := by
  cases a with
  | send cid pl =>
      cases hs
      rw [write_tx, write_outstanding]
      exact h.sendDataMpath
  | sendDone i now =>
      obtain ⟨tx, htx, rfl⟩ := Option.map_eq_some_iff.mp hs
      exact h.sendDone htx
  | sendCancel i =>
      obtain ⟨tx, htx, rfl⟩ := Option.map_eq_some_iff.mp hs
      exact h.sendCancel htx hC
  | retxScan now rto =>
      obtain ⟨tx, htx, rfl⟩ := Option.map_eq_some_iff.mp hs
      exact h.retxScan htx
  | retxNext cid =>
      obtain ⟨⟨o, tx⟩, htx, rfl⟩ := Option.map_eq_some_iff.mp hs
      rw [write_tx, write_outstanding]
      exact h.retxNext htx
  | retxDone =>
      obtain ⟨tx, htx, rfl⟩ := Option.map_eq_some_iff.mp hs
      exact h.retxDone htx
  | recv c openedAt now =>
      have hsame := step_receiver hs rfl
      rw [hsame.tx, hsame.outstanding]
      exact h
  | resume c =>
      have hsame := step_receiver hs rfl
      rw [hsame.tx, hsame.outstanding]
      exact h
  | cancel c =>
      have hsame := step_receiver hs rfl
      rw [hsame.tx, hsame.outstanding]
      exact h
  | recvAck c =>
      simp only [step] at hs
      split at hs
      · cases hs
      · cases hs
        exact h.handleAck
  | lose c =>
      cases hs
      exact h

/-- A scan of the send buffer that begins now covers every number that is not acknowledged and has no send in progress. -/
theorem scan_covers (h : l.tx.Tracked l.outstanding) (hn : n ∈ l.outstanding)
    (hidle : ∀ p ∈ l.tx.pending, p.frame.seq ≠ n) :
    (∃ e, l.tx.sendbuf.get? n = some e) ∧ ∀ now rto tx', l.tx.retxScan now rto = some tx' →
      ∃ sc, tx'.scan = some sc ∧ n ∈ sc.todo.map Prod.fst := by
  rcases h n hn with ⟨p, hp, hseq⟩ | ⟨e, he⟩
  · exact absurd hseq (hidle p hp)
  · refine ⟨⟨e, he⟩, ?_⟩
    intro now rto tx' hd
    unfold Tx.retxScan at hd
    split at hd <;> cases hd
    exact ⟨_, rfl, List.mem_map.mpr ⟨(n, e), Dict.mem_entries.mpr he, rfl⟩⟩

/-! ## The receiver -/

/-- The receiver's half: what was acknowledged is accounted for. -/
structure Accounted (cfg : LinkCfg) (l : Link) : Prop where
  all : l.All (1 ≤ ·.seq)
  next : 1 ≤ l.tx.txSeq
  inst : l.rx.SameInstance cfg.instanceId
  accounts : Accounts l.routed l.givenUp l.rx
  acked : ∀ n ∈ l.acked, Accepted l.routed l.givenUp l.rx n

theorem accounted_initial (cfg : LinkCfg) : Accounted cfg {} where
  all := ⟨Tx.All.initial, by intro c f hf; cases hf⟩
  next := Nat.le_refl 1
  inst := by intro st hst; cases hst
  accounts := Accounts.initial
  acked := by intro n hn; cases hn

theorem Accounted.absorbed {o : RxOut} {r : Rx} (h : ∀ n ∈ l.acked, Accepted l.routed l.givenUp r n)
    (ho : Accounts.After l.routed l.givenUp r o) :
    ∀ n ∈ (l.absorb c o).acked, Accepted (l.absorb c o).routed (l.absorb c o).givenUp (l.absorb c o).rx n := by
  intro n hn
  rcases List.mem_append.mp hn with hold | hnew
  · exact ho.keeps n (h n hold)
  · exact ho.ack n (Option.mem_toList.mp hnew)

theorem next_pos_step (h : 1 ≤ l.tx.txSeq) (hs : step cfg l a = some l') : 1 ≤ l'.tx.txSeq := by
  rcases step_sent hs with ⟨_, htx⟩ | ⟨c, pl, _, _, htx⟩
  · rw [htx]; exact h
  · rw [htx]
    split <;> omega

theorem Accounted.step (h : Accounted cfg l) (hs : Link.step cfg l a = some l') : Accounted cfg l' := by
  have hall : l'.All (1 ≤ ·.seq) := h.all.step hs (fun _ _ _ => h.next)
  have hnext := next_pos_step h.next hs
  cases ha : a.onReceiver with
  | false =>
      have hr := step_sender hs ha
      refine ⟨hall, hnext, by rw [hr.rx]; exact h.inst, ?_, ?_⟩
      · rw [hr.rx, hr.routed, hr.givenUp]; exact h.accounts
      · rw [hr.rx, hr.routed, hr.givenUp, hr.acked]; exact h.acked
  | true =>
      cases a with
      | recv c openedAt now =>
          obtain ⟨f, rest, hw, _, rfl⟩ := step_recv hs
          have hf : 1 ≤ f.seq := h.all.wire c f (by rw [hw]; exact List.mem_cons_self)
          obtain ⟨r₁, st, ho, heq⟩ := handleInboundData_same cfg.gapStuckSec now c f ⟨cfg.instanceId, openedAt⟩
            h.inst
          have hafter := (h.accounts.opens ho).enforceOrder (c := c) cfg.gapStuckSec now ho.state hf
          have hacked : ∀ n ∈ l.acked, Accepted l.routed l.givenUp r₁ n := fun n hn => (h.acked n hn).opens ho
          refine ⟨hall, hnext, ?_, ?_, ?_⟩
          · show (l.rx.handleInboundData _ _ _ _ _).rx.SameInstance _
            rw [heq]
            exact enforceOrder_sameInstance ho.state ho.sameInstance
          · show Accounts (l.routed ++ (l.rx.handleInboundData _ _ _ _ _).routed.toList)
              (l.givenUp ++ (l.rx.handleInboundData _ _ _ _ _).givenUp) (l.rx.handleInboundData _ _ _ _ _).rx
            rw [heq]
            exact hafter.accounts
          · rw [heq]
            exact Accounted.absorbed (l := { l with wire := _, arrived := _ }) hacked
              ⟨hafter.accounts, hafter.keeps, hafter.ack⟩
      | resume c =>
          obtain ⟨o, ho, rfl⟩ := step_resume hs
          have hafter := h.accounts.resume ho
          exact ⟨hall, hnext, resume_sameInstance ho h.inst, hafter.accounts, Accounted.absorbed h.acked hafter⟩
      | cancel c =>
          obtain ⟨rx, hrx, rfl⟩ := step_cancel hs
          obtain ⟨hacc, hkeep⟩ := h.accounts.cancel hrx
          refine ⟨hall, hnext, ?_, hacc, fun n hn => hkeep n (h.acked n hn)⟩
          obtain ⟨hd, _, rfl⟩ := Option.map_eq_some_iff.mp hrx
          exact h.inst
      | _ => cases ha

end Link

end OpenMux.Mpath
