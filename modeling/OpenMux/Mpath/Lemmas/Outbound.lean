import OpenMux.Mpath.Ends

/-!
# What the transmit side holds

`Tx.All P` says that every frame the transmit side can still write meets `P`: a send that waits for its write, an entry
of the send buffer, or a resend of a scan. Each operation keeps it, and writes only such frames.
-/

namespace OpenMux.Mpath

variable {P Q : DataFrame → Prop} {t t' : Tx} {i acked : Nat} {now rto : Int} {cid : Option ConnId} {pl : Payload}

def Scan.All (P : DataFrame → Prop) (sc : Scan) : Prop :=
  (∀ e ∈ sc.todo, P ⟨e.1, e.2.payload⟩) ∧ ∀ p, sc.waiting = some p → P p.frame

structure Tx.All (P : DataFrame → Prop) (t : Tx) : Prop where
  pending : ∀ p ∈ t.pending, P p.frame
  sendbuf : ∀ n e, t.sendbuf.get? n = some e → P ⟨n, e.payload⟩
  scan : ∀ sc, t.scan = some sc → sc.All P

namespace Tx.All

theorem initial : Tx.All P {} where
  pending := by intro p hp; cases hp
  sendbuf := by intro n e he; cases he
  scan := by intro sc hsc; cases hsc

theorem mono (h : t.All P) (hPQ : ∀ f, P f → Q f) : t.All Q where
  pending := fun p hp => hPQ _ (h.pending p hp)
  sendbuf := fun n e he => hPQ _ (h.sendbuf n e he)
  scan := fun sc hsc => ⟨fun e he => hPQ _ ((h.scan sc hsc).1 e he), fun p hp => hPQ _ ((h.scan sc hsc).2 p hp)⟩

theorem set_sendbuf (h : t.All P) {f : DataFrame} (hf : P f) (c : ConnId) :
    Tx.All P { t with sendbuf := t.sendbuf.set f.seq ⟨c, f.payload, now⟩ } where
  pending := h.pending
  sendbuf := by
    intro n e he
    rw [Dict.get?_set] at he
    split at he
    · cases he
      subst_vars
      exact hf
    · exact h.sendbuf n e he
  scan := h.scan

theorem sendDataMpath (cid : Option ConnId) (pl : Payload) (h : t.All P) (hnew : ∀ c, cid = some c → P ⟨t.txSeq, pl⟩) :
    (t.sendDataMpath cid pl).2.All P ∧ ∀ cf, (t.sendDataMpath cid pl).1 = some cf → P cf.2 := by
  cases cid with
  | none => exact ⟨h, by intro cf hcf; cases hcf⟩
  | some c =>
      have hP := hnew c rfl
      refine ⟨⟨?_, h.sendbuf, h.scan⟩, ?_⟩
      · intro p hp
        rcases List.mem_append.mp hp with hp | hp
        · exact h.pending p hp
        · cases List.mem_singleton.mp hp
          exact hP
      · intro cf hcf
        cases hcf
        exact hP

theorem sendDone (h : t.All P) (hd : t.sendDone i now = some t') : t'.All P := by
  simp only [Tx.sendDone, Option.map_eq_some_iff] at hd
  obtain ⟨p, hp, rfl⟩ := hd
  have hbase : Tx.All P { t with pending := t.pending.eraseIdx i } :=
    ⟨fun q hq => h.pending q (List.mem_of_mem_eraseIdx hq), h.sendbuf, h.scan⟩
  exact hbase.set_sendbuf (h.pending p (List.mem_of_getElem? hp)) p.connId

theorem sendCancel (h : t.All P) (hd : t.sendCancel i = some t') : t'.All P := by
  simp only [Tx.sendCancel, Option.map_eq_some_iff] at hd
  obtain ⟨p, hp, rfl⟩ := hd
  exact ⟨fun q hq => h.pending q (List.mem_of_mem_eraseIdx hq), h.sendbuf, h.scan⟩

theorem handleAck (h : t.All P) : (t.handleAck acked).All P :=
  ⟨h.pending, fun n e he => h.sendbuf n e (Dict.get?_of_get?_pop he), h.scan⟩

theorem retxScan (h : t.All P) (hd : t.retxScan now rto = some t') : t'.All P := by
  unfold Tx.retxScan at hd
  split at hd
  · cases hd
  · cases hd
    refine ⟨h.pending, h.sendbuf, ?_⟩
    intro sc hsc
    cases hsc
    refine ⟨fun e he => h.sendbuf e.1 e.2 (Dict.mem_entries.mp he), ?_⟩
    intro p hp
    cases hp

theorem retxNext (h : t.All P) {out} (hd : t.retxNext cid = some (out, t')) :
    t'.All P ∧ ∀ cf, out = some cf → P cf.2 := by
  unfold Tx.retxNext at hd
  split at hd
  · cases hd
  · rename_i sc hsc
    have hall := h.scan sc hsc
    split at hd
    · cases hd
    · cases hd
      refine ⟨⟨h.pending, h.sendbuf, ?_⟩, ?_⟩
      · intro sc' hsc'; cases hsc'
      · intro cf hcf; cases hcf
    · rename_i seq e rest hwait htodo
      have hrest : ∀ e' ∈ rest, P ⟨e'.1, e'.2.payload⟩ :=
        fun e' he' => hall.1 e' (by rw [htodo]; exact List.mem_cons_of_mem _ he')
      have hhead : P ⟨seq, e.payload⟩ := hall.1 (seq, e) (by rw [htodo]; exact List.mem_cons_self)
      -- a passed-over entry only leaves the snapshot
      have hskip : Tx.All P { t with scan := some { sc with todo := rest } } := by
        refine ⟨h.pending, h.sendbuf, ?_⟩
        intro sc' hsc'
        cases hsc'
        exact ⟨hrest, hall.2⟩
      split at hd
      · cases hd
        exact ⟨hskip, by intro cf hcf; cases hcf⟩
      · cases cid with
        | none =>
            cases hd
            exact ⟨hskip, by intro cf hcf; cases hcf⟩
        | some c =>
            cases hd
            refine ⟨⟨h.pending, h.sendbuf, ?_⟩, ?_⟩
            · intro sc' hsc'
              cases hsc'
              refine ⟨hrest, ?_⟩
              intro p hp
              cases hp
              exact hhead
            · intro cf hcf
              cases hcf
              exact hhead

theorem retxDone (h : t.All P) (hd : t.retxDone = some t') : t'.All P := by
  unfold Tx.retxDone at hd
  split at hd
  · cases hd
  · rename_i sc hsc
    split at hd
    · cases hd
    · rename_i p hp
      have hbase : Tx.All P { t with scan := some { sc with waiting := none } } := by
        refine ⟨h.pending, h.sendbuf, ?_⟩
        intro sc' hsc'
        cases hsc'
        exact ⟨(h.scan sc hsc).1, by intro q hq; cases hq⟩
      simp only at hd
      split at hd
      · cases hd
        exact hbase.set_sendbuf ((h.scan sc hsc).2 p hp) p.connId
      · cases hd
        exact hbase

theorem reset (h : t.All P) : t.reset.All P where
  pending := h.pending
  sendbuf := by intro n e he; cases he
  scan := h.scan

end Tx.All

/-! ## The counter -/

theorem Tx.sendDone_txSeq (hd : t.sendDone i now = some t') : t'.txSeq = t.txSeq := by
  simp only [Tx.sendDone, Option.map_eq_some_iff] at hd
  obtain ⟨p, _, rfl⟩ := hd
  rfl

theorem Tx.sendCancel_txSeq (hd : t.sendCancel i = some t') : t'.txSeq = t.txSeq := by
  simp only [Tx.sendCancel, Option.map_eq_some_iff] at hd
  obtain ⟨p, _, rfl⟩ := hd
  rfl

theorem Tx.retxScan_txSeq (hd : t.retxScan now rto = some t') : t'.txSeq = t.txSeq := by
  unfold Tx.retxScan at hd
  split at hd <;> cases hd
  rfl

theorem Tx.retxNext_txSeq {out} (hd : t.retxNext cid = some (out, t')) : t'.txSeq = t.txSeq := by
  unfold Tx.retxNext at hd
  split at hd
  · cases hd
  · split at hd
    · cases hd
    · cases hd; rfl
    · split at hd
      · cases hd; rfl
      · cases cid <;> cases hd <;> rfl

theorem Tx.retxDone_txSeq (hd : t.retxDone = some t') : t'.txSeq = t.txSeq := by
  unfold Tx.retxDone at hd
  split at hd
  · cases hd
  · split at hd
    · cases hd
    · simp only at hd
      split at hd <;> cases hd <;> rfl

end OpenMux.Mpath
