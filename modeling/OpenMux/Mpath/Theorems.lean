import OpenMux.Mpath.Lemmas.ExactlyOnce
import OpenMux.Mpath.Lemmas.Tracked

/-!
# Delivery and acknowledgement over one peer link
-/

namespace OpenMux.Mpath

open Transition

/-- The `(stream_id, data)` of a frame. -/
def DataFrame.message (f : DataFrame) : Int × Bytes := (f.payload.streamId, f.payload.data)

namespace Link

variable {cfg : LinkCfg} {acts : List LinkAct} {l : Link}

/-! ## Exactly once, in order -/

/-- What is routed is a prefix of what was sent with success, and `expected` never decreased, in every run of fewer than
`2 ^ 63` frames in which no gap outlives the timer and frames are taken up only while every frame handed over is
counted. -/
theorem delivery_exactly_once (hrun : exec (step cfg) {} acts = some l) (hlen : l.sent.length < Tx.seqLimit)
    (hgap : Along (step cfg) (NoGapOutlived cfg) {} acts) (hapart : Along (step cfg) (Apart cfg) {} acts) :
    l.routed.map DataFrame.message <+: l.succeeded.map DataFrame.message ∧
      ∀ pre post l₁, acts = pre ++ post → exec (step cfg) {} pre = some l₁ → l₁.rx.expected ≤ l.rx.expected := by
  have hboth := hgap.and hapart
  constructor
  · have hO := ((ordered_initial cfg).exec hboth hrun hlen).1
    exact List.IsPrefix.map _ hO.routed_prefix
  · intro pre post l₁ hacts hpre
    subst hacts
    obtain ⟨l₂, h₂, hpost⟩ := exec_append_inv hrun
    rw [hpre, Option.some.injEq] at h₂
    subst h₂
    have hO := ((ordered_initial cfg).exec (along_append_left hboth) hpre
      (Nat.lt_of_le_of_lt (exec_sent_length_le hpost) hlen)).1
    exact (hO.exec (along_append_right hboth hpre) hpost hlen).2

/-- One frame, retransmitted over a second connection while the read loop of the first is still in
`_route_data_frame`. -/
def duplicateRun : List LinkAct :=
  [.send (some 0) ⟨1, [65], 0⟩, .sendDone 0 0, .retxScan 500 350, .retxNext (some 1), .recv 0 0 600, .recv 1 0 700]

/-- Two read loops route the same frame. -/
theorem delivery_exactly_once_fails : ¬ ∀ (cfg : LinkCfg) (acts : List LinkAct) (l : Link),
    exec (step cfg) {} acts = some l → l.sent.length < Tx.seqLimit → Along (step cfg) (NoGapOutlived cfg) {} acts →
      l.routed.map DataFrame.message <+: l.succeeded.map DataFrame.message := by
  intro h
  have hrun : ∃ l, exec (step ⟨4000, some 1⟩) {} duplicateRun = some l ∧
      l.routed.map DataFrame.message = [(1, [65]), (1, [65])] ∧ l.sent.length = 1 := by
    refine ⟨_, rfl, ?_, ?_⟩ <;> decide
  obtain ⟨l, hl, hrouted, hsent⟩ := hrun
  have hpre := h ⟨4000, some 1⟩ duplicateRun l hl (by rw [hsent]; decide) (by decide)
  have hle := hpre.length_le
  have hsucc : l.succeeded.length ≤ l.sent.length := List.length_filter_le _ _
  rw [hrouted, List.length_map] at hle
  simp at hle
  omega

/-- A frame lost with its connection and retransmitted over another one, after its successor arrived. -/
def failoverRun : List LinkAct :=
  [.send (some 0) ⟨1, [65], 0⟩, .sendDone 0 0, .send (some 1) ⟨1, [66], 0⟩, .sendDone 0 0, .lose 0, .recv 1 0 100,
    .retxScan 500 350, .retxNext (some 1), .recv 1 0 600, .resume 1, .resume 1, .recvAck 1]

theorem delivery_exactly_once_failover : ∃ l, exec (step ⟨4000, some 1⟩) {} failoverRun = some l ∧
    l.routed.map DataFrame.message = [(1, [65]), (1, [66])] ∧
    l.routed.map DataFrame.message <+: l.succeeded.map DataFrame.message := by
  have hrun : exec (step ⟨4000, some 1⟩) {} failoverRun = some _ := rfl
  exact ⟨_, hrun, by decide, (delivery_exactly_once hrun (by decide) (by decide) (by decide)).1⟩

/-! ## Acknowledged means accepted -/

/-- What the receiver acknowledged is accounted for, and what is not acknowledged and not being sent is in the send
buffer, where the next scan finds it, in every run in which a send is cancelled only after its acknowledgement. -/
theorem acknowledged_accepted (hrun : exec (step cfg) {} acts = some l) (hcancel : Along (step cfg) CancelAcked {} acts) :
    (∀ n ∈ l.acked, Accepted l.routed l.givenUp l.rx n) ∧
      ∀ n ∈ l.outstanding, (∀ p ∈ l.tx.pending, p.frame.seq ≠ n) →
        (∃ e, l.tx.sendbuf.get? n = some e) ∧ ∀ now rto tx', l.tx.retxScan now rto = some tx' →
          ∃ sc, tx'.scan = some sc ∧ n ∈ sc.todo.map Prod.fst := by
  have hacc : Accounted cfg l :=
    exec_invariant' (fun _ _ _ h hs => h.step hs) (accounted_initial cfg) hrun
  have htrack : l.tx.Tracked l.outstanding :=
    exec_invariant (I := fun l => l.tx.Tracked l.outstanding) (fun _ _ _ h hC hs => tracked_step h hC hs)
      (by intro n hn; cases hn) hcancel hrun
  exact ⟨hacc.acked, fun n hn hidle => scan_covers htrack hn hidle⟩

/-- The only send is cancelled in its awaited write. -/
def cancelledRun : List LinkAct := [.send (some 0) ⟨1, [65], 0⟩, .sendCancel 0]

/-- The cancelled number is in no buffer and never acknowledged. -/
theorem acknowledged_accepted_fails : ¬ ∀ (cfg : LinkCfg) (acts : List LinkAct) (l : Link),
    exec (step cfg) {} acts = some l → ∀ n ∈ l.outstanding, (∀ p ∈ l.tx.pending, p.frame.seq ≠ n) →
      ∃ e, l.tx.sendbuf.get? n = some e := by
  intro h
  obtain ⟨e, he⟩ := h ⟨4000, some 1⟩ cancelledRun _ rfl 1 (by decide) (by decide)
  cases he

/-- The first send is cancelled after its acknowledgement, the second is under way. -/
def cancelAckedRun : List LinkAct :=
  [.send (some 0) ⟨1, [65], 0⟩, .recv 0 0 0, .resume 0, .recvAck 0, .sendCancel 0, .send (some 0) ⟨1, [66], 0⟩, .sendDone 0 5]

theorem acknowledged_accepted_cancelAcked : ∃ l, exec (step ⟨4000, some 1⟩) {} cancelAckedRun = some l ∧
    l.acked = [1] ∧ l.outstanding = [2] ∧ (∀ n ∈ l.acked, Accepted l.routed l.givenUp l.rx n) ∧
    ∃ e, l.tx.sendbuf.get? 2 = some e := by
  have hrun : exec (step ⟨4000, some 1⟩) {} cancelAckedRun = some _ := rfl
  obtain ⟨hacked, hsent⟩ := acknowledged_accepted hrun (by decide)
  exact ⟨_, hrun, by decide, by decide, hacked, (hsent 2 (by decide) (by decide)).1⟩

end Link

end OpenMux.Mpath
