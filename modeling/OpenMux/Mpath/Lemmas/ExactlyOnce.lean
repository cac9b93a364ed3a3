import OpenMux.Lib.Run
import OpenMux.Mpath.Lemmas.InOrder
import OpenMux.Mpath.Lemmas.Link

/-!
# Exactly-once delivery over a link

The conditions on a step under which a link keeps the order, and the invariant that carries it over a run.
-/

namespace OpenMux.Mpath.Link

open Transition

/-- No reorder gap outlives `gap_stuck_sec`: with every frame handed over counted, no frame finds the timer expired. -/
def NoGapOutlived (cfg : LinkCfg) (l : Link) : LinkAct → Prop
  | .recv c _ now => ∀ f ∈ (l.wire c).head?, l.routed.length < l.rx.expected →
      ¬ (l.rx.expected < f.seq ∧ l.rx.gapExpired cfg.gapStuckSec now)
  | _ => True

/-- A frame is taken up at once only when `expected` counts every frame handed over, so that no delivery is suspended and
none was cancelled; and no frame arrives whose send was cancelled, before or after. -/
def Apart (cfg : LinkCfg) (l : Link) : LinkAct → Prop
  | .recv c _ now => ∀ f ∈ (l.wire c).head?, f.seq ∉ l.cancelled ∧
      (l.rx.HandsOver cfg.gapStuckSec f now → l.routed.length < l.rx.expected)
  | .sendCancel i => ∀ p ∈ l.tx.pending[i]?, p.frame.seq ∉ l.arrived
  | _ => True

instance (cfg : LinkCfg) (l : Link) (a : LinkAct) : Decidable (NoGapOutlived cfg l a) := by
  cases a <;> unfold NoGapOutlived <;> infer_instance

instance (cfg : LinkCfg) (l : Link) (a : LinkAct) : Decidable (Apart cfg l a) := by
  cases a <;> unfold Apart <;> infer_instance

/-- The invariant of a run along both conditions. -/
structure Ordered (cfg : LinkCfg) (l : Link) : Prop where
  all : l.All (· ∈ l.sent)
  next : l.sent.length + 1 < Tx.seqLimit → l.tx.txSeq = l.sent.length + 1
  numbered : Numbered l.sent
  inst : l.rx.SameInstance cfg.instanceId
  order : InOrder l.sent l.routed l.rx
  held : l.rx.All (fun f => f.seq ∈ l.arrived)
  routed : ∀ f ∈ l.routed, f.seq ∈ l.arrived
  apart : ∀ n ∈ l.cancelled, n ∉ l.arrived

variable {cfg : LinkCfg} {l l' : Link} {a : LinkAct} {c : ConnId}

theorem ordered_initial (cfg : LinkCfg) : Ordered cfg {} where
  all := ⟨Tx.All.initial, by intro c f hf; cases hf⟩
  next := by intro _; rfl
  numbered := Numbered.nil
  inst := by intro st hst; cases hst
  order := .fresh rfl rfl rfl
  held := Rx.All.initial
  routed := by intro f hf; cases hf
  apart := by intro n hn; cases hn

theorem sent_length_le (h : step cfg l a = some l') : l.sent.length ≤ l'.sent.length := by
  rcases step_sent h with ⟨hs, _⟩ | ⟨c, pl, _, hs, _⟩
  · exact Nat.le_of_eq (by rw [hs])
  · rw [hs]; simp

/-- What the sender holds and has under way was given a number. -/
theorem all_sent_step (h : l.All (· ∈ l.sent)) (hs : step cfg l a = some l') : l'.All (· ∈ l'.sent) := by
  rcases step_sent hs with ⟨hsent, _⟩ | ⟨c, pl, rfl, hsent, _⟩
  · rw [hsent]
    refine h.step hs ?_
    intro c pl ha
    subst ha
    cases hs
    simp at hsent
  · rw [hsent]
    refine (h.mono fun f hf => List.mem_append_left _ hf).step hs ?_
    intro c' pl' ha
    cases ha
    exact List.mem_append_right _ (List.mem_singleton_self _)

/-- Numbers go up by one, and start over only after the last one below `seqLimit`. -/
theorem next_step (h : l.sent.length + 1 < Tx.seqLimit → l.tx.txSeq = l.sent.length + 1) (hs : step cfg l a = some l')
    (hb : l'.sent.length < Tx.seqLimit) :
    (l'.sent.length + 1 < Tx.seqLimit → l'.tx.txSeq = l'.sent.length + 1) ∧ (Numbered l.sent → Numbered l'.sent) := by
  rcases step_sent hs with ⟨hsent, htx⟩ | ⟨c, pl, _, hsent, htx⟩
  · rw [hsent, htx]
    exact ⟨h, id⟩
  · have hlen : l'.sent.length = l.sent.length + 1 := by rw [hsent]; simp
    have hseq := h (by omega)
    constructor
    · intro hlt
      rw [htx, hseq, hlen, if_neg (by omega)]
    · intro hn
      rw [hsent]
      exact hn.snoc hseq

theorem Ordered.order_sent (h : Ordered cfg l) (hs : step cfg l a = some l') : InOrder l'.sent l.routed l.rx := by
  rcases step_sent hs with ⟨hsent, _⟩ | ⟨c, pl, _, hsent, _⟩
  · rw [hsent]; exact h.order
  · rw [hsent]; exact h.order.snoc _

/-- A step of the sender. -/
theorem Ordered.sender (h : Ordered cfg l) (hs : step cfg l a = some l') (ha : a.onReceiver = false)
    (hC : Apart cfg l a) (hb : l'.sent.length < Tx.seqLimit) : Ordered cfg l' ∧ l'.rx.expected = l.rx.expected := by
  have hr := step_sender hs ha
  obtain ⟨hnext, hnum⟩ := next_step h.next hs hb
  refine ⟨?_, by rw [hr.rx]⟩
  exact
    { all := all_sent_step h.all hs
      next := hnext
      numbered := hnum h.numbered
      inst := by rw [hr.rx]; exact h.inst
      order := by rw [hr.rx, hr.routed]; exact h.order_sent hs
      held := by rw [hr.rx, hr.arrived]; exact h.held
      routed := by rw [hr.routed, hr.arrived]; exact h.routed
      apart := by
        rw [hr.arrived]
        rcases step_cancelled hs with hcan | ⟨i, p, rfl, hp, hcan⟩
        · rw [hcan]; exact h.apart
        · rw [hcan]
          intro n hn
          rcases List.mem_append.mp hn with hn | hn
          · exact h.apart n hn
          · cases List.mem_singleton.mp hn
            exact hC p hp }

/-- A read loop takes up a frame. -/
theorem Ordered.recv {openedAt now : Int} (h : Ordered cfg l) (hs : step cfg l (.recv c openedAt now) = some l')
    (hgap : NoGapOutlived cfg l (.recv c openedAt now)) (hC : Apart cfg l (.recv c openedAt now)) :
    Ordered cfg l' ∧ l.rx.expected ≤ l'.rx.expected := by
  have hsame := step_receiver hs rfl
  have hall := all_sent_step h.all hs
  obtain ⟨f, rest, hw, _, rfl⟩ := step_recv hs
  have hf : f ∈ l.sent := h.all.wire c f (by rw [hw]; exact List.mem_cons_self)
  obtain ⟨hfresh, hone⟩ := hC f (by simp [hw])
  have hgap := hgap f (by simp [hw])
  obtain ⟨r₁, st, ho, heq⟩ := handleInboundData_same cfg.gapStuckSec now c f ⟨cfg.instanceId, openedAt⟩ h.inst
  have hexp : st.expected = l.rx.expected := ho.expected
  have hflush : ¬ (st.expected < f.seq ∧ r₁.gapExpired cfg.gapStuckSec now) := by
    rw [ho.gapExpired, hexp]
    intro hg
    exact hgap (hone (Or.inr hg)) hg
  obtain ⟨horder, hexp'⟩ := (h.order.opens ho).enforceOrder (c := c) h.numbered ho.state hf hflush
    (by intro he; rw [hexp]; exact hone (Or.inl (by rw [← hexp]; exact he)))
  have harr : ∀ f' : DataFrame, f'.seq ∈ l.arrived → f'.seq ∈ l.arrived ++ [f.seq] := fun _ hm => List.mem_append_left _ hm
  obtain ⟨hheld, hrouted⟩ := (h.held.mono harr).handleInboundData (f := f) cfg.gapStuckSec now c
    ⟨cfg.instanceId, openedAt⟩ (List.mem_append_right _ (List.mem_singleton_self _))
  refine ⟨?_, ?_⟩
  · exact
      { all := hall
        next := h.next
        numbered := h.numbered
        inst := by
          show (l.rx.handleInboundData _ _ _ _ _).rx.SameInstance _
          rw [heq]
          exact enforceOrder_sameInstance ho.state ho.sameInstance
        order := by
          show InOrder l.sent (l.routed ++ (l.rx.handleInboundData _ _ _ _ _).routed.toList)
            (l.rx.handleInboundData _ _ _ _ _).rx
          rw [heq]
          exact horder
        held := hheld
        routed := by
          intro f' hf'
          rcases List.mem_append.mp hf' with hold | hnew
          · exact harr f' (h.routed f' hold)
          · exact hrouted f' (Option.mem_toList.mp hnew)
        apart := by
          intro n hn hm
          rcases List.mem_append.mp hm with hold | hnew
          · exact h.apart n hn hold
          · cases List.mem_singleton.mp hnew
            exact hfresh hn }
  · show l.rx.expected ≤ (l.rx.handleInboundData _ _ _ _ _).rx.expected
    rw [heq, ← hexp]
    exact Nat.le_of_eq hexp'.symm

theorem Ordered.resume (h : Ordered cfg l) (hs : step cfg l (.resume c) = some l') :
    Ordered cfg l' ∧ l.rx.expected ≤ l'.rx.expected := by
  have hall := all_sent_step h.all hs
  obtain ⟨o, ho, rfl⟩ := step_resume hs
  obtain ⟨horder, hexp⟩ := h.order.resume h.numbered ho
  obtain ⟨hheld, hrouted⟩ := h.held.resume ho
  refine ⟨?_, hexp⟩
  exact
    { all := hall
      next := h.next
      numbered := h.numbered
      inst := resume_sameInstance ho h.inst
      order := horder
      held := hheld
      routed := by
        intro f' hf'
        rcases List.mem_append.mp hf' with hold | hnew
        · exact h.routed f' hold
        · exact hrouted f' (Option.mem_toList.mp hnew)
      apart := h.apart }

theorem Ordered.cancel (h : Ordered cfg l) (hs : step cfg l (.cancel c) = some l') :
    Ordered cfg l' ∧ l.rx.expected ≤ l'.rx.expected := by
  have hall := all_sent_step h.all hs
  obtain ⟨rx, hrx, rfl⟩ := step_cancel hs
  obtain ⟨horder, hexp⟩ := h.order.cancel hrx
  refine ⟨?_, Nat.le_of_eq hexp.symm⟩
  exact
    { all := hall
      next := h.next
      numbered := h.numbered
      inst := by
        obtain ⟨hd, _, rfl⟩ := Option.map_eq_some_iff.mp hrx
        exact h.inst
      order := horder
      held := h.held.cancel hrx
      routed := h.routed
      apart := h.apart }

/-- One step along both conditions keeps the invariant, and `expected` does not go down. -/
theorem Ordered.step (h : Ordered cfg l) (hgap : NoGapOutlived cfg l a) (hC : Apart cfg l a)
    (hs : step cfg l a = some l') (hb : l'.sent.length < Tx.seqLimit) :
    Ordered cfg l' ∧ l.rx.expected ≤ l'.rx.expected := by
  cases ha : a.onReceiver with
  | false =>
      obtain ⟨h', he⟩ := h.sender hs ha hC hb
      exact ⟨h', Nat.le_of_eq he.symm⟩
  | true =>
      cases a with
      | recv c openedAt now => exact h.recv hs hgap hC
      | resume c => exact h.resume hs
      | cancel c => exact h.cancel hs
      | _ => cases ha

theorem exec_sent_length_le {acts : List LinkAct} (h : exec (step cfg) l acts = some l') :
    l.sent.length ≤ l'.sent.length :=
  exec_invariant' (I := fun m => l.sent.length ≤ m.sent.length) (fun _ _ _ hi hs => Nat.le_trans hi (sent_length_le hs))
    (Nat.le_refl _) h

/-- The invariant holds after every run along both conditions, from any state that has it. -/
theorem Ordered.exec {acts : List LinkAct} (h : Ordered cfg l)
    (hC : Along (Link.step cfg) (fun l a => NoGapOutlived cfg l a ∧ Apart cfg l a) l acts)
    (hr : exec (Link.step cfg) l acts = some l') (hb : l'.sent.length < Tx.seqLimit) :
    Ordered cfg l' ∧ l.rx.expected ≤ l'.rx.expected := by
  induction acts generalizing l with
  | nil => cases hr; exact ⟨h, Nat.le_refl _⟩
  | cons a acts ih =>
      obtain ⟨l₁, h₁, hrest⟩ := exec_cons_inv hr
      obtain ⟨hca, hC'⟩ := (along_cons h₁).mp hC
      obtain ⟨hO, he⟩ := h.step hca.1 hca.2 h₁ (Nat.lt_of_le_of_lt (exec_sent_length_le hrest) hb)
      obtain ⟨hO', he'⟩ := ih hO hC' hrest
      exact ⟨hO', Nat.le_trans he he'⟩

/-- Nothing that was routed was cancelled, so what was routed is a prefix of the sends that succeeded. -/
theorem Ordered.routed_prefix (h : Ordered cfg l) : l.routed <+: l.succeeded := by
  obtain ⟨rest, hrest⟩ := h.order.prefix
  refine ⟨rest.filter (fun f => f.seq ∉ l.cancelled), ?_⟩
  rw [succeeded, ← hrest, List.filter_append]
  congr 1
  symm
  rw [List.filter_eq_self]
  intro f hf
  simpa using fun hc => h.apart _ hc (h.routed f hf)

end OpenMux.Mpath.Link
