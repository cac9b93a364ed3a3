import OpenMux.Mpath.Link
import OpenMux.Mpath.Lemmas.Inbound
import OpenMux.Mpath.Lemmas.Outbound

/-!
# What one step of a link can do

A step belongs to the sender or to a read loop of the receiver, and leaves the other side as it is.
-/

namespace OpenMux.Mpath

/-- The step belongs to a read loop of the receiver. -/
def LinkAct.onReceiver : LinkAct → Bool
  | .recv _ _ _ | .resume _ | .cancel _ => true
  | _ => false

namespace Link

variable {cfg : LinkCfg} {l l' : Link} {a : LinkAct} {c : ConnId} {P Q : DataFrame → Prop}

@[simp] theorem write_tx (l : Link) (out : Option (ConnId × DataFrame)) : (l.write out).tx = l.tx := by
  cases out <;> rfl

@[simp] theorem write_rx (l : Link) (out : Option (ConnId × DataFrame)) : (l.write out).rx = l.rx := by
  cases out <;> rfl

@[simp] theorem write_sent (l : Link) (out : Option (ConnId × DataFrame)) : (l.write out).sent = l.sent := by
  cases out <;> rfl

@[simp] theorem write_cancelled (l : Link) (out : Option (ConnId × DataFrame)) :
    (l.write out).cancelled = l.cancelled := by
  cases out <;> rfl

@[simp] theorem write_outstanding (l : Link) (out : Option (ConnId × DataFrame)) :
    (l.write out).outstanding = l.outstanding := by
  cases out <;> rfl

/-- The receiver's fields agree. -/
structure SameReceiver (l l' : Link) : Prop where
  rx : l'.rx = l.rx
  arrived : l'.arrived = l.arrived
  routed : l'.routed = l.routed
  acked : l'.acked = l.acked
  givenUp : l'.givenUp = l.givenUp

theorem sameReceiver_write {out : Option (ConnId × DataFrame)} (h : SameReceiver l l') :
    SameReceiver l (l'.write out) := by
  cases out with
  | none => exact h
  | some cf => exact ⟨h.rx, h.arrived, h.routed, h.acked, h.givenUp⟩

theorem step_sender (h : step cfg l a = some l') (ha : a.onReceiver = false) : SameReceiver l l' := by
  cases a with
  | send cid pl =>
      cases h
      exact sameReceiver_write ⟨rfl, rfl, rfl, rfl, rfl⟩
  | sendDone i now =>
      obtain ⟨tx, _, rfl⟩ := Option.map_eq_some_iff.mp h
      exact ⟨rfl, rfl, rfl, rfl, rfl⟩
  | sendCancel i =>
      obtain ⟨tx, _, rfl⟩ := Option.map_eq_some_iff.mp h
      exact ⟨rfl, rfl, rfl, rfl, rfl⟩
  | retxScan now rto =>
      obtain ⟨tx, _, rfl⟩ := Option.map_eq_some_iff.mp h
      exact ⟨rfl, rfl, rfl, rfl, rfl⟩
  | retxNext cid =>
      obtain ⟨⟨out, tx⟩, _, rfl⟩ := Option.map_eq_some_iff.mp h
      exact sameReceiver_write ⟨rfl, rfl, rfl, rfl, rfl⟩
  | retxDone =>
      obtain ⟨tx, _, rfl⟩ := Option.map_eq_some_iff.mp h
      exact ⟨rfl, rfl, rfl, rfl, rfl⟩
  | recv c openedAt now => cases ha
  | resume c => cases ha
  | cancel c => cases ha
  | recvAck c =>
      simp only [step] at h
      split at h
      · cases h
      · cases h
        exact ⟨rfl, rfl, rfl, rfl, rfl⟩
  | lose c =>
      cases h
      exact ⟨rfl, rfl, rfl, rfl, rfl⟩

/-- A read loop takes the first frame off its connection when none of its frames is being delivered. -/
theorem step_recv {openedAt now : Int} (h : step cfg l (.recv c openedAt now) = some l') :
    ∃ f rest, l.wire c = f :: rest ∧ l.rx.handlers.get? c = none ∧
      l' = { l with
        wire := Function.update l.wire c rest
        arrived := l.arrived ++ [f.seq] }.absorb c
          (l.rx.handleInboundData cfg.gapStuckSec ⟨cfg.instanceId, openedAt⟩ c f now) := by
  simp only [step] at h
  split at h
  · rename_i f rest hw hh
    exact ⟨f, rest, hw, hh, (Option.some.inj h).symm⟩
  · cases h

theorem step_resume (h : step cfg l (.resume c) = some l') : ∃ o, l.rx.resume c = some o ∧ l' = l.absorb c o := by
  obtain ⟨o, ho, rfl⟩ := Option.map_eq_some_iff.mp h
  exact ⟨o, ho, rfl⟩

theorem step_cancel (h : step cfg l (.cancel c) = some l') :
    ∃ rx, l.rx.cancel c = some rx ∧ l' = { l with rx := rx } := by
  obtain ⟨rx, hrx, rfl⟩ := Option.map_eq_some_iff.mp h
  exact ⟨rx, hrx, rfl⟩

/-- The sender's fields agree. -/
structure SameSender (l l' : Link) : Prop where
  tx : l'.tx = l.tx
  sent : l'.sent = l.sent
  cancelled : l'.cancelled = l.cancelled
  outstanding : l'.outstanding = l.outstanding

theorem step_receiver (h : step cfg l a = some l') (ha : a.onReceiver = true) : SameSender l l' := by
  cases a with
  | recv c openedAt now =>
      obtain ⟨f, rest, _, _, rfl⟩ := step_recv h
      exact ⟨rfl, rfl, rfl, rfl⟩
  | resume c =>
      obtain ⟨o, _, rfl⟩ := step_resume h
      exact ⟨rfl, rfl, rfl, rfl⟩
  | cancel c =>
      obtain ⟨rx, _, rfl⟩ := step_cancel h
      exact ⟨rfl, rfl, rfl, rfl⟩
  | _ => cases ha

/-! ## Frames under way -/

/-- Every frame that the sender holds, or that is under way, meets `P`. -/
structure All (P : DataFrame → Prop) (l : Link) : Prop where
  tx : l.tx.All P
  wire : ∀ c f, f ∈ l.wire c → P f

theorem All.mono (h : l.All P) (hPQ : ∀ f, P f → Q f) : l.All Q :=
  ⟨h.tx.mono hPQ, fun c f hf => hPQ f (h.wire c f hf)⟩

theorem All.write (h : l.All P) {out : Option (ConnId × DataFrame)} (hout : ∀ cf, out = some cf → P cf.2) :
    (l.write out).All P := by
  refine ⟨by rw [write_tx]; exact h.tx, ?_⟩
  cases out with
  | none => exact h.wire
  | some cf =>
      obtain ⟨c, f⟩ := cf
      intro c' f' hf'
      simp only [Link.write, Function.update_apply] at hf'
      split at hf'
      · rcases List.mem_append.mp hf' with hold | hnew
        · exact h.wire c f' hold
        · cases List.mem_singleton.mp hnew
          exact hout _ rfl
      · exact h.wire c' f' hf'

theorem All.update_wire (h : l.All P) {fs : List DataFrame} (hfs : ∀ f ∈ fs, f ∈ l.wire c) :
    ∀ c' f, f ∈ Function.update l.wire c fs c' → P f := by
  intro c' f hf
  rw [Function.update_apply] at hf
  split at hf
  · exact h.wire c f (hfs f hf)
  · exact h.wire c' f hf

/-- Every step keeps it; a send adds the frame with the next number. -/
theorem All.step (h : l.All P) (hs : step cfg l a = some l')
    (hnew : ∀ c pl, a = .send (some c) pl → P ⟨l.tx.txSeq, pl⟩) : l'.All P := by
  cases a with
  | send cid pl =>
      cases hs
      obtain ⟨hall, hout⟩ := h.tx.sendDataMpath cid pl (fun c hc => hnew c pl (by rw [hc]))
      exact All.write (l := { l with tx := _, sent := _, outstanding := _ }) ⟨hall, h.wire⟩ hout
  | sendDone i now =>
      obtain ⟨tx, htx, rfl⟩ := Option.map_eq_some_iff.mp hs
      exact ⟨h.tx.sendDone htx, h.wire⟩
  | sendCancel i =>
      obtain ⟨tx, htx, rfl⟩ := Option.map_eq_some_iff.mp hs
      exact ⟨h.tx.sendCancel htx, h.wire⟩
  | retxScan now rto =>
      obtain ⟨tx, htx, rfl⟩ := Option.map_eq_some_iff.mp hs
      exact ⟨h.tx.retxScan htx, h.wire⟩
  | retxNext cid =>
      obtain ⟨⟨out, tx⟩, htx, rfl⟩ := Option.map_eq_some_iff.mp hs
      obtain ⟨hall, hout⟩ := h.tx.retxNext htx
      exact All.write (l := { l with tx := tx }) ⟨hall, h.wire⟩ hout
  | retxDone =>
      obtain ⟨tx, htx, rfl⟩ := Option.map_eq_some_iff.mp hs
      exact ⟨h.tx.retxDone htx, h.wire⟩
  | recv c openedAt now =>
      obtain ⟨f, rest, hw, _, rfl⟩ := step_recv hs
      exact ⟨h.tx, h.update_wire (fun f' hf' => by rw [hw]; exact List.mem_cons_of_mem f hf')⟩
  | resume c =>
      obtain ⟨o, _, rfl⟩ := step_resume hs
      exact ⟨h.tx, h.wire⟩
  | cancel c =>
      obtain ⟨rx, _, rfl⟩ := step_cancel hs
      exact ⟨h.tx, h.wire⟩
  | recvAck c =>
      simp only [Link.step] at hs
      split at hs
      · cases hs
      · cases hs
        exact ⟨h.tx.handleAck, h.wire⟩
  | lose c =>
      cases hs
      exact ⟨h.tx, h.update_wire (by intro f hf; cases hf)⟩

/-! ## The numbers given out -/

/-- A step gives out no number, or the next one. -/
theorem step_sent (h : step cfg l a = some l') :
    (l'.sent = l.sent ∧ l'.tx.txSeq = l.tx.txSeq) ∨
    ∃ c pl, a = .send (some c) pl ∧ l'.sent = l.sent ++ [⟨l.tx.txSeq, pl⟩] ∧
      l'.tx.txSeq = (if Tx.seqLimit ≤ l.tx.txSeq + 1 then 1 else l.tx.txSeq + 1) := by
  cases a with
  | send cid pl =>
      cases cid with
      | none =>
          cases h
          left
          simp [Link.write]
      | some c =>
          cases h
          right
          exact ⟨c, pl, rfl, by simp, by simp⟩
  | sendDone i now =>
      obtain ⟨tx, htx, rfl⟩ := Option.map_eq_some_iff.mp h
      exact Or.inl ⟨rfl, Tx.sendDone_txSeq htx⟩
  | sendCancel i =>
      obtain ⟨tx, htx, rfl⟩ := Option.map_eq_some_iff.mp h
      exact Or.inl ⟨rfl, Tx.sendCancel_txSeq htx⟩
  | retxScan now rto =>
      obtain ⟨tx, htx, rfl⟩ := Option.map_eq_some_iff.mp h
      exact Or.inl ⟨rfl, Tx.retxScan_txSeq htx⟩
  | retxNext cid =>
      obtain ⟨⟨out, tx⟩, htx, rfl⟩ := Option.map_eq_some_iff.mp h
      exact Or.inl ⟨by simp, by simpa using Tx.retxNext_txSeq htx⟩
  | retxDone =>
      obtain ⟨tx, htx, rfl⟩ := Option.map_eq_some_iff.mp h
      exact Or.inl ⟨rfl, Tx.retxDone_txSeq htx⟩
  | recv c openedAt now =>
      have hs := step_receiver h rfl
      exact Or.inl ⟨hs.sent, by rw [hs.tx]⟩
  | resume c =>
      have hs := step_receiver h rfl
      exact Or.inl ⟨hs.sent, by rw [hs.tx]⟩
  | cancel c =>
      have hs := step_receiver h rfl
      exact Or.inl ⟨hs.sent, by rw [hs.tx]⟩
  | recvAck c =>
      simp only [step] at h
      split at h
      · cases h
      · cases h
        exact Or.inl ⟨rfl, rfl⟩
  | lose c =>
      cases h
      exact Or.inl ⟨rfl, rfl⟩

/-- A send is cancelled, or the list of cancelled numbers stays as it is. -/
theorem step_cancelled (h : step cfg l a = some l') :
    l'.cancelled = l.cancelled ∨
    ∃ i p, a = .sendCancel i ∧ l.tx.pending[i]? = some p ∧ l'.cancelled = l.cancelled ++ [p.frame.seq] := by
  cases a with
  | send cid pl => cases h; simp
  | sendCancel i =>
      obtain ⟨tx, htx, rfl⟩ := Option.map_eq_some_iff.mp h
      obtain ⟨p, hp, _⟩ := Option.map_eq_some_iff.mp htx
      exact Or.inr ⟨i, p, rfl, hp, by simp [hp]⟩
  | sendDone i now => obtain ⟨tx, _, rfl⟩ := Option.map_eq_some_iff.mp h; exact Or.inl rfl
  | retxScan now rto => obtain ⟨tx, _, rfl⟩ := Option.map_eq_some_iff.mp h; exact Or.inl rfl
  | retxNext cid => obtain ⟨⟨out, tx⟩, _, rfl⟩ := Option.map_eq_some_iff.mp h; exact Or.inl (by simp)
  | retxDone => obtain ⟨tx, _, rfl⟩ := Option.map_eq_some_iff.mp h; exact Or.inl rfl
  | recv c openedAt now => exact Or.inl (step_receiver h rfl).cancelled
  | resume c => exact Or.inl (step_receiver h rfl).cancelled
  | cancel c => exact Or.inl (step_receiver h rfl).cancelled
  | recvAck c =>
      simp only [step] at h
      split at h
      · cases h
      · cases h; exact Or.inl rfl
  | lose c => cases h; exact Or.inl rfl

end Link

end OpenMux.Mpath
