import OpenMux.Arbitration.Lemmas.Steps

/-!
# Both sides of a federated slot agree
-/

namespace OpenMux.Arbitration

open Py Federation Origin Streams Transition

namespace Link

variable {peerKey : Text} {p : Port} {s : Link} {acts : List Act}

/-- No stream of the requesting node is open yet. -/
def initial (p : Port) : Link := { requester := {}, arbiter := { port := p } }

theorem initial_inv (hp : ∀ c ∈ p.connectedClients, ¬ OfPeer peerKey c.clientId) : (initial p).Inv peerKey := by
  refine ⟨⟨?_, ?_, ?_, ?_, ?_⟩, fun sid => ?_⟩
  · intro c c' sid hc; cases hc
  · intro c sid hc; cases hc
  · intro r hr; cases hr
  · intro a ha; cases ha
  · intro t ht; cases ht
  · have hmirror : modeOf p (Arbiter.mirror peerKey sid) = none := by
      rw [← Option.not_isSome_iff_eq_none, modeOf_isSome, List.any_eq_true]
      rintro ⟨c, hc, hd⟩
      exact hp c hc (of_decide_eq_true hd ▸ ofPeer_mirror)
    have : (initial p).view peerKey sid = {} := by
      unfold initial view
      dsimp only
      rw [hmirror]
      rfl
    rw [this]
    exact StreamView.invariant_blank

/-- With nothing in flight a stream is settled: its record is in the mode of its mirror. -/
theorem Inv.agrees (h : s.Inv peerKey) (hq : s.Quiescent) : s.Agrees peerKey := by
  intro clientId sid hc
  have hrequests : (s.view peerKey sid).requests = [] := by simp [view, hq.requests]
  have hw : (s.view peerKey sid).awaiting = false := by simp [StreamView.awaiting, hrequests]
  have hg : (s.view peerKey sid).granted = false := by simp [StreamView.granted, hrequests]
  have hactions : (s.view peerKey sid).actions = [] := by simp [StreamView.actions, view, hq.toOrigin]
  have hexpects : (s.view peerKey sid).expects = (s.view peerKey sid).record := by
    simp [StreamView.expects, hg, show (s.view peerKey sid).acks = [] by simp [view, hq.toRequester]]
  have howed : (s.view peerKey sid).owed = false := by simp [view, owed, hq.transfers]
  have hagree := ((h.streams sid).phase.of_idle hw hg).agrees hactions howed
  rw [hexpects] at hagree
  rw [← Requester.record_eq h.wired.distinct hc, clientHasWrite_iff]
  exact hagree.symm

/-- Along steps that meet their conditions the record on the proxy and the mirror on the origin end up in one mode. -/
theorem modes_agree (hp : ∀ c ∈ p.connectedClients, ¬ OfPeer peerKey c.clientId)
    (hmeets : Along (step peerKey) (Meets peerKey) (initial p) acts) (hrun : exec (step peerKey) (initial p) acts = some s)
    (hq : s.Quiescent) : s.Agrees peerKey := by
  have hinv : s.Inv peerKey := exec_invariant (fun _ _ _ hi hc hs => hi.step hc hs) (initial_inv hp) hmeets hrun
  exact hinv.agrees hq

def idlePort : Port := { adapterType := "serial".toList }

/-- A client is promoted; a client of the origin takes the slot from it. -/
def takenRun : List Act :=
  [.connect ['a'] "a" 1 false, .readFrame 2, .promote ['a'], .readFrame 3, .readAck, .resume 1 0 true,
    .port (.addClient ⟨['x'], "x", .readOnly, 4⟩ true), .localTake ['x'] (Arbiter.mirror ['p'] 1), .transferStep 0 true,
    .transferNotice 0, .readAck]

theorem modes_agree_taken : ∃ s, exec (step ['p']) (initial idlePort) takenRun = some s ∧ s.Agrees ['p'] := by
  have hmeets : Along (step ['p']) (Meets ['p']) (initial idlePort) takenRun := by decide
  exact ⟨_, rfl, modes_agree (fun c hc => by cases hc) hmeets rfl ⟨rfl, rfl, rfl, rfl, rfl⟩⟩

/-- The wait for a REQUEST ends before its answer is read. -/
def lateRun : List Act :=
  [.connect ['a'] "a" 1 false, .readFrame 2, .promote ['a'], .expire 1 0, .resume 1 0 true, .readFrame 3, .readAck]

/-- The mirror is read-write, and the record is not. -/
theorem modes_agree_fails : ¬ ∀ (peerKey : Text) (p : Port) (acts : List Act) (s : Link),
    (∀ c ∈ p.connectedClients, ¬ OfPeer peerKey c.clientId) → exec (step peerKey) (initial p) acts = some s →
      s.Quiescent → s.Agrees peerKey := by
  intro h
  have hagree := h ['p'] idlePort lateRun _ (fun c hc => by cases hc) rfl ⟨rfl, rfl, rfl, rfl, rfl⟩
  have hmode := hagree ['a'] 1 rfl
  revert hmode
  decide

end Link

end OpenMux.Arbitration
