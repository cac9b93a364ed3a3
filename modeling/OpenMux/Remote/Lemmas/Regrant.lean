import OpenMux.Remote.Regrant

/-!
# What the requests of a re-grant return

The read loop is in the handler that awaits the FEDRWACK, and reads none before the handler returns.
-/

namespace OpenMux.Remote.Pair

open Py Origin

variable {n n' : Pair} {clientId : Text} {sid : ℕ} {mode : Mode}

/-- No future has a result, and the only request under way is the one that the read loop is in. -/
def Blocked (n : Pair) : Prop := n.results = ∅ ∧ n.fedrwPending = (n.handler.map (·.sid)).toList

/-- The requests that have returned are the same. -/
def SameRequests (n n' : Pair) : Prop :=
  n'.results = n.results ∧ n'.fedrwPending = n.fedrwPending ∧ n'.handler = n.handler ∧ n'.outcomes = n.outcomes

theorem SameRequests.trans {m : Pair} (h : n.SameRequests n') (h' : n'.SameRequests m) : n.SameRequests m := by
  obtain ⟨h₁, h₂, h₃, h₄⟩ := h
  obtain ⟨h₁', h₂', h₃', h₄'⟩ := h'
  exact ⟨h₁'.trans h₁, h₂'.trans h₂, h₃'.trans h₃, h₄'.trans h₄⟩

theorem Blocked.of_same (h : n.Blocked) (hs : n.SameRequests n') : n'.Blocked := by
  obtain ⟨hr, hp, hh, _⟩ := hs
  unfold Blocked
  rw [hr, hp, hh]
  exact h

theorem same_ensureSession : n.SameRequests (n.ensureSession clientId).1 := by
  unfold ensureSession
  split <;> exact ⟨rfl, rfl, rfl, rfl⟩

theorem same_reopenStreams : n.SameRequests n.reopenStreams := by
  have hfold (cs : List Viewer) (m : Pair) : m.SameRequests (cs.foldl (fun n c => (n.ensureSession c.clientId).1) m) := by
    induction cs generalizing m with
    | nil => exact ⟨rfl, rfl, rfl, rfl⟩
    | cons c cs ih => exact same_ensureSession.trans (ih _)
  exact hfold _ n

theorem same_notifyDemotion : n.SameRequests (n.notifyDemotion sid) := by
  unfold notifyDemotion
  split <;> exact ⟨rfl, rfl, rfl, rfl⟩

theorem same_originDispatch {now : ℕ} (frame : ProxyFrame) : n.SameRequests (n.originDispatch now frame) := by
  unfold originDispatch
  split
  · exact ⟨rfl, rfl, rfl, rfl⟩
  · split <;> exact ⟨rfl, rfl, rfl, rfl⟩
  · split <;> exact ⟨rfl, rfl, rfl, rfl⟩

/-- The re-grant leaves at most one request under way. -/
theorem blocked_regrant (hr : n.results = ∅) (hp : n.fedrwPending = []) (left : List Text) :
    (n.regrant left).Blocked ∧ (n.regrant left).outcomes = n.outcomes := by
  induction left with
  | nil => exact ⟨⟨hr, hp⟩, rfl⟩
  | cons clientId left ih =>
      unfold regrant
      split
      · obtain ⟨hr', hp', -, ho⟩ := @same_ensureSession n clientId
        refine ⟨⟨hr'.trans hr, ?_⟩, ho⟩
        show _ :: (n.ensureSession clientId).1.fedrwPending = _
        rw [hp', hp]
        rfl
      · exact ih

theorem blocked_returned {w : Waiting} {carried : Option Mode} (h : n.Blocked) (hw : n.handler = some w) :
    (n.returned w mode carried).Blocked ∧
      (n.returned w mode carried).outcomes = ⟨w.clientId, mode, carried⟩ :: n.outcomes := by
  obtain ⟨hr, hp⟩ := h
  rw [hw] at hp
  unfold returned
  dsimp only
  split <;> exact blocked_regrant (by simp [setMode, hr]) (by simp [setMode, hp]) w.left

/-- No FEDRWACK reaches a request: the read loop reads only between handlers. -/
theorem blocked_dispatch (h : n.Blocked) (hidle : n.handler = none) (frame : OriginFrame) :
    (n.dispatch frame).Blocked ∧ (n.dispatch frame).outcomes = n.outcomes := by
  obtain ⟨hr, hp⟩ := h
  rw [hidle] at hp
  cases frame with
  | portsFederated =>
      obtain ⟨hr', hp', -, ho⟩ := @same_reopenStreams n.closeStreamsAndStale
      obtain ⟨hblocked, ho'⟩ := blocked_regrant (hr'.trans hr) (hp'.trans hp)
        (n.closeStreamsAndStale.reopenStreams.connectedClients.map (·.clientId))
      exact ⟨hblocked, ho'.trans ho⟩
  | fedrwAck sid mode =>
      have hnot : sid ∉ n.fedrwPending := by
        simp [hp]
      unfold dispatch handleFedrwAck
      dsimp only
      rw [if_neg hnot]
      have hblocked : n.Blocked := ⟨hr, by rw [hidle]; exact hp⟩
      split
      · exact ⟨hblocked.of_same same_notifyDemotion, same_notifyDemotion.2.2.2⟩
      · exact ⟨hblocked, rfl⟩
  | other => exact ⟨⟨hr, by rw [show (n.dispatch .other).handler = none from hidle]; exact hp⟩, rfl⟩

/-- What a step does to the requests: only a timeout ends one, and it returns read-only whatever is in the byte stream. -/
theorem blocked_step (h : n.Blocked) {a : PairAct} (hstep : n.step a = some n') :
    n'.Blocked ∧ (n'.outcomes = n.outcomes ∧ a ≠ .timeout ∨
      a = .timeout ∧ ∃ w, n.handler = some w ∧ n'.outcomes = ⟨w.clientId, .readOnly, n.ackOf w.sid⟩ :: n.outcomes) := by
  cases a with
  | originSends frame =>
      cases hstep
      exact ⟨h, .inl ⟨rfl, nofun⟩⟩
  | originReads now =>
      dsimp only [step] at hstep
      unfold originReads at hstep
      split at hstep
      · cases hstep
      · rename_i frame frames _
        cases hstep
        have hs : n.SameRequests ({ n with outbox := frames }.originDispatch now frame) :=
          SameRequests.trans ⟨rfl, rfl, rfl, rfl⟩ (same_originDispatch frame)
        exact ⟨h.of_same hs, .inl ⟨hs.2.2.2, nofun⟩⟩
  | originChanges port =>
      cases hstep
      exact ⟨h, .inl ⟨rfl, nofun⟩⟩
  | readLoop =>
      dsimp only [step] at hstep
      unfold readLoop at hstep
      split at hstep
      · rename_i frame frames hidle _
        cases hstep
        obtain ⟨hblocked, ho⟩ := @blocked_dispatch { n with inbox := frames } h hidle frame
        exact ⟨hblocked, .inl ⟨ho, nofun⟩⟩
      · cases hstep
  | wake =>
      obtain ⟨w, hw, hstep⟩ := Option.bind_eq_some_iff.mp hstep
      rw [h.1] at hstep
      cases hstep
  | timeout =>
      obtain ⟨w, hw, hstep⟩ := Option.bind_eq_some_iff.mp hstep
      split at hstep
      · cases hstep
        obtain ⟨hblocked, ho⟩ := @blocked_returned n .readOnly w (n.ackOf w.sid) h hw
        exact ⟨hblocked, .inr ⟨rfl, w, hw, ho⟩⟩
      · cases hstep
  | setMode clientId mode =>
      cases hstep
      exact ⟨h, .inl ⟨rfl, nofun⟩⟩

theorem Idle.blocked (h : n.Idle) : n.Blocked := by
  obtain ⟨hh, hp, hr, -⟩ := h
  exact ⟨hr, by rw [hh]; exact hp⟩

end OpenMux.Remote.Pair
