import OpenMux.Streams.Lemmas.Directions

/-!
# The two directions of a link
-/

namespace OpenMux.Streams

open Py Transition

namespace Link

/-! ## Directions that do not mix -/

variable {cfg : LinkCfg} {l : Link} {s : Side} {a : LinkAct} {acts : List LinkAct}

/-- What a frame may do at a node. Input of a stream of the peer goes to the port that the stream was opened to, under the
pseudo-client of the stream; output goes to the proxy that opened the stream; either is dropped once the stream is closed
at this node. A CLOSE leaves the streams that this node opened. -/
def SeparateAt (peerKey : Text) (n : StreamNode) (peer : Dict StreamId Text) : Frame → Prop
  | .data sid data .input => ∃ proxy, peer.get? sid = some proxy ∧
      (n.routeDataFrame peerKey sid data = .port (strip proxy) (fedClientId peerKey sid) data ∨
        sid ∈ n.stopped ∧ n.routeDataFrame peerKey sid data = .dropped)
  | .data sid data .output => ∃ proxy, n.opened.get? sid = some proxy ∧
      (n.routeDataFrame peerKey sid data = .proxy proxy data ∨
        sid ∈ n.closed ∧ n.routeDataFrame peerKey sid data = .dropped)
  | .close sid => ∀ sid', (n.rlHandleClose sid).sessionMap.get? sid' = n.sessionMap.get? sid'
  | .openStream _ _ => True

def Separate (cfg : LinkCfg) (l : Link) : LinkAct → Prop
  | .deliver s i => ∀ f ∈ (l.wire s)[i]?, SeparateAt (cfg.peerKey s) (l.node s) (l.node s.other).opened f
  | _ => True

/-- The number of the frame is not in use in the other direction. Input finds the session that its OPEN made, or made and
lost; output finds the stream of the opener, or comes after the opener closed it. -/
def DistinctAt (n : StreamNode) : Frame → Prop
  | .data sid _ .input => n.sessionMap.get? sid = none ∧ (n.Serves sid ∨ sid ∈ n.stopped)
  | .data sid _ .output => (n.sessionMap.get? sid).isSome ∨ sid ∈ n.closed ∧ ¬ n.Serves sid
  | .close sid => n.sessionMap.get? sid = none
  | .openStream _ _ => True

instance (n : StreamNode) : (f : Frame) → Decidable (DistinctAt n f)
  | .data _ _ .input => inferInstanceAs (Decidable (_ ∧ _))
  | .data _ _ .output => inferInstanceAs (Decidable (_ ∨ _))
  | .close _ => inferInstanceAs (Decidable (_ = _))
  | .openStream _ _ => isTrue trivial

def Distinct (l : Link) : LinkAct → Prop
  | .deliver s i => ∀ f ∈ (l.wire s)[i]?, DistinctAt (l.node s) f
  | _ => True

instance (l : Link) (a : LinkAct) : Decidable (l.Distinct a) := by
  cases a <;> unfold Distinct <;> infer_instance

variable {n : StreamNode} {peer : Dict StreamId Text} {peerKey : Text} {sid : StreamId} {data : List UInt8}

/-- Input is routed to the port of its stream exactly when no stream of the receiver has its number. -/
theorem input_separate (h : n.Mapped peer) (ho : ∃ p, peer.get? sid = some p) :
    SeparateAt peerKey n peer (.data sid data .input) ↔ DistinctAt n (.data sid data .input) := by
  obtain ⟨proxy, ho⟩ := ho
  simp only [SeparateAt, DistinctAt, ho, Option.some.injEq, exists_eq_left']
  cases hm : n.sessionMap.get? sid with
  | some p => simp [StreamNode.routeDataFrame_proxy hm]
  | none =>
      by_cases hs : n.Serves sid
      · obtain ⟨port, hport, hne⟩ := hs
        obtain ⟨p, hp, rfl⟩ := h.served sid port hport
        rw [ho, Option.some.injEq] at hp
        subst hp
        simp [StreamNode.routeDataFrame_port hm hport hne, show n.Serves sid from ⟨_, hport, hne⟩]
      · simp [StreamNode.routeDataFrame_dropped hm hs, hs]

/-- Output is routed to the proxy of its stream exactly when the opener has mapped it; after the close no session of the
peer may have its number. -/
theorem output_separate (h : n.Mapped peer) (ho : ∃ p, n.opened.get? sid = some p) :
    SeparateAt peerKey n peer (.data sid data .output) ↔ DistinctAt n (.data sid data .output) := by
  obtain ⟨proxy, ho⟩ := ho
  simp only [SeparateAt, DistinctAt, ho, Option.some.injEq, exists_eq_left']
  cases hm : n.sessionMap.get? sid with
  | some p =>
      have hp := h.session sid p hm
      rw [ho, Option.some.injEq] at hp
      subst hp
      simp [StreamNode.routeDataFrame_proxy hm]
  | none =>
      by_cases hs : n.Serves sid
      · obtain ⟨port, hport, hne⟩ := hs
        simp [StreamNode.routeDataFrame_port hm hport hne, show n.Serves sid from ⟨_, hport, hne⟩]
      · simp [StreamNode.routeDataFrame_dropped hm hs, hs]

/-- A CLOSE of a stream of the peer leaves the node's own streams exactly when none of them has its number. -/
theorem close_separate : SeparateAt peerKey n peer (.close sid) ↔ DistinctAt n (.close sid) := by
  have hmap : (n.rlHandleClose sid).sessionMap = n.sessionMap.pop sid := rfl
  simp only [SeparateAt, DistinctAt, hmap]
  constructor
  · intro h
    rw [← h sid, Dict.get?_pop_self]
  · intro h sid'
    rw [Dict.get?_pop]
    split
    · rename_i he
      rw [he, h]
    · rfl

theorem separate_iff (h : l.Mapped) (a : LinkAct) : l.Separate cfg a ↔ l.Distinct a := by
  cases a with
  | deliver s i =>
      refine forall_congr' fun f => forall_congr' fun hi => ?_
      have hsent := h.wire s f (List.mem_of_getElem? hi)
      cases f with
      | openStream => exact Iff.rfl
      | close sid => exact close_separate
      | data sid data dir =>
          cases dir with
          | input => exact input_separate (h.node s) hsent
          | output => exact output_separate (h.node s) hsent
  | _ => exact Iff.rfl

/-- In every run of two fresh nodes the directions are separate exactly when no delivered frame has a number that the
receiver uses in the other direction. -/
theorem directions_separate : Along step (Separate cfg) {} acts ↔ Along step Distinct {} acts :=
  along_congr (I := Mapped) (fun _ _ _ h _ hs => h.step hs) (fun _ a h => separate_iff h a) mapped_initial

def tty0 : Text := ['t', 't', 'y', '0']
def tty1 : Text := ['t', 't', 'y', '1']

/-- One node has closed its first stream when the other one opens a stream with that number. -/
def staggeredRun : List LinkAct :=
  [.ensureSession .a tty0 "c1", .deliver .b 0, .mapSession .a 0, .write .a tty0 "c1" [65], .deliver .b 0,
    .pump .b 1 [66], .deliver .a 0, .closeStream .a tty0 "c1", .deliver .b 0,
    .ensureSession .b tty1 "c2", .mapSession .b 0, .deliver .a 0, .write .b tty1 "c2" [67], .deliver .a 0]

theorem directions_separate_staggered : Along step (Separate ⟨fun _ => ['p']⟩) {} staggeredRun :=
  directions_separate.mpr (by decide)

/-- Both nodes open their first stream. -/
def collidingRun : List LinkAct :=
  [.ensureSession .a tty0 "c1", .mapSession .a 0, .ensureSession .b tty1 "c2", .mapSession .b 0, .deliver .a 0,
    .write .b tty1 "c2" [67]]

/-- What one node writes on its first stream reaches a proxy of the other. -/
theorem directions_separate_fails : ¬ ∀ (cfg : LinkCfg) (acts : List LinkAct), Along step (Separate cfg) {} acts := by
  intro h
  have hrun : exec step {} collidingRun = some _ := rfl
  have hlast := along_append_at (h ⟨fun _ => ['p']⟩ (collidingRun ++ [.deliver .a 0])) hrun
  have hmapped := exec_invariant' (fun _ _ _ hm hs => Mapped.step hm hs) mapped_initial hrun
  have hdistinct := (separate_iff hmapped _).mp hlast
  revert hdistinct
  decide

end Link

end OpenMux.Streams
