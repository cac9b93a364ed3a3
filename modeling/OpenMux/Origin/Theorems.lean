import OpenMux.Origin.Lemmas.Closing
import OpenMux.Origin.Lemmas.Sessions
import OpenMux.Origin.Relay

/-!
# Local ports and their peers
-/

namespace OpenMux.Origin

open Py Transition Streams

namespace OriginNode

/-! ## The boundary of the advertise filters -/

variable {cfg : OriginCfg} {n : OriginNode} {acts : List OriginAct}

/-- Whatever an action leaves behind for a local port goes back to an OPEN that the filters allowed. -/
def LeavesClosed (cfg : OriginCfg) (n : OriginNode) (a : OriginAct) : Prop := ∀ n', n.step cfg a = some n' → n'.Closed

theorem leavesClosed_iff (h : n.Guarded) (a : OriginAct) : n.LeavesClosed cfg a ↔ n.OpenPermitted cfg a := by
  constructor
  · exact h.permitted_of_closed
  · intro hp n' hs
    exact (h.step hp hs).toClosed

theorem along_leavesClosed (h : n.Guarded) :
    Along (step cfg) (LeavesClosed cfg) n acts ↔ Along (step cfg) (OpenPermitted cfg) n acts :=
  along_congr (I := Guarded) (fun _ _ _ hg hp hs => hg.step hp hs) (fun _ a hg => leavesClosed_iff hg a) h

def tty0 : Text := ['t', 't', 'y', '0']

/-- Every pattern stands for itself. -/
def literal : OriginCfg := ⟨fun value pattern => value = pattern, ['s']⟩

/-- A node with one port. -/
def onePort (filters : AdvertiseFilters) (buffers : Buffers) : OriginNode :=
  { filters := filters, ports := (∅ : Dict Text Port).set tty0 { adapterType := ['s', 'i', 'm'], buffers := buffers } }

theorem onePort_fresh (filters : AdvertiseFilters) (buffers : Buffers) : (onePort filters buffers).Fresh where
  session := rfl
  pumpTasks := rfl
  tasks := rfl
  opening := rfl
  writes := rfl
  switched := rfl
  views := rfl
  client name p hp c hc := by
    simp only [onePort, Dict.get?_set] at hp
    split at hp
    · cases hp; cases hc
    · simp at hp

/-- A peer opens the port, is promoted and writes. -/
def guessRun : List OriginAct :=
  [.connect 1 ['p'], .authenticate 1 ['p'] none, .frame 1 (.openStream 1 tty0), .resumeOpen 0 5, .resumeOpen 0 6,
    .frame 1 (.fedrw tty0 1 .request), .frame 1 (.data 1 [65])]

/-- Along clean steps every peer is sent the snapshot and then every chunk that arrives. -/
theorem viewers_whole {n' : OriginNode} (h : n.Fresh) (hclean : Along (step cfg) RelayClean n acts)
    (hrun : exec (step cfg) n acts = some n') : n'.Relayed := by
  have hinv : n'.RelayInv := exec_invariant (fun _ _ _ hi hc hs => RelayInv.step hi hc hs) h.relayInv hclean hrun
  exact hinv.relayed

/-- A peer opens two streams to the port and closes the first. -/
def twoStreamsRun : List OriginAct :=
  [.connect 1 ['p'], .authenticate 1 ['p'] none, .frame 1 (.openStream 1 tty0), .resumeOpen 0 5, .resumeOpen 0 6,
    .pump 0 true, .pump 0 true, .incoming tty0 [65] none, .pump 0 true,
    .frame 1 (.openStream 3 tty0), .resumeOpen 0 7, .resumeOpen 0 8, .pump 1 true, .pump 1 true,
    .incoming tty0 [66] none, .pump 1 true, .frame 1 (.close 1), .pump 0 true, .incoming tty0 [67] none, .pump 1 true]

theorem viewers_whole_streams : ∃ n', exec (step literal) (onePort {} {}) twoStreamsRun = some n' ∧ n'.Relayed := by
  have hclean : Along (step literal) RelayClean (onePort {} {}) twoStreamsRun := by decide
  exact ⟨_, rfl, viewers_whole (onePort_fresh _ _) hclean rfl⟩

/-- A chunk arrives while only a local client is attached; then a peer opens the port. -/
def staleRun : List OriginAct :=
  [.localAttach tty0 ⟨['c'], "c", .readOnly, 1⟩, .incoming tty0 [65] none, .connect 1 ['p'], .authenticate 1 ['p'] none,
    .frame 1 (.openStream 1 tty0), .resumeOpen 0 5, .resumeOpen 0 6, .pump 0 true, .pump 0 true, .pump 0 true, .pump 0 true]

/-- The chunk is sent with the snapshot and again from the queue. -/
theorem viewers_whole_fails : ¬ ∀ (cfg : OriginCfg) (n n' : OriginNode) (acts : List OriginAct), n.Fresh →
    exec (step cfg) n acts = some n' → n'.Relayed := by
  intro h
  have hrun : exec (step literal) (onePort {} { scrollbackSize := 10 }) staleRun = some _ := rfl
  obtain ⟨p, _, taken, hsent, hsub, _⟩ := (h _ _ _ staleRun (onePort_fresh _ _) hrun).whole ['p'] tty0 _ rfl
  -- no chunk arrived after the snapshot
  have hnothing : taken ++ p.buffers.dataQueue = [] := List.sublist_nil.mp hsub
  rw [(List.append_eq_nil_iff.mp hnothing).1] at hsent
  have hlength := congrArg List.length hsent
  revert hlength
  decide

end OriginNode

end OpenMux.Origin
