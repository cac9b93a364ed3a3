import OpenMux.Lib.Dict
import OpenMux.Lib.PyText
import OpenMux.Lib.Run

/-!
# The streams of one peer

`_session_map`, `_local_session_map` and the stream ids of one node toward one peer group, and the handlers of the OPEN, DATA
and CLOSE frames that read them. A proxy is named by its `remote_port_name`. `opened`, `closed` and `stopped` are history.
-/

namespace OpenMux.Streams

open Py

abbrev StreamId := Nat

/-- A `_ensure_session` that is suspended in the send of its OPEN. -/
structure Opening where
  sid : StreamId
  proxy : Text
  key : String
deriving DecidableEq, Repr

structure StreamNode where
  /-- `_peer_next_stream_id`. -/
  nextStreamId : Nat := 0
  /-- `_session_map`: streams that this node opened, to its proxies. -/
  sessionMap : Dict StreamId Text := ∅
  /-- `_local_session_map`: streams that the peer opened, to local ports. -/
  localSessionMap : Dict StreamId Text := ∅
  /-- `_client_sessions` of each proxy. -/
  clientSessions : Dict (Text × String) StreamId := ∅
  opening : List Opening := []
  /-- Every id that was allocated here, with its proxy. -/
  opened : Dict StreamId Text := ∅
  /-- Streams that this node closed. -/
  closed : List StreamId := []
  /-- Streams of the peer whose session was stopped here. -/
  stopped : List StreamId := []

/-- What `_route_data_frame` does with the bytes. -/
inductive Outcome
  | proxy (remotePortName : Text) (data : List UInt8)
  | port (name : Text) (clientId : Text) (data : List UInt8)
  | dropped
deriving DecidableEq

/-- `"fed:"`. -/
def fedPrefix : Text := ['f', 'e', 'd', ':']

/-- The pseudo-client of a stream on the origin. -/
def fedClientId (peerKey : Text) (sid : Int) : Text := fedPrefix ++ (peerKey ++ ':' :: decimal sid)

theorem colon_not_mem_decimal (n : Int) : ':' ∉ decimal n := by
  intro hc
  rcases mem_decimal hc with h | h <;> revert h <;> decide

/-- The last colon of an id splits it. -/
theorem fedClientId_injective {p p' : Text} {sid sid' : Int} (h : fedClientId p sid = fedClientId p' sid') :
    p = p' ∧ sid = sid' := by
  have happ := List.append_cancel_left h
  have hrev : (decimal sid).reverse ++ ':' :: p.reverse = (decimal sid').reverse ++ ':' :: p'.reverse := by
    have hr := congrArg List.reverse happ
    simpa using hr
  have hcolon : ∀ n : Int, ':' ∉ (decimal n).reverse := by
    intro n
    rw [List.mem_reverse]
    exact colon_not_mem_decimal n
  obtain ⟨hsid, hp⟩ := append_sep_inj (hcolon sid) (hcolon sid') hrev
  exact ⟨List.reverse_injective hp, decimal_injective (List.reverse_injective hsid)⟩

namespace StreamNode

/-! ## The opener -/

/-- `_alloc_local_stream_id`. -/
def allocLocalStreamId (n : StreamNode) (proxy : Text) : StreamId × StreamNode :=
  let sid := n.nextStreamId + 1
  (sid, { n with nextStreamId := sid, opened := n.opened.set sid proxy })

/-- `_ensure_session` up to the send of the OPEN; `none` when the client has a stream. -/
def ensureSession (n : StreamNode) (proxy : Text) (key : String) : Option (StreamId × StreamNode) :=
  if (n.clientSessions.get? (proxy, key)).isSome then none
  else
    let (sid, n) := n.allocLocalStreamId proxy
    some (sid, { n with opening := n.opening ++ [⟨sid, proxy, key⟩] })

/-- The rest of `_ensure_session`. -/
def mapSession (n : StreamNode) (i : Nat) : Option StreamNode :=
  n.opening[i]?.map fun o =>
    { n with
      opening := n.opening.eraseIdx i
      sessionMap := n.sessionMap.set o.sid o.proxy
      clientSessions := n.clientSessions.set (o.proxy, o.key) o.sid }

/-- `close_stream_for_client`. -/
def closeStreamForClient (n : StreamNode) (proxy : Text) (key : String) : Option (StreamId × StreamNode) :=
  (n.clientSessions.get? (proxy, key)).map fun sid =>
    (sid, { n with
      clientSessions := n.clientSessions.pop (proxy, key)
      sessionMap := n.sessionMap.pop sid
      closed := sid :: n.closed })

/-! ## The origin -/

/-- `_stop_local_session`. -/
def stopLocalSession (n : StreamNode) (sid : StreamId) : StreamNode :=
  { n with localSessionMap := n.localSessionMap.pop sid, stopped := sid :: n.stopped }

/-- The session that the slot has for another port is stopped. -/
def stopReused (n : StreamNode) (sid : StreamId) (portName : Text) : StreamNode :=
  match n.localSessionMap.get? sid with
  | some existing => if existing = portName then n else n.stopLocalSession sid
  | none => n

/-- `_rl_handle_open` and the mapping of `_rl_open_session`. -/
def rlHandleOpen (n : StreamNode) (sid : StreamId) (payload : Text) : StreamNode :=
  let n := n.stopReused sid (strip payload)
  { n with localSessionMap := n.localSessionMap.set sid (strip payload) }

/-- `_rl_handle_close`. -/
def rlHandleClose (n : StreamNode) (sid : StreamId) : StreamNode :=
  { n with sessionMap := n.sessionMap.pop sid }.stopLocalSession sid

/-- The loop condition of the pump, and that there is one: a stream to a named port. -/
def Serves (n : StreamNode) (sid : StreamId) : Prop := ∃ port, n.localSessionMap.get? sid = some port ∧ port ≠ []

instance (n : StreamNode) (sid : StreamId) : Decidable (n.Serves sid) :=
  match h : n.localSessionMap.get? sid with
  | none => isFalse (by rintro ⟨port, hp, _⟩; rw [h] at hp; cases hp)
  | some port =>
      decidable_of_iff (port ≠ []) ⟨fun hne => ⟨port, h, hne⟩, by rintro ⟨p, hp, hne⟩; rw [h] at hp; cases hp; exact hne⟩

/-! ## Both -/

/-- `_route_data_frame`. -/
def routeDataFrame (n : StreamNode) (peerKey : Text) (sid : StreamId) (data : List UInt8) : Outcome :=
  match n.sessionMap.get? sid with
  | some proxy => .proxy proxy data
  | none =>
      match n.localSessionMap.get? sid with
      | some port => if port = [] then .dropped else .port port (fedClientId peerKey sid) data
      | none => .dropped

variable {n : StreamNode} {peerKey : Text} {sid : StreamId} {data : List UInt8} {proxy port : Text}

theorem routeDataFrame_proxy (h : n.sessionMap.get? sid = some proxy) :
    n.routeDataFrame peerKey sid data = .proxy proxy data := by
  simp only [routeDataFrame, h]

theorem routeDataFrame_port (h : n.sessionMap.get? sid = none) (hp : n.localSessionMap.get? sid = some port)
    (hne : port ≠ []) : n.routeDataFrame peerKey sid data = .port port (fedClientId peerKey sid) data := by
  simp only [routeDataFrame, h, hp, if_neg hne]

theorem routeDataFrame_dropped (h : n.sessionMap.get? sid = none) (hs : ¬ n.Serves sid) :
    n.routeDataFrame peerKey sid data = .dropped := by
  simp only [routeDataFrame, h]
  split
  · rename_i port hp
    by_cases hne : port = []
    · rw [if_pos hne]
    · exact absurd ⟨port, hp, hne⟩ hs
  · rfl

end StreamNode

end OpenMux.Streams

/-!
## Two nodes that open streams to each other

Frames under way to a node are delivered in any order, or lost. The direction of a DATA frame is what its sender means by
it; the frame on the wire has only the number, and no handler reads the direction.
-/

namespace OpenMux.Streams

open Py

inductive Side
  | a
  | b
deriving DecidableEq, Repr

namespace Side

def other : Side → Side
  | a => b
  | b => a

@[simp] theorem other_other (s : Side) : s.other.other = s := by cases s <;> rfl

@[simp] theorem other_ne (s : Side) : s.other ≠ s := by cases s <;> decide

end Side

/-- `input` is sent by the opener of the stream, `output` by the origin of the port. -/
inductive Direction
  | input
  | output
deriving DecidableEq, Repr

inductive Frame
  | openStream (sid : StreamId) (payload : Text)
  | data (sid : StreamId) (data : List UInt8) (dir : Direction)
  | close (sid : StreamId)
deriving DecidableEq

structure Link where
  node : Side → StreamNode := fun _ => {}
  /-- Frames under way to a node. -/
  wire : Side → List Frame := fun _ => []

/-- The key under which a node has its peer group. -/
structure LinkCfg where
  peerKey : Side → Text

/-- `resendClose` is the CLOSE of `_close_stale_proxy_sessions`. -/
inductive LinkAct
  | ensureSession (s : Side) (proxy : Text) (key : String)
  | mapSession (s : Side) (i : Nat)
  | write (s : Side) (proxy : Text) (key : String) (data : List UInt8)
  | closeStream (s : Side) (proxy : Text) (key : String)
  | resendClose (s : Side) (sid : StreamId)
  | pump (s : Side) (sid : StreamId) (data : List UInt8)
  | deliver (s : Side) (i : Nat)
  | lose (s : Side) (i : Nat)
deriving DecidableEq

namespace Link

def setNode (l : Link) (s : Side) (n : StreamNode) : Link := { l with node := Function.update l.node s n }

/-- Puts a frame on its way from a node to the other one. -/
def send (l : Link) (s : Side) (f : Frame) : Link :=
  { l with wire := Function.update l.wire s.other (l.wire s.other ++ [f]) }

def drop (l : Link) (s : Side) (i : Nat) : Link := { l with wire := Function.update l.wire s ((l.wire s).eraseIdx i) }

/-- The state of the node after a frame. DATA leaves the maps as they are. -/
def handleFrame (n : StreamNode) : Frame → StreamNode
  | .openStream sid payload => n.rlHandleOpen sid payload
  | .data _ _ _ => n
  | .close sid => n.rlHandleClose sid

def step (l : Link) : LinkAct → Option Link
  | .ensureSession s proxy key =>
      ((l.node s).ensureSession proxy key).map fun (sid, n) => (l.setNode s n).send s (.openStream sid proxy)
  | .mapSession s i => ((l.node s).mapSession i).map fun n => l.setNode s n
  | .write s proxy key data =>
      ((l.node s).clientSessions.get? (proxy, key)).map fun sid => l.send s (.data sid data .input)
  | .closeStream s proxy key =>
      ((l.node s).closeStreamForClient proxy key).map fun (sid, n) => (l.setNode s n).send s (.close sid)
  | .resendClose s sid => if sid ∈ (l.node s).closed then some (l.send s (.close sid)) else none
  | .pump s sid data => if (l.node s).Serves sid then some (l.send s (.data sid data .output)) else none
  | .deliver s i => (l.wire s)[i]?.map fun f => (l.drop s i).setNode s (handleFrame (l.node s) f)
  | .lose s i => (l.wire s)[i]?.map fun _ => l.drop s i

variable {l : Link} {s t : Side} {n : StreamNode} {f : Frame} {i : Nat}

@[simp] theorem setNode_self : (l.setNode s n).node s = n := Function.update_self ..
@[simp] theorem setNode_ne (h : t ≠ s) : (l.setNode s n).node t = l.node t := Function.update_of_ne h ..
@[simp] theorem setNode_wire : (l.setNode s n).wire = l.wire := rfl
@[simp] theorem send_node : (l.send s f).node = l.node := rfl
@[simp] theorem drop_node : (l.drop s i).node = l.node := rfl

end Link

end OpenMux.Streams
