import OpenMux.Lib.Run
import OpenMux.Origin.Sessions

/-!
# The re-grant after an outage

The proxy of a port and the port at its origin, over a single path. The read loop of the proxy's node handles one frame at a
time and reads no other while a handler awaits. Sends take no time. The clients of the proxy stay attached, their modes may
be changed by others. What the read loop has not read is the byte stream of the connection.
-/

namespace OpenMux.Remote

open Py Origin

inductive OriginFrame
  /-- The advertisement with the port. -/
  | portsFederated
  | fedrwAck (sid : ℕ) (mode : Mode)
  /-- A frame that concerns neither sessions nor modes. -/
  | other
deriving DecidableEq

inductive ProxyFrame
  | streamOpen (sid : ℕ)
  | streamClose (sid : ℕ)
  | fedrwRequest (sid : ℕ)
deriving DecidableEq

/-- An entry of `connected_clients` of the proxy. -/
structure Viewer where
  clientId : Text
  mode : Mode
deriving DecidableEq

/-- A `_request_fedrw` that awaits its future, with the clients that `_regrant_proxy_read_write` comes to next. -/
structure Waiting where
  clientId : Text
  sid : ℕ
  left : List Text
deriving DecidableEq

/-- What `request_read_write_for_client` has returned, and the mode in the FEDRWACK that was in the byte stream then. -/
structure Outcome where
  clientId : Text
  returned : Mode
  carried : Option Mode
deriving DecidableEq

structure Pair where
  /-- The key of the proxy's node at the origin. -/
  peerKey : Text
  connectedClients : List Viewer
  clientSessions : Dict Text ℕ := ∅
  staleSessions : Dict Text ℕ := ∅
  nextStreamId : ℕ := 0
  inbox : List OriginFrame := []
  /-- Where the handler that the read loop is in awaits. -/
  handler : Option Waiting := none
  /-- The keys of `_fedrw_pending`. -/
  fedrwPending : List ℕ := []
  /-- The futures that have got their result. -/
  results : Dict ℕ Mode := ∅
  outbox : List ProxyFrame := []
  /-- `_local_session_map` of the origin, the streams that are mapped to the port. -/
  originSessions : List ℕ := []
  originPort : Port
  outcomes : List Outcome := []
deriving DecidableEq

namespace Pair

variable (n : Pair)

/-! ## The proxy -/

def modeOf (clientId : Text) : Mode := ((n.connectedClients.find? (·.clientId = clientId)).map (·.mode)).getD .readOnly

def setMode (clientId : Text) (mode : Mode) : Pair :=
  { n with connectedClients := n.connectedClients.map fun c => if c.clientId = clientId then { c with mode := mode } else c }

/-- `_ensure_session`. -/
def ensureSession (clientId : Text) : Pair × ℕ :=
  match n.clientSessions.get? clientId with
  | some sid => (n, sid)
  | none =>
      let sid := n.nextStreamId + 1
      ({ n with
          nextStreamId := sid
          clientSessions := n.clientSessions.set clientId sid
          outbox := n.outbox ++ [.streamOpen sid] }, sid)

/-- `_rp_close_streams_and_stale`. -/
def closeStreamsAndStale : Pair :=
  { n with
    outbox := n.outbox ++ (n.clientSessions.entries ++ n.staleSessions.entries).map fun e => .streamClose e.2
    clientSessions := ∅
    staleSessions := ∅ }

/-- `_rp_reopen_streams`. -/
def reopenStreams : Pair := n.connectedClients.foldl (fun n c => (n.ensureSession c.clientId).1) n

/-- `_regrant_proxy_read_write`, up to the next request. -/
def regrant : Pair → List Text → Pair
  | n, [] => { n with handler := none }
  | n, clientId :: left =>
      if n.modeOf clientId = .readWrite then
        let (n, sid) := n.ensureSession clientId
        { n with
          fedrwPending := sid :: n.fedrwPending
          outbox := n.outbox ++ [.fedrwRequest sid]
          handler := some ⟨clientId, sid, left⟩ }
      else regrant n left

/-- `_handle_ports_federated`, of an advertisement with the port. -/
def handlePortsFederated : Pair :=
  let n := n.closeStreamsAndStale.reopenStreams
  n.regrant (n.connectedClients.map (·.clientId))

/-- The mode in the first FEDRWACK for the stream that is in the byte stream. -/
def ackOf (sid : ℕ) : Option Mode :=
  n.inbox.findSome? fun
    | .fedrwAck s mode => if s = sid then some mode else none
    | _ => none

/-- `_request_fedrw` returns, and `_regrant_proxy_read_write` goes on. -/
def returned (w : Waiting) (mode : Mode) (carried : Option Mode) : Pair :=
  let n := { n with
    fedrwPending := n.fedrwPending.filter (· ≠ w.sid)
    results := n.results.pop w.sid
    outcomes := ⟨w.clientId, mode, carried⟩ :: n.outcomes }
  let n := if mode = .readWrite then n else n.setMode w.clientId .readOnly
  n.regrant w.left

/-- `_notify_local_client_of_federated_demotion`. -/
def notifyDemotion (sid : ℕ) : Pair :=
  match n.clientSessions.entries.find? (·.2 = sid) with
  | some e => n.setMode e.1 .readOnly
  | none => n

/-- `_handle_fedrw_ack`. -/
def handleFedrwAck (sid : ℕ) (mode : Mode) : Pair :=
  if sid ∈ n.fedrwPending then
    { n with fedrwPending := n.fedrwPending.filter (· ≠ sid), results := n.results.set sid mode }
  else if mode = .readOnly then n.notifyDemotion sid
  else n

def dispatch : OriginFrame → Pair
  | .portsFederated => n.handlePortsFederated
  | .fedrwAck sid mode => n.handleFedrwAck sid mode
  | .other => n

/-- `_read_loop`, to its next frame. -/
def readLoop : Option Pair :=
  match n.handler, n.inbox with
  | none, frame :: frames => some ({ n with inbox := frames }.dispatch frame)
  | _, _ => none

/-- The future of the request has got its result. -/
def wake : Option Pair :=
  n.handler.bind fun w => (n.results.get? w.sid).map fun mode => n.returned w mode (some mode)

/-- `wait_for` gives up on a future that has no result. -/
def timeout : Option Pair :=
  n.handler.bind fun w => if n.results.get? w.sid = none then some (n.returned w .readOnly (n.ackOf w.sid)) else none

/-! ## The origin -/

def mirror (sid : ℕ) : Text := Streams.fedClientId n.peerKey sid

/-- What the origin does with a frame, at a time. -/
def originDispatch (now : ℕ) : ProxyFrame → Pair
  | .streamOpen sid =>
      { n with
        originSessions := if sid ∈ n.originSessions then n.originSessions else sid :: n.originSessions
        originPort := n.originPort.addClient ⟨n.mirror sid, OriginNode.fedUsername n.peerKey, .readOnly, now⟩ }
  | .streamClose sid =>
      if sid ∈ n.originSessions then
        { n with originSessions := n.originSessions.erase sid, originPort := n.originPort.removeClient (n.mirror sid) }
      else n
  | .fedrwRequest sid =>
      if sid ∈ n.originSessions then
        let port := (n.originPort.promoteClient (n.mirror sid)).1
        let mode := if port.clientHasWrite (n.mirror sid) then Mode.readWrite else .readOnly
        { n with originPort := port, inbox := n.inbox ++ [.fedrwAck sid mode] }
      else n

def originReads (now : ℕ) : Option Pair :=
  match n.outbox with
  | [] => none
  | frame :: frames => some ({ n with outbox := frames }.originDispatch now frame)

end Pair

inductive PairAct
  /-- The origin sends something that answers nothing. -/
  | originSends (frame : OriginFrame)
  | originReads (now : ℕ)
  /-- What else happens to the port at the origin. -/
  | originChanges (port : Port)
  | readLoop
  | wake
  | timeout
  | setMode (clientId : Text) (mode : Mode)

namespace Pair

def step (n : Pair) : PairAct → Option Pair
  | .originSends frame => some { n with inbox := n.inbox ++ [frame] }
  | .originReads now => n.originReads now
  | .originChanges port => some { n with originPort := port }
  | .readLoop => n.readLoop
  | .wake => n.wake
  | .timeout => n.timeout
  | .setMode clientId mode => some (n.setMode clientId mode)

/-- The read loop waits for a frame, and no request is under way. -/
def Idle (n : Pair) : Prop := n.handler = none ∧ n.fedrwPending = [] ∧ n.results = ∅ ∧ n.outcomes = []

/-- Every request whose FEDRWACK was in the byte stream in time returned its mode. -/
def Honored (n : Pair) : Prop := ∀ o ∈ n.outcomes, ∀ mode, o.carried = some mode → o.returned = mode

/-- A FEDRWACK that is in the byte stream when its request gives up is a refusal. -/
def Refused (n : Pair) : PairAct → Prop
  | .timeout => ∀ w, n.handler = some w → ∀ mode, n.ackOf w.sid = some mode → mode = .readOnly
  | _ => True

end Pair

end OpenMux.Remote
