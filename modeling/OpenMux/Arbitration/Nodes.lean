import OpenMux.Lib.Dict
import OpenMux.Origin.Sessions

/-!
# The requesting node

A remote port proxy with its clients, the stream of each, and the coroutines that wait in `_request_fedrw` for a FEDRWACK.
A future is known by its stream and an id. Streams without a client are left out.
-/

namespace OpenMux.Arbitration

open Py Federation Origin Streams

/-- Frames from the requesting node to the origin. -/
inductive Frame
  | openStream (sid : StreamId)
  | fedrw (sid : StreamId) (action : FedrwAction)
deriving DecidableEq

/-- A FEDRWACK, reply or notice alike. -/
structure Ack where
  sid : StreamId
  mode : Mode
deriving DecidableEq

/-- What a coroutine waits with: `_attach_client_to_port`, `promote_client_to_read_write`, the TAKE of
`_take_write_slot_federated`, or the RELEASE of `demote_client_to_read_only`. -/
inductive Stage
  | attach
  | promote
  | take
  | release
deriving DecidableEq

inductive Fut
  | pending
  | done (mode : Mode)
  | cancelled
deriving DecidableEq

/-- A suspended `_request_fedrw` with its caller. -/
structure Request where
  id : Nat
  clientId : Text
  sid : StreamId
  stage : Stage
  fut : Fut := .pending
deriving DecidableEq

structure Requester where
  proxy : Port := { adapterType := "remote_muxcon".toList }
  clientSessions : Dict Text StreamId := ∅
  /-- `_peer_next_stream_id`. -/
  nextStreamId : StreamId := 0
  /-- The future that waits for the next FEDRWACK of a stream. -/
  fedrwPending : Dict StreamId Nat := ∅
  requests : List Request := []
  nextRequest : Nat := 0

/-- The request with this stream and id. -/
def Request.Is (r : Request) (sid : StreamId) (id : Nat) : Prop := r.sid = sid ∧ r.id = id

instance (r : Request) (sid : StreamId) (id : Nat) : Decidable (r.Is sid id) := inferInstanceAs (Decidable (_ ∧ _))

namespace Requester

def setFut (n : Requester) (sid : StreamId) (id : Nat) (fut : Fut) : Requester :=
  { n with requests := n.requests.map fun r => if r.Is sid id then { r with fut := fut } else r }

/-- `_request_fedrw` up to the wait. -/
def requestFedrw (n : Requester) (clientId : Text) (sid : StreamId) (stage : Stage) (action : FedrwAction) :
    Requester × List Frame :=
  ({ n with
      requests := n.requests ++ [⟨n.nextRequest, clientId, sid, stage, .pending⟩]
      fedrwPending := n.fedrwPending.set sid n.nextRequest
      nextRequest := n.nextRequest + 1 },
    [.fedrw sid action])

/-- The same for a client that has a stream. -/
def requestFor (n : Requester) (clientId : Text) (stage : Stage) (action : FedrwAction) : Requester × List Frame :=
  match n.clientSessions.get? clientId with
  | some sid => n.requestFedrw clientId sid stage action
  | none => (n, [])

/-- `connect_client_to_port`: read-only, with a new stream, and a request when the user is entitled to the slot. -/
def connectClient (n : Requester) (clientId : Text) (username : String) (now : Nat) (entitled : Bool) :
    Requester × List Frame :=
  let sid := n.nextStreamId + 1
  let n := { n with
    proxy := n.proxy.addClient ⟨clientId, username, .readOnly, now⟩
    clientSessions := n.clientSessions.set clientId sid
    nextStreamId := sid }
  if entitled then
    let (n, frames) := n.requestFedrw clientId sid .attach .request
    (n, .openStream sid :: frames)
  else (n, [.openStream sid])

/-- `promote_client_to_read_write` of a client that may drive the port. -/
def promote (n : Requester) (clientId : Text) : Requester × List Frame := n.requestFor clientId .promote .request

/-- `demote_client_to_read_only`. -/
def demote (n : Requester) (clientId : Text) : Requester × List Frame :=
  { n with proxy := n.proxy.demoteClient clientId }.requestFor clientId .release .release

/-- The spec that `take_write_slot_for_client` puts on the wire. -/
def takeSpec (n : Requester) : Option Text → TakeSpec
  | none => .latest
  | some target =>
      if !n.proxy.connectedClients.any (·.clientId = target) then .latest
      else if fedPrefix <+: target then .fed target
      else match n.clientSessions.get? target with
        | some sid => .own (decimal sid)
        | none => .latest

/-- `take_write_slot` of a client that may drive the port. -/
def take (n : Requester) (clientId : Text) (target : Option Text) : Requester × List Frame :=
  n.requestFor clientId .take (.take (n.takeSpec target))

/-- The reply is late: `wait_for` cancels the future. -/
def expire (n : Requester) (sid : StreamId) (id : Nat) : Requester := n.setFut sid id .cancelled

/-- A coroutine goes on after its wait. The grant of a TAKE is followed by a REQUEST if the client still may drive. -/
def resume (n : Requester) (r : Request) (mayDrive : Bool) : Requester × List Frame :=
  let n := { n with
    requests := n.requests.filter fun q => ¬ q.Is r.sid r.id
    fedrwPending := n.fedrwPending.pop r.sid }
  if r.fut ≠ .done .readWrite then (n, [])
  else match r.stage with
    | .attach => ({ n with proxy := (n.proxy.promoteClient r.clientId).1 }, [])
    | .promote =>
        let (p, success) := n.proxy.promoteClient r.clientId
        ({ n with proxy := if success then (p.promoteClient r.clientId).1 else p }, [])
    | .take => if mayDrive then n.requestFor r.clientId .promote .request else (n, [])
    | .release => (n, [])

/-- The client whose stream this is. -/
def localClient (n : Requester) (sid : StreamId) : Option Text :=
  (n.clientSessions.entries.find? (·.2 = sid)).map (·.1)

/-- `_notify_local_client_of_federated_demotion`. -/
def notifyLocalClient (n : Requester) (sid : StreamId) : Requester :=
  match n.localClient sid with
  | some clientId => { n with proxy := n.proxy.demoteClient clientId }
  | none => n

/-- The future of `_fedrw_pending`, unless it is done. -/
def awaited (n : Requester) (sid : StreamId) : Option Nat :=
  (n.fedrwPending.get? sid).filter fun id => n.requests.any fun r => r.Is sid id ∧ r.fut = .pending

/-- `_handle_fedrw_ack`. -/
def handleFedrwAck (n : Requester) (a : Ack) : Requester :=
  let n' := { n with fedrwPending := n.fedrwPending.pop a.sid }
  match n.awaited a.sid with
  | some id => n'.setFut a.sid id (.done a.mode)
  | none => if a.mode = .readOnly then n'.notifyLocalClient a.sid else n'

end Requester

end OpenMux.Arbitration

/-!
## The origin

The port with its clients, and the handlers of the frames of one requesting node. A TAKE is suspended between the demotion
of its victim and the promotion of its taker, and so are the takes of other clients. The requesting node's own clients
appear as their mirrors.
-/

namespace OpenMux.Arbitration

open Py Federation Origin Streams

/-- Who runs a take other than one for the requesting node: a client of the origin itself, with what `_take_slot_local` has
left to do, or another peer. -/
inductive Taker
  | localClient (promoted : Bool)
  | peer
deriving DecidableEq

/-- A take that has demoted its victim. -/
structure Transfer where
  kind : Taker
  taker : Text
  victim : Text
deriving DecidableEq

structure Arbiter where
  port : Port
  /-- Streams of the requesting node in `_local_session_map`. -/
  opened : List StreamId := []
  /-- The clients of the port in `client_port_map`. -/
  clientPortMap : List Text := []
  /-- The taker's stream and the victim of a suspended `_handle_fedrw_take`. -/
  arbitrating : Option (StreamId × Text) := none
  transfers : List Transfer := []

namespace Arbiter

variable (peerKey : Text)

/-- The pseudo-client of a stream of the requesting node. -/
def mirror (sid : StreamId) : Text := fedClientId peerKey (sid : Int)

def updatePort (n : Arbiter) (f : Port → Port) : Arbiter := { n with port := f n.port }

/-- `_connected_client_mode`. -/
def connectedClientMode (n : Arbiter) (clientId : Text) : Mode :=
  match n.port.connectedClients.find? (·.clientId = clientId) with
  | some c => c.mode
  | none => .readOnly

/-- The FEDRWACK that replies to a request of the stream. -/
def reply (n : Arbiter) (sid : StreamId) : List Ack := [⟨sid, n.connectedClientMode (mirror peerKey sid)⟩]

/-- `send_control_frame_to_client` of a demotion: a FEDRWACK if the client is the mirror of an open stream. -/
def demotionNotice (n : Arbiter) (clientId : Text) : List Ack :=
  match n.opened.find? fun sid => mirror peerKey sid = clientId with
  | some sid => [⟨sid, .readOnly⟩]
  | none => []

/-- `_rl_open_session`. -/
def openSession (n : Arbiter) (sid : StreamId) (now : Nat) : Arbiter :=
  { n with
    opened := if sid ∈ n.opened then n.opened else n.opened ++ [sid]
    port := n.port.addClient ⟨mirror peerKey sid, OriginNode.fedUsername peerKey, .readOnly, now⟩
    clientPortMap := mirror peerKey sid :: n.clientPortMap }

/-- A victim that is a client of the origin itself is demoted through the console manager, which must know it. -/
def demoteVictim (n : Arbiter) (victim : Text) : Arbiter :=
  if fedPrefix <+: victim ∨ victim ∈ n.clientPortMap then n.updatePort (·.demoteClient victim) else n

/-- `_handle_fedrw_take` up to the promotion of the taker. -/
def handleFedrwTake (n : Arbiter) (sid : StreamId) (spec : TakeSpec) : Arbiter × List Ack :=
  match resolveFedrwTakeTarget n.port (peerKey, (sid : Int)) spec with
  | none =>
      let n := if spec = .latest then n.updatePort fun p => (p.promoteClient (mirror peerKey sid)).1 else n
      (n, n.reply peerKey sid)
  | some victim =>
      ({ n.demoteVictim victim.clientId with arbitrating := some (sid, victim.clientId) },
        n.demotionNotice peerKey victim.clientId)

/-- `_handle_fedrw_request`. A stream that is not open gets no reply. -/
def handleFedrwRequest (n : Arbiter) (sid : StreamId) (action : FedrwAction) : Arbiter × List Ack :=
  if sid ∉ n.opened then (n, [])
  else match action with
    | .request =>
        let n := n.updatePort fun p => (p.promoteClient (mirror peerKey sid)).1
        (n, n.reply peerKey sid)
    | .release =>
        let n := n.updatePort (·.demoteClient (mirror peerKey sid))
        (n, n.reply peerKey sid)
    | .take spec => n.handleFedrwTake peerKey sid spec
    | .force => n.handleFedrwTake peerKey sid .latest
    | .unknown => (n, [])

/-- A frame of the requesting node. -/
def handleFrame (n : Arbiter) (now : Nat) : Frame → Arbiter × List Ack
  | .openStream sid => (n.openSession peerKey sid now, [])
  | .fedrw sid action => n.handleFedrwRequest peerKey sid action

/-- The port after a take: the taker is promoted, or else the victim. -/
def settle (p : Port) (taker victim : Text) : Port :=
  let (p', promoted) := p.promoteClient taker
  if promoted then p' else (p'.promoteClient victim).1

/-- The rest of `_handle_fedrw_take`, and the reply. -/
def endArbitration (n : Arbiter) (sid : StreamId) (victim : Text) : Arbiter × List Ack :=
  let n := { n.updatePort fun p => settle p (mirror peerKey sid) victim with arbitrating := none }
  (n, n.reply peerKey sid)

/-! ## Takes of others -/

/-- `_take_slot_local` of a client of the origin up to the promotion. -/
def localTake (n : Arbiter) (taker victim : Text) : Arbiter :=
  { n.updatePort (·.demoteClient victim) with transfers := n.transfers ++ [⟨.localClient false, taker, victim⟩] }

/-- `_handle_fedrw_take` of another peer up to the promotion. -/
def peerTake (n : Arbiter) (slot : Slot) (spec : TakeSpec) : Arbiter × List Ack :=
  match resolveFedrwTakeTarget n.port slot spec with
  | none =>
      (if spec = .latest then n.updatePort fun p => (p.promoteClient (fedClientId slot.1 slot.2)).1 else n, [])
  | some victim =>
      ({ n.demoteVictim victim.clientId with
          transfers := n.transfers ++ [⟨.peer, fedClientId slot.1 slot.2, victim.clientId⟩] },
        n.demotionNotice peerKey victim.clientId)

/-- The taker of a suspended take is promoted or the victim restored. A client of the origin must still be entitled. -/
def transferStep (n : Arbiter) (i : Nat) (t : Transfer) (mayDrive : Bool) : Arbiter :=
  match t.kind with
  | .peer => { n.updatePort fun p => settle p t.taker t.victim with transfers := n.transfers.eraseIdx i }
  | .localClient _ =>
      if mayDrive ∧ (n.port.promoteClient t.taker).2 then
        { n.updatePort fun p => (p.promoteClient t.taker).1 with
          transfers := n.transfers.set i { t with kind := .localClient true } }
      else
        { n.updatePort fun p => (p.promoteClient t.victim).1 with transfers := n.transfers.eraseIdx i }

/-- The notice at the end of `_take_slot_local`. -/
def transferNotice (n : Arbiter) (i : Nat) (t : Transfer) : Arbiter × List Ack :=
  ({ n with transfers := n.transfers.eraseIdx i }, n.demotionNotice peerKey t.victim)

end Arbiter

end OpenMux.Arbitration
