import OpenMux.Arbitration.Nodes
import OpenMux.Lib.Run

/-!
# One requesting node and one origin

The two nodes with the frames in flight between them, in order. A step runs a coroutine to its next suspension, delivers a
frame, or changes the port of the origin from elsewhere.
-/

namespace OpenMux.Arbitration

open Py Federation Origin Streams

structure Link where
  requester : Requester
  arbiter : Arbiter
  toOrigin : List Frame := []
  toRequester : List Ack := []

/-- What changes the port of the origin apart from takes: its own clients and the mirrors of other peers. -/
inductive PortOp
  | addClient (client : Client) (registered : Bool)
  | removeClient (clientId : Text)
  | promoteClient (clientId : Text)
  | demoteClient (clientId : Text)
  | setCapacity (mode : WriteMode)
deriving DecidableEq

/-- `mayDrive` is the ladder's answer at that point; `reopen` sends the OPEN of an open stream again. -/
inductive Act
  | connect (clientId : Text) (username : String) (now : Nat) (entitled : Bool)
  | promote (clientId : Text)
  | demote (clientId : Text)
  | take (clientId : Text) (target : Option Text)
  | reopen (clientId : Text)
  | expire (sid : StreamId) (id : Nat)
  | resume (sid : StreamId) (id : Nat) (mayDrive : Bool)
  | setProxyCapacity (mode : WriteMode)
  | readAck
  | readFrame (now : Nat)
  | endArbitration
  | localTake (taker victim : Text)
  | peerTake (slot : Slot) (spec : TakeSpec)
  | transferStep (i : Nat) (mayDrive : Bool)
  | transferNotice (i : Nat)
  | port (op : PortOp)
deriving DecidableEq

/-- The client whose record an operation changes. -/
def PortOp.clientId : PortOp → Option Text
  | .addClient c _ => some c.clientId
  | .removeClient id | .promoteClient id | .demoteClient id => some id
  | .setCapacity _ => none

namespace Arbiter

def apply (n : Arbiter) : PortOp → Arbiter
  | .addClient c registered =>
      { n.updatePort (·.addClient c) with
        clientPortMap := if registered then c.clientId :: n.clientPortMap else n.clientPortMap }
  | .removeClient id => { n.updatePort (·.removeClient id) with clientPortMap := n.clientPortMap.filter (· ≠ id) }
  | .promoteClient id => n.updatePort fun p => (p.promoteClient id).1
  | .demoteClient id => n.updatePort (·.demoteClient id)
  | .setCapacity mode => n.updatePort ({ · with maxReadWriteUsers := mode })

end Arbiter

/-- The id of a mirror of the peer: `fed:` and the peer key before the last colon. -/
def OfPeer (peerKey id : Text) : Prop :=
  fedPrefix ++ (peerKey ++ [':']) <+: id ∧ ':' ∉ id.drop (fedPrefix ++ (peerKey ++ [':'])).length

instance (peerKey id : Text) : Decidable (OfPeer peerKey id) := inferInstanceAs (Decidable (_ ∧ _))

namespace Link

variable (peerKey : Text)

/-- The requesting node takes a step that may send frames. -/
def sends (s : Link) (r : Requester × List Frame) : Link :=
  { s with requester := r.1, toOrigin := s.toOrigin ++ r.2 }

/-- The origin takes a step that may send acks. -/
def acks (s : Link) (r : Arbiter × List Ack) : Link := { s with arbiter := r.1, toRequester := s.toRequester ++ r.2 }

/-- A take by a client of the origin: `_take_write_slot_local` with a holder that it found. -/
def localTake (s : Link) (taker victim : Text) : Option Link :=
  if s.arbiter.port.maxReadWriteUsers = .one ∧ ¬ fedPrefix <+: taker ∧ taker ≠ victim ∧
      s.arbiter.port.isReadWrite victim ∧ victim ∈ s.arbiter.clientPortMap then
    some { s with arbiter := s.arbiter.localTake taker victim }
  else none

def step (s : Link) : Act → Option Link
  | .connect clientId username now entitled =>
      if (s.requester.clientSessions.get? clientId).isSome then none
      else some (s.sends (s.requester.connectClient clientId username now entitled))
  | .promote clientId =>
      (s.requester.clientSessions.get? clientId).map fun _ => s.sends (s.requester.promote clientId)
  | .demote clientId =>
      (s.requester.clientSessions.get? clientId).map fun _ => s.sends (s.requester.demote clientId)
  | .take clientId target =>
      (s.requester.clientSessions.get? clientId).map fun _ => s.sends (s.requester.take clientId target)
  | .reopen clientId =>
      (s.requester.clientSessions.get? clientId).map fun sid => { s with toOrigin := s.toOrigin ++ [.openStream sid] }
  | .expire sid id =>
      if s.requester.requests.any fun r => r.Is sid id ∧ r.fut = .pending then
        some { s with requester := s.requester.expire sid id }
      else none
  | .resume sid id mayDrive =>
      (s.requester.requests.find? fun r => r.Is sid id ∧ r.fut ≠ .pending).map fun r =>
        s.sends (s.requester.resume r mayDrive)
  | .setProxyCapacity mode =>
      some { s with requester := { s.requester with proxy := { s.requester.proxy with maxReadWriteUsers := mode } } }
  | .readAck => match s.toRequester with
      | a :: rest => some { s with requester := s.requester.handleFedrwAck a, toRequester := rest }
      | [] => none
  | .readFrame now => match s.arbiter.arbitrating, s.toOrigin with
      | none, f :: rest => some ({ s with toOrigin := rest }.acks (s.arbiter.handleFrame peerKey now f))
      | _, _ => none
  | .endArbitration => s.arbiter.arbitrating.map fun (sid, victim) => s.acks (s.arbiter.endArbitration peerKey sid victim)
  | .localTake taker victim => s.localTake taker victim
  | .peerTake slot spec =>
      if slot.1 = peerKey then none else some (s.acks (s.arbiter.peerTake peerKey slot spec))
  | .transferStep i mayDrive => match s.arbiter.transfers[i]? with
      | some t => if t.kind = .localClient true then none
          else some { s with arbiter := s.arbiter.transferStep i t mayDrive }
      | none => none
  | .transferNotice i => match s.arbiter.transfers[i]? with
      | some t => if t.kind = .localClient true then some (s.acks (s.arbiter.transferNotice peerKey i t)) else none
      | none => none
  | .port op =>
      if op.clientId.any (decide <| OfPeer peerKey ·) then none else some { s with arbiter := s.arbiter.apply op }

/-- Nothing is in flight, and no coroutine is suspended. -/
structure Quiescent (s : Link) : Prop where
  toOrigin : s.toOrigin = []
  toRequester : s.toRequester = []
  requests : s.requester.requests = []
  arbitrating : s.arbiter.arbitrating = none
  transfers : s.arbiter.transfers = []

/-- Every client's record on the proxy is read-write exactly when its mirror on the origin is. -/
def Agrees (s : Link) : Prop :=
  ∀ clientId sid, s.requester.clientSessions.get? clientId = some sid →
    (s.requester.proxy.clientHasWrite clientId ↔ s.arbiter.port.clientHasWrite (Arbiter.mirror peerKey sid))

end Link

end OpenMux.Arbitration
