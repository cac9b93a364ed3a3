import OpenMux.Lib.Run
import OpenMux.Mpath.Ends

/-!
# One direction of a peer link

The transmit side of one node, the receive side of the other, and any number of connections between them. Frames of a
connection arrive in order; they may be delayed, or lost with the connection. The peer process does not restart, so every
connection record holds one instance id. The last fields of `Link` are history.
-/

namespace OpenMux.Mpath

structure LinkCfg where
  gapStuckSec : Int
  instanceId : Option InstanceId

structure Link where
  tx : Tx := {}
  rx : Rx := {}
  /-- DATA frames under way, for each connection. -/
  wire : ConnId → List DataFrame := fun _ => []
  /-- ACK frames under way. -/
  acks : ConnId → List Nat := fun _ => []
  /-- What `_send_data_mpath` gave a number to, in that order. -/
  sent : List DataFrame := []
  /-- Numbers whose `_send_data_mpath` was cancelled. -/
  cancelled : List Nat := []
  /-- Numbers given out and not acknowledged since. -/
  outstanding : List Nat := []
  /-- Numbers that a read loop took off a connection. -/
  arrived : List Nat := []
  /-- What was handed to `_route_data_frame`. -/
  routed : List DataFrame := []
  /-- Numbers the receiver acknowledged. -/
  acked : List Nat := []
  /-- Numbers that a gap flush dropped. -/
  givenUp : List Nat := []

/-- The steps. `cid` is the choice of `_select_mpath_connection`, `now` a reading of the clock. -/
inductive LinkAct
  | send (cid : Option ConnId) (pl : Payload)
  | sendDone (i : Nat) (now : Int)
  | sendCancel (i : Nat)
  | retxScan (now rto : Int)
  | retxNext (cid : Option ConnId)
  | retxDone
  | recv (c : ConnId) (openedAt now : Int)
  | resume (c : ConnId)
  | cancel (c : ConnId)
  | recvAck (c : ConnId)
  | lose (c : ConnId)
deriving DecidableEq, Repr

namespace Link

/-- Writes a frame to a connection. -/
def write (l : Link) : Option (ConnId × DataFrame) → Link
  | none => l
  | some (c, f) => { l with wire := Function.update l.wire c (l.wire c ++ [f]) }

/-- Takes over what a handler on connection `c` did. -/
def absorb (l : Link) (c : ConnId) (o : RxOut) : Link :=
  { l with
    rx := o.rx
    routed := l.routed ++ o.routed.toList
    acks := Function.update l.acks c (l.acks c ++ o.ack.toList)
    acked := l.acked ++ o.ack.toList
    givenUp := l.givenUp ++ o.givenUp }

def step (cfg : LinkCfg) (l : Link) : LinkAct → Option Link
  | .send cid pl =>
      let (out, tx) := l.tx.sendDataMpath cid pl
      let frames := out.toList.map Prod.snd
      some ({ l with
        tx := tx
        sent := l.sent ++ frames
        outstanding := l.outstanding ++ frames.map DataFrame.seq }.write out)
  | .sendDone i now => (l.tx.sendDone i now).map fun tx => { l with tx := tx }
  | .sendCancel i => (l.tx.sendCancel i).map fun tx =>
      { l with tx := tx, cancelled := l.cancelled ++ (l.tx.pending[i]?).toList.map (·.frame.seq) }
  | .retxScan now rto => (l.tx.retxScan now rto).map fun tx => { l with tx := tx }
  | .retxNext cid => (l.tx.retxNext cid).map fun (out, tx) => { l with tx := tx }.write out
  | .retxDone => l.tx.retxDone.map fun tx => { l with tx := tx }
  | .recv c openedAt now =>
      match l.wire c, l.rx.handlers.get? c with
      | f :: rest, none => some ({ l with
          wire := Function.update l.wire c rest
          arrived := l.arrived ++ [f.seq] }.absorb c (l.rx.handleInboundData cfg.gapStuckSec ⟨cfg.instanceId, openedAt⟩ c f now))
      | _, _ => none
  | .resume c => (l.rx.resume c).map (l.absorb c)
  | .cancel c => (l.rx.cancel c).map fun rx => { l with rx := rx }
  | .recvAck c =>
      match l.acks c with
      | [] => none
      | n :: rest => some { l with
          tx := l.tx.handleAck n
          acks := Function.update l.acks c rest
          outstanding := l.outstanding.filter (· ≠ n) }
  | .lose c => some { l with
      wire := Function.update l.wire c []
      acks := Function.update l.acks c [] }

/-- The sends that did not end in a cancellation, in the order of their numbers. -/
def succeeded (l : Link) : List DataFrame := l.sent.filter (fun f => f.seq ∉ l.cancelled)

end Link

end OpenMux.Mpath
