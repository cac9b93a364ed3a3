import Mathlib
import OpenMux.Lib.Dict

/-!
# The transmit side of one peer

The peer-level DATA numbers (`_peer_tx_seq`), the send buffer (`_peer_sendbuf`) and the sends that wait for their
awaited write. A send is three steps of the source: the number is allocated and the frame written, the write is awaited,
and the frame is entered in the send buffer. `_retx_scan_peer` works on a snapshot of the send buffer and enters a frame
again after its own awaited write.
-/

namespace OpenMux.Mpath

/-- A connection id. The source's strings are only compared here. -/
abbrev ConnId := Nat

/-- A process instance id (`instance_id`), compared only. -/
abbrev InstanceId := Nat

abbrev Bytes := List UInt8

/-- What a DATA frame carries. `gen` is history: the peer generation that the number was given out for. No function of
the source reads it. -/
structure Payload where
  streamId : Int
  data : Bytes
  gen : Nat := 0
deriving DecidableEq, Repr

structure DataFrame where
  seq : Nat
  payload : Payload
deriving DecidableEq, Repr

/-- An entry of `_peer_sendbuf[peer_key]`, under its number. -/
structure SendEntry where
  connId : ConnId
  payload : Payload
  ts : Int
deriving DecidableEq, Repr

/-- A `_send_data_mpath` that waits for its write. -/
structure Pending where
  connId : ConnId
  frame : DataFrame
deriving DecidableEq, Repr

/-- A `_retx_scan_peer` under way: the rest of `list(buf.items())`, the dict object `buf` it enters frames in, and the
resend it waits for. -/
structure Scan where
  todo : List (Nat × SendEntry)
  buf : Nat
  now : Int
  rto : Int
  waiting : Option Pending := none
deriving DecidableEq, Repr

/-- The transmit state. `sendbufId` names the dict object that `_peer_sendbuf[peer_key]` is. -/
structure Tx where
  txSeq : Nat := 1
  sendbuf : Dict Nat SendEntry := ∅
  sendbufId : Nat := 0
  pending : List Pending := []
  scan : Option Scan := none
deriving DecidableEq

namespace Tx

/-- The counter value at which `_next_peer_seq` starts over at 1. -/
def seqLimit : Nat := 2 ^ 63

/-- `_next_peer_seq`. -/
def nextPeerSeq (t : Tx) : Nat × Tx :=
  (t.txSeq, { t with txSeq := if seqLimit ≤ t.txSeq + 1 then 1 else t.txSeq + 1 })

/-- `_send_data_mpath` up to its awaited write. `cid` is what `_select_mpath_connection` returned. -/
def sendDataMpath (t : Tx) (cid : Option ConnId) (pl : Payload) : Option (ConnId × DataFrame) × Tx :=
  match cid with
  | none => (none, t)
  | some c =>
      let (seq, t) := t.nextPeerSeq
      let frame : DataFrame := ⟨seq, pl⟩
      (some (c, frame), { t with pending := t.pending ++ [⟨c, frame⟩] })

/-- The rest of `_send_data_mpath` after the write: the frame is entered in the send buffer and the call returns True. A
failed write ends here too, since `_send_protocol_frame` swallows the error. -/
def sendDone (t : Tx) (i : Nat) (now : Int) : Option Tx :=
  (t.pending[i]?).map fun p =>
    { t with
      pending := t.pending.eraseIdx i
      sendbuf := t.sendbuf.set p.frame.seq ⟨p.connId, p.frame.payload, now⟩ }

/-- The task is cancelled in the awaited write: `CancelledError` is not an `Exception`, so nothing is entered. -/
def sendCancel (t : Tx) (i : Nat) : Option Tx :=
  (t.pending[i]?).map fun _ => { t with pending := t.pending.eraseIdx i }

/-- `_rl_handle_ack`. -/
def handleAck (t : Tx) (acked : Nat) : Tx := { t with sendbuf := t.sendbuf.pop acked }

/-- `_retx_scan_peer` takes its snapshot. -/
def retxScan (t : Tx) (now rto : Int) : Option Tx :=
  match t.scan with
  | some _ => none
  | none => some { t with scan := some ⟨t.sendbuf.entries, t.sendbufId, now, rto, none⟩ }

/-- One turn of the loop of `_retx_scan_peer`: a young entry, or one with no path, is passed over; an old one is
written again with its number. -/
def retxNext (t : Tx) (cid : Option ConnId) : Option (Option (ConnId × DataFrame) × Tx) :=
  match t.scan with
  | none => none
  | some sc =>
      match sc.waiting, sc.todo with
      | some _, _ => none
      | none, [] => some (none, { t with scan := none })
      | none, (seq, e) :: rest =>
          if sc.now - e.ts < sc.rto then some (none, { t with scan := some { sc with todo := rest } })
          else match cid with
            | none => some (none, { t with scan := some { sc with todo := rest } })
            | some c =>
                let frame : DataFrame := ⟨seq, e.payload⟩
                some (some (c, frame), { t with scan := some { sc with todo := rest, waiting := some ⟨c, frame⟩ } })

/-- The resend was written: `buf[seq] = (cid, stream_id, data, now)`, in the dict object the scan began with. -/
def retxDone (t : Tx) : Option Tx :=
  match t.scan with
  | none => none
  | some sc =>
      match sc.waiting with
      | none => none
      | some p =>
          let t := { t with scan := some { sc with waiting := none } }
          if sc.buf = t.sendbufId then
            some { t with sendbuf := t.sendbuf.set p.frame.seq ⟨p.connId, p.frame.payload, sc.now⟩ }
          else some t

/-- The transmit part of a peer generation change: the counter starts over and the send buffer is dropped. -/
def reset (t : Tx) : Tx := { t with txSeq := 1, sendbuf := ∅, sendbufId := t.sendbufId + 1 }

end Tx

end OpenMux.Mpath

/-!
## The receive side of one peer

`_handle_inbound_data` with the generation check and the gap flush. The function is cut at its awaits: a handler that has
handed a frame to `_route_data_frame` is suspended there, and other read loops of the peer run in between. The handler
keeps its own count of the next number and its own reference to the reorder buffer, and writes the count back at the end.
-/

namespace OpenMux.Mpath

/-- What the connection record says about the peer process. -/
structure ConnRec where
  instanceId : Option InstanceId
  openedAt : Int
deriving DecidableEq, Repr

/-- `_peer_rx_state[peer_key]`. `buffer` names a dict object, since handlers hold on to it. -/
structure RxState where
  expected : Nat := 1
  buffer : Nat
  gapSince : Option Int := none
  instanceId : Option InstanceId := none
  instanceSince : Int := 0
deriving DecidableEq, Repr

/-- The loop a suspended handler is in: the in-order branch or `_flush_stuck_gap`. -/
inductive Branch
  | deliver
  | flush
deriving DecidableEq, Repr

/-- A handler suspended in `_route_data_frame`. `seq` is the number it was called with, `cur` the one it has handed over,
`buf` its reference to the reorder buffer. -/
structure Handler where
  branch : Branch
  seq : Nat
  cur : Nat
  buf : Nat
deriving DecidableEq, Repr

/-- The receive state with the buffer objects and the suspended handlers, at most one for each connection. -/
structure Rx where
  state : Option RxState := none
  buffers : Nat → Dict Nat Payload := fun _ => ∅
  nextBuf : Nat := 0
  handlers : Dict ConnId Handler := ∅

/-- What one step of a handler does: the new state, the frame handed to `_route_data_frame`, the number acknowledged, the
numbers a flush gives up, and whether the transmit state is reset. -/
structure RxOut where
  rx : Rx
  routed : Option DataFrame := none
  ack : Option Nat := none
  givenUp : List Nat := []
  reset : Bool := false

namespace Rx

/-- The number the peer's reorder window expects next. -/
def expected (r : Rx) : Nat := (r.state.map RxState.expected).getD 1

/-- The gap timer has run for `gap_stuck_sec`. -/
def gapExpired (r : Rx) (gapStuckSec now : Int) : Bool :=
  (r.state.bind RxState.gapSince).any fun g => gapStuckSec ≤ now - g

/-- A new empty dict object. -/
def newBuffer (r : Rx) : Rx :=
  { r with buffers := Function.update r.buffers r.nextBuf ∅, nextBuf := r.nextBuf + 1 }

/-- `_peer_rx_state.setdefault(peer_key, …)`. -/
def setdefault (r : Rx) : RxState × Rx :=
  match r.state with
  | some st => (st, r)
  | none =>
      let st : RxState := { buffer := r.nextBuf }
      (st, { r.newBuffer with state := some st })

/-- `_maybe_resync_peer_generation`: whether the frame is stale, whether the transmit state is reset, and the state. -/
def maybeResyncPeerGeneration (r : Rx) (rec : ConnRec) : Bool × Bool × Rx :=
  match rec.instanceId with
  | none => (false, false, r)
  | some inst =>
      match r.state with
      | none =>
          (false, false, { r.newBuffer with
            state := some { buffer := r.nextBuf, instanceId := some inst, instanceSince := rec.openedAt } })
      | some st =>
          match st.instanceId with
          | none => (false, false, { r with
              state := some { st with instanceId := some inst, instanceSince := rec.openedAt } })
          | some seen =>
              if seen = inst then (false, false, r)
              else if rec.openedAt ≤ st.instanceSince then (true, false, r)
              else (false, true, { r.newBuffer with
                state := some { buffer := r.nextBuf, instanceId := some inst, instanceSince := rec.openedAt } })

/-- `_flush_stuck_gap` up to its first await, for a handler called with `seq`. -/
def flushStuckGap (r : Rx) (c : ConnId) (st : RxState) (seq : Nat) : RxOut :=
  let buf := r.buffers st.buffer
  let r := { r with state := some { st with gapSince := none } }
  match buf.keys.min? with
  | none => { rx := r, ack := some seq }
  | some lowest =>
      match buf.get? lowest with
      | none => { rx := r, ack := some seq }
      | some pl =>
          { rx := { r with
              buffers := Function.update r.buffers st.buffer (buf.pop lowest)
              handlers := r.handlers.set c ⟨.flush, seq, lowest, st.buffer⟩ }
            routed := some ⟨lowest, pl⟩
            givenUp := List.range' st.expected (lowest - st.expected) }

/-- The part of `_handle_inbound_data` after the generation check, up to its first await. -/
def enforceOrder (r : Rx) (gapStuckSec : Int) (c : ConnId) (f : DataFrame) (now : Int) : RxOut :=
  let (st, r) := r.setdefault
  if f.seq < st.expected then { rx := r, ack := some f.seq }
  else if f.seq = st.expected then
    { rx := { r with handlers := r.handlers.set c ⟨.deliver, f.seq, f.seq, st.buffer⟩ }, routed := some f }
  else
    let r := { r with
      buffers := Function.update r.buffers st.buffer ((r.buffers st.buffer).set f.seq f.payload) }
    match st.gapSince with
    | none => { rx := { r with state := some { st with gapSince := some now } }, ack := some f.seq }
    | some g =>
        if gapStuckSec ≤ now - g then r.flushStuckGap c st f.seq
        else { rx := r, ack := some f.seq }

/-- `_handle_inbound_data` up to its first await, and the acknowledgement when it returns without one. -/
def handleInboundData (r : Rx) (gapStuckSec : Int) (rec : ConnRec) (c : ConnId) (f : DataFrame) (now : Int) : RxOut :=
  let (stale, reset, r) := r.maybeResyncPeerGeneration rec
  if stale then { rx := r, ack := some f.seq }
  else { r.enforceOrder gapStuckSec c f now with reset := reset }

/-- `_route_data_frame` returns: the handler goes on with the next buffered number, or writes its count back and
acknowledges the frame it was called with. -/
def resume (r : Rx) (c : ConnId) : Option RxOut :=
  (r.handlers.get? c).map fun h =>
    let next := h.cur + 1
    match (r.buffers h.buf).get? next with
    | some pl =>
        { rx := { r with
            buffers := Function.update r.buffers h.buf ((r.buffers h.buf).pop next)
            handlers := r.handlers.set c { h with cur := next } }
          routed := some ⟨next, pl⟩ }
    | none =>
        { rx := { r with
            state := r.state.map fun st => match h.branch with
              | .deliver => { st with expected := next, gapSince := none }
              | .flush => { st with expected := next }
            handlers := r.handlers.pop c }
          ack := some h.seq }

/-- The read loop is cancelled while its handler is suspended: nothing is written back and nothing acknowledged. -/
def cancel (r : Rx) (c : ConnId) : Option Rx :=
  (r.handlers.get? c).map fun _ => { r with handlers := r.handlers.pop c }

end Rx

end OpenMux.Mpath
