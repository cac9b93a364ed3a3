import OpenMux.Federation.Capacity
import OpenMux.Streams.Session

/-!
# A local port

The wrapper that the port manager keeps for a local port: its clients and their modes, and the buffers that its output goes
through.
-/

namespace OpenMux.Origin

open Py Federation Streams

/-- A peer key and a stream id. -/
abbrev Slot := Text × Int

inductive Mode
  | readOnly
  | readWrite
deriving DecidableEq, Repr

/-- An entry of `connected_clients`. -/
structure Client where
  clientId : Text
  username : String
  mode : Mode
  connectedAt : Nat
deriving DecidableEq

abbrev Chunk := List UInt8

/-- The buffers that the relays of a port share. -/
structure Buffers where
  dataQueue : List Chunk := []
  droppedChunks : Nat := 0
  /-- `_federation_viewer_count`. -/
  federationViewerCount : Nat := 0
  scrollbackSize : Nat := 0
  scrollback : List UInt8 := []
deriving DecidableEq

structure Port where
  adapterType : Text
  maxReadWriteUsers : WriteMode := .one
  connectedClients : List Client := []
  buffers : Buffers := {}
deriving DecidableEq

/-! ## Buffers -/

/-- The `maxsize` of `data_queue`. -/
def dataQueueSize : Nat := 100

namespace Buffers

/-- `put_nowait`; a full queue loses its oldest chunk. -/
def enqueue (b : Buffers) (data : Chunk) : Buffers :=
  if b.dataQueue.length < dataQueueSize then { b with dataQueue := b.dataQueue ++ [data] }
  else { b with dataQueue := b.dataQueue.tail ++ [data], droppedChunks := b.droppedChunks + 1 }

/-- Extends the ring and trims it to its size. -/
def record (b : Buffers) (data : Chunk) : Buffers :=
  if 0 < b.scrollbackSize then
    { b with scrollback := (b.scrollback ++ data).drop ((b.scrollback ++ data).length - b.scrollbackSize) }
  else b

/-- `add_federation_buffering_hold`. -/
def addFederationBufferingHold (b : Buffers) : Buffers :=
  { b with federationViewerCount := b.federationViewerCount + 1 }

/-- `remove_federation_buffering_hold`: the last release drains the queue. -/
def removeFederationBufferingHold (b : Buffers) : Buffers :=
  let b := { b with federationViewerCount := b.federationViewerCount - 1 }
  if b.federationViewerCount = 0 then { b with dataQueue := [] } else b

/-- `get_port_data`, without the chunk. -/
def dequeue (b : Buffers) : Buffers := { b with dataQueue := b.dataQueue.tail }

end Buffers

namespace Port

/-- Changes the buffers of the port. -/
def updateBuffers (p : Port) (f : Buffers → Buffers) : Port := { p with buffers := f p.buffers }

/-- `should_enqueue`. -/
def shouldEnqueue (p : Port) (requireClients : Option Bool) : Bool :=
  requireClients = some false || !p.connectedClients.isEmpty || 0 < p.buffers.federationViewerCount

/-- `handle_incoming_port_data`. -/
def handleIncomingPortData (p : Port) (data : Chunk) (requireClients : Option Bool) : Port :=
  if p.shouldEnqueue requireClients then p.updateBuffers fun b => (b.record data).enqueue data
  else p.updateBuffers fun b => b.record data

/-! ## Clients -/

/-- Changes the first record of the client. -/
def updateClient (id : Text) (f : Client → Client) : List Client → List Client
  | [] => []
  | c :: cs => if c.clientId = id then f c :: cs else c :: updateClient id f cs

/-- `_rw_counts` without the client itself. -/
def rwCount (p : Port) (id : Text) : Nat :=
  (p.connectedClients.filter fun c => c.clientId ≠ id ∧ c.mode = .readWrite).length

/-- `current_rw >= write_capacity(...)`. -/
def full (p : Port) (rw : Nat) : Bool :=
  match p.maxReadWriteUsers with
  | .none => true
  | .one => decide (1 ≤ rw)
  | .multiple => false

/-- `add_client_to_port` of a local port. -/
def addClient (p : Port) (c : Client) : Port :=
  if c.mode = .readWrite ∧ p.full (p.rwCount c.clientId) then p
  else if p.connectedClients.any (·.clientId = c.clientId) then
    { p with connectedClients := updateClient c.clientId (fun _ => c) p.connectedClients }
  else { p with connectedClients := p.connectedClients ++ [c] }

/-- `remove_client_from_port`. -/
def removeClient (p : Port) (id : Text) : Port :=
  { p with connectedClients := p.connectedClients.eraseP (·.clientId = id) }

def isReadWrite (p : Port) (id : Text) : Bool :=
  p.connectedClients.any fun c => c.clientId = id ∧ c.mode = .readWrite

/-- `promote_client`, and whether it promoted. -/
def promoteClient (p : Port) (id : Text) : Port × Bool :=
  if !p.isReadWrite id && p.full ((p.connectedClients.filter (·.mode = .readWrite)).length) then (p, false)
  else
    ({ p with connectedClients := updateClient id (fun c => { c with mode := .readWrite }) p.connectedClients },
      p.connectedClients.any (·.clientId = id))

/-- `demote_client`. -/
def demoteClient (p : Port) (id : Text) : Port :=
  { p with connectedClients := updateClient id (fun c => { c with mode := .readOnly }) p.connectedClients }

/-- `_client_write_mode`: the mode of the first record. -/
def clientHasWrite (p : Port) (id : Text) : Bool :=
  match p.connectedClients.find? (·.clientId = id) with
  | some c => c.mode = .readWrite
  | none => false

end Port

/-! ## Takes -/

/-- The victim that a TAKE names. -/
inductive TakeSpec
  | latest
  | own (rest : Text)
  | fed (id : Text)
  | unknown
deriving DecidableEq

/-- `max(candidates, key=connected_at)`. -/
def latestClient : List Client → Option Client
  | [] => none
  | c :: cs =>
      match latestClient cs with
      | some d => if c.connectedAt < d.connectedAt then some d else some c
      | none => some c

/-- `_resolve_fedrw_take_target`. -/
def resolveFedrwTakeTarget (p : Port) (slot : Slot) (spec : TakeSpec) : Option Client :=
  let candidates := p.connectedClients.filter fun c => c.mode = .readWrite ∧ c.clientId ≠ fedClientId slot.1 slot.2
  match spec with
  | .latest => latestClient candidates
  | .own rest => candidates.find? (·.clientId = fedPrefix ++ (slot.1 ++ ':' :: rest))
  | .fed id => candidates.find? (·.clientId = id)
  | .unknown => none

/-- `_handle_fedrw_take`. -/
def handleFedrwTake (p : Port) (slot : Slot) (spec : TakeSpec) : Port :=
  let taker := fedClientId slot.1 slot.2
  match resolveFedrwTakeTarget p slot spec with
  | none => if spec = .latest then (p.promoteClient taker).1 else p
  | some victim =>
      let p := p.demoteClient victim.clientId
      let (p', promoted) := p.promoteClient taker
      if promoted then p' else (p'.promoteClient victim.clientId).1

end OpenMux.Origin
