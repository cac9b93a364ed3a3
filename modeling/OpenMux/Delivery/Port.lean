import OpenMux.Lib.Queue
import OpenMux.Origin.Port

/-!
# The fan-out of a port

A port with the delivery queues of its clients and the shared queue of its relays. Queues are told apart by a number, since a
reader keeps the queue that it found even when the client has a new one.
-/

namespace OpenMux.Delivery

open Py Federation Origin

/-- The wrapper of a local port, whose shared queue is bounded, or the proxy of a remote one. -/
inductive Kind
  | wrapper
  | proxy
deriving DecidableEq

/-- The `maxsize` of `data_queue`. -/
def Kind.maxsize : Kind → Nat
  | wrapper => 100
  | proxy => 0

structure Port where
  maxReadWriteUsers : WriteMode
  connectedClients : List Client := []
  clientQueues : Dict Text Nat := ∅
  /-- Every queue that was made for a client. -/
  queues : Dict Nat (Queue Chunk) := ∅
  made : Nat := 0
  dataQueue : Queue Chunk
  droppedChunks : Nat := 0
  federationViewerCount : Nat := 0
  scrollbackSize : Nat := 0
  scrollback : List UInt8 := []

namespace Port

variable (p : Port)

/-! ## Clients -/

def hasClient (id : Text) : Bool := p.connectedClients.any (·.clientId = id)

/-- `asyncio.Queue(maxsize=100)` for the client. -/
def newQueue (id : Text) : Port :=
  { p with clientQueues := p.clientQueues.set id p.made, queues := p.queues.set p.made ⟨100, []⟩, made := p.made + 1 }

/-- `_attach_client_record`. -/
def attachClientRecord (c : Client) : Port :=
  if p.hasClient c.clientId then
    let p := { p with connectedClients := Origin.Port.updateClient c.clientId (fun _ => c) p.connectedClients }
    -- the queue that is there is kept
    if (p.clientQueues.get? c.clientId).isSome then p else p.newQueue c.clientId
  else Port.newQueue { p with connectedClients := p.connectedClients ++ [c] } c.clientId

/-- `current_rw >= capacity`. -/
def atCapacity (id : Text) : Bool :=
  let currentRw := (p.connectedClients.filter fun c => c.clientId ≠ id ∧ c.mode = .readWrite).length
  match p.maxReadWriteUsers with
  | .none => true
  | .one => decide (1 ≤ currentRw)
  | .multiple => false

/-- `add_client_to_port`. -/
def addClientToPort (c : Client) : Port × Bool :=
  if c.mode = .readWrite && p.atCapacity c.clientId then (p, false) else (p.attachClientRecord c, true)

/-- `remove_client_from_port`. -/
def removeClientFromPort (id : Text) : Port × Bool :=
  if p.hasClient id then
    ({ p with connectedClients := p.connectedClients.eraseP (·.clientId = id), clientQueues := p.clientQueues.pop id }, true)
  else (p, false)

/-! ## Data -/

/-- One turn of the loop of `_fan_out_to_client_queues`. -/
def offerTo (n : Nat) (data : Chunk) : Port :=
  match p.queues.get? n with
  | none => p
  | some q => { p with queues := p.queues.set n (q.offer data).1, droppedChunks := p.droppedChunks + (q.offer data).2 }

/-- `_fan_out_to_client_queues`. -/
def fanOutToClientQueues (data : Chunk) : Port := (p.clientQueues.entries.map Prod.snd).foldl (fun p n => p.offerTo n data) p

/-- The ring of the latest bytes. -/
def extendScrollback (data : Chunk) : Port :=
  if 0 < p.scrollbackSize then
    { p with scrollback := (p.scrollback ++ data).drop ((p.scrollback ++ data).length - p.scrollbackSize) }
  else p

def shouldEnqueue (requireClients : Option Bool) : Bool :=
  requireClients = some false || !p.connectedClients.isEmpty || 0 < p.federationViewerCount

/-- The part of `handle_incoming_port_data` that feeds the shared queue. -/
def enqueue (data : Chunk) (requireClients : Option Bool) : Port :=
  if p.shouldEnqueue requireClients then
    { p with dataQueue := (p.dataQueue.offer data).1, droppedChunks := p.droppedChunks + (p.dataQueue.offer data).2 }
  else p

/-- `handle_incoming_port_data`. -/
def handleIncomingPortData (data : Chunk) (requireClients : Option Bool) : Port :=
  ((p.extendScrollback data).fanOutToClientQueues data).enqueue data requireClients

/-- `get_port_data`. -/
def getPortData : Port × Option Chunk :=
  match p.dataQueue.getNowait with
  | some (data, q) => ({ p with dataQueue := q }, some data)
  | none => (p, none)

/-- `q.get()` of a forwarding task; `none` while it waits. -/
def getClientData (n : Nat) : Option (Port × Chunk) := do
  let q ← p.queues.get? n
  let (data, q) ← q.getNowait
  some ({ p with queues := p.queues.set n q }, data)

/-- `add_federation_buffering_hold`. -/
def addFederationBufferingHold : Port := { p with federationViewerCount := p.federationViewerCount + 1 }

/-- `remove_federation_buffering_hold`: the last release drains the shared queue. -/
def removeFederationBufferingHold : Port :=
  let p := { p with federationViewerCount := p.federationViewerCount - 1 }
  if p.federationViewerCount = 0 then { p with dataQueue := { p.dataQueue with items := [] } } else p

end Port

/-! ## Runs -/

inductive Act
  | attach (c : Client)
  | detach (id : Text)
  | data (chunk : Chunk) (requireClients : Option Bool)
  /-- A reader takes the next chunk of a client queue. -/
  | read (n : Nat)
  | readShared
  | hold
  | release

/-- A port with its history: the queue that a client got when it attached, the chunks that arrived while it was attached and
those that its queue handed out; and the same of the shared queue. -/
structure Feed where
  port : Port
  attached : Dict Text Nat := ∅
  arrived : Nat → List Chunk := fun _ => []
  handed : Nat → List Chunk := fun _ => []
  sharedArrived : List Chunk := []
  sharedHanded : List Chunk := []

namespace Feed

variable (s : Feed)

/-- The chunk arrives for the clients that are attached. -/
def arrivals (data : Chunk) (n : Nat) : List Chunk :=
  if n ∈ s.attached.entries.map Prod.snd then s.arrived n ++ [data] else s.arrived n

/-- A client that is not attached attaches anew. -/
def noteAttached (id : Text) (ok : Bool) : Dict Text Nat :=
  if ok && !s.port.hasClient id then s.attached.set id s.port.made else s.attached

def step : Act → Option Feed
  | .attach c =>
      let (p, ok) := s.port.addClientToPort c
      some { s with port := p, attached := s.noteAttached c.clientId ok }
  | .detach id =>
      let (p, _) := s.port.removeClientFromPort id
      some { s with port := p, attached := s.attached.pop id }
  | .data chunk requireClients =>
      some { s with
        port := s.port.handleIncomingPortData chunk requireClients
        arrived := s.arrivals chunk
        sharedArrived := if s.port.shouldEnqueue requireClients then s.sharedArrived ++ [chunk] else s.sharedArrived }
  | .read n => do
      let (p, chunk) ← s.port.getClientData n
      some { s with port := p, handed := Function.update s.handed n (s.handed n ++ [chunk]) }
  | .readShared =>
      let (p, chunk) := s.port.getPortData
      some { s with port := p, sharedHanded := s.sharedHanded ++ chunk.toList }
  | .hold => some { s with port := s.port.addFederationBufferingHold }
  | .release =>
      some { s with
        port := s.port.removeFederationBufferingHold
        -- the drain reads what is there
        sharedHanded := if s.port.federationViewerCount - 1 = 0 then s.sharedHanded ++ s.port.dataQueue.items
          else s.sharedHanded }

def start (kind : Kind) (maxReadWriteUsers : WriteMode) (scrollbackSize : Nat) : Feed where
  port := { maxReadWriteUsers, scrollbackSize, dataQueue := ⟨kind.maxsize, []⟩ }

/-! ## No loss but what is counted -/

/-- What a client queue holds. -/
def items (n : Nat) : List Chunk := ((s.port.queues.get? n).map Queue.items).getD []

/-- The chunks that arrived for a client and were neither handed out nor are waiting. -/
def missing (n : Nat) : Nat := Queue.lost (s.arrived n) (s.handed n) (s.items n)

def sharedMissing : Nat := Queue.lost s.sharedArrived s.sharedHanded s.port.dataQueue.items

/-- A queue of 100 chunks gives up its oldest one for the chunk that arrives. -/
def GaveUp (a : Act) (before after : List Chunk) : Prop :=
  before.length = 100 ∧ ∃ chunk requireClients, a = .data chunk requireClients ∧ after = before.tail ++ [chunk]

structure Lossless : Prop where
  /-- Every client that is attached is served by the queue it got when it attached, and nobody else is. -/
  served : ∀ id, s.port.hasClient id = true ↔ (s.attached.get? id).isSome
  queue : ∀ id, s.port.clientQueues.get? id = s.attached.get? id
  kept : ∀ n, Queue.Kept (s.arrived n) (s.handed n) (s.items n)
  sharedKept : Queue.Kept s.sharedArrived s.sharedHanded s.port.dataQueue.items
  counted : s.port.droppedChunks = ∑ n ∈ Finset.range s.port.made, s.missing n + s.sharedMissing
  removed : ∀ a s', s.step a = some s' → ∀ n, s'.missing n = s.missing n ∨
    s'.missing n = s.missing n + 1 ∧ GaveUp a (s.items n) (s'.items n)
  sharedRemoved : ∀ a s', s.step a = some s' → s'.sharedMissing = s.sharedMissing ∨
    s'.sharedMissing = s.sharedMissing + 1 ∧ GaveUp a s.port.dataQueue.items s'.port.dataQueue.items

/-- The queue has room when a chunk arrives. -/
def KeepsUp (n : Nat) (s : Feed) : Act → Prop
  | .data _ _ => (s.items n).length < 100
  | _ => True

instance (n : Nat) (s : Feed) : (a : Act) → Decidable (KeepsUp n s a)
  | .data _ _ => inferInstanceAs (Decidable ((s.items n).length < 100))
  | .attach _ | .detach _ | .read _ | .readShared | .hold | .release => isTrue trivial

end Feed

end OpenMux.Delivery
