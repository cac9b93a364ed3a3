import OpenMux.Origin.Sessions

/-!
# The relay of a port's output

What it means that the peers of a port get its whole output, and the conditions on the steps under which they do.
-/

namespace OpenMux.Origin

open Py Streams

/-! ## Whole views -/

namespace Pump

/-- The pump has its hold. -/
def held (t : Pump) : Bool :=
  match t.stage with
  | .seeding _ | .looping | .waiting => true
  | .created | .done => false

/-- The pump runs or will run. -/
def live (t : Pump) : Bool := t.stage ≠ .done && !t.cancelled

def running (t : Pump) : Bool := t.held && !t.cancelled

def serves (t : Pump) (peerKey port : Text) : Bool := t.running && t.slot.1 = peerKey && t.portName = port

/-- The part of the seed that is yet to be sent. -/
def rest (t : Pump) : List UInt8 :=
  match t.stage with
  | .seeding seed => seed
  | .created | .looping | .waiting | .done => []

def hand (t : Pump) (peerKey port : Text) : List UInt8 := if t.serves peerKey port then t.rest else []

end Pump

/-- What was sent and what is in hand is the snapshot and the chunks `taken` from the queue. These and the chunks in the
queue are the chunks that arrived, in order, without the dropped ones. -/
def View.Whole (v : View) (b : Buffers) (hand : List UInt8) : Prop :=
  ∃ taken : List Chunk, v.sent ++ hand = v.snapshot ++ taken.flatten ∧ (taken ++ b.dataQueue).Sublist v.arrived ∧
    v.dropped ≤ b.droppedChunks ∧ (taken ++ b.dataQueue).length + (b.droppedChunks - v.dropped) = v.arrived.length

namespace OriginNode

/-- What the pumps of the peer on the port are about to send. -/
def inHand (n : OriginNode) (peerKey port : Text) : List UInt8 := n.tasks.flatMap fun t => t.hand peerKey port

/-- Every session has a pump, or a handler that will create it; every pump that runs on a local port has a view; every view
is whole and has a pump that runs. -/
structure Relayed (n : OriginNode) : Prop where
  backed : ∀ slot port, n.sessionPort slot = some port → port ≠ [] → (∃ o ∈ n.opening, o.slot = slot) ∨
    ∃ t ∈ n.tasks, t.live ∧ t.slot = slot ∧ t.portName = port
  viewed : ∀ t ∈ n.tasks, t.running → ∀ p, n.ports.get? t.portName = some p →
    ∃ v, n.views.get? (t.slot.1, t.portName) = some v
  pumped : ∀ peerKey port v, n.views.get? (peerKey, port) = some v → ∃ t ∈ n.tasks, t.serves peerKey port
  whole : ∀ peerKey port v, n.views.get? (peerKey, port) = some v →
    ∃ p, n.ports.get? port = some p ∧ v.Whole p.buffers (n.inHand peerKey port)

/-! ## Clean steps -/

/-- No handler of an OPEN of the slot is suspended. -/
def Settled (n : OriginNode) (slot : Slot) : Prop := ∀ o ∈ n.opening, o.slot ≠ slot

/-- The session is the last one that the peer has on the port, or another pump of the peer runs on the port and the pump of
the slot has sent its seed. -/
def StopsClean (n : OriginNode) (slot : Slot) : Prop :=
  ∀ port ∈ n.sessionPort slot, (n.views.get? (slot.1, port)).isSome →
    (∀ e ∈ n.localSessionMap.entries, e.1.1 = slot.1 → e.2 = port → e.1 = slot) ∨
    (∃ t ∈ n.tasks, t.slot ≠ slot ∧ t.serves slot.1 port) ∧ ∀ t ∈ n.tasks, t.slot = slot → t.hand slot.1 port = []

/-- A pump takes its snapshot when the queue is empty, or, as a further pump of a peer with a view, when the ring is. It finds
a path. It takes a chunk only if no other peer has a view, and no pump of its peer is still sending a seed. -/
def PumpClean (n : OriginNode) (t : Pump) (ok : Bool) : Prop :=
  t.cancelled ∨
    match t.stage with
    | .created => ∀ p ∈ n.ports.get? t.portName,
        if (n.views.get? (t.slot.1, t.portName)).isSome then p.buffers.scrollback = [] else p.buffers.dataQueue = []
    | .seeding rest => rest = [] ∨ ok
    | .looping | .waiting => ∀ data ∈ n.nextChunk t.portName, data = [] ∨
        ok ∧ (∀ k ∈ n.views.keys, k.2 = t.portName → k.1 = t.slot.1) ∧ n.inHand t.slot.1 t.portName = []
    | .done => True

def FrameClean (n : OriginNode) (peerKey : Text) : Frame → Prop
  | .openStream sid payload => n.Settled (peerKey, sid) ∧
      (n.sessionPort (peerKey, sid) = some (strip payload) ∨ n.StopsClean (peerKey, sid))
  | .close sid => n.Settled (peerKey, sid) ∧ n.StopsClean (peerKey, sid)
  | _ => True

/-- The condition on a step. No other reader takes a chunk that is owed to a peer, and no OPEN handler of a peer is
suspended when its last connection closes. -/
def RelayClean (n : OriginNode) : OriginAct → Prop
  | .frame c f => ∀ conn ∈ n.connections.get? c, conn.authenticated → n.FrameClean conn.peerKey f
  | .closeConnection c => ∀ conn ∈ n.connections.get? c,
      (∃ e ∈ n.connections.entries, e.1 ≠ c ∧ e.2.peerKey = conn.peerKey) ∨ ∀ o ∈ n.opening, o.slot.1 ≠ conn.peerKey
  | .pump i ok => ∀ t ∈ n.tasks[i]?, n.PumpClean t ok
  | .poll port => ∀ data ∈ n.nextChunk port, data = [] ∨ ∀ k ∈ n.views.keys, k.2 ≠ port
  | _ => True

instance (n : OriginNode) (slot : Slot) : Decidable (n.Settled slot) := inferInstanceAs (Decidable (∀ o ∈ n.opening, _))

instance (n : OriginNode) (slot : Slot) : Decidable (n.StopsClean slot) := by
  unfold StopsClean
  infer_instance

instance (n : OriginNode) (t : Pump) (ok : Bool) : Decidable (n.PumpClean t ok) := by
  unfold PumpClean
  cases t.stage <;> infer_instance

instance (n : OriginNode) (peerKey : Text) : (f : Frame) → Decidable (n.FrameClean peerKey f)
  | .openStream _ _ => inferInstanceAs (Decidable (_ ∧ (_ ∨ _)))
  | .close _ => inferInstanceAs (Decidable (_ ∧ _))
  | .data _ _ | .fedrw _ _ _ | .powerSwitch _ _ _ => isTrue trivial

instance (n : OriginNode) : (a : OriginAct) → Decidable (n.RelayClean a)
  | .frame c f => inferInstanceAs (Decidable (∀ conn ∈ n.connections.get? c, conn.authenticated → n.FrameClean conn.peerKey f))
  | .closeConnection c => inferInstanceAs (Decidable (∀ conn ∈ n.connections.get? c,
      (∃ e ∈ n.connections.entries, e.1 ≠ c ∧ e.2.peerKey = conn.peerKey) ∨ ∀ o ∈ n.opening, o.slot.1 ≠ conn.peerKey))
  | .pump i ok => inferInstanceAs (Decidable (∀ t ∈ n.tasks[i]?, n.PumpClean t ok))
  | .poll port => inferInstanceAs (Decidable (∀ data ∈ n.nextChunk port, data = [] ∨ ∀ k ∈ n.views.keys, k.2 ≠ port))
  | .connect _ _ | .authenticate _ _ _ | .reload _ | .resumeOpen _ _ | .incoming _ _ _ | .mapSession _ _ | .unmapSession _
  | .localAttach _ _ | .localDetach _ _ | .localPromote _ _ | .localDemote _ _ => isTrue trivial

end OriginNode

end OpenMux.Origin

/-!
## Session slots and the stop of the adapter

The node with the stop of its adapter: the stop event is set and every pump is cancelled, and once the pumps have ended the
sessions that are left are stopped. What session slots, pumps, clients and holds have to do with each other, and the
conditions on the steps under which they agree.
-/

namespace OpenMux.Origin

open Py Streams

/-- Where `stop` stands: `stopping` waits for that many pumps. -/
inductive StopPhase
  | running
  | stopping (pumps : Nat)
  | stopped
deriving DecidableEq

structure Adapter where
  node : OriginNode := {}
  phase : StopPhase := .running

inductive AdapterAct
  | origin (a : OriginAct)
  | stop
  | stopped
deriving DecidableEq

/-- The entries of `connected_clients` with the id. -/
def Port.records (p : Port) (id : Text) : Nat := p.connectedClients.countP (·.clientId = id)

namespace OriginNode

/-- A pump ends without `_end_local_pump_cleanup`. -/
def pumpAbort (n : OriginNode) (i : Nat) (t : Pump) : OriginNode := n.setTask i { t with stage := .done }

/-- `_pump_local_port_to_remote` as `pumpStep` has it, under the stop event. A pump waits in its seed only while it sends. -/
def pumpStepUntil (stopEvent : Bool) (n : OriginNode) (i : Nat) (t : Pump) (ok : Bool) : Option OriginNode :=
  match t.stage with
  | .created => some (
      if t.cancelled then n.pumpAbort i t
      else if stopEvent then (n.pumpStart i t).endLocalPumpCleanup i t
      else n.pumpStart i t)
  | .seeding rest => some (
      if rest ≠ [] ∧ t.cancelled then n.pumpAbort i t
      else if t.cancelled ∨ stopEvent then n.endLocalPumpCleanup i t
      else n.pumpSeed i t rest ok)
  | .looping => if stopEvent then some (n.endLocalPumpCleanup i t) else n.pumpStep i t ok
  | .waiting | .done => n.pumpStep i t ok

/-- The sessions that are left when the pumps of a stop have ended. -/
def shutdownLocalSessions (n : OriginNode) : OriginNode :=
  (((n.localSessionMap.keys ++ n.sessionMap.keys ++ n.pumpTasks.keys).map Prod.fst).dedup).foldl cleanupPeerLocalSessions n

end OriginNode

namespace Adapter

/-- `_stop_event.is_set()`. -/
def stopEvent (s : Adapter) : Bool := s.phase ≠ .running

/-- Clients of this node itself leave under their own ids only. -/
def step (cfg : OriginCfg) (s : Adapter) : AdapterAct → Option Adapter
  | .origin (.pump i ok) =>
      (s.node.tasks[i]?.bind fun t => s.node.pumpStepUntil s.stopEvent i t ok).map fun n => { s with node := n }
  | .origin (.localDetach port id) =>
      if fedPrefix <+: id then none
      else (s.node.step cfg (.localDetach port id)).map fun n => { s with node := n }
  | .origin a => (s.node.step cfg a).map fun n => { s with node := n }
  | .stop =>
      if s.phase = .running then
        some ⟨{ s.node with tasks := s.node.tasks.map Pump.cancel }, .stopping s.node.tasks.length⟩
      else none
  | .stopped =>
      match s.phase with
      | .stopping pumps =>
          if ∀ t ∈ s.node.tasks.take pumps, t.stage = .done then some ⟨s.node.shutdownLocalSessions, .stopped⟩ else none
      | _ => none

/-! ## Agreement -/

/-- No OPEN handler is suspended, no pump has yet to start or to end after a cancellation, and no stop waits for pumps. -/
structure Idle (s : Adapter) : Prop where
  opening : s.node.opening = []
  pumps : ∀ t ∈ s.node.tasks, t.stage ≠ .done → t.stage ≠ .created ∧ t.cancelled = false
  phase : ∀ pumps, s.phase ≠ .stopping pumps

end Adapter

/-- Each slot of the map has one pump, on its port, and one client record, on its port; no pump and no record of a client
exists without the slot; and the holds of a port are its pumps. -/
structure OriginNode.Agree (n : OriginNode) : Prop where
  pump : ∀ slot port, n.sessionPort slot = some port → ∃ i t, n.tasks[i]? = some t ∧ t.stage ≠ .done ∧ t.slot = slot ∧
    t.portName = port ∧ n.pumpTasks.get? slot = some i ∧
      ∀ j t', n.tasks[j]? = some t' → t'.stage ≠ .done → t'.slot = slot → j = i
  client : ∀ slot port, n.sessionPort slot = some port →
    ∃ p, n.ports.get? port = some p ∧ p.records (fedClientId slot.1 slot.2) = 1
  pumpMapped : ∀ t ∈ n.tasks, t.stage ≠ .done → n.sessionPort t.slot = some t.portName
  clientMapped : ∀ slot port p, n.ports.get? port = some p → p.records (fedClientId slot.1 slot.2) ≠ 0 →
    n.sessionPort slot = some port
  holds : ∀ port p, n.ports.get? port = some p →
    p.buffers.federationViewerCount = n.tasks.countP fun t => t.stage ≠ .done ∧ t.portName = port

/-! ## Orderly steps -/

namespace Adapter

/-- A pump that is cancelled, or meets the stop event, has not started, or it has sent its seed and another has its slot. -/
def PumpOrderly (s : Adapter) (i : Nat) (t : Pump) : Prop :=
  t.cancelled = true ∨ s.stopEvent = true →
    t.stage = .created ∧ t.cancelled = true ∨ t.rest = [] ∧ s.node.pumpTasks.get? t.slot ≠ some i

/-- The condition on a step: an OPEN names a port of the node, its handler goes on while its slot is open to the port, and no
pump is lost in its seed or gives up its slot. -/
def Orderly (s : Adapter) : AdapterAct → Prop
  | .origin (.frame c (.openStream _ payload)) => ∀ conn ∈ s.node.connections.get? c, conn.authenticated = true →
      strip payload ≠ [] ∧ (s.node.ports.get? (strip payload)).isSome
  | .origin (.resumeOpen i _) => ∀ o ∈ s.node.opening[i]?, s.node.sessionPort o.slot = some o.portName
  | .origin (.pump i _) => ∀ t ∈ s.node.tasks[i]?, s.PumpOrderly i t
  | _ => True

instance (s : Adapter) (i : Nat) (t : Pump) : Decidable (s.PumpOrderly i t) := inferInstanceAs (Decidable (_ ∨ _ → _ ∨ _ ∧ _))

instance (s : Adapter) : (a : AdapterAct) → Decidable (s.Orderly a)
  | .origin (.frame c (.openStream _ payload)) => inferInstanceAs (Decidable (∀ conn ∈ s.node.connections.get? c,
      conn.authenticated = true → strip payload ≠ [] ∧ (s.node.ports.get? (strip payload)).isSome))
  | .origin (.resumeOpen i _) =>
      inferInstanceAs (Decidable (∀ o ∈ s.node.opening[i]?, s.node.sessionPort o.slot = some o.portName))
  | .origin (.pump i _) => inferInstanceAs (Decidable (∀ t ∈ s.node.tasks[i]?, s.PumpOrderly i t))
  | .origin (.frame _ (.close _)) | .origin (.frame _ (.data _ _)) | .origin (.frame _ (.fedrw _ _ _))
  | .origin (.frame _ (.powerSwitch _ _ _)) | .origin (.connect _ _) | .origin (.authenticate _ _ _)
  | .origin (.closeConnection _) | .origin (.reload _) | .origin (.incoming _ _ _) | .origin (.poll _)
  | .origin (.mapSession _ _) | .origin (.unmapSession _) | .origin (.localAttach _ _) | .origin (.localDetach _ _)
  | .origin (.localPromote _ _) | .origin (.localDemote _ _) | .stop | .stopped => isTrue trivial

end Adapter

/-- A node that serves no peer yet, and whose ports nobody holds. -/
structure OriginNode.Vacant (n : OriginNode) : Prop where
  session : n.localSessionMap = ∅
  pumpTasks : n.pumpTasks = ∅
  tasks : n.tasks = []
  opening : n.opening = []
  client : ∀ port p, n.ports.get? port = some p → ∀ c ∈ p.connectedClients, ¬ fedPrefix <+: c.clientId
  holds : ∀ port p, n.ports.get? port = some p → p.buffers.federationViewerCount = 0

end OpenMux.Origin
