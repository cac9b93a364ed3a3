import OpenMux.Lib.Batch
import OpenMux.Protocols.Handlers

/-!
# The writes of a TCP initiator port

`write_data` and `_flush_buffer_loop` of a port whose connections come and go. The connections are counted, and each byte in the write buffer
has the connection that the port had when it was accepted. What the threshold of a batch changes is only when the flusher wakes.
-/

namespace OpenMux.Initiator

open Batch

structure Writes where
  batchingEnabled : Bool
  isConnected : Bool := false
  /-- The connection that the writer is of. -/
  writer : Option ℕ := none
  connections : ℕ := 0
  buffer : Buffer (ℕ × UInt8) ℕ := {}
deriving DecidableEq

/-- `_connect` ends with a connection; the connection is lost; `_disconnect` drops the writer; a client writes; the flusher wakes, and its
`drain` returns or raises. -/
inductive WritesAct
  | connect
  | lost
  | disconnect
  | writeData (data : List UInt8)
  | flush
  | drained
  | drainFailed
deriving DecidableEq

namespace Writes

/-- The bytes of a write to a connection. -/
def mark (conn : ℕ) (data : List UInt8) : List (ℕ × UInt8) := data.map (conn, ·)

/-- `write_data`. -/
def writeData (s : Writes) (data : List UInt8) : Writes :=
  match s.isConnected, s.writer with
  | true, some conn =>
      if s.batchingEnabled then { s with buffer := s.buffer.accept (mark conn data) }
      else { s with buffer := s.buffer.through (mark conn data) conn }
  | _, _ => s

/-- A round of `_flush_buffer_loop` up to its `drain`. -/
def flush (s : Writes) : Option Writes :=
  (s.buffer.step (.wake s.writer)).map fun b =>
    { s with buffer := b, isConnected := s.isConnected && (s.writer.isSome || s.buffer.pending.isEmpty) }

def step (s : Writes) : WritesAct → Option Writes
  | .connect =>
      if s.isConnected then none
      else some { s with isConnected := true, writer := some s.connections, connections := s.connections + 1 }
  | .lost => some { s with isConnected := false }
  | .disconnect => some { s with isConnected := false, writer := none }
  | .writeData data => some (s.writeData data)
  | .flush => s.flush
  | .drained => (s.buffer.step .sent).map fun b => { s with buffer := b }
  | .drainFailed => (s.buffer.step .failed).map fun b => { s with buffer := b, isConnected := false }

def start (batchingEnabled : Bool) : Writes := { batchingEnabled := batchingEnabled }

/-- The bytes of a connection. -/
def bytesOf (conn : ℕ) (bs : List (ℕ × UInt8)) : List UInt8 := (bs.filter (·.1 = conn)).map Prod.snd

/-- The batches that were written to a connection. -/
def batchesTo (s : Writes) (conn : ℕ) : List (Sent (ℕ × UInt8) ℕ) := s.buffer.batches.filter (·.via = some conn)

/-- The bytes that were written to a connection, in order. -/
def written (s : Writes) (conn : ℕ) : List UInt8 := ((s.batchesTo conn).flatMap Sent.data).map Prod.snd

/-- What the connection carries, for the `encode` of its handler. -/
def wire (encode : List UInt8 → List UInt8) (s : Writes) (conn : ℕ) : List UInt8 :=
  (s.batchesTo conn).flatMap fun x => encode (x.data.map Prod.snd)

/-- A connection is made when nothing is left of the one before. -/
def Fresh (s : Writes) (a : WritesAct) : Prop := a = .connect → s.buffer.pending = []

instance (s : Writes) (a : WritesAct) : Decidable (s.Fresh a) := inferInstanceAs (Decidable (_ → _))

/-- The act ends the flusher while it has a batch. -/
def Faults (s : Writes) (a : WritesAct) : Prop := a = .drainFailed ∨ a = .flush ∧ s.writer = none

instance (s : Writes) (a : WritesAct) : Decidable (s.Faults a) := inferInstanceAs (Decidable (_ ∨ _ ∧ _))

end Writes

end OpenMux.Initiator
