import OpenMux.Lib.Run

/-!
# The control lines of a serial port

A serial port with its clients and the transports that it opens. A step is what runs between two waits of the supervisor; line ioctls
succeed, and the device and its transport choose the levels after an open and whether a stream that ends closes its handle.
-/

namespace OpenMux.Serial

/-- The values of `dtr` and `rts` that a port accepts; `level` is the boolean shorthand. -/
inductive LinePolicy
  | none
  | level (b : Bool)
  | on
  | off
  | presenceOn
  | presenceOff
deriving DecidableEq

/-- `resolve_line_policy`: the level with clients and the one without. -/
def resolveLinePolicy : LinePolicy → Option Bool × Option Bool
  | .none => (none, none)
  | .level b => (some b, some b)
  | .on => (some true, some true)
  | .off => (some false, some false)
  | .presenceOn => (some true, some false)
  | .presenceOff => (some false, some true)

inductive Line
  | dtr
  | rts
deriving DecidableEq

/-- One value for each line. -/
structure Lines (α : Type) where
  dtr : α
  rts : α
deriving DecidableEq

namespace Lines

variable {α : Type}

def get (ls : Lines α) : Line → α
  | .dtr => ls.dtr
  | .rts => ls.rts

def set (ls : Lines α) (line : Line) (a : α) : Lines α :=
  match line with
  | .dtr => { ls with dtr := a }
  | .rts => { ls with rts := a }

@[simp] theorem get_set_self (ls : Lines α) (line : Line) (a : α) : (ls.set line a).get line = a := by cases line <;> rfl

@[simp] theorem get_set_of_ne (ls : Lines α) {line line' : Line} (a : α) (h : line' ≠ line) :
    (ls.set line a).get line' = ls.get line' := by
  cases line <;> cases line' <;> first | rfl | exact absurd rfl h

end Lines

/-- A transport that the port has opened. -/
structure Transport where
  levels : Lines Bool
  /-- The port has driven the line. -/
  touched : Lines Bool := ⟨false, false⟩
  closed : Bool := false
  /-- `transport.serial` is there. -/
  serial : Bool := true
deriving DecidableEq

/-- `setattr(driver, line, level)`. -/
def Transport.drive (t : Transport) (line : Line) (level : Bool) : Transport :=
  { t with levels := t.levels.set line level, touched := t.touched.set line true }

/-- Where `_connect_loop` waits: for the next attempt, for the read loop, and for the end of the transport that it closes. -/
inductive Supervisor
  | waiting
  | reading
  | closing
  | done
deriving DecidableEq

structure SerialPortWrapper where
  isConnected : Bool := false
  autoReconnect : Bool := true
  clientCount : ℕ := 0
  /-- `_dtr_driven` and `_rts_driven`. -/
  driven : Lines (Option Bool) := ⟨none, none⟩
  writer : Option Transport := none
  /-- The transports that the port has opened and does not know any more. -/
  lost : List Transport := []
  supervisor : Supervisor := .waiting
deriving DecidableEq

/-- What happens: the device opens with its levels, or does not; the number of clients is told; the read loop sees an empty read or a read
error, on a transport that has closed its handle or not; the read loop is cancelled, and the transport that is closed then has ended; and
the port is stopped. -/
inductive WrapperAct
  | connect (levels : Lines Bool)
  | connectFails
  | clients (count : ℕ)
  | drop (ended : Bool)
  | disconnect
  | closed
  | stop

namespace SerialPortWrapper

/-- `_serial_driver`. -/
def serialDriver (s : SerialPortWrapper) : Option Transport := s.writer.filter (·.serial)

/-- `_apply_line`. -/
def applyLine (s : SerialPortWrapper) (line : Line) (level : Option Bool) : SerialPortWrapper :=
  match level, s.serialDriver with
  | some level, some driver =>
      if s.driven.get line = some level then s
      else if driver.levels.get line = level then { s with driven := s.driven.set line (some level) }
      else { s with driven := s.driven.set line (some level), writer := some (driver.drive line level) }
  | _, _ => s

/-- The level that a policy gives for a number of clients. -/
def lineLevel (policy : Lines LinePolicy) (count : ℕ) (line : Line) : Option Bool :=
  let (active, idle) := resolveLinePolicy (policy.get line)
  if 0 < count then active else idle

/-- `_apply_line_levels_for_count`. -/
def applyLineLevelsForCount (policy : Lines LinePolicy) (s : SerialPortWrapper) (count : ℕ) : SerialPortWrapper :=
  if s.isConnected then (s.applyLine .dtr (lineLevel policy count .dtr)).applyLine .rts (lineLevel policy count .rts) else s

/-- `on_client_count_changed`. -/
def onClientCountChanged (policy : Lines LinePolicy) (s : SerialPortWrapper) (count : ℕ) : SerialPortWrapper :=
  if count = s.clientCount then s else { s with clientCount := count }.applyLineLevelsForCount policy count

/-- `_connect`, of a device that opens. -/
def connect (policy : Lines LinePolicy) (s : SerialPortWrapper) (levels : Lines Bool) : SerialPortWrapper :=
  { s with
    lost := s.writer.toList ++ s.lost
    writer := some { levels := levels }
    isConnected := true
    supervisor := .reading }.applyLineLevelsForCount policy s.clientCount

/-- `_mark_disconnected`; the `_disconnect` that comes after the read loop does nothing then. -/
def markDisconnected (s : SerialPortWrapper) (ended : Bool) : SerialPortWrapper :=
  { s with
    isConnected := false
    writer := s.writer.map fun t => if ended then { t with closed := true, serial := false } else t
    supervisor := .waiting }

/-- `_disconnect` of a connected port, up to `wait_closed`. -/
def beginDisconnect (s : SerialPortWrapper) : SerialPortWrapper :=
  { s with writer := s.writer.map fun t => { t with closed := true }, supervisor := .closing }

/-- `_reset_signal_lines_sync`. -/
def resetSignalLinesSync (policy : Lines LinePolicy) (s : SerialPortWrapper) : SerialPortWrapper :=
  (s.applyLine .dtr (resolveLinePolicy policy.dtr).1).applyLine .rts (resolveLinePolicy policy.rts).1

/-- The end of `_disconnect`. -/
def finishDisconnect (policy : Lines LinePolicy) (s : SerialPortWrapper) : SerialPortWrapper :=
  let s := s.resetSignalLinesSync policy
  { s with
    driven := ⟨none, none⟩
    isConnected := false
    lost := s.writer.toList ++ s.lost
    writer := none
    supervisor := if s.autoReconnect then .waiting else .done }

/-- The transport that is closed has ended. -/
def endTransport (s : SerialPortWrapper) : SerialPortWrapper :=
  { s with writer := s.writer.map fun t => { t with serial := false } }

/-- `stop`; the cancellation ends the wait of the supervisor, that for the end of a transport too. -/
def stop (policy : Lines LinePolicy) (s : SerialPortWrapper) : SerialPortWrapper :=
  let s := { s with autoReconnect := false }
  match s.supervisor with
  | .waiting | .done => { s with supervisor := .done }
  | .reading => s.beginDisconnect
  | .closing => s.finishDisconnect policy

def step (policy : Lines LinePolicy) (s : SerialPortWrapper) : WrapperAct → Option SerialPortWrapper
  | .connect levels => if s.supervisor = .waiting then some (s.connect policy levels) else none
  | .connectFails => if s.supervisor = .waiting then some s else none
  | .clients count => some (s.onClientCountChanged policy count)
  | .drop ended => if s.supervisor = .reading then some (s.markDisconnected ended) else none
  | .disconnect => if s.supervisor = .reading then some s.beginDisconnect else none
  | .closed => if s.supervisor = .closing then some (s.endTransport.finishDisconnect policy) else none
  | .stop => some (s.stop policy)

/-- All that the port has opened. -/
def transports (s : SerialPortWrapper) : List Transport := s.writer.toList ++ s.lost

/-- Of the handles that are open. -/
def openCount (s : SerialPortWrapper) : ℕ := s.transports.countP (!·.closed)

/-- The managed lines of the open device hold the level for the clients, the unmanaged ones were never driven, and at most one handle is
open, none after a stop. -/
structure Right (policy : Lines LinePolicy) (s : SerialPortWrapper) : Prop where
  levels : s.isConnected → ∀ t ∈ s.writer, t.closed = false → ∀ line level, lineLevel policy s.clientCount line = some level →
    t.levels.get line = level
  untouched : ∀ t ∈ s.transports, ∀ line, resolveLinePolicy (policy.get line) = (none, none) → t.touched.get line = false
  handles : s.openCount ≤ 1
  released : s.supervisor = .done → s.openCount = 0

/-- No handle is left open when the device is opened again or the supervisor is stopped between two attempts, and a line whose level is
remembered as the one that is due has it on the device that opens. -/
def Clean (policy : Lines LinePolicy) (s : SerialPortWrapper) : WrapperAct → Prop
  | .connect levels => (∀ t ∈ s.writer, t.closed = true) ∧
      ∀ line, ∀ level ∈ lineLevel policy s.clientCount line, s.driven.get line = some level → levels.get line = level
  | .stop => s.supervisor = .waiting → ∀ t ∈ s.writer, t.closed = true
  | _ => True

end SerialPortWrapper

end OpenMux.Serial
